import Socks5d.Connection.Log
import Socks5d.Lib.History
import Socks5d.Runs

/-!
# The origin socket and the reply

A reply that reports success is put in the write buffer once the origin socket
was found connected, and exactly one reply is put there before REQUEST_WRITE.
A retry that fails at once breaks this: `request_connecting` drops the state
that `request_connect` returned, so the connection stays in REQUEST_CONNECTING
with a reply in the buffer and waits for the client instead of the origin.
-/

namespace Socks5d

open Lib (Justified)

def Socks5.Retries (s : Socks5) (io : Io) : Prop :=
  s.stm = some .requestConnecting ∧ io.sockError ≠ none ∧ io.sockError ≠ some 0 ∧
    s.request.parser.request.destAddrType = socksReqAddrtypeDomain ∧
    2 ≤ s.originResolutionCurrent.length

def Io.Pends (io : Io) : Prop :=
  ∃ n ∈ io.socket, io.nio = false ∨ (io.connect = some einprogress ∧ n < fdSetSize)

/-- A retry does not fail at once. -/
def RetriesPend : World.Condition := fun _ s ce =>
  match ce with
  | .ready _ _ io => s.Retries io → io.Pends
  | .resolved _ _ => True

def Replies (originFd : Int) (past : List Action) : Action → Prop
  | .enter _ .requestWrite => marshalled past = 1
  | .marshall .succeeded => .socket originFd ∈ past ∧ .sockError originFd (some 0) ∈ past
  | _ => True

theorem replies_of_plain {fd : Int} {past : List Action} {a : Action} (hj : a.isJump = false)
    (hm : a.isMarshall = false) : Replies fd past a := by
  cases a <;> trivial

theorem replies_marshall {fd : Int} {past : List Action} {status : SocksStatus}
    (h : status ≠ .succeeded) : Replies fd past (.marshall status) := by
  cases status <;> trivial

theorem replies_enter {fd : Int} {past : List Action} {old : Option SocksState} {next : SocksState}
    (h : next = .requestWrite → marshalled past = 1) : Replies fd past (.enter old next) := by
  cases next <;> first | trivial | exact h rfl

theorem marshalled_eq_zero {l : List Action} :
    marshalled l = 0 ↔ ∀ a ∈ l, a.isMarshall = false := by
  unfold marshalled
  rw [List.countP_eq_zero]
  simp

theorem justified_of_unanswered {fd fd' : Int} {l : List Action} (h : Justified (Replies fd) l)
    (hl : marshalled l = 0) : Justified (Replies fd') l := by
  intro past a rest heq
  have hmem : a ∈ l := heq ▸ List.mem_append_right _ List.mem_cons_self
  have hm := marshalled_eq_zero.mp hl a hmem
  have ha := h past a rest heq
  cases a with
  | marshall status => cases hm
  | enter old next => cases next <;> exact ha
  | _ => trivial

namespace View

variable {v v' : View} {io : Io} {c : ConnId}

def Unanswered (v : View) : SocksState → Prop
  | .requestConnecting => marshalled v.s.log = 0 ∧ v.client.wants true = false
  | .requestWrite | .copy | .done | .error => True
  | _ => marshalled v.s.log = 0

/-- The origin socket was opened for this connection, and the replies are as
they should be. -/
structure Sound (v : View) : Prop where
  origin : v.s.originFd = -1 ∨ (v.s.originFd ≠ v.s.clientFd ∧ .socket v.s.originFd ∈ v.s.log)
  log : Justified (Replies v.s.originFd) v.s.log

theorem advance_fds (v : View) (next : SocksState) : (v.advance next).client = v.client ∧
    (v.advance next).s.clientFd = v.s.clientFd ∧ (v.advance next).s.originFd = v.s.originFd := by
  unfold advance
  split
  · exact ⟨rfl, rfl, rfl⟩
  · cases next <;> exact ⟨rfl, rfl, rfl⟩

theorem Unanswered.advance {next : SocksState} (h : v.Unanswered next) :
    (v.advance next).Unanswered next := by
  have hlog := marshalled_advance v next
  have hclient := (advance_fds v next).1
  cases next <;> simp only [Unanswered, hlog, hclient] at h ⊢ <;> exact h

theorem Sound.advance {next : SocksState} (h : v.Sound)
    (henter : v.s.stm ≠ some next → next = .requestWrite → marshalled v.s.log = 1) :
    (v.advance next).Sound := by
  obtain ⟨-, hclient, horigin⟩ := advance_fds v next
  refine ⟨?_, ?_⟩
  · rw [hclient, horigin]
    exact h.origin.imp_right fun ⟨hne, hmem⟩ => ⟨hne, (advance_grows v next).subset hmem⟩
  · rw [horigin, advance_log]
    split
    · exact h.log
    · refine Justified.append (h.log.concat (replies_enter (henter ‹_›))) fun a ha _ => ?_
      split at ha
      · obtain rfl := List.mem_singleton.mp ha
        trivial
      · cases ha

theorem Sound.of_plain (h : v.Sound) (hclient : v'.s.clientFd = v.s.clientFd)
    (horigin : v'.s.originFd = v.s.originFd) (hlogs : Logs v.s.log v'.s.log)
    (hm : marshalled v'.s.log = marshalled v.s.log) : v'.Sound := by
  obtain ⟨lines, hlines, hjump⟩ := hlogs
  refine ⟨?_, ?_⟩
  · rw [hclient, horigin, hlines]
    exact h.origin.imp_right fun ⟨hne, hmem⟩ => ⟨hne, List.mem_append_left _ hmem⟩
  · rw [horigin, hlines]
    have hzero : marshalled lines = 0 := by
      rw [hlines, marshalled_append] at hm
      omega
    exact h.log.append fun a ha _ => replies_of_plain (hjump a ha) (marshalled_eq_zero.mp hzero a ha)

/-- A connection attempt: it is pending, or its reply is in the buffer. -/
theorem Connect.sound {ret : SocksState} (h : Connect io v v' ret) (hp : v.Poised)
    (hlog : Justified (Replies v.s.originFd) v.s.log) (hm : marshalled v.s.log = 0)
    (hclient : v.client.wants true = false) :
    v'.Sound ∧ ((ret = .requestWrite ∧ marshalled v'.s.log = 1) ∨
      (ret = .requestConnecting ∧ v'.Unanswered .requestConnecting)) := by
  have hfd := hp.body.clientFd
  have hany (fd : Int) : Justified (Replies fd) v.s.log := justified_of_unanswered hlog hm
  cases h with
  | noSocket hio hwb =>
    refine ⟨⟨.inl rfl, ?_⟩, .inl ⟨rfl, ?_⟩⟩
    · exact ((hany _).concat (by trivial)).concat (replies_marshall (by decide))
    · simp [replied, socketed, hm, Action.isMarshall]
  | @noNio n hio hn hnio =>
    refine ⟨⟨.inr ⟨?_, ?_⟩, ?_⟩, .inr ⟨rfl, ?_, hclient⟩⟩
    · show (n : Int) ≠ v.s.clientFd
      rw [hfd]
      exact_mod_cast hn
    · exact List.mem_append_right _ (List.mem_singleton.mpr rfl)
    · exact (hany _).concat (by trivial)
    · simp [socketed, hm, Action.isMarshall]
  | failed hio hn hnio hconnect hzero herrno hwb =>
    refine ⟨⟨.inl rfl, ?_⟩, .inl ⟨rfl, ?_⟩⟩
    · exact (((hany _).concat (by trivial)).concat (by trivial)).concat
        (replies_marshall (errnoToSocks_ne_succeeded hzero))
    · simp [replied, gaveUp, hm, Action.isMarshall]
  | unregistered hio hn hnio hconnect hlarge hwb =>
    refine ⟨⟨.inl rfl, ?_⟩, .inl ⟨rfl, ?_⟩⟩
    · exact (((hany _).concat (by trivial)).concat (by trivial)).concat (replies_marshall hp.status)
    · simp [replied, gaveUp, hm, Action.isMarshall]
  | @pending n hio hn hnio hconnect hlarge =>
    refine ⟨⟨.inr ⟨?_, ?_⟩, ?_⟩, .inr ⟨rfl, ?_, rfl⟩⟩
    · show (n : Int) ≠ v.s.clientFd
      rw [hfd]
      exact_mod_cast hn
    · exact List.mem_append_left _ (List.mem_append_right _ (List.mem_singleton.mpr rfl))
    · exact ((hany _).concat (by trivial)).concat (by trivial)
    · simp [hm, Action.isMarshall]

theorem Connect.pends {ret : SocksState} (h : Connect io v v' ret) (hio : io.Pends) :
    ret = .requestConnecting := by
  obtain ⟨n, hsocket, hrest⟩ := hio
  have hsocket : io.socket = some n := hsocket
  cases h with
  | noSocket hnone =>
    rw [hnone] at hsocket
    cases hsocket
  | noNio => rfl
  | failed _ _ hnio hconnect _ herrno =>
    rcases hrest with hrest | ⟨hrest, -⟩
    · rw [hnio] at hrest
      cases hrest
    · rw [hconnect, Option.some.injEq] at hrest
      exact absurd hrest herrno
  | unregistered hs _ hnio _ hlarge =>
    rw [hs, Option.some.injEq] at hsocket
    rcases hrest with hrest | ⟨-, hlt⟩
    · rw [hnio] at hrest
      cases hrest
    · omega
  | pending => rfl

structure Bound (v : View) (next : SocksState) : Prop where
  sound : v.Sound
  unanswered : v.Unanswered next
  once : v.s.stm ≠ some next → next = .requestWrite → marshalled v.s.log = 1

theorem Bound.advance {next : SocksState} (h : v.Bound next) :
    (v.advance next).Sound ∧ (v.advance next).Unanswered next :=
  ⟨h.sound.advance h.once, h.unanswered.advance⟩

theorem Connect.bound {ret : SocksState} (h : Connect io v v' ret) (hp : v.Poised)
    (hlog : Justified (Replies v.s.originFd) v.s.log) (hm : marshalled v.s.log = 0)
    (hclient : v.client.wants true = false) : v'.Bound ret := by
  obtain ⟨hsound, ⟨rfl, hone⟩ | ⟨rfl, hun⟩⟩ := h.sound hp hlog hm hclient
  · exact ⟨hsound, trivial, fun _ _ => hone⟩
  · exact ⟨hsound, hun, fun _ h => by cases h⟩

/-- In REQUEST_CONNECTING an event comes from the pending origin socket. -/
theorem Shape.enabled_origin (hs : v.Shape c) (hst : v.s.stm = some .requestConnecting)
    (hun : v.Unanswered .requestConnecting) {fd : Nat} (hen : v.Enabled fd true) :
    fd ≠ v.fd ∧ v.s.originFd = fd := by
  rcases (hs.phase_of hst).1.enabled hen with ⟨-, hw, -⟩ | ⟨hne, hfd, -, -, -, ho⟩
  · rw [hun.2] at hw
    cases hw
  · exact ⟨hne, by rw [ho, hfd]⟩

/-- `request_connecting` ends with a reply; it is a success only when the pending
socket, which is the origin's, has no error. -/
theorem Sound.concluded (hv : v.Sound) {fd : Nat} (ho : v.s.originFd = fd)
    (hlog : marshalled v.s.log = 0) {status : SocksStatus} {wb : Buffer}
    (hstatus : (io.sockError = none ∧ status = .generalSocksServerFailure) ∨
      (io.sockError = some 0 ∧ status = .succeeded) ∨
      ∃ e, io.sockError = some e ∧ e ≠ 0 ∧ status = errnoToSocks e ∧
        (v.s.request.parser.request.destAddrType = socksReqAddrtypeDomain →
          ∃ a, v.s.originResolutionCurrent = [a])) :
    ((v.noted (.sockError fd io.sockError)).concluded fd status wb).Bound .requestWrite := by
  obtain ⟨hne, hsocket⟩ := hv.origin.resolve_left (by rw [ho]; omega)
  have hsame : ((v.noted (.sockError fd io.sockError)).concluded fd status wb).s.originFd =
      v.s.originFd := by
    show (if status = .succeeded then (fd : Int) else v.s.originFd) = v.s.originFd
    rw [← ho, ite_self]
  -- the log up to the reply
  have hbefore : Justified (Replies v.s.originFd) (v.s.log ++ [.sockError fd io.sockError] ++
      if v.s.request.parser.request.destAddrType = socksReqAddrtypeDomain then
        [.freeaddrinfo v.s.originResolution] else []) := by
    refine Justified.append (hv.log.concat (by trivial)) fun a ha _ => ?_
    split at ha
    · obtain rfl := List.mem_singleton.mp ha
      trivial
    · cases ha
  have hreply : Replies v.s.originFd (v.s.log ++ [.sockError fd io.sockError] ++
      if v.s.request.parser.request.destAddrType = socksReqAddrtypeDomain then
        [.freeaddrinfo v.s.originResolution] else []) (.marshall status) := by
    rcases hstatus with ⟨-, rfl⟩ | ⟨herr, rfl⟩ | ⟨e, -, he, rfl, -⟩
    · trivial
    · rw [List.append_assoc, herr, ho]
      exact ⟨List.mem_append_left _ (ho ▸ hsocket), List.mem_append_right _ List.mem_cons_self⟩
    · exact replies_marshall (errnoToSocks_ne_succeeded he)
  refine ⟨⟨.inr ?_, ?_⟩, trivial, fun _ _ => ?_⟩
  · rw [hsame]
    refine ⟨hne, ?_⟩
    simp only [View.concluded, noted, List.append_assoc]
    exact List.mem_append_left _ hsocket
  · rw [hsame]
    exact hbefore.concat hreply
  · by_cases htype : v.s.request.parser.request.destAddrType = socksReqAddrtypeDomain <;>
      simp [View.concluded, noted, hlog, htype, Action.isMarshall]

theorem Outcome.no_reply {fd : Nat} {write : Bool} {ret : SocksState}
    (h : Outcome io c v fd write v' ret) (hread : v.s.stm ≠ some .requestRead)
    (hconnecting : v.s.stm ≠ some .requestConnecting) :
    v'.s.clientFd = v.s.clientFd ∧ v'.s.originFd = v.s.originFd ∧
      marshalled v'.s.log = marshalled v.s.log := by
  cases h with
  | requestMore hst | requestDone hst => exact absurd hst hread
  | concluded hst | retried hst => exact absurd hst hconnecting
  | copyReceived hst hr hne hb v₁ h₁ =>
    subst h₁
    refine ⟨(setRb_fds ..).1, (setRb_fds ..).2, ?_⟩
    show marshalled (Socks5.log (Socks5.setRb _ _ _)) = _
    rw [setRb_log]
    simp [noted, Action.isMarshall]
  | copyEnded | copyFailed =>
    refine ⟨(shut_fds ..).1, (shut_fds ..).2, ?_⟩
    show marshalled (View.shut _ _ _).s.log = _
    rw [shut_log]
    simp [noted, Action.isMarshall]
  | copySent hst hsend hb v₁ v₂ h₁ h₂ =>
    subst h₁ h₂
    obtain ⟨dp, lines, heq, hl⟩ := disected_eq (v.noted _) _ _
    have hzero : marshalled lines = 0 := marshalled_eq_zero.mpr fun a ha => by
      obtain ⟨user, pass, uname, type, addr, origin, rfl⟩ := hl a ha
      rfl
    rw [heq]
    refine ⟨(setRb_fds ..).1, (setRb_fds ..).2, ?_⟩
    show marshalled (Socks5.log (Socks5.setRb _ _ _)) = _
    rw [setRb_log]
    simp [noted, hzero, Action.isMarshall]
  | _ => exact ⟨rfl, rfl, by simp [noted, received, sent, relaying, logged, Action.isMarshall]⟩

/-- A handler that puts no reply goes to a state that waits for none, or stays. -/
theorem Outcome.unanswered {fd : Nat} {write : Bool} {ret : SocksState}
    (h : Outcome io c v fd write v' ret) (hread : v.s.stm ≠ some .requestRead)
    (hconnecting : v.s.stm ≠ some .requestConnecting)
    (hun : v.Unanswered (v.s.stm.getD .helloRead)) :
    v'.Unanswered ret ∧ (ret = .requestWrite → v.s.stm = some ret) := by
  obtain ⟨-, -, hm⟩ := h.no_reply hread hconnecting
  cases h with
  | recvFailed | sendFailed | authRejected | replySent | replyRefused => exact ⟨trivial, by simp⟩
  | helloMore hst | helloPart hst | authMore hst | authPart hst | authSent hst =>
    rw [hst] at hun
    exact ⟨hm.trans hun, by simp⟩
  | helloDone hst | authDone hst =>
    rw [hst] at hun
    split
    · exact ⟨trivial, by simp⟩
    · exact ⟨hm.trans hun, by simp⟩
  | helloSent hst =>
    rw [hst] at hun
    split <;> exact ⟨hm.trans hun, by simp⟩
  | requestMore hst | requestDone hst => exact absurd hst hread
  | concluded hst | retried hst => exact absurd hst hconnecting
  | replyPart hst => exact ⟨trivial, fun _ => hst⟩
  | copyReceived | copyEnded | copySent | copyFailed =>
    unfold copyNext
    split <;> exact ⟨trivial, by simp⟩

theorem Sound.bound (hv : v.Sound) {ret : SocksState} (hlogs : Logs v.s.log v'.s.log)
    (hstm : v'.s.stm = v.s.stm)
    (hsame : v'.s.clientFd = v.s.clientFd ∧ v'.s.originFd = v.s.originFd ∧
      marshalled v'.s.log = marshalled v.s.log)
    (hnext : v'.Unanswered ret ∧ (ret = .requestWrite → v.s.stm = some ret)) : v'.Bound ret :=
  ⟨hv.of_plain hsame.1 hsame.2.1 hlogs hsame.2.2, hnext.1,
    fun hne hw => absurd (hstm.trans (hnext.2 hw)) hne⟩

theorem Outcome.bound_requestRead {fd : Nat} {write : Bool} {ret : SocksState}
    (h : Outcome io c v fd write v' ret) (hs : v.Shape c) (hst : v.s.stm = some .requestRead)
    (hv : v.Sound) (hlog : marshalled v.s.log = 0) : v'.Bound ret := by
  have hlogs := h.logs
  have hstm := h.stm
  cases h with
  | recvFailed =>
    exact hv.bound hlogs hstm ⟨rfl, rfl, by simp [noted, Action.isMarshall]⟩ ⟨trivial, by simp⟩
  | requestMore =>
    refine hv.bound hlogs hstm ⟨rfl, rfl, by simp [received, Action.isMarshall]⟩ ⟨?_, ?_⟩
    · split
      · trivial
      · simp [Unanswered, received, hlog, Action.isMarshall]
    · split <;> simp
  | @requestDone bytes rb rb' p v' ret _ hr hc hdone hprocess =>
    obtain ⟨hclient, halone, -, ht, hstatus⟩ := hs.phase_of hst
    have hjust : Justified (Replies v.s.originFd)
        (v.s.log ++ [.recv v.fd (some bytes)] ++ [.requestProcess p.request]) :=
      (hv.log.concat (by trivial)).concat (by trivial)
    cases hprocess with
    | refused hne hwb =>
      refine ⟨⟨.inl halone.2, hjust.concat (replies_marshall hne)⟩, trivial, fun _ _ => ?_⟩
      simp [replied, received, hlog, Action.isMarshall]
    | resolve htype =>
      exact hv.bound hlogs hstm ⟨rfl, rfl, by simp [received, Action.isMarshall]⟩
        ⟨by simp [Unanswered, received, hlog, Action.isMarshall], by simp⟩
    | connect htype hconnect =>
      have hb := hs.body.requested hr hc
      refine hconnect.bound ⟨?_, ⟨_, hclient⟩, halone.1, ht, hstatus, fun h => absurd h htype⟩
        hjust ?_ ?_
      · exact hb.congr rfl rfl rfl rfl rfl rfl rfl rfl
      · simp [received, hlog, Action.isMarshall]
      · show v.client.wants true = false
        rw [hclient]
        rfl
  | _ => simp_all

theorem Outcome.bound_connecting {fd : Nat} {write : Bool} {ret : SocksState}
    (h : Outcome io c v fd write v' ret) (hs : v.Shape c) (hen : v.Enabled fd write)
    (hst : v.s.stm = some .requestConnecting) (hv : v.Sound)
    (hun : v.Unanswered .requestConnecting) (hcond : v.s.Retries io → io.Pends) : v'.Bound ret := by
  cases h with
  | concluded _ hstatus hwb =>
    obtain ⟨hne, ho⟩ := hs.enabled_origin hst hun hen
    exact hv.concluded ho hun.1 hstatus
  | @retried fd e a₀ a rest v' ret' _ herr he htype hcur hconnect =>
    have hret : ret' = .requestConnecting := by
      refine hconnect.pends (hcond ⟨hst, by simp [herr], by simpa [herr] using he, htype, ?_⟩)
      simp [hcur]
    subst hret
    refine hconnect.bound (hs.poised_retry hst _ _ _) (hv.log.concat (by trivial)) ?_ hun.2
    simp [dropPeer, aimed, noted, hun.1, Action.isMarshall]
  | _ => simp_all

theorem Outcome.bound {fd : Nat} {write : Bool} {ret : SocksState}
    (h : Outcome io c v fd write v' ret) (hs : v.Shape c) (hen : v.Enabled fd write)
    (hv : v.Sound) (hun : v.Unanswered (v.s.stm.getD .helloRead))
    (hcond : v.s.Retries io → io.Pends) : v'.Bound ret := by
  by_cases hread : v.s.stm = some .requestRead
  · rw [hread] at hun
    exact h.bound_requestRead hs hread hv hun
  by_cases hconnecting : v.s.stm = some .requestConnecting
  · rw [hconnecting] at hun
    exact h.bound_connecting hs hen hconnecting hv hun hcond
  exact hv.bound h.logs h.stm (h.no_reply hread hconnecting) (h.unanswered hread hconnecting hun)

theorem Resolved.bound {answer : Option (List AddrInfo)} {ret : SocksState}
    (h : Resolved io (v.answered answer) v' ret) (hs : v.Shape c)
    (hst : v.s.stm = some .requestResolv) (hv : v.Sound) (hlog : marshalled v.s.log = 0) :
    v'.Bound ret := by
  obtain ⟨hclient, halone, -⟩ := hs.phase_of hst
  have hjust : Justified (Replies v.s.originFd) (v.answered answer).s.log :=
    hv.log.concat (by trivial)
  cases h with
  | unreachable hlist hwb =>
    refine ⟨⟨.inl halone.2, hjust.concat (by trivial)⟩, trivial, fun _ _ => ?_⟩
    simp [replied, answered, hlog, Action.isMarshall]
  | connect hlist hconnect =>
    refine hconnect.bound (hs.poised_resolved hst _ _ _) hjust ?_ ?_
    · simp [aimed, answered, hlog, Action.isMarshall]
    · show v.client.wants true = false
      rw [hclient]
      rfl

end View

namespace World

open View

theorem sound_rules : Rules RetriesPend (fun _ => True)
    fun _ v => v.Sound ∧ v.Unanswered (v.s.stm.getD .helloRead) where
  start {c v fd write io} hs hst hi _ _ := by
    rw [advance_stm]
    rw [hst] at hi
    exact ⟨Bound.advance ⟨hi.1, hi.2, fun _ h => by cases h⟩, trivial⟩
  outcome {c v fd write io v₁ ret} hs hen hi _ hcond hout := by
    rw [advance_stm]
    refine ⟨(hout.bound hs hen hi.1 hi.2 fun hretry => ?_).advance, trivial⟩
    exact hcond.resolve_left (by simp [hretry.1]) hretry
  resolved {c v answer io v₁ ret} hs hst hi _ _ hres := by
    rw [advance_stm]
    rw [hst] at hi
    exact ⟨(hres.bound hs hst hi.1 hi.2).advance, trivial⟩
  ended {c v} hi := by
    refine ⟨⟨hi.1.origin, hi.1.log⟩, ?_⟩
    show v.ended.Unanswered (v.s.stm.getD .helloRead)
    have hun := hi.2
    cases hst : v.s.stm.getD .helloRead <;> rw [hst] at hun
    case requestConnecting => exact ⟨hun.1, rfl⟩
    all_goals exact hun
  frame {c v} g hi _ := by
    refine ⟨⟨hi.1.origin, hi.1.log⟩, ?_⟩
    show View.Unanswered _ (v.s.stm.getD .helloRead)
    have hun := hi.2
    cases hst : v.s.stm.getD .helloRead <;> rw [hst] at hun <;> exact hun
  fresh addr _ := ⟨⟨.inl rfl, Lib.justified_nil⟩, rfl⟩
  turnedAway addr _ := ⟨⟨.inl rfl, Lib.justified_nil⟩, rfl⟩

/-- A success reply means a connected origin: in every run in which no retry
fails at once, the origin socket of a connection was opened for it and is not
its client's, REQUEST_WRITE is entered after exactly one reply was put in the
buffer, and a reply of success is put there after the origin socket was found
without error. -/
theorem success_connected {w₀ w : World} (h₀ : w₀.Initial) (h : Runs RetriesPend w₀ w) {c : ConnId}
    {conn : Conn} (hc : w.conns c = some conn) :
    (conn.s.originFd = -1 ∨
      (conn.s.originFd ≠ conn.s.clientFd ∧ .socket conn.s.originFd ∈ conn.s.log)) ∧
    (∀ past old rest, conn.s.log = past ++ .enter old .requestWrite :: rest →
      marshalled past = 1) ∧
    ∀ past rest, conn.s.log = past ++ .marshall .succeeded :: rest →
      .socket conn.s.originFd ∈ past ∧ .sockError conn.s.originFd (some 0) ∈ past := by
  have hcarries := reaches_carries sound_rules.kept ⟨fun _ _ h => h, fun _ _ h => h⟩ h₀ trivial h
  obtain ⟨v, hv, -, hsound, -⟩ := hcarries.view hc
  rw [hv.conn] at hc
  cases hc
  exact ⟨hsound.origin, fun past old rest heq => hsound.log past _ rest heq,
    fun past rest heq => hsound.log past _ rest heq⟩

instance (s : Socks5) (io : Io) : Decidable (s.Retries io) :=
  inferInstanceAs (Decidable (_ ∧ _ ∧ _ ∧ _ ∧ _))

instance (io : Io) : Decidable io.Pends :=
  inferInstanceAs (Decidable (∃ n, n ∈ io.socket ∧ _))

instance (g : Globals) (s : Socks5) (ce : ConnEvent) : Decidable (RetriesPend g s ce) :=
  match ce with
  | .ready _ _ _ => inferInstanceAs (Decidable (_ → _))
  | .resolved _ _ => inferInstanceAs (Decidable True)

/-- A client asks for a name with two addresses. The first one is refused late,
and the attempt with the second one gets `connect`; then `fd` is ready. -/
def secondAddress (connect fd : Nat) : List Event :=
  [.accept 3 { answer := some (4, {}) },
   .ready 4 false { recv := some [5, 1, 0] },
   .ready 4 true { send := some 2 },
   .ready 4 false { recv := some [5, 1, 0, 3, 1, 97, 0, 80] },
   .resolved ⟨4, 0⟩ (some [⟨afInet, {}⟩, ⟨afInet, {}⟩])
     { socket := some 5, connect := some einprogress },
   .ready 5 true { sockError := some econnrefused, socket := some 5, connect := some connect },
   .ready fd true { sockError := some 0 }]

/-- When the second one is refused at once the client becomes its own origin. -/
theorem success_unconnected : ∃ w conn, Reachable (startUp {}) w ∧ w.conns 0 = some conn ∧
    conn.s.originFd = conn.s.clientFd := by
  have hrun : Lib.endsIn (fun w => (w.conns 0).any fun conn => conn.s.originFd = conn.s.clientFd)
      (play (Meets anyEvent) (startUp {}) (secondAddress econnrefused 4)) = true := by decide +kernel
  obtain ⟨w, hplay, hsame⟩ := Lib.endsIn_iff.mp hrun
  obtain ⟨conn, hc, hsame⟩ := (Option.any_eq_true ..).mp hsame
  exact ⟨w, conn, Lib.reaches_of_play hplay, hc, of_decide_eq_true hsame⟩

/-- When it is accepted late, success is reported for a socket without error. -/
theorem success_second : ∃ w conn, Runs RetriesPend (startUp {}) w ∧ w.conns 0 = some conn ∧
    .marshall .succeeded ∈ conn.s.log ∧ .sockError conn.s.originFd (some 0) ∈ conn.s.log := by
  have hrun : Lib.endsIn (fun w => (w.conns 0).any fun conn => .marshall .succeeded ∈ conn.s.log)
      (play (Meets RetriesPend) (startUp {}) (secondAddress einprogress 5)) = true := by decide +kernel
  obtain ⟨w, hplay, hmem⟩ := Lib.endsIn_iff.mp hrun
  obtain ⟨conn, hc, hmem⟩ := (Option.any_eq_true ..).mp hmem
  have hmem := of_decide_eq_true hmem
  have hruns := Lib.reaches_of_play hplay
  refine ⟨w, conn, hruns, hc, hmem, ?_⟩
  obtain ⟨past, rest, hsplit⟩ := List.append_of_mem hmem
  obtain ⟨-, -, hsuccess⟩ := success_connected (startUp_initial (by decide)) hruns hc
  rw [hsplit]
  exact List.mem_append_left _ (hsuccess past rest hsplit).2

end World

end Socks5d
