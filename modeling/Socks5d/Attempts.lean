import Socks5d.Connection.Log
import Socks5d.Runs

/-!
# The addresses of a name

A request for a name is tried with one address of the list after the other. The
loop is spread over events: the first attempt is made when the name is resolved,
a next one when a pending attempt is found to have failed. An attempt that fails
at once ends it, or leaves the connection without a pending attempt, so the loop
does what it should only for attempts that fail late.
-/

namespace Socks5d

/-- What becomes of an attempt: `connect` fails at once, or `SO_ERROR` tells of a
failure later, or the connection is made. -/
inductive Attempt
  | refused (errno : Nat) (h : errno ≠ 0 ∧ errno ≠ einprogress)
  | failed (error : Nat) (h : error ≠ 0)
  | accepted

namespace Attempt

def connect : Attempt → Nat
  | .refused errno _ => errno
  | _ => einprogress

def sockError : Attempt → Nat
  | .failed error _ => error
  | _ => 0

def isRefused : Attempt → Bool
  | .refused _ _ => true
  | _ => false

def isAccepted : Attempt → Bool
  | .accepted => true
  | _ => false

theorem connect_ne_zero (a : Attempt) : a.connect ≠ 0 := by
  cases a with
  | refused errno h => exact h.1
  | _ => simp [connect, einprogress]

theorem refused_of_isRefused {a : Attempt} (h : a.isRefused = true) :
    a.isAccepted = false ∧ ∃ errno hr, a = .refused errno hr := by
  cases a with
  | refused errno hr => exact ⟨rfl, errno, hr, rfl⟩
  | _ => cases h

theorem isAccepted_iff {a : Attempt} (h : a.isRefused = false) :
    a.isAccepted = true ↔ a.sockError = 0 := by
  cases a with
  | refused => cases h
  | failed error hne => exact iff_of_false Bool.false_ne_true hne
  | accepted => exact iff_of_true rfl rfl

theorem connect_of_not_refused {a : Attempt} (h : a.isRefused = false) : a.connect = einprogress := by
  cases a with
  | refused => cases h
  | _ => rfl

end Attempt

/-- An address, the descriptor that `socket` gives for it and what becomes of
the attempt. -/
structure Candidate where
  info : AddrInfo
  fd : Nat
  attempt : Attempt

namespace Candidate

def addr (o : Candidate) : SockAddr := o.info.addr

def answers (last next : Option Candidate) : Io where
  sockError := last.map (·.attempt.sockError)
  socket := next.map (·.fd)
  connect := some ((next.map (·.attempt.connect)).getD einprogress)

/-- The candidates up to the first that is accepted. -/
def due : List Candidate → List Candidate
  | [] => []
  | o :: rest => if o.attempt.isAccepted then [o] else o :: due rest

theorem due_cons_accepted {o : Candidate} (h : o.attempt.isAccepted = true) (rest : List Candidate) :
    due (o :: rest) = [o] := by simp [due, h]

theorem due_cons_failed {o : Candidate} (h : o.attempt.isAccepted = false) (rest : List Candidate) :
    due (o :: rest) = o :: due rest := by simp [due, h]

theorem due_append {done : List Candidate} (h : ∀ o ∈ done, o.attempt.isAccepted = false)
    (rest : List Candidate) : due (done ++ rest) = done ++ due rest := by
  induction done with
  | nil => rfl
  | cons o done ih =>
    rw [List.cons_append, due_cons_failed (h o List.mem_cons_self),
      ih fun o' ho' => h o' (List.mem_cons_of_mem o ho')]
    rfl

theorem due_subset (cs : List Candidate) : due cs ⊆ cs := by
  induction cs with
  | nil => exact List.Subset.refl _
  | cons o rest ih =>
    unfold due
    split
    · exact List.cons_subset_cons o (List.nil_subset rest)
    · exact List.cons_subset_cons o ih

end Candidate

def attemptsIn (log : List Action) : List SockAddr :=
  log.filterMap fun
    | .connect _ addr _ => some addr
    | _ => none

def repliesIn (log : List Action) : List SocksStatus :=
  log.filterMap fun
    | .marshall status => some status
    | _ => none

@[simp] theorem attemptsIn_append (l l' : List Action) :
    attemptsIn (l ++ l') = attemptsIn l ++ attemptsIn l' := List.filterMap_append

@[simp] theorem repliesIn_append (l l' : List Action) :
    repliesIn (l ++ l') = repliesIn l ++ repliesIn l' := List.filterMap_append

structure Tally (base : Nat) (log : List Action) (addrs : List SockAddr)
    (replies : List SocksStatus) : Prop where
  le : base ≤ log.length
  attempts : attemptsIn (log.drop base) = addrs
  replies : repliesIn (log.drop base) = replies

theorem Tally.append {base : Nat} {log : List Action} {addrs : List SockAddr}
    {replies : List SocksStatus} (h : Tally base log addrs replies) (lines : List Action) :
    Tally base (log ++ lines) (addrs ++ attemptsIn lines) (replies ++ repliesIn lines) := by
  refine ⟨?_, ?_, ?_⟩
  · rw [List.length_append]
    exact Nat.le_add_right_of_le h.le
  · rw [List.drop_append_of_le_length h.le, attemptsIn_append, h.attempts]
  · rw [List.drop_append_of_le_length h.le, repliesIn_append, h.replies]

theorem Tally.of_eq {base : Nat} {log log' : List Action} {addrs addrs' : List SockAddr}
    {replies replies' : List SocksStatus} (h : Tally base log addrs replies) (hl : log' = log)
    (ha : addrs' = addrs) (hr : replies' = replies) : Tally base log' addrs' replies' := by
  subst hl ha hr
  exact h

namespace View

variable {v v' : View} {io : Io} {c : ConnId}

theorem Outcome.of_connecting {fd : Nat} {write : Bool} {ret : SocksState}
    (h : Outcome io c v fd write v' ret) (hst : v.s.stm = some .requestConnecting) :
    (∃ status wb, ((io.sockError = none ∧ status = .generalSocksServerFailure) ∨
        (io.sockError = some 0 ∧ status = .succeeded) ∨
        ∃ e, io.sockError = some e ∧ e ≠ 0 ∧ status = errnoToSocks e ∧
          (v.s.request.parser.request.destAddrType = socksReqAddrtypeDomain →
            ∃ a, v.s.originResolutionCurrent = [a])) ∧
      v' = (v.noted (.sockError fd io.sockError)).concluded fd status wb ∧ ret = .requestWrite) ∨
    ∃ e a₀ a rest ret', io.sockError = some e ∧ e ≠ 0 ∧
      v.s.originResolutionCurrent = a₀ :: a :: rest ∧ ret = .requestConnecting ∧
      Connect io (((v.noted (.sockError fd io.sockError)).aimed (a :: rest) a).dropPeer) v' ret' := by
  cases h with
  | concluded _ hstatus hwb => exact .inl ⟨_, _, hstatus, rfl, rfl⟩
  | retried _ herr he htype hcur hconnect =>
    exact .inr ⟨_, _, _, _, _, herr, he, hcur, rfl, hconnect⟩
  | recvFailed hst' =>
    rcases hst' with h | h | h <;> rw [hst] at h <;> cases h
  | sendFailed hst' =>
    rcases hst' with h | h | h <;> rw [hst] at h <;> cases h
  | _ => simp_all

theorem Connect.of_pending {ret : SocksState} {n : Nat} (h : Connect io v v' ret)
    (hsocket : io.socket = some n) (hnio : io.nio = true) (hconnect : io.connect = some einprogress)
    (hn : n < fdSetSize) : ret = .requestConnecting ∧ v' = { v with
      client := .watched opNoop
      peerFd := n
      peer := .watched opWrite
      s := { v.s with
        originFd := n
        references := v.s.references + 1
        log := v.s.log ++ [.socket n] ++ [.connect n v.s.originAddr (some einprogress)] } } := by
  cases h with
  | noSocket hnone => simp [hsocket] at hnone
  | noNio _ _ hno => simp [hnio] at hno
  | failed _ _ _ hc _ herrno =>
    rw [hconnect, Option.some.injEq] at hc
    exact absurd hc.symm herrno
  | unregistered hs _ _ _ hlarge =>
    rw [hsocket, Option.some.injEq] at hs
    omega
  | pending hs =>
    rw [hsocket, Option.some.injEq] at hs
    subst hs
    exact ⟨rfl, rfl⟩

theorem Connect.of_refused {ret : SocksState} {n errno : Nat} (h : Connect io v v' ret)
    (hsocket : io.socket = some n) (hnio : io.nio = true) (hconnect : io.connect = some errno)
    (herrno : errno ≠ einprogress) : ret = .requestWrite ∧ errno ≠ 0 ∧
      ∃ wb, v' = (v.gaveUp n errno).replied (errnoToSocks errno) wb := by
  cases h with
  | noSocket hnone => simp [hsocket] at hnone
  | noNio _ _ hno => simp [hnio] at hno
  | failed hs _ _ hc hzero _ hwb =>
    rw [hsocket, Option.some.injEq] at hs
    rw [hconnect, Option.some.injEq] at hc
    subst hs hc
    exact ⟨rfl, hzero, _, rfl⟩
  | unregistered _ _ _ hc =>
    rw [hconnect, Option.some.injEq] at hc
    exact absurd hc herrno
  | pending _ _ _ hc =>
    rw [hconnect, Option.some.injEq] at hc
    exact absurd hc herrno

end View

namespace World

open Candidate (answers due)

def isConnecting (w : World) (c : ConnId) : Bool :=
  (w.conns c).any fun conn => conn.s.stm = some .requestConnecting

def attend (c : ConnId) (w : World) : List Candidate → List World
  | [] => [w]
  | o :: rest =>
    w :: if w.isConnecting c then
      match w.step (.ready o.fd true (answers (some o) rest.head?)) with
      | some (.ok w') => attend c w' rest
      | _ => []
    else []

def attempts (w : World) (key : Key) (cs : List Candidate) : List World :=
  match w.step (.resolved key (some (cs.map (·.info))) (answers none cs.head?)) with
  | some (.ok w') => attend key.conn w' cs
  | _ => []

def Awaits (w : World) (c : ConnId) (s : Socks5) : Prop :=
  ∃ (fd : Nat) (item : _), s.originFd = fd ∧ w.target fd true = some item ∧ item.data = some c

/-- A state on the way: the addresses are tried in the order of the list, no
further than the first that is accepted, a failure is reported only when all of
them were tried and failed, and in REQUEST_CONNECTING an attempt is pending. -/
def OnTheWay (w : World) (c : ConnId) (base : Nat) (cs : List Candidate) : Prop :=
  ∃ s, w.conns c = some ⟨s, true⟩ ∧
    attemptsIn (s.log.drop base) <+: (due cs).map (·.addr) ∧
    (∀ status ∈ repliesIn (s.log.drop base), status ≠ .succeeded →
      (∀ o ∈ cs, o.attempt.isAccepted = false) ∧
        attemptsIn (s.log.drop base) = cs.map (·.addr)) ∧
    (s.stm = some .requestConnecting → w.Awaits c s)

/-- The end: one reply, which tells whether an address was accepted. -/
def Answered (w : World) (c : ConnId) (base : Nat) (cs : List Candidate) : Prop :=
  ∃ s status, w.conns c = some ⟨s, true⟩ ∧ s.stm = some .requestWrite ∧
    attemptsIn (s.log.drop base) = (due cs).map (·.addr) ∧
    repliesIn (s.log.drop base) = [status] ∧
    (status = .succeeded ↔ ∃ o ∈ cs, o.attempt.isAccepted = true)

/-- All states are on the way and the last one is the end. -/
def Exhausts (c : ConnId) (base : Nat) (cs : List Candidate) (run : List World) : Prop :=
  (∀ w ∈ run, w.OnTheWay c base cs) ∧ ∃ w, run.getLast? = some w ∧ w.Answered c base cs

theorem exhausts_cons {c : ConnId} {base : Nat} {cs : List Candidate} {w w' : World}
    {run : List World} (hw : w.OnTheWay c base cs) :
    Exhausts c base cs (w :: w' :: run) ↔ Exhausts c base cs (w' :: run) := by
  simp only [Exhausts, List.mem_cons, forall_eq_or_imp, List.getLast?_cons_cons]
  constructor
  · rintro ⟨⟨-, hall⟩, hlast⟩
    exact ⟨hall, hlast⟩
  · rintro ⟨hall, hlast⟩
    exact ⟨⟨hw, hall⟩, hlast⟩

theorem attend_eq (c : ConnId) (w : World) (cs : List Candidate) :
    ∃ run, attend c w cs = w :: run := by
  cases cs with
  | nil => exact ⟨[], rfl⟩
  | cons o rest => exact ⟨_, rfl⟩

theorem attend_answered {c : ConnId} {w : World} (h : w.isConnecting c = false) (cs : List Candidate) :
    attend c w cs = [w] := by
  cases cs with
  | nil => rfl
  | cons o rest => simp [attend, h]

def Grants (w : World) (c : ConnId) (clientFd n : Nat) : Prop :=
  n < fdSetSize ∧ n ≠ clientFd ∧ ∀ owner, w.files n = some owner → owner = .conn c

theorem Grants.of_sameOthers {w w' : World} {c : ConnId} {fd n : Nat} (h : w.Grants c fd n)
    (hs : SameOthers c w w') : w'.Grants c fd n := by
  refine ⟨h.1, h.2.1, fun owner hf => ?_⟩
  by_contra hne
  exact hne (h.2.2 owner ((hs.files n owner hne).mp hf))

theorem Shows.grants {w : World} {c : ConnId} {v : View} (hv : w.Shows c v) (hw : w.Wired)
    (hs : v.Shape c) {n : Nat} (hlt : n < fdSetSize) (hfile : w.files n = none) :
    w.Grants c v.fd n := by
  refine ⟨hlt, fun heq => ?_, fun owner hf => by simp [hfile] at hf⟩
  obtain ⟨i, hi⟩ := hs.client
  have hrel : Rel w c w v := ⟨hw, hv, .refl c w⟩
  have hopen := hrel.file_of_link (n := v.fd) (by simp [View.link, hi])
  rw [heq, hopen] at hfile
  cases hfile

theorem Delivered.no_fault {w : World} {c : ConnId} {v : View} {ce : ConnEvent}
    {last next : Option Candidate} {r : Except Fault World}
    (h : Delivered w c v ce (answers last next) true r) (hroom : 10 ≤ v.s.writeBuffer.space)
    (hnext : ∀ o ∈ next, w.Grants c v.fd o.fd) :
    ∃ w' v', r = .ok w' ∧ View.Step c v ce v' ∧ Rel w c w' v' := by
  cases h with
  | ok hstep hrel => exact ⟨_, _, rfl, hstep, hrel⟩
  | error hf =>
    exfalso
    rcases hf with (⟨-, hnone | ⟨-, hw | hlt⟩⟩ | ⟨-, hz | hs⟩) | ⟨-, n, owner, hs, hfile, hne⟩
    · cases hnone
    · cases hw
    · omega
    · cases next with
      | none => simp [answers, einprogress] at hz
      | some o => exact o.attempt.connect_ne_zero (by simpa [answers] using hz)
    · cases next with
      | none => cases hs
      | some o => exact (hnext o rfl).2.1 (by simpa [answers] using hs)
    · cases next with
      | none => cases hs
      | some o =>
        obtain rfl : o.fd = n := by simpa [answers] using hs
        exact hne ((hnext o rfl).2.2 owner hfile)

structure Waiting (w : World) (c : ConnId) (base : Nat) (tried : List Candidate) (o : Candidate)
    (rest : List Candidate) (v : View) : Prop where
  wired : w.Wired
  shows : w.Shows c v
  shape : v.Shape c
  stm : v.s.stm = some .requestConnecting
  peer : v.peer = .watched opWrite
  peerFd : v.peerFd = o.fd
  type : v.s.request.parser.request.destAddrType = socksReqAddrtypeDomain
  current : v.s.originResolutionCurrent = (o :: rest).map (·.info)
  room : 10 ≤ v.s.writeBuffer.space
  grants : ∀ o' ∈ rest, w.Grants c v.fd o'.fd
  since : Tally base v.s.log ((tried ++ [o]).map (·.addr)) []

section

variable {w : World} {c : ConnId} {base : Nat} {cs tried rest : List Candidate} {o : Candidate}
  {v : View}

theorem Waiting.originFd (h : w.Waiting c base tried o rest v) : v.s.originFd = o.fd := by
  obtain ⟨⟨-, -, ho⟩ | ⟨-, ha, -⟩ | ⟨-, hp, -⟩, -⟩ := h.shape.phase_of h.stm
  · rw [ho, h.peerFd]
  · rw [h.peer] at ha
    cases ha
  · rw [h.peer] at hp
    cases hp

theorem Waiting.link (h : w.Waiting c base tried o rest v) : v.link o.fd = .watched opWrite := by
  have hne : v.peerFd ≠ v.fd := h.shape.body.peer_ne (by simp [h.peer])
  unfold View.link
  rw [← h.peerFd, if_neg hne, if_pos rfl, h.peer]

theorem Waiting.onTheWay (h : w.Waiting c base tried o rest v) (hcs : cs = tried ++ o :: rest)
    (hfail : ∀ o' ∈ tried, o'.attempt.isAccepted = false) : w.OnTheWay c base cs := by
  have hrel : Rel w c w v := ⟨h.wired, h.shows, .refl c w⟩
  refine ⟨v.s, ?_, ?_, ?_, fun _ => ?_⟩
  · rw [h.shows.conn, h.shape.body.live]
  · rw [h.since.attempts, hcs, Candidate.due_append hfail, List.map_append, List.map_append]
    refine (List.prefix_append_right_inj _).mpr ?_
    unfold Candidate.due
    split
    · exact List.prefix_rfl
    · exact List.prefix_append [o.addr] _
  · simp [h.since.replies]
  · obtain ⟨item, hentry, -, hd, hi⟩ := hrel.entry_watched h.link
    exact ⟨o.fd, item, h.originFd, target_iff.mpr ⟨hentry, by rw [hi]; rfl⟩, hd⟩

theorem Waiting.step (h : w.Waiting c base tried o rest v) : ∃ w' v₁ ret,
    attend c w (o :: rest) = w :: attend c w' rest ∧ Rel w c w' (v₁.settle ret) ∧
    View.Outcome (answers (some o) rest.head?) c v o.fd true v₁ ret := by
  have hen : v.Enabled o.fd true := by
    unfold View.Enabled
    rw [h.link]
    rfl
  obtain ⟨r, hr, hd⟩ := h.shows.ready h.wired h.shape hen (answers (some o) rest.head?)
  obtain ⟨w', v', rfl, hstep, hrel⟩ := hd.no_fault h.room fun o' ho' =>
    h.grants o' (List.mem_of_mem_head? ho')
  have hconn : w.isConnecting c = true := by
    simp [isConnecting, h.shows.conn, h.stm]
  cases hstep with
  | @ready fd write io v₁ ret hen hout =>
    have hstarted : v.started = v := if_neg (by simp [h.stm])
    rw [hstarted] at hout
    refine ⟨w', v₁, ret, ?_, hrel, hout⟩
    simp only [attend, hconn, ↓reduceIte, hr]

theorem exhausts_answered {w' : World} {s : Socks5} {status : SocksStatus}
    (hconn : w'.conns c = some ⟨s, true⟩) (hst : s.stm = some .requestWrite)
    (hsince : Tally base s.log ((due cs).map (·.addr)) [status])
    (hstatus : status = .succeeded ↔ ∃ o ∈ cs, o.attempt.isAccepted = true)
    (hall : status ≠ .succeeded → due cs = cs) (rest : List Candidate) :
    Exhausts c base cs (attend c w' rest) := by
  have hdone : w'.isConnecting c = false := by simp [isConnecting, hconn, hst]
  rw [attend_answered hdone]
  refine ⟨fun w hw => ?_, w', rfl, s, status, hconn, hst, hsince.attempts, hsince.replies, hstatus⟩
  obtain rfl := List.mem_singleton.mp hw
  refine ⟨s, hconn, ?_, fun status' hmem hne => ?_, fun h => ?_⟩
  · exact hsince.attempts ▸ List.prefix_rfl
  · rw [hsince.replies, List.mem_singleton] at hmem
    subst hmem
    refine ⟨fun o ho => ?_, by rw [hsince.attempts, hall hne]⟩
    cases ha : o.attempt.isAccepted with
    | false => rfl
    | true => exact absurd (hstatus.mpr ⟨o, ho, ha⟩) hne
  · rw [hst] at h
    cases h

theorem since_requestWrite {w' : World} {addrs : List SockAddr} {replies : List SocksStatus}
    (hrel : Rel w c w' (v.settle .requestWrite)) (hlive : v.live = true)
    (hst : v.s.stm ≠ some .requestWrite) (h : Tally base v.s.log addrs replies) :
    ∃ s, w'.conns c = some ⟨s, true⟩ ∧ s.stm = some .requestWrite ∧
      Tally base s.log addrs replies := by
  have hsettle : v.settle .requestWrite = v.enter .requestWrite := by
    simp [View.settle, View.advance, hst, View.arrive]
  rw [hsettle] at hrel
  refine ⟨(v.enter .requestWrite).s, hlive ▸ hrel.shows.conn, rfl, ?_⟩
  exact (h.append _).of_eq rfl (List.append_nil _).symm (List.append_nil _).symm

theorem Waiting.concluded (h : w.Waiting c base tried o rest v) {w' : World} {io : Io}
    {status : SocksStatus} {wb : Buffer}
    (hrel : Rel w c w' (((v.noted (.sockError o.fd io.sockError)).concluded o.fd status wb).settle
      .requestWrite)) :
    ∃ s, w'.conns c = some ⟨s, true⟩ ∧ s.stm = some .requestWrite ∧
      Tally base s.log ((tried ++ [o]).map (·.addr)) [status] := by
  refine since_requestWrite hrel h.shape.body.live (by simp [View.concluded, View.noted, h.stm]) ?_
  refine (h.since.append [.sockError o.fd io.sockError, .freeaddrinfo v.s.originResolution,
    .marshall status]).of_eq ?_ ?_ ?_
  · simp [View.concluded, View.noted, h.type]
  · simp [attemptsIn]
  · simp [repliesIn]

theorem not_onTheWay {w' : World} {s : Socks5} (hconn : w'.conns c = some ⟨s, true⟩)
    (hst : s.stm = some .requestConnecting) (ho : s.originFd = -1) : ¬ w'.OnTheWay c base cs := by
  rintro ⟨s', hconn', -, -, hawaits⟩
  rw [hconn] at hconn'
  cases hconn'
  obtain ⟨fd, -, hfd, -⟩ := hawaits hst
  rw [ho] at hfd
  omega

theorem Waiting.ends (h : w.Waiting c base tried o rest v) (hcs : cs = tried ++ o :: rest)
    (hfail : ∀ o' ∈ tried, o'.attempt.isAccepted = false) (ho : o.attempt.isRefused = false)
    (hend : o.attempt.isAccepted = true ∨ rest = []) {w' : World} {v₁ : View} {ret : SocksState}
    (hrel : Rel w c w' (v₁.settle ret))
    (hout : View.Outcome (answers (some o) rest.head?) c v o.fd true v₁ ret) :
    Exhausts c base cs (attend c w' rest) := by
  have hdue : due cs = tried ++ [o] := by
    rw [hcs, Candidate.due_append hfail]
    cases hacc : o.attempt.isAccepted with
    | true => rw [Candidate.due_cons_accepted hacc]
    | false =>
      rw [Candidate.due_cons_failed hacc, hend.resolve_left (by simp [hacc])]
      rfl
  have herr : (answers (some o) rest.head?).sockError = some o.attempt.sockError := rfl
  rcases hout.of_connecting h.stm with ⟨status, wb, hstatus, rfl, rfl⟩ |
    ⟨e, a₀, a, as, ret', he, hne, hcur, -, -⟩
  · obtain ⟨s, hconn, hst, hsince⟩ := h.concluded hrel
    have hiff : status = .succeeded ↔ o.attempt.isAccepted = true := by
      rcases hstatus with ⟨hnone, -⟩ | ⟨hzero, rfl⟩ | ⟨e, he, hne, rfl, -⟩
      · cases hnone
      · rw [herr, Option.some.injEq] at hzero
        exact iff_of_true rfl ((Attempt.isAccepted_iff ho).mpr hzero)
      · rw [herr, Option.some.injEq] at he
        refine iff_of_false (errnoToSocks_ne_succeeded hne) fun hacc => hne ?_
        exact he.symm.trans ((Attempt.isAccepted_iff ho).mp hacc)
    refine exhausts_answered hconn hst (hdue ▸ hsince) ?_ (fun hne => ?_) rest
    · rw [hiff, hcs]
      constructor
      · exact fun hacc => ⟨o, by simp, hacc⟩
      · rintro ⟨o', ho', hacc⟩
        rcases List.mem_append.mp ho' with ho' | ho'
        · rw [hfail o' ho'] at hacc
          cases hacc
        · rcases List.mem_cons.mp ho' with rfl | ho'
          · exact hacc
          · rcases hend with hend | hend
            · exact hend
            · rw [hend] at ho'
              cases ho'
    · have hlast : rest = [] := hend.resolve_left fun hacc => hne (hiff.mpr hacc)
      rw [hdue, hcs, hlast]
  · -- no address is left for a retry
    rcases hend with hacc | rfl
    · rw [herr, Option.some.injEq] at he
      exact absurd (he.symm.trans ((Attempt.isAccepted_iff ho).mp hacc)) hne
    · rw [h.current] at hcur
      cases hcur

theorem first_attempt (hs : v.Shape c) (hst : v.s.stm = some .requestResolv)
    (htype : v.s.request.parser.request.destAddrType = socksReqAddrtypeDomain)
    (hgrants : ∀ o' ∈ o :: rest, w.Grants c v.fd o'.fd) {w' : World} {v₁ : View} {ret : SocksState}
    (hrel : Rel w c w' (v₁.settle ret)) (hnext : (v₁.settle ret).Shape c ∨ (v₁.settle ret).Ended)
    (hconnect : View.Connect (answers none (some o))
      ((v.answered (some ((o :: rest).map (·.info)))).aimed ((o :: rest).map (·.info)) o.info) v₁ ret) :
    (o.attempt.isRefused = false ∧ ∃ v', w'.Waiting c v.s.log.length [] o rest v') ∨
      (o.attempt.isRefused = true ∧ ∃ errno s, errno ≠ 0 ∧ w'.conns c = some ⟨s, true⟩ ∧
        s.stm = some .requestWrite ∧ Tally v.s.log.length s.log [o.addr] [errnoToSocks errno]) := by
  obtain ⟨-, -, hempty, -⟩ := hs.phase_of hst
  have hlive : v.live = true := hs.body.live
  have hstart : Tally v.s.log.length v.s.log [] [] :=
    ⟨Nat.le_refl _, by simp [attemptsIn], by simp [repliesIn]⟩
  have hstm : v₁.s.stm = some .requestResolv := hconnect.stm.trans hst
  cases hkind : o.attempt.isRefused with
  | false =>
    obtain ⟨rfl, hv₁⟩ := hconnect.of_pending rfl rfl
      (congrArg some (Attempt.connect_of_not_refused hkind)) (hgrants o List.mem_cons_self).1
    have hsettle : v₁.settle .requestConnecting = v₁.enter .requestConnecting := by
      simp [View.settle, View.advance, hstm, View.arrive]
    rw [hsettle] at hrel hnext
    subst hv₁
    refine .inl ⟨rfl, _, hrel.wired, hrel.shows, hnext.resolve_right fun he => ?_, rfl, rfl, rfl, htype,
      rfl, ?_, fun o' ho' => ?_, ?_⟩
    · exact Bool.false_ne_true (he.live.symm.trans hlive)
    · show 10 ≤ v.s.writeBuffer.space
      rw [View.space_of_empty hs.body hempty]
      decide
    · exact (hgrants o' (List.mem_cons_of_mem o ho')).of_sameOthers hrel.others
    · refine (hstart.append [.resolved ((o :: rest).map (·.info)), .socket o.fd,
        .connect o.fd o.addr (some einprogress),
        .enter (some .requestResolv) .requestConnecting]).of_eq ?_ ?_ ?_
      · simp [View.enter, View.aimed, View.answered, Candidate.addr, hst]
      · simp [attemptsIn]
      · simp [repliesIn]
  | true =>
    obtain ⟨-, errno, hrefused, hattempt⟩ := Attempt.refused_of_isRefused hkind
    have hio : (answers none (some o)).connect = some errno := by
      simp [answers, hattempt, Attempt.connect]
    obtain ⟨rfl, hzero, wb, hv₁⟩ := hconnect.of_refused rfl rfl hio hrefused.2
    have hsince : Tally v.s.log.length v₁.s.log [o.addr] [errnoToSocks errno] := by
      subst hv₁
      refine (hstart.append [.resolved ((o :: rest).map (·.info)), .socket o.fd,
        .connect o.fd o.addr (some errno), .marshall (errnoToSocks errno)]).of_eq ?_ ?_ ?_
      · simp [View.replied, View.gaveUp, View.aimed, View.answered, Candidate.addr]
      · simp [attemptsIn]
      · simp [repliesIn]
    obtain ⟨s, hconn, hwrite, hsince⟩ := since_requestWrite hrel (by subst hv₁; exact hlive)
      (by rw [hstm]; decide) hsince
    exact .inr ⟨rfl, errno, s, hzero, hconn, hwrite, hsince⟩

theorem Waiting.retries {o' : Candidate} (h : w.Waiting c base tried o (o' :: rest) v)
    (hfailed : o.attempt.isAccepted = false) (ho : o.attempt.isRefused = false) {w' : World}
    {v₁ : View} {ret : SocksState} (hrel : Rel w c w' (v₁.settle ret))
    (hout : View.Outcome (answers (some o) (some o')) c v o.fd true v₁ ret) :
    (o'.attempt.isRefused = false ∧ w'.Waiting c base (tried ++ [o]) o' rest v₁) ∨
      (o'.attempt.isRefused = true ∧ ∃ s, w'.conns c = some ⟨s, true⟩ ∧
        s.stm = some .requestConnecting ∧ s.originFd = -1) := by
  have hen : v.Enabled o.fd true := by
    unfold View.Enabled
    rw [h.link]
    rfl
  have herr : ∃ e, (answers (some o) (some o')).sockError = some e ∧ e ≠ 0 := by
    refine ⟨o.attempt.sockError, rfl, fun hzero => ?_⟩
    rw [(Attempt.isAccepted_iff ho).mpr hzero] at hfailed
    cases hfailed
  obtain ⟨e, herr, hne⟩ := herr
  rcases hout.of_connecting h.stm with ⟨status, wb, hstatus, -, -⟩ |
    ⟨e', a₀, a, as, ret', -, -, hcur, rfl, hconnect⟩
  · exfalso
    rw [herr] at hstatus
    rcases hstatus with ⟨hnone, -⟩ | ⟨hzero, -⟩ | ⟨-, -, -, -, hone⟩
    · cases hnone
    · exact hne (Option.some.inj hzero)
    · obtain ⟨a, ha⟩ := hone h.type
      rw [h.current] at ha
      cases ha
  · rw [h.current] at hcur
    obtain ⟨rfl, rfl, rfl⟩ : o.info = a₀ ∧ o'.info = a ∧ rest.map (·.info) = as := by
      simpa using hcur
    obtain ⟨hlt, -, -⟩ := h.grants o' List.mem_cons_self
    have hstm : v₁.s.stm = some .requestConnecting := hout.stm.trans h.stm
    have hadvance : v₁.advance .requestConnecting = v₁ := if_pos hstm
    have hsettle : v₁.settle .requestConnecting = v₁ := by simp [View.settle, hadvance]
    rw [hsettle] at hrel
    obtain ⟨hbody, hphase⟩ := hout.shape h.shape hen
    rw [hadvance] at hphase
    have hshape : v₁.Shape c := ⟨hbody, by rw [hstm]; exact hphase, by simp [hstm]⟩
    cases hkind : o'.attempt.isRefused with
    | false =>
      obtain ⟨-, rfl⟩ := hconnect.of_pending rfl rfl
        (congrArg some (Attempt.connect_of_not_refused hkind)) hlt
      refine .inl ⟨rfl, hrel.wired, hrel.shows, hshape, hstm, rfl, rfl, h.type, rfl, h.room,
        fun o'' ho'' => ?_, ?_⟩
      · exact (h.grants o'' (List.mem_cons_of_mem _ ho'')).of_sameOthers hrel.others
      · refine (h.since.append [.sockError o.fd (some e), .socket o'.fd,
          .connect o'.fd o'.addr (some einprogress)]).of_eq ?_ ?_ ?_
        · rw [herr]
          simp [View.dropPeer, View.aimed, View.noted, Candidate.addr]
        · simp [attemptsIn]
        · simp [repliesIn]
    | true =>
      obtain ⟨-, errno, hrefused, hattempt⟩ := Attempt.refused_of_isRefused hkind
      have hio : (answers (some o) (some o')).connect = some errno := by
        simp [answers, hattempt, Attempt.connect]
      obtain ⟨-, -, wb, rfl⟩ := hconnect.of_refused rfl rfl hio hrefused.2
      exact .inr ⟨rfl, _, hbody.live ▸ hrel.shows.conn, hstm, rfl⟩

/-- From a pending attempt on, the addresses are used up unless one of those that
are due fails at once. -/
theorem Waiting.exhausts_iff (h : w.Waiting c base tried o rest v) (hcs : cs = tried ++ o :: rest)
    (hfail : ∀ o' ∈ tried, o'.attempt.isAccepted = false) (ho : o.attempt.isRefused = false) :
    Exhausts c base cs (attend c w (o :: rest)) ↔
      ∀ o' ∈ due (o :: rest), o'.attempt.isRefused = false := by
  -- along the addresses that are left
  induction rest generalizing w v tried o with
  | nil =>
    obtain ⟨w', v₁, ret, hattend, hrel, hout⟩ := h.step
    obtain ⟨run, hrun⟩ := attend_eq c w' []
    rw [hattend, hrun, exhausts_cons (h.onTheWay hcs hfail), ← hrun]
    refine iff_of_true (h.ends hcs hfail ho (.inr rfl) hrel hout) fun o' ho' => ?_
    rw [List.mem_singleton.mp (Candidate.due_subset _ ho')]
    exact ho
  | cons o' rest ih =>
    obtain ⟨w', v₁, ret, hattend, hrel, hout⟩ := h.step
    obtain ⟨run, hrun⟩ := attend_eq c w' (o' :: rest)
    rw [hattend, hrun, exhausts_cons (h.onTheWay hcs hfail), ← hrun]
    cases hacc : o.attempt.isAccepted with
    | true =>
      refine iff_of_true (h.ends hcs hfail ho (.inl hacc) hrel hout) fun o'' ho'' => ?_
      rw [Candidate.due_cons_accepted hacc, List.mem_singleton] at ho''
      rw [ho'']
      exact ho
    | false =>
      have hhead : o' ∈ due (o' :: rest) := by
        unfold Candidate.due
        split <;> exact List.mem_cons_self
      rw [Candidate.due_cons_failed hacc, List.forall_mem_cons, and_iff_right ho]
      rcases h.retries hacc ho hrel hout with ⟨ho', hnext⟩ | ⟨ho', s, hconn, hst, horigin⟩
      · refine ih hnext (by rw [hcs]; simp) (fun o'' ho'' => ?_) ho'
        rcases List.mem_append.mp ho'' with hmem | hmem
        · exact hfail o'' hmem
        · rw [List.mem_singleton.mp hmem]
          exact hacc
      · refine iff_of_false (fun hex => ?_) fun hall => ?_
        · exact not_onTheWay hconn hst horigin (hex.1 w' (hrun ▸ List.mem_cons_self))
        · rw [hall o' hhead] at ho'
          cases ho'

end

theorem exhausts_refused {c : ConnId} {base errno : Nat} {o : Candidate} {rest : List Candidate}
    {w : World} {s : Socks5} (ho : o.attempt.isRefused = true) (hzero : errno ≠ 0)
    (hconn : w.conns c = some ⟨s, true⟩) (hst : s.stm = some .requestWrite)
    (hsince : Tally base s.log [o.addr] [errnoToSocks errno]) :
    Exhausts c base (o :: rest) (attend c w (o :: rest)) ↔
      (o :: rest).length = 1 ∨ ∀ o' ∈ due (o :: rest), o'.attempt.isRefused = false := by
  have hacc : o.attempt.isAccepted = false := (Attempt.refused_of_isRefused ho).1
  have hne := errnoToSocks_ne_succeeded hzero
  cases rest with
  | nil =>
    have hdue : due [o] = [o] := Candidate.due_cons_failed hacc []
    have hsince' : Tally base s.log ((due [o]).map (·.addr)) [errnoToSocks errno] := by
      rw [hdue]
      exact hsince
    refine iff_of_true (exhausts_answered hconn hst hsince' ?_ (fun _ => hdue) _) (.inl rfl)
    simp [hne, hacc]
  | cons o' rest =>
    refine iff_of_false (fun hex => ?_) ?_
    · -- one address was tried, and there are more
      obtain ⟨run, hrun⟩ := attend_eq c w (o :: o' :: rest)
      obtain ⟨s', hconn', -, hreport, -⟩ := hex.1 w (hrun ▸ List.mem_cons_self)
      rw [hconn] at hconn'
      cases hconn'
      have hall := (hreport _ (by rw [hsince.replies]; exact List.mem_singleton.mpr rfl) hne).2
      rw [hsince.attempts] at hall
      cases hall
    · rintro (hone | hall)
      · cases hone
      · rw [hall o (by rw [Candidate.due_cons_failed hacc]; exact List.mem_cons_self)] at ho
        cases ho

/-- A request for a name gives up only when every address failed. In a server
with a connection that waits for its name, the addresses of the list are tried
in order up to the first that is accepted, with an attempt pending all the time,
and a failure is reported only when all of them failed, exactly when there is
only one address or none of those that are due fails at once. -/
theorem attempts_exhaust_iff {w₀ w : World} (h₀ : w₀.Initial) (h : Reachable w₀ w) {c : ConnId}
    {s : Socks5} (hc : w.conns c = some ⟨s, true⟩) (hst : s.stm = some .requestResolv)
    (htype : s.request.parser.request.destAddrType = socksReqAddrtypeDomain)
    {cs : List Candidate} (hne : cs ≠ [])
    (hfds : ∀ o ∈ cs, o.fd < fdSetSize ∧ w.files o.fd = none) :
    Exhausts c s.log.length cs (w.attempts ⟨s.clientFd, c⟩ cs) ↔
      cs.length = 1 ∨ ∀ o ∈ due cs, o.attempt.isRefused = false := by
  have hcarries := h.carries h₀
  obtain ⟨v, hv, rfl, hshape, -⟩ := hcarries.live_view hc
  obtain ⟨-, -, hempty, -⟩ := hshape.phase_of hst
  obtain ⟨o, rest, rfl⟩ := List.exists_cons_of_ne_nil hne
  have hgrants : ∀ o' ∈ o :: rest, w.Grants c v.fd o'.fd := fun o' ho' =>
    hv.grants hcarries.wired hshape (hfds o' ho').1 (hfds o' ho').2
  obtain ⟨r, hr, hd⟩ := hv.resolved hcarries.wired hshape hst (some ((o :: rest).map (·.info)))
    (answers none (some o))
  obtain ⟨w', v', rfl, hstep, hrel⟩ := hd.no_fault
    (by rw [View.space_of_empty hshape.body hempty]; decide) fun o' ho' =>
      hgrants o' (by cases ho'; exact List.mem_cons_self)
  have hrun : w.attempts ⟨v.s.clientFd, c⟩ (o :: rest) = attend c w' (o :: rest) := by
    rw [hshape.body.clientFd]
    simp only [attempts, List.head?_cons, hr]
  rw [hrun]
  have hnext := hstep.shape hshape
  cases hstep with
  | @resolved answer io v₁ ret _ hres =>
    cases hres with
    | unreachable hlist => cases hlist
    | @connect a as _ _ hlist hconnect =>
      obtain ⟨rfl, rfl⟩ : o.info = a ∧ rest.map (·.info) = as := by
        simpa [View.answered] using hlist
      rcases first_attempt hshape hst htype hgrants hrel hnext hconnect with
        ⟨hkind, v', hwaiting⟩ | ⟨hkind, errno, s, hzero, hconn, hwrite, hsince⟩
      · rw [hwaiting.exhausts_iff (List.nil_append _).symm (by simp) hkind]
        refine ⟨.inr, fun hor => hor.elim (fun hone => ?_) id⟩
        obtain rfl : rest = [] := by simpa using hone
        intro o' ho'
        rw [List.mem_singleton.mp (Candidate.due_subset _ ho')]
        exact hkind
      · exact exhausts_refused hkind hzero hconn hwrite hsince

def asksForName : List Event :=
  [.accept 3 { answer := some (4, {}) },
   .ready 4 false { recv := some [5, 1, 0] },
   .ready 4 true { send := some 2 },
   .ready 4 false { recv := some [5, 1, 0, 3, 1, 97, 0, 80] }]

def twoAddresses (first : Attempt) : List Candidate :=
  [⟨⟨afInet, {}⟩, 5, first⟩, ⟨⟨afInet, {}⟩, 5, .accepted⟩]

theorem asksForName_run : ∃ w s, Reachable (startUp {}) w ∧ w.conns 0 = some ⟨s, true⟩ ∧
    s.stm = some .requestResolv ∧
    s.request.parser.request.destAddrType = socksReqAddrtypeDomain ∧ w.files 5 = none ∧
    (w.attempts ⟨s.clientFd, 0⟩ (twoAddresses (.refused econnrefused (by decide)))).any (fun w' =>
      (w'.conns 0).any fun conn => conn.live &&
        decide (repliesIn (conn.s.log.drop s.log.length) = [.connectionRefused])) = true := by
  have hrun : Lib.endsIn (fun w => (w.conns 0).any fun conn => conn.live &&
        decide (conn.s.stm = some .requestResolv ∧
          conn.s.request.parser.request.destAddrType = socksReqAddrtypeDomain ∧ w.files 5 = none) &&
        (w.attempts ⟨conn.s.clientFd, 0⟩ (twoAddresses (.refused econnrefused (by decide)))).any
          (fun w' => (w'.conns 0).any fun conn' => conn'.live &&
            decide (repliesIn (conn'.s.log.drop conn.s.log.length) = [.connectionRefused])))
      (play (Meets anyEvent) (startUp {}) asksForName) = true := by decide +kernel
  obtain ⟨w, hplay, hconn⟩ := Lib.endsIn_iff.mp hrun
  obtain ⟨⟨s, live⟩, hc, hconn⟩ := (Option.any_eq_true ..).mp hconn
  simp only [Bool.and_eq_true, decide_eq_true_eq] at hconn
  obtain ⟨⟨rfl, hst, htype, hfile⟩, hany⟩ := hconn
  exact ⟨w, s, Lib.reaches_of_play hplay, hc, hst, htype, hfile, hany⟩

/-- When the first one is refused at once, the failure is reported although the
second one was not tried. -/
theorem attempts_refused : ∃ w s, Reachable (startUp {}) w ∧ w.conns 0 = some ⟨s, true⟩ ∧
    s.stm = some .requestResolv ∧
    s.request.parser.request.destAddrType = socksReqAddrtypeDomain ∧
    ¬ Exhausts 0 s.log.length (twoAddresses (.refused econnrefused (by decide)))
      (w.attempts ⟨s.clientFd, 0⟩ (twoAddresses (.refused econnrefused (by decide)))) := by
  obtain ⟨w, s, hreach, hc, hst, htype, -, hany⟩ := asksForName_run
  refine ⟨w, s, hreach, hc, hst, htype, fun hex => ?_⟩
  obtain ⟨w', hw', hconn⟩ := List.any_eq_true.mp hany
  obtain ⟨⟨s', live⟩, hc', hconn⟩ := (Option.any_eq_true ..).mp hconn
  simp only [Bool.and_eq_true, decide_eq_true_eq] at hconn
  obtain ⟨rfl, hreplies⟩ := hconn
  obtain ⟨s'', hc'', -, hreport, -⟩ := hex.1 w' hw'
  rw [hc'] at hc''
  cases hc''
  have hnone := (hreport .connectionRefused (by simp [hreplies]) (by decide)).1
  have hlast := hnone ⟨⟨afInet, {}⟩, 5, .accepted⟩ (by simp [twoAddresses])
  cases hlast

/-- When it is refused late, the second one is tried. -/
theorem attempts_failed : ∃ w s, Reachable (startUp {}) w ∧ w.conns 0 = some ⟨s, true⟩ ∧
    Exhausts 0 s.log.length (twoAddresses (.failed econnrefused (by decide)))
      (w.attempts ⟨s.clientFd, 0⟩ (twoAddresses (.failed econnrefused (by decide)))) := by
  obtain ⟨w, s, hreach, hc, hst, htype, hfile, -⟩ := asksForName_run
  refine ⟨w, s, hreach, hc, (attempts_exhaust_iff (startUp_initial (by decide)) hreach hc hst htype
    (by simp [twoAddresses]) (fun o ho => ?_)).mpr (.inr fun o ho => ?_)⟩
  · simp only [twoAddresses, List.mem_cons, List.not_mem_nil, or_false] at ho
    rcases ho with rfl | rfl <;> exact ⟨by show 5 < fdSetSize; decide, hfile⟩
  · have ho := Candidate.due_subset _ ho
    simp only [twoAddresses, List.mem_cons, List.not_mem_nil, or_false] at ho
    rcases ho with rfl | rfl <;> rfl

end World

end Socks5d
