import Socks5d.Handshake
import Socks5d.Runs

/-!
# The handshake and the segments of TCP

A message is looked for only after a `recv` of its own state, so a `recv`
completes at most one message, and one that arrived together with the message
before it waits until more bytes come. Of a client that sends the messages of
the handshake, all of them are processed if and only if they are `Spread` over
the results of `recv`.
-/

namespace Socks5d

open Lib (Completes Spread Reaches)

/-- What a client sends: the messages of the handshake and the data behind
them. It sends its credentials when they are required. -/
structure Script where
  hello : List Byte
  login : List Byte
  credentials : Auth
  request : List Byte
  asked : Request
  data : List Byte
  hello_ok : HelloMessage hello
  login_ok : AuthMessage login credentials
  request_ok : RequestMessage request asked

namespace Script

variable (k : Script) (users : Users) (authOn : Bool)

def stream : List Byte := k.hello ++ (if authOn then k.login else []) ++ k.request ++ k.data

def granted : Bool := (users.authenticate k.credentials).isSome

/-- The messages that count: after credentials that are not accepted the
connection is closed. -/
def messages : List (List Byte) :=
  if authOn then [k.hello, k.login] ++ if k.granted users then [k.request] else []
  else [k.hello, k.request]

/-- The calls of `auth_process` and `request_process` that they lead to. -/
def calls : List Action :=
  if authOn then
    .authProcess users k.credentials (if k.granted users then .succeeded else .failure) ::
      if k.granted users then [.requestProcess k.asked] else []
  else [.requestProcess k.asked]

variable {k users authOn}

theorem stream_eq (k : Script) (users : Users) (authOn : Bool) :
    ∃ after, k.stream authOn = (k.messages users authOn).flatten ++ after := by
  unfold stream messages
  cases authOn with
  | false => exact ⟨k.data, by simp⟩
  | true =>
    cases k.granted users with
    | false => exact ⟨k.request ++ k.data, by simp⟩
    | true => exact ⟨k.data, by simp⟩

theorem length_messages : (k.messages users authOn).length = (k.calls users authOn).length + 1 := by
  unfold messages calls
  cases authOn <;> cases k.granted users <;> rfl

end Script

/-- The users and `is_auth_on` are always the same for a machine that runs. -/
def Fixed (users : Users) (authOn : Bool) : World.Condition := fun g s _ =>
  s.stm ≠ none → g.users = users ∧ g.isAuthOn = authOn

-- ---------------------------------------------------------------------------
-- The states
-- ---------------------------------------------------------------------------

section

variable (k : Script) (users : Users) (authOn : Bool)

structure Stands (s : Socks5) (n : Nat) : Prop where
  count : Completes (k.messages users authOn) (chunksFrom s.clientFd s.log) n
  calls : processed s.log = (k.calls users authOn).take (n - 1)

structure Awaits (s : Socks5) (n : Nat) (m : Lib.Machine σ Byte) (init p : σ) : Prop extends
    Stands k users authOn s n where
  reading : m.Reading init ((k.messages users authOn).take n).flatten
    (chunksFrom s.clientFd s.log).flatten s.readBuffer.content p

structure Rests (s : Socks5) (n : Nat) : Prop extends Stands k users authOn s n where
  rest : (chunksFrom s.clientFd s.log).flatten =
    ((k.messages users authOn).take n).flatten ++ s.readBuffer.content

def Hears (s : Socks5) : Option SocksState → Prop
  | none => Rests k users authOn s 0
  | some .helloRead => Awaits k users authOn s 0 helloFormat (helloParserInit ()) s.hello.format
  | some .helloWrite => Rests k users authOn s 1
  | some .authRead =>
    authOn = true ∧ Awaits k users authOn s 1 authMachine authParserInit s.auth.parser
  | some .authWrite =>
    authOn = true ∧ Rests k users authOn s 2 ∧
      (s.auth.status = .succeeded → k.granted users = true)
  | some .requestRead =>
    (authOn = true → k.granted users = true) ∧
      Awaits k users authOn s (k.calls users authOn).length requestMachine requestParserInit
        s.request.parser
  | some .done | some .error => ∃ n, Stands k users authOn s n
  | some _ => Stands k users authOn s (k.messages users authOn).length

end

variable {k : Script} {users : Users} {authOn : Bool} {s s' : Socks5} {n : Nat}

structure SameHeard (s s' : Socks5) : Prop where
  chunks : chunksFrom s'.clientFd s'.log = chunksFrom s.clientFd s.log
  processed : processed s'.log = processed s.log

theorem Stands.same (h : Stands k users authOn s n) (hs : SameHeard s s') :
    Stands k users authOn s' n :=
  ⟨hs.chunks ▸ h.count, hs.processed ▸ h.calls⟩

theorem Rests.same (h : Rests k users authOn s n) (hs : SameHeard s s')
    (hb : s'.readBuffer = s.readBuffer) : Rests k users authOn s' n :=
  ⟨h.toStands.same hs, by rw [hs.chunks, hb, h.rest]⟩

theorem Awaits.same {m : Lib.Machine σ Byte} {init p : σ} (h : Awaits k users authOn s n m init p)
    (hs : SameHeard s s') (hb : s'.readBuffer = s.readBuffer) :
    Awaits k users authOn s' n m init p :=
  ⟨h.toStands.same hs, by rw [hs.chunks, hb]; exact h.reading⟩

theorem Rests.awaits {m : Lib.Machine σ Byte} {init : σ} (h : Rests k users authOn s n)
    (hinit : m.done init = false) : Awaits k users authOn s n m init init :=
  ⟨h.toStands, .start hinit h.rest⟩

theorem rests_start (hlog : s.log = []) (hn : n = 0) (hb : s.readBuffer.content = []) :
    Rests k users authOn s n := by
  subst hn
  refine ⟨⟨?_, ?_⟩, ?_⟩
  · rw [hlog]
    exact .start
  · rw [hlog]
    rfl
  · rw [hlog, hb]
    rfl

theorem Stands.done (h : Stands k users authOn s (k.messages users authOn).length) {lines : List Action}
    (hlog : s'.log = s.log ++ lines) (hfd : s'.clientFd = s.clientFd)
    (hlines : ∀ a ∈ lines, a.isProcess = false) :
    Stands k users authOn s' (k.messages users authOn).length := by
  have hnone : processed lines = [] := List.filter_eq_nil_iff.mpr fun a ha => by simp [hlines a ha]
  constructor
  · rw [hlog, hfd, chunksFrom_append]
    exact h.count.append _
  · rw [hlog, processed_append, hnone, List.append_nil, h.calls]

theorem Awaits.receive {m : Lib.Machine σ Byte} {init p p' last : σ} {message bytes : List Byte}
    (h : Awaits k users authOn s n m init p) (hinit : m.done init = false)
    (hmessage : (k.messages users authOn)[n]? = some message) (hends : m.Ends init message last)
    (hconsume : m.consume p (s.readBuffer.content ++ bytes) = (p', s'.readBuffer.content))
    (hchunks : chunksFrom s'.clientFd s'.log = chunksFrom s.clientFd s.log ++ [bytes])
    (hstream : receivedFrom s'.clientFd s'.log <+: k.stream authOn) :
    (m.done p' = false ∧
      (processed s'.log = processed s.log → Awaits k users authOn s' n m init p')) ∨
    (p' = last ∧
      (processed s'.log = (k.calls users authOn).take n → Rests k users authOn s' (n + 1))) := by
  obtain ⟨after, hafter⟩ := k.stream_eq users authOn
  rw [receivedFrom_eq, hchunks, hafter] at hstream
  have hnext := h.reading.completes hinit h.count hmessage hends hstream
  rw [hconsume, ← hchunks] at hnext
  rcases hnext with ⟨hgoing, hcount, hreading⟩ | ⟨hlast, hcount, hrest⟩
  · exact .inl ⟨hgoing, fun hp => ⟨⟨hcount, hp.trans h.calls⟩, hreading⟩⟩
  · exact .inr ⟨hlast, fun hp => ⟨⟨hcount, hp⟩, hrest⟩⟩

theorem Hears.same {st : Option SocksState} (h : Hears k users authOn s st) (hs : SameHeard s s')
    (hbuf : s'.readBuffer = s.readBuffer) (hhello : s'.hello = s.hello) (hauth : s'.auth = s.auth)
    (hrequest : s'.request = s.request) : Hears k users authOn s' st := by
  cases st with
  | none => exact Rests.same h hs hbuf
  | some st =>
    cases st with
    | helloRead =>
      unfold Hears
      rw [hhello]
      exact Awaits.same h hs hbuf
    | helloWrite => exact Rests.same h hs hbuf
    | authRead =>
      unfold Hears
      rw [hauth]
      exact ⟨h.1, h.2.same hs hbuf⟩
    | authWrite =>
      unfold Hears
      rw [hauth]
      exact ⟨h.1, h.2.1.same hs hbuf, h.2.2⟩
    | requestRead =>
      unfold Hears
      rw [hrequest]
      exact ⟨h.1, h.2.same hs hbuf⟩
    | done | error =>
      obtain ⟨n, hn⟩ := h
      exact ⟨n, hn.same hs⟩
    | _ => exact Stands.same h hs

theorem Hears.stands {st : Option SocksState} (h : Hears k users authOn s st) :
    ∃ n, Stands k users authOn s n := by
  cases st with
  | none => exact ⟨_, h.toStands⟩
  | some st =>
    cases st with
    | helloRead => exact ⟨_, Awaits.toStands h⟩
    | helloWrite => exact ⟨_, Rests.toStands h⟩
    | authRead => exact ⟨_, h.2.toStands⟩
    | authWrite => exact ⟨_, h.2.1.toStands⟩
    | requestRead => exact ⟨_, h.2.toStands⟩
    | done | error => exact h
    | _ => exact ⟨_, h⟩

namespace View

variable {v v' : View} {io : Io} {c : ConnId}

theorem advance_heard (v : View) (next : SocksState) : SameHeard v.s (v.advance next).s := by
  obtain ⟨hbytes, hfd, -⟩ := advance_same v next
  exact ⟨by rw [hfd, hbytes.chunks], hbytes.processed⟩

theorem advance_readBuffer (v : View) (next : SocksState) :
    (v.advance next).s.readBuffer = v.s.readBuffer := (advance_same v next).2.2.2.1

theorem hears_advance {next : SocksState} (h : Hears k users authOn v.s (some next))
    (hst : v.s.stm = some next ∨ (next ≠ .helloRead ∧ next ≠ .authRead ∧ next ≠ .requestRead)) :
    Hears k users authOn (v.advance next).s (some next) := by
  by_cases hsame : v.s.stm = some next
  · rwa [show v.advance next = v from if_pos hsame]
  · obtain ⟨hhello, hauth, hrequest⟩ := hst.resolve_left hsame
    have hparsers : (v.advance next).s.hello = v.s.hello ∧ (v.advance next).s.auth = v.s.auth ∧
        (v.advance next).s.request = v.s.request := by
      unfold View.advance
      rw [if_neg hsame]
      cases next <;> first | contradiction | exact ⟨rfl, rfl, rfl⟩
    exact h.same (advance_heard v next) (advance_readBuffer v next) hparsers.1 hparsers.2.1
      hparsers.2.2

theorem enter_helloRead (hst : v.s.stm ≠ some .helloRead) (h : Rests k users authOn v.s 0) :
    Hears k users authOn (v.advance .helloRead).s (some .helloRead) := by
  have hrests := h.same (advance_heard v .helloRead) (advance_readBuffer v .helloRead)
  have hparser : (v.advance .helloRead).s.hello.format = helloParserInit () := by
    unfold View.advance
    rw [if_neg hst]
    rfl
  unfold Hears
  rw [hparser]
  exact hrests.awaits rfl

theorem enter_authRead (hon : authOn = true) (hst : v.s.stm ≠ some .authRead)
    (h : Rests k users authOn v.s 1) :
    Hears k users authOn (v.advance .authRead).s (some .authRead) := by
  have hrests := h.same (advance_heard v .authRead) (advance_readBuffer v .authRead)
  have hparser : (v.advance .authRead).s.auth.parser = authParserInit := by
    unfold View.advance
    rw [if_neg hst]
    rfl
  refine ⟨hon, ?_⟩
  rw [hparser]
  exact hrests.awaits rfl

theorem enter_requestRead (hgranted : authOn = true → k.granted users = true)
    (hst : v.s.stm ≠ some .requestRead)
    (h : Rests k users authOn v.s (k.calls users authOn).length) :
    Hears k users authOn (v.advance .requestRead).s (some .requestRead) := by
  have hrests := h.same (advance_heard v .requestRead) (advance_readBuffer v .requestRead)
  have hparser : (v.advance .requestRead).s.request.parser = requestParserInit := by
    unfold View.advance
    rw [if_neg hst]
    rfl
  refine ⟨hgranted, ?_⟩
  rw [hparser]
  exact hrests.awaits rfl

theorem hears_past {st : SocksState} (hst : Past st)
    (h : Stands k users authOn s (k.messages users authOn).length) :
    Hears k users authOn s (some st) := by
  obtain ⟨h₁, h₂, h₃, h₄, h₅⟩ := hst
  cases st <;> first | exact h | exact ⟨_, h⟩ | contradiction

theorem heard_quiet {s s' : Socks5} (hlog : Adds (fun a => a.isQuiet = true) s.log s'.log)
    (hfd : s'.clientFd = s.clientFd) : SameHeard s s' := by
  have hbytes := sameBytes_of_quiet hlog
  exact ⟨by rw [hfd, hbytes.chunks], hbytes.processed⟩

theorem heard_sent (v : View) (n : Nat) (wb : Buffer) : SameHeard v.s (v.sent n wb).s := by
  constructor
  · show chunksFrom v.s.clientFd (v.s.log ++ [.send _ _]) = _
    rw [chunksFrom_append]
    exact List.append_nil _
  · show processed (v.s.log ++ [.send _ _]) = _
    rw [processed_append]
    exact List.append_nil _

theorem chunksFrom_received (hb : v.Body) {bytes : List Byte} (hne : bytes ≠ []) :
    chunksFrom v.s.clientFd (v.s.log ++ [.recv v.fd (some bytes)]) =
      chunksFrom v.s.clientFd v.s.log ++ [bytes] := by
  rw [hb.clientFd, chunksFrom_recv hne]

theorem chunksFrom_message (hb : v.Body) {bytes : List Byte} (hne : bytes ≠ []) {a : Action}
    (ha : chunksFrom v.s.clientFd [a] = []) :
    chunksFrom v.s.clientFd (v.s.log ++ [.recv v.fd (some bytes)] ++ [a]) =
      chunksFrom v.s.clientFd v.s.log ++ [bytes] := by
  rw [chunksFrom_append, chunksFrom_received hb hne, ha, List.append_nil]

theorem processed_recv (log : List Action) (fd : Int) (answer : Option (List Byte)) :
    processed (log ++ [.recv fd answer]) = processed log := by
  rw [processed_append]
  exact List.append_nil _

theorem heard_nothing {answer : Option (List Byte)} (h : answer.getD [] = []) (v : View) :
    SameHeard v.s (v.noted (.recv v.fd answer)).s := by
  refine ⟨?_, processed_recv ..⟩
  show chunksFrom v.s.clientFd (v.s.log ++ [.recv v.fd answer]) = _
  rw [chunksFrom_append]
  cases answer with
  | none => exact List.append_nil _
  | some bytes =>
    obtain rfl : bytes = [] := h
    simp [chunksFrom, Action.chunkFrom]

theorem hears_error {st : Option SocksState} (hv : Hears k users authOn v.s st)
    (hsame : SameHeard v.s v'.s) : Hears k users authOn (v'.advance .error).s (some .error) := by
  obtain ⟨n, hn⟩ := hv.stands
  exact ⟨n, (hn.same hsame).same (advance_heard ..)⟩

theorem messages_hello : (k.messages users authOn)[0]? = some k.hello := by
  unfold Script.messages
  cases authOn <;> rfl

theorem messages_login (hon : authOn = true) : (k.messages users authOn)[1]? = some k.login := by
  subst hon
  rfl

theorem messages_request (h : authOn = true → k.granted users = true) :
    (k.messages users authOn)[(k.calls users authOn).length]? = some k.request := by
  unfold Script.messages Script.calls
  cases authOn with
  | false => rfl
  | true => simp [h rfl]

theorem calls_request (h : authOn = true → k.granted users = true) :
    (k.calls users authOn).take ((k.calls users authOn).length - 1) ++ [.requestProcess k.asked] =
      (k.calls users authOn).take (k.calls users authOn).length := by
  unfold Script.calls
  cases authOn with
  | false => rfl
  | true => simp [h rfl]

theorem Outcome.hears_helloRead {fd : Nat} {write : Bool} {ret : SocksState}
    (h : Outcome io c v fd write v' ret) (hb : v.Body) (hst : v.s.stm = some .helloRead)
    (hv : Hears k users authOn v.s (some .helloRead))
    (hstream : receivedFrom v'.s.clientFd v'.s.log <+: k.stream authOn) :
    Hears k users authOn (v'.advance ret).s (some ret) := by
  obtain ⟨last, hends, herror⟩ := k.hello_ok
  cases h with
  | recvFailed _ hrecv => exact hears_error hv (heard_nothing hrecv v)
  | helloMore _ hr hc hdone =>
    refine hears_advance ?_ (.inl hst)
    rcases Awaits.receive hv rfl messages_hello hends (helloConsume_spec hr.fills hr.ne hc).1
      (chunksFrom_received hb hr.ne) hstream with ⟨-, hawaits⟩ | ⟨hlast, -⟩
    · exact hawaits (processed_recv ..)
    · have hend := hends.done
      rw [← hlast] at hend
      exact absurd (hdone.symm.trans hend) Bool.false_ne_true
  | helloDone _ hr hc hdone hwb =>
    obtain ⟨hconsume, herrored⟩ := helloConsume_spec hr.fills hr.ne hc
    rcases Awaits.receive hv rfl messages_hello hends hconsume
      (chunksFrom_received hb hr.ne) hstream with ⟨hgoing, -⟩ | ⟨hlast, hrests⟩
    · exact absurd (hgoing.symm.trans hdone) Bool.false_ne_true
    · have hok : helloIsError (HelloParser.format _).state = false := hlast ▸ herror
      rw [show _ = false from herrored.trans hok]
      refine hears_advance ?_ (.inr (by simp))
      exact hrests ((processed_recv ..).trans hv.calls)
  | _ => simp_all

theorem Outcome.hears_authRead {fd : Nat} {write : Bool} {ret : SocksState}
    (h : Outcome io c v fd write v' ret) (hb : v.Body) (hst : v.s.stm = some .authRead)
    (husers : v.globals.users = users) (hv : Hears k users authOn v.s (some .authRead))
    (hstream : receivedFrom v'.s.clientFd v'.s.log <+: k.stream authOn) :
    Hears k users authOn (v'.advance ret).s (some ret) := by
  obtain ⟨last, hends, herror, hauth⟩ := k.login_ok
  obtain ⟨hon, hawaits⟩ := id hv
  cases h with
  | recvFailed _ hrecv => exact hears_error hv (heard_nothing hrecv v)
  | authMore _ hr hc hdone =>
    refine hears_advance ⟨hon, ?_⟩ (.inl hst)
    rcases hawaits.receive rfl (messages_login hon) hends (authConsume_spec hr.fills hr.ne hc).1
      (chunksFrom_received hb hr.ne) hstream with ⟨-, hnext⟩ | ⟨hlast, -⟩
    · exact hnext (processed_recv ..)
    · have hend := hends.done
      rw [← hlast] at hend
      exact absurd (hdone.symm.trans hend) Bool.false_ne_true
  | authDone _ hr hc hdone hstatus hwb =>
    obtain ⟨hconsume, herrored⟩ := authConsume_spec hr.fills hr.ne hc
    rcases hawaits.receive rfl (messages_login hon) hends hconsume
      (chunksFrom_message hb hr.ne rfl) hstream with ⟨hgoing, -⟩ | ⟨rfl, hrests⟩
    · exact absurd (hgoing.symm.trans hdone) Bool.false_ne_true
    · rw [show _ = false from herrored.trans herror]
      rw [husers, hauth] at hstatus
      refine hears_advance ⟨hon, hrests ?_, fun hsucc => ?_⟩ (.inr (by simp))
      · show processed (v.s.log ++ [.recv v.fd (some _)] ++ [.authProcess _ _ _]) = _
        rw [processed_append, processed_recv, hawaits.calls, husers, hauth, hstatus, Script.calls,
          if_pos hon]
        rfl
      · by_contra hdenied
        cases (hstatus.trans (if_neg hdenied)).symm.trans hsucc
  | _ => simp_all

theorem Outcome.hears_requestRead {fd : Nat} {write : Bool} {ret : SocksState}
    (h : Outcome io c v fd write v' ret) (hb : v.Body) (hst : v.s.stm = some .requestRead)
    (hv : Hears k users authOn v.s (some .requestRead))
    (hstream : receivedFrom v'.s.clientFd v'.s.log <+: k.stream authOn) :
    Hears k users authOn (v'.advance ret).s (some ret) := by
  obtain ⟨last, hends, herror, hasked⟩ := k.request_ok
  obtain ⟨hgranted, hawaits⟩ := id hv
  cases h with
  | recvFailed _ hrecv => exact hears_error hv (heard_nothing hrecv v)
  | requestMore _ hr hc hdone =>
    obtain ⟨hconsume, rfl⟩ := requestConsume_spec hr.fills hr.ne hc
    rcases hawaits.receive rfl (messages_request hgranted) hends hconsume
      (chunksFrom_received hb hr.ne) hstream with ⟨hgoing, hnext⟩ | ⟨rfl, -⟩
    · have hok : requestIsError _ = false := requestIsError_of_not_done hgoing
      rw [hok]
      exact hears_advance ⟨hgranted, hnext (processed_recv ..)⟩ (.inl hst)
    · have hend := hends.done
      rcases hdone with herr | hdone
      · exact absurd (herror.symm.trans herr) Bool.false_ne_true
      · exact absurd (hdone.symm.trans hend) Bool.false_ne_true
  | requestDone _ hr hc hdone hprocess =>
    obtain ⟨hconsume, -⟩ := requestConsume_spec hr.fills hr.ne hc
    obtain ⟨lines, hlog, hlines⟩ := hprocess.lines
    have hbytes := sameBytes_of_quiet (hprocess.lines.mono fun _ ha => ha.2)
    rw [hprocess.clientFd, hbytes.received] at hstream
    rcases hawaits.receive rfl (messages_request hgranted) hends hconsume
      (chunksFrom_message hb hr.ne rfl) hstream with ⟨hgoing, -⟩ | ⟨rfl, hrests⟩
    · exact absurd (hgoing.symm.trans hdone) Bool.false_ne_true
    · have hstands := hrests (by
        show processed (v.s.log ++ [.recv v.fd (some _)] ++ [.requestProcess _]) = _
        rw [processed_append, processed_recv, hawaits.calls, hasked]
        exact calls_request hgranted) |>.toStands
      rw [← Script.length_messages] at hstands
      have hquiet (a : Action) (ha : a ∈ lines) : a.isProcess = false :=
        isProcess_of_isQuiet (hlines a ha).2
      exact hears_past hprocess.past
        ((hstands.done hlog hprocess.clientFd hquiet).same (advance_heard ..))
  | _ => simp_all

theorem Outcome.hears_past {fd : Nat} {write : Bool} {ret st : SocksState}
    (h : Outcome io c v fd write v' ret) (hst : v.s.stm = some st) (hpast : Past st)
    (hv : Stands k users authOn v.s (k.messages users authOn).length) :
    Hears k users authOn (v'.advance ret).s (some ret) := by
  obtain ⟨lines, hlog, hlines⟩ := h.lines
  have hquiet (a : Action) (ha : a ∈ lines) : a.isProcess = false := by
    refine Bool.eq_false_iff.mpr fun hp => ?_
    rcases (hlines a ha).process hp with hst' | hst' <;> rw [hst, Option.some.injEq] at hst'
    · exact hpast.2.2.1 hst'
    · exact hpast.2.2.2.2 hst'
  have hstands := (hv.done hlog h.clientFd hquiet).same (advance_heard v' ret)
  exact View.hears_past (h.past hst hpast) hstands

theorem Outcome.hears_write {fd : Nat} {write : Bool} {ret : SocksState}
    (h : Outcome io c v fd write v' ret)
    (hst : v.s.stm = some .helloWrite ∨ v.s.stm = some .authWrite)
    (hon : v.globals.isAuthOn = authOn) (hv : Hears k users authOn v.s v.s.stm) :
    Hears k users authOn (v'.advance ret).s (some ret) := by
  cases h with
  | sendFailed _ hsend =>
    exact hears_error hv (heard_quiet ((Adds.refl _ _).concat rfl) rfl)
  | @helloPart n wb hst' =>
    rw [hst'] at hv
    exact hears_advance (Rests.same hv (heard_sent v n wb) rfl) (.inl hst')
  | @helloSent n wb hst' =>
    rw [hst'] at hv
    have hrests := (Rests.same hv (heard_sent v n wb) rfl)
    rw [hon]
    cases authOn with
    | false =>
      refine enter_requestRead (v := { v.sent n wb with client := .watched opRead }) (by simp) ?_ hrests
      simp [View.sent, hst']
    | true =>
      refine enter_authRead (v := { v.sent n wb with client := .watched opRead }) rfl ?_ hrests
      simp [View.sent, hst']
  | @authPart n wb hst' =>
    rw [hst'] at hv
    exact hears_advance ⟨hv.1, hv.2.1.same (heard_sent v n wb) rfl, hv.2.2⟩ (.inl hst')
  | @authSent n wb hst' hs hleft hstatus =>
    rw [hst'] at hv
    obtain ⟨rfl, hrests, hgranted⟩ := hv
    have hgranted := hgranted hstatus
    refine enter_requestRead (v := { v.sent n wb with client := .watched opRead }) (fun _ => hgranted)
      (by simp [View.sent, hst']) ?_
    have hlen : (k.calls users true).length = 2 := by simp [Script.calls, hgranted]
    rw [hlen]
    exact hrests.same (heard_sent v n wb) rfl
  | @authRejected n wb hst' => exact hears_error hv (heard_sent v n wb)
  | _ => rcases hst with hst | hst <;> simp_all

theorem Outcome.received {fd : Nat} {write : Bool} {ret : SocksState}
    (h : Outcome io c v fd write v' ret) :
    receivedFrom v.s.clientFd v.s.log <+: receivedFrom v'.s.clientFd v'.s.log := by
  obtain ⟨lines, hlog, -⟩ := h.lines
  rw [h.clientFd, hlog, receivedFrom_append]
  exact List.prefix_append ..

theorem Outcome.hears {fd : Nat} {write : Bool} {ret : SocksState} (h : Outcome io c v fd write v' ret)
    (hs : v.Shape c)
    (hfixed : v.s.stm = some .helloRead ∨ Fixed users authOn v.globals v.s (.ready fd write io))
    (hv : Hears k users authOn v.s v.s.stm)
    (hstream : receivedFrom v'.s.clientFd v'.s.log <+: k.stream authOn) :
    Hears k users authOn (v'.advance ret).s (some ret) := by
  obtain ⟨st, hst⟩ := h.some_stm
  have hfixed (hne : st ≠ .helloRead) : v.globals.users = users ∧ v.globals.isAuthOn = authOn := by
    rw [hst, Option.some.injEq] at hfixed
    exact hfixed.resolve_left hne (by simp [hst])
  have hv' := hv
  rw [hst] at hv'
  cases st with
  | helloRead => exact h.hears_helloRead hs.body hst hv' hstream
  | helloWrite => exact h.hears_write (.inl hst) (hfixed (by simp)).2 hv
  | authRead => exact h.hears_authRead hs.body hst (hfixed (by simp)).1 hv' hstream
  | authWrite => exact h.hears_write (.inr hst) (hfixed (by simp)).2 hv
  | requestRead => exact h.hears_requestRead hs.body hst hv' hstream
  | done => exact absurd hst hs.stays.1
  | error => exact absurd hst hs.stays.2
  | _ => exact h.hears_past hst (by simp [Past]) hv'

theorem Resolved.hears {answer : Option (List AddrInfo)} {ret : SocksState}
    (h : Resolved io (v.answered answer) v' ret)
    (hv : Hears k users authOn v.s (some .requestResolv)) :
    Hears k users authOn (v'.advance ret).s (some ret) := by
  have hpast : Past ret := by
    cases h with
    | unreachable => simp [Past]
    | connect _ hconnect => cases hconnect <;> simp [Past]
  refine View.hears_past hpast (Stands.same (s := v'.s) (Stands.same hv ?_) (advance_heard ..))
  exact heard_quiet (h.lines.mono fun _ ha => ha.2) h.clientFd

end View

namespace World

open View

variable {w₀ w₁ w : World} {c : ConnId}

def Hearing (k : Script) (users : Users) (authOn : Bool) (n : Nat) (c : ConnId) (v : View) : Prop :=
  n ≤ c → receivedFrom v.s.clientFd v.s.log <+: k.stream authOn → Hears k users authOn v.s v.s.stm

theorem hearing_rules (k : Script) (users : Users) (authOn : Bool) (n : Nat) :
    Rules (Fixed users authOn) (fun _ => True) (Hearing k users authOn n) where
  start {c v fd write io} hs hst hv _ _ := by
    refine ⟨fun hn hstream => ?_, trivial⟩
    rw [advance_stm]
    rw [(advance_same v .helloRead).1.received, (advance_same v .helloRead).2.1] at hstream
    have hrests := hv hn hstream
    rw [hst] at hrests
    exact enter_helloRead (by simp [hst]) hrests
  outcome {c v fd write io v₁ ret} hs hen hv _ hfixed hout := by
    refine ⟨fun hn hstream => ?_, trivial⟩
    rw [advance_stm]
    rw [(advance_same v₁ ret).1.received, (advance_same v₁ ret).2.1] at hstream
    have hhears := hv hn (hout.received.trans hstream)
    exact hout.hears hs hfixed hhears hstream
  resolved {c v answer io v₁ ret} hs hst hv _ _ hres := by
    refine ⟨fun hn hstream => ?_, trivial⟩
    rw [advance_stm]
    have hbytes := sameBytes_of_quiet (hres.lines.mono fun _ ha => ha.2)
    rw [(advance_same v₁ ret).1.received, (advance_same v₁ ret).2.1, hbytes.received,
      hres.clientFd] at hstream
    have hhears := hv hn hstream
    rw [hst] at hhears
    exact hres.hears hhears
  ended hv hn hstream := (hv hn hstream).same ⟨rfl, rfl⟩ rfl rfl rfl rfl
  frame g hv _ hn hstream := hv hn hstream
  fresh addr _ _ _ := rests_start rfl rfl (Buffer.content_bufferInit _)
  turnedAway addr _ _ _ := rests_start rfl rfl (Buffer.content_bufferInit _)

/-- The handshake and the segments: in every run in which the users and
`is_auth_on` stay the same, of a client that sends the messages of the handshake
all are processed, with the calls that belong to them, if and only if every
message has a `recv` of its own after which it is there as a whole. -/
theorem handshake_processed_iff {users : Users} {authOn : Bool} (h₀ : w₀.Initial)
    (h₁ : Reachable w₀ w₁) (h : Runs (Fixed users authOn) w₁ w)
    (hnew : w₁.conns c = none) {conn : Conn}
    (hc : w.conns c = some conn) (k : Script)
    (hstream : receivedFrom conn.s.clientFd conn.s.log <+: k.stream authOn) :
    processed conn.s.log = k.calls users authOn ↔
      Spread (k.messages users authOn) (chunksFrom conn.s.clientFd conn.s.log) := by
  have hkept := (hearing_rules k users authOn w₁.allocated).kept
  have hstart : Carries (fun _ => True) (Hearing k users authOn w₁.allocated) w₁ := by
    have hcarries := h₁.carries h₀
    refine ⟨hcarries.wired, trivial, fun c hlt => ?_⟩
    obtain ⟨v, hshows, hshape, -⟩ := hcarries.views c hlt
    exact ⟨v, hshows, hshape, fun hle => absurd hlt (Nat.not_lt.mpr hle)⟩
  have hcarries : Carries (fun _ => True) (Hearing k users authOn w₁.allocated) w :=
    h.invariant hstart fun _ _ _ hw hm hs => hw.step hkept ⟨fun _ _ h => h, fun _ _ h => h⟩ hm hs
  have hle : w₁.allocated ≤ c := by
    by_contra hlt
    obtain ⟨v, hshows, -⟩ := hstart.views c (Nat.not_le.mp hlt)
    rw [hshows.conn] at hnew
    cases hnew
  obtain ⟨v, hshows, -, hhears⟩ := hcarries.view hc
  rw [hshows.conn] at hc
  cases hc
  obtain ⟨n, hn⟩ := (hhears hle hstream).stands
  rw [hn.count.spread_iff, hn.calls, Script.length_messages]
  have hmost := hn.count.le
  rw [Script.length_messages] at hmost
  have hpos : 0 < (k.calls users authOn).length := by
    unfold Script.calls
    cases authOn <;> simp
  refine ⟨fun htake => ?_, fun heq => ?_⟩
  · have hlen := congrArg List.length htake
    rw [List.length_take] at hlen
    omega
  · exact List.take_of_length_le (by omega)

instance (users : Users) (authOn : Bool) (g : Globals) (s : Socks5) (ce : ConnEvent) :
    Decidable (Fixed users authOn g s ce) := inferInstanceAs (Decidable (_ → _))

def brief : Script where
  hello := [5, 1, 0]
  login := [1, 1, 97, 1, 98]
  credentials := (authMachine.consume authParserInit [1, 1, 97, 1, 98]).1.auth
  request := [5, 1, 0, 1, 127, 0, 0, 1, 0, 80]
  asked := (requestMachine.consume requestParserInit [5, 1, 0, 1, 127, 0, 0, 1, 0, 80]).1.request
  data := []
  hello_ok := ⟨_, .of_consume rfl rfl rfl, rfl⟩
  login_ok := ⟨_, .of_consume rfl rfl rfl, rfl, rfl⟩
  request_ok := ⟨_, .of_consume rfl rfl rfl, rfl, rfl⟩

def arrives (first second : List Byte) : List Event :=
  [.accept 3 { answer := some (4, {}) },
   .ready 4 false { recv := some first },
   .ready 4 true { send := some 2 }] ++
  if second = [] then [] else
    [.ready 4 false { recv := some second, socket := some 5, connect := some einprogress }]

/-- When the hello and the request arrive together, the request is not looked
at: the connection waits in REQUEST_READ with all bytes received. -/
theorem handshake_waits : ∃ w conn, Runs (Fixed {} false) (startUp {}) w ∧ w.conns 0 = some conn ∧
    receivedFrom conn.s.clientFd conn.s.log = brief.stream false ∧ w.link 0 4 = .watched opRead ∧
    conn.s.originFd = -1 ∧ conn.s.stm = some .requestRead ∧
    processed conn.s.log ≠ brief.calls {} false := by
  have hrun : Lib.endsIn (fun w => (w.conns 0).any fun conn => decide
      (receivedFrom conn.s.clientFd conn.s.log = brief.stream false ∧ w.link 0 4 = .watched opRead ∧
        conn.s.originFd = -1 ∧ conn.s.stm = some .requestRead ∧
        processed conn.s.log ≠ brief.calls {} false))
      (play (Meets (Fixed {} false)) (startUp {})
        (arrives [5, 1, 0, 5, 1, 0, 1, 127, 0, 0, 1, 0, 80] [])) = true := by decide +kernel
  obtain ⟨w, hplay, hw⟩ := Lib.endsIn_iff.mp hrun
  obtain ⟨conn, hc, hconn⟩ := (Option.any_eq_true ..).mp hw
  exact ⟨w, conn, Lib.reaches_of_play hplay, hc, of_decide_eq_true hconn⟩

/-- In two segments they are both understood. -/
theorem handshake_in_two : ∃ w conn, Runs (Fixed {} false) (startUp {}) w ∧ w.conns 0 = some conn ∧
    receivedFrom conn.s.clientFd conn.s.log = brief.stream false ∧
    processed conn.s.log = brief.calls {} false := by
  have hrun : Lib.endsIn (fun w => (w.conns 0).any fun conn => decide
      (chunksFrom conn.s.clientFd conn.s.log = [brief.hello, brief.request]))
      (play (Meets (Fixed {} false)) (startUp {})
        (arrives [5, 1, 0] [5, 1, 0, 1, 127, 0, 0, 1, 0, 80])) = true := by decide +kernel
  obtain ⟨w, hplay, hw⟩ := Lib.endsIn_iff.mp hrun
  obtain ⟨conn, hc, hconn⟩ := (Option.any_eq_true ..).mp hw
  have hchunks := of_decide_eq_true hconn
  have hreceived : receivedFrom conn.s.clientFd conn.s.log = brief.stream false := by
    rw [receivedFrom_eq, hchunks]
    rfl
  have hruns : Runs (Fixed {} false) (startUp {}) w := Lib.reaches_of_play hplay
  refine ⟨w, conn, hruns, hc, hreceived, ?_⟩
  refine (handshake_processed_iff (startUp_initial (by decide)) .start hruns rfl hc brief
    (hreceived ▸ List.prefix_rfl)).mpr ?_
  rw [hchunks]
  exact ⟨id, fun _ _ hij _ => hij, fun _ hj => ⟨hj, List.prefix_rfl⟩⟩

end World

end Socks5d
