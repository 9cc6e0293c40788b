import Socks5d.Handshake
import Socks5d.Runs

/-!
# One message and its reply

Each phase of the handshake is an exchange: a READ state takes bytes until the
parser has a message, a WRITE state sends the reply, and the phase is left once
all of it is sent. A phase is followed from a struct `start` at its beginning, by
the lines that the log has since then.
-/

namespace Socks5d

open Lib (Machine)

structure Exchange (σ : Type) where
  machine : Machine σ Byte
  init : σ
  parser : Socks5 → σ
  read : SocksState
  write : SocksState
  going : machine.done init = false

structure Since (start s : Socks5) (lines : List Action) : Prop where
  log : s.log = start.log ++ lines
  clientFd : s.clientFd = start.clientFd

/-- What the client has sent, with the bytes that were already there at the start. -/
def Socks5.stream (start : Socks5) (lines : List Action) : List Byte :=
  start.readBuffer.content ++ receivedFrom start.clientFd lines

/-- The stream may still become one that begins with the message. -/
def Consistent (stream message : List Byte) : Prop := stream <+: message ∨ message <+: stream

theorem Consistent.of_append {stream more message : List Byte} (h : Consistent (stream ++ more) message) :
    Consistent stream message := by
  rcases h with h | h
  · exact .inl ((List.prefix_append ..).trans h)
  · exact List.prefix_or_prefix_of_prefix (List.prefix_append ..) h

section

variable {start s s' : Socks5} {lines more : List Action}

theorem Since.refl (s : Socks5) : Since s s [] := ⟨(List.append_nil _).symm, rfl⟩

theorem Since.unique (h : Since start s lines) (h' : Since start s more) : lines = more :=
  List.append_cancel_left (h.log.symm.trans h'.log)

theorem Since.append (h : Since start s lines) (hlog : s'.log = s.log ++ more)
    (hfd : s'.clientFd = s.clientFd) : Since start s' (lines ++ more) :=
  ⟨by rw [hlog, h.log, List.append_assoc], hfd.trans h.clientFd⟩

@[simp] theorem stream_append : start.stream (lines ++ more) =
    start.stream lines ++ receivedFrom start.clientFd more := by
  rw [Socks5.stream, receivedFrom_append, ← List.append_assoc]
  rfl

theorem Since.followed {message : List Byte} {K : Socks5 → List Action → Prop}
    (h : ∃ lines, Since start s lines ∧ (Consistent (start.stream lines) message → K s lines))
    (hsince : ∀ lines, Since start s lines → ∃ more, more ≠ [] ∧ Since start s' (lines ++ more))
    (hstep : ∀ lines more, more ≠ [] → s.clientFd = start.clientFd → s'.log = s.log ++ more →
      Consistent (start.stream (lines ++ more)) message → K s lines → K s' (lines ++ more)) :
    ∃ lines, Since start s' lines ∧ (Consistent (start.stream lines) message → K s' lines) := by
  obtain ⟨lines, hbefore, hcourse⟩ := h
  obtain ⟨more, hne, hafter⟩ := hsince lines hbefore
  have hlog : s'.log = s.log ++ more := by
    rw [hafter.log, hbefore.log, List.append_assoc]
  refine ⟨lines ++ more, hafter, fun hconsistent => ?_⟩
  refine hstep lines more hne hbefore.clientFd hlog hconsistent (hcourse ?_)
  rw [stream_append] at hconsistent
  exact hconsistent.of_append

@[simp] theorem receivedFrom_recv (fd : Int) (bytes : List Byte) :
    receivedFrom fd [.recv fd (some bytes)] = bytes := by
  simp [receivedFrom]

end

section

variable (e : Exchange σ) (start : Socks5) (message reply : List Byte)

structure Hearing (s : Socks5) (lines : List Action) : Prop where
  state : s.stm = some e.read
  unsent : sentTo start.clientFd lines = []
  missing : receivedFrom start.clientFd lines = [] ∨ ¬ message <+: start.stream lines
  reading : e.machine.Reading e.init [] (start.stream lines) s.readBuffer.content (e.parser s)

def HungUp (s : Socks5) (lines : List Action) : Prop :=
  s.stm = some .error ∧ sentTo start.clientFd lines = [] ∧ ∃ phase answer,
    lines = phase ++ [.recv start.clientFd answer] ++ [.enter (some e.read) .error] ∧
      answer.getD [] = [] ∧
      (receivedFrom start.clientFd phase = [] ∨ ¬ message <+: start.stream phase)

structure Replying (s : Socks5) (lines : List Action) : Prop where
  state : s.stm = some e.write
  left : s.writeBuffer.content ≠ []
  reply : sentTo start.clientFd lines ++ s.writeBuffer.content = reply
  rest : start.stream lines = message ++ s.readBuffer.content

def Replied (next : SocksState) (Q : Socks5 → Prop) (s : Socks5) (lines : List Action) : Prop :=
  ∃ phase rest trailing, lines = phase ++ .enter (some e.write) next :: rest ∧
    sentTo start.clientFd phase = reply ∧ start.stream phase = message ++ trailing ∧
    (rest = [] → s.stm = some next ∧ s.readBuffer.content = trailing ∧ Q s)

variable {e start message reply} {s s' : Socks5} {lines more : List Action} {bytes : List Byte} {last : σ}

theorem Hearing.first (hst : start.stm = some e.read) (hinit : e.parser start = e.init) :
    Hearing e start message start [] where
  state := hst
  unsent := rfl
  missing := .inl rfl
  reading := by
    rw [hinit]
    exact .start e.going (by simp [Socks5.stream, receivedFrom])

theorem Hearing.next (h : Hearing e start message s lines) (hends : e.machine.Ends e.init message last)
    (hst : s'.stm = some e.read)
    (hconsume : e.machine.consume (e.parser s) (s.readBuffer.content ++ bytes) =
      (e.parser s', s'.readBuffer.content))
    (hd : e.machine.done (e.parser s') = false) :
    Hearing e start message s' (lines ++ [.recv start.clientFd (some bytes)]) := by
  have hgoing : e.machine.done (e.machine.consume (e.parser s) (s.readBuffer.content ++ bytes)).1 =
      false := by rwa [hconsume]
  have hempty := e.machine.consume_rest hgoing
  have hreading := h.reading.more hgoing
  rw [hconsume] at hempty hreading
  have hstream : start.stream (lines ++ [.recv start.clientFd (some bytes)]) =
      start.stream lines ++ bytes := by simp
  refine ⟨hst, ?_, .inr ?_, ?_⟩
  · rw [sentTo_append, h.unsent]
    rfl
  · rw [hstream]
    rw [show s'.readBuffer.content = [] from hempty] at hreading
    exact hreading.incomplete e.going hends
  · rwa [hstream]

theorem Hearing.complete (h : Hearing e start message s lines)
    (hends : e.machine.Ends e.init message last) (hbytes : receivedFrom start.clientFd more = bytes)
    (hconsistent : Consistent (start.stream (lines ++ more)) message) {p : σ} {rest : List Byte}
    (hconsume : e.machine.consume (e.parser s) (s.readBuffer.content ++ bytes) = (p, rest))
    (hd : e.machine.done p = true) :
    p = last ∧ start.stream (lines ++ more) = message ++ rest := by
  rw [stream_append, hbytes] at hconsistent ⊢
  have hnext := h.reading.complete e.going hends hconsistent (by rwa [hconsume])
  rwa [hconsume] at hnext

theorem Hearing.replying (h : Hearing e start message s lines)
    (hrest : start.stream (lines ++ more) = message ++ s'.readBuffer.content)
    (hsilent : sentTo start.clientFd more = []) (hst : s'.stm = some e.write)
    (hwb : s'.writeBuffer.content = reply) (hne : reply ≠ []) :
    Replying e start message reply s' (lines ++ more) := by
  refine ⟨hst, hwb ▸ hne, ?_, hrest⟩
  rw [sentTo_append, h.unsent, hsilent, hwb]
  rfl

theorem Hearing.hungUp (h : Hearing e start message s lines) {answer : Option (List Byte)}
    (hrecv : answer.getD [] = []) (hst : s'.stm = some .error) :
    HungUp e start message s'
      (lines ++ [.recv start.clientFd answer] ++ [.enter (some e.read) .error]) := by
  refine ⟨hst, ?_, lines, answer, rfl, hrecv, h.missing⟩
  rw [sentTo_append, sentTo_append, h.unsent]
  rfl

theorem HungUp.missing (h : HungUp e start message s lines) :
    receivedFrom start.clientFd lines = [] ∨ ¬ message <+: start.stream lines := by
  obtain ⟨-, -, phase, answer, rfl, hanswer, hmissing⟩ := h
  have hnone : receivedFrom start.clientFd [.recv start.clientFd answer] = [] :=
    View.receivedFrom_nil hanswer
  rw [stream_append, stream_append, receivedFrom_append, receivedFrom_append, hnone]
  simpa [receivedFrom] using hmissing

theorem Replying.part (h : Replying e start message reply s lines) {n : Nat} {wb : Buffer}
    (htakes : s.writeBuffer.Takes n wb) (hwb : s'.writeBuffer = wb) (hleft : wb.content ≠ [])
    (hst : s'.stm = some e.write) (hrb : s'.readBuffer = s.readBuffer) :
    Replying e start message reply s'
      (lines ++ [.send start.clientFd (s.writeBuffer.content.take n)]) := by
  refine ⟨hst, hwb ▸ hleft, ?_, ?_⟩
  · rw [sentTo_append, hwb, htakes.content]
    simp only [sentTo, List.flatMap_cons, ↓reduceIte, List.flatMap_nil, List.append_nil]
    rw [List.append_assoc, List.take_append_drop]
    exact h.reply
  · rw [stream_append, hrb, h.rest]
    exact List.append_nil _

/-- The last part is sent; `quiet` are lines without bytes. -/
theorem Replying.all (quiet : List Action) (h : Replying e start message reply s lines) {n : Nat}
    {wb : Buffer} (htakes : s.writeBuffer.Takes n wb) (hleft : wb.content = [])
    (hsent : sentTo start.clientFd quiet = []) (hreceived : receivedFrom start.clientFd quiet = [])
    {next : SocksState} (hst : s'.stm = some next) (hrb : s'.readBuffer = s.readBuffer)
    {Q : Socks5 → Prop} (hq : Q s') :
    Replied e start message reply next Q s'
      (lines ++ ([.send start.clientFd (s.writeBuffer.content.take n)] ++ quiet ++
        [.enter (some e.write) next])) := by
  refine ⟨lines ++ ([.send start.clientFd (s.writeBuffer.content.take n)] ++ quiet), [],
    s.readBuffer.content, by simp, ?_, ?_, fun _ => ⟨hst, by rw [hrb], hq⟩⟩
  · have hall : s.writeBuffer.content.take n = s.writeBuffer.content := by
      have := List.take_append_drop n s.writeBuffer.content
      rwa [← htakes.content, hleft, List.append_nil] at this
    have hreply := h.reply
    rw [sentTo_append, sentTo_append, hsent, hall, List.append_nil]
    simpa [sentTo] using hreply
  · rw [stream_append, receivedFrom_append, hreceived, h.rest]
    exact List.append_nil _

theorem Replied.append {next : SocksState} {Q : Socks5 → Prop}
    (h : Replied e start message reply next Q s lines) (hne : more ≠ []) :
    Replied e start message reply next Q s' (lines ++ more) := by
  obtain ⟨phase, rest, trailing, rfl, hsent, hstream, -⟩ := h
  refine ⟨phase, rest ++ more, trailing, by simp, hsent, hstream, fun hnil => ?_⟩
  exact absurd (List.append_eq_nil_iff.mp hnil).2 hne

end

namespace View

variable {v v' : View} {io : Io} {c : ConnId} {start : Socks5} {lines : List Action}

theorem lines_jump {next st : SocksState} {new more : List Action}
    (hlog : (v'.advance next).s.log = v.s.log ++ more) (hnew : v'.s.log = v.s.log ++ new)
    (hst : v'.s.stm = some st) (hne : st ≠ next) (hnext : next ≠ .helloRead) :
    more = new ++ [.enter (some st) next] := by
  rw [advance_log, if_neg (by rw [hst]; simpa using hne), if_neg hnext, hst, List.append_nil, hnew,
    List.append_assoc] at hlog
  exact (List.append_cancel_left hlog).symm

theorem advance_stay {st : SocksState} (h : v.s.stm = some st) : v.advance st = v := if_pos h

theorem lines_stay {st : SocksState} {new more : List Action}
    (hlog : (v'.advance st).s.log = v.s.log ++ more) (hnew : v'.s.log = v.s.log ++ new)
    (hst : v'.s.stm = some st) : more = new := by
  rw [advance_log, if_pos hst, hnew] at hlog
  exact (List.append_cancel_left hlog).symm

theorem Since.advance {ret : SocksState} (h : Since start v.s lines)
    (hgrows : v.s.log <+: v'.s.log) (hlt : v.s.log.length < v'.s.log.length)
    (hfd : v'.s.clientFd = v.s.clientFd) :
    ∃ more, more ≠ [] ∧ Since start (v'.advance ret).s (lines ++ more) := by
  obtain ⟨more, hmore⟩ := hgrows.trans (advance_grows v' ret)
  refine ⟨more, ?_, h.append hmore.symm ((advance_same v' ret).2.1.trans hfd)⟩
  rintro rfl
  have := (advance_grows v' ret).length_le
  rw [← hmore, List.append_nil] at this
  omega

theorem Outcome.since {fd : Nat} {write : Bool} {ret : SocksState}
    (h : Outcome io c v fd write v' ret) (hsince : Since start v.s lines) :
    ∃ more, more ≠ [] ∧ Since start (v'.advance ret).s (lines ++ more) :=
  Since.advance hsince h.logs.grows h.log_lt h.clientFd

theorem Resolved.since {answer : Option (List AddrInfo)} {ret : SocksState}
    (h : Resolved io (v.answered answer) v' ret) (hsince : Since start v.s lines) :
    ∃ more, more ≠ [] ∧ Since start (v'.advance ret).s (lines ++ more) :=
  Since.advance hsince h.logs.grows h.log_lt h.clientFd

end View

namespace World

/-- A run in two parts, the second of which meets a condition, seen through the
struct of the first connection: a test of the struct after each of them and of the
lines in between. -/
def staged (cond : Condition) [∀ g s ce, Decidable (cond g s ce)] (w₀ : World)
    (before after : List Event) (test : Socks5 → Socks5 → List Action → Bool) : Bool :=
  Lib.endsIn (fun w => (w.conns 0).any fun conn => conn.live &&
    Lib.endsIn (fun w' => (w'.conns 0).any fun conn' =>
      decide (conn'.s.log = conn.s.log ++ conn'.s.log.drop conn.s.log.length ∧
        conn'.s.clientFd = conn.s.clientFd) &&
      test conn.s conn'.s (conn'.s.log.drop conn.s.log.length))
      (play (Meets cond) w after)) (play (Meets anyEvent) w₀ before)

theorem runs_of_staged {cond : Condition} [∀ g s ce, Decidable (cond g s ce)] {w₀ : World}
    {before after : List Event} {test : Socks5 → Socks5 → List Action → Bool}
    (h : staged cond w₀ before after test = true) :
    ∃ w s w' s' live lines, Reachable w₀ w ∧ w.conns 0 = some ⟨s, true⟩ ∧ Runs cond w w' ∧
      w'.conns 0 = some ⟨s', live⟩ ∧ Since s s' lines ∧ test s s' lines = true := by
  obtain ⟨w, hplay, hconn⟩ := Lib.endsIn_iff.mp h
  obtain ⟨⟨s, live⟩, hc, hconn⟩ := (Option.any_eq_true ..).mp hconn
  rw [Bool.and_eq_true] at hconn
  obtain ⟨rfl, hafter⟩ := hconn
  obtain ⟨w', hplay', hconn'⟩ := Lib.endsIn_iff.mp hafter
  obtain ⟨⟨s', live'⟩, hc', hconn'⟩ := (Option.any_eq_true ..).mp hconn'
  rw [Bool.and_eq_true, decide_eq_true_eq] at hconn'
  obtain ⟨⟨hlog, hfd⟩, htest⟩ := hconn'
  exact ⟨w, s, w', s', live', _, Lib.reaches_of_play hplay, hc, Lib.reaches_of_play hplay', hc',
    ⟨hlog, hfd⟩, htest⟩

end World

end Socks5d
