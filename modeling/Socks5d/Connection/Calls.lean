import Socks5d.View

/-!
# Running a handler over one connection

What each call of the handlers does to a live view, in the form that the proofs
about whole handlers rewrite with.
-/

namespace Socks5d

open Handler Lib.Prog

namespace View

variable {v : View} {io : Io} {c : ConnId}

def noted (v : View) (a : Action) : View :=
  { v with s := { v.s with log := v.s.log ++ [a] } }

@[simp] theorem noted_current (v : View) (a : Action) :
    (v.noted a).s.originResolutionCurrent = v.s.originResolutionCurrent := rfl

theorem run_call (o : Call) : (call o).run (View.exec io c) v = View.exec io c o v :=
  Lib.Prog.run_perform ..

@[simp] theorem run_attachment (h : v.live = true) :
    attachment.run (View.exec io c) v = .ok (v, v.s) :=
  (run_call _).trans (if_pos h)

@[simp] theorem run_update (h : v.live = true) (f : Socks5 → Socks5) :
    (update f).run (View.exec io c) v = .ok ({ v with s := f v.s }, ()) :=
  (run_call _).trans (if_pos h)

@[simp] theorem run_note (h : v.live = true) (a : Action) :
    (note a).run (View.exec io c) v = .ok (v.noted a, ()) :=
  run_update h _

@[simp] theorem run_globals :
    Handler.globals.run (View.exec io c) v = .ok (v, v.globals) :=
  run_call _

@[simp] theorem run_setGlobals (f : Globals → Globals) :
    (setGlobals f).run (View.exec io c) v = .ok ({ v with globals := f v.globals }, ()) :=
  run_call _

@[simp] theorem run_answers : answers.run (View.exec io c) v = .ok (v, io) :=
  run_call _

@[simp] theorem run_spawn (key : Key) (h : key.conn = c) :
    (spawn key).run (View.exec io c) v =
      .ok ({ v with threads := v.threads ++ [key] }, ()) :=
  (run_call _).trans (if_pos h)

@[simp] theorem run_fail (f : Fault) :
    (fail f : Handler α).run (View.exec io c) v = .error f := by
  simp only [fail, Lib.Prog.run_bind]
  rw [run_call]
  rfl

@[simp] theorem run_abort : (Handler.abort : Handler α).run (View.exec io c) v = .error .abort :=
  run_fail _

@[simp] theorem run_check_some (a : α) :
    (check (some a)).run (View.exec io c) v = .ok (v, a) := rfl

-- ---------------------------------------------------------------------------
-- Reading and sending
-- ---------------------------------------------------------------------------

/-- What `recv` answers when it is offered the room of a buffer. -/
def recvAnswer (io : Io) (count : Nat) : Option (List Byte) := io.recv.map (·.take count)

@[simp] theorem run_recv (h : v.live = true) (fd : Int) (count : Nat) :
    (recv fd count).run (View.exec io c) v =
      .ok (v.noted (.recv fd (recvAnswer io count)), recvAnswer io count) := by
  simp only [recv, Lib.Prog.run_bind, run_answers, run_note h, Lib.Prog.run_pure, recvAnswer]

def sendAnswer (io : Io) (bytes : List Byte) : Option Nat := io.send.map (min · bytes.length)

def sendAction (io : Io) (fd : Int) (bytes : List Byte) : Action :=
  match sendAnswer io bytes with
  | none => .sendFailed fd
  | some n => .send fd (bytes.take n)

@[simp] theorem run_send (h : v.live = true) (fd : Int) (bytes : List Byte) :
    (send fd bytes).run (View.exec io c) v =
      .ok (v.noted (sendAction io fd bytes), sendAnswer io bytes) := by
  simp only [send, Lib.Prog.run_bind, run_answers, sendAction, sendAnswer]
  cases io.send with
  | none => simp [h]
  | some n => simp [h]

@[simp] theorem run_getsockoptError (h : v.live = true) (fd : Int) :
    (getsockoptError fd).run (View.exec io c) v =
      .ok (v.noted (.sockError fd io.sockError), io.sockError) := by
  simp only [getsockoptError, Lib.Prog.run_bind, run_answers, run_note h, Lib.Prog.run_pure]

@[simp] theorem run_selectorFdSetNio (fd : Int) :
    (selectorFdSetNio fd).run (View.exec io c) v = .ok (v, io.nio) := by
  simp only [selectorFdSetNio, Lib.Prog.run_bind, run_answers, Lib.Prog.run_pure]

-- ---------------------------------------------------------------------------
-- The selector
-- ---------------------------------------------------------------------------

theorem run_setInterest {n : Nat} {i₀ : Interest} (hlink : v.link n = .watched i₀)
    (hn : n < fdSetSize) (i : Interest) :
    (Handler.selectorSetInterest (n : Int) i).run (View.exec io c) v =
      .ok (v.setLink n (.watched i), .success) := by
  have hvalid : invalidFd (n : Int) = false := by
    rw [Selector.invalidFd_natCast, decide_eq_false_iff_not]
    omega
  refine (run_call _).trans ?_
  simp only [View.exec, View.setInterest, hvalid, Bool.false_eq_true, ↓reduceIte,
    Int.toNat_natCast, hlink]

theorem run_setInterest_client {i₀ : Interest} (hc : v.client = .watched i₀)
    (hn : v.fd < fdSetSize) (i : Interest) :
    (Handler.selectorSetInterest (v.fd : Int) i).run (View.exec io c) v =
      .ok ({ v with client := .watched i }, .success) := by
  rw [run_setInterest (show v.link v.fd = .watched i₀ by simp [View.link, hc]) hn]
  simp [View.setLink]

theorem run_setInterest_peer {i₀ : Interest} (hp : v.peer = .watched i₀)
    (hne : v.peerFd ≠ v.fd) (hn : v.peerFd < fdSetSize) (i : Interest) :
    (Handler.selectorSetInterest (v.peerFd : Int) i).run (View.exec io c) v =
      .ok ({ v with peer := .watched i }, .success) := by
  rw [run_setInterest (show v.link v.peerFd = .watched i₀ by simp [View.link, hp, hne]) hn]
  simp [View.setLink, hne]

-- ---------------------------------------------------------------------------
-- The calls as first steps of a handler
-- ---------------------------------------------------------------------------

section

variable {Q : View → β → Prop} {E : Fault → Prop}

theorem meets_attachment {f : Socks5 → Handler β} (h : v.live = true)
    (hf : Meets (View.exec io c) (f v.s) v Q E) :
    Meets (View.exec io c) (attachment >>= f) v Q E :=
  meets_bind (run_attachment h) hf

theorem meets_update {g : Socks5 → Socks5} {f : Unit → Handler β} (h : v.live = true)
    (hf : Meets (View.exec io c) (f ()) { v with s := g v.s } Q E) :
    Meets (View.exec io c) (update g >>= f) v Q E :=
  meets_bind (run_update h g) hf

theorem meets_note {a : Action} {f : Unit → Handler β} (h : v.live = true)
    (hf : Meets (View.exec io c) (f ()) (v.noted a) Q E) :
    Meets (View.exec io c) (note a >>= f) v Q E :=
  meets_bind (run_note h a) hf

theorem meets_globals {f : Globals → Handler β}
    (hf : Meets (View.exec io c) (f v.globals) v Q E) :
    Meets (View.exec io c) (Handler.globals >>= f) v Q E :=
  meets_bind run_globals hf

theorem meets_setGlobals {g : Globals → Globals} {f : Unit → Handler β}
    (hf : Meets (View.exec io c) (f ()) { v with globals := g v.globals } Q E) :
    Meets (View.exec io c) (setGlobals g >>= f) v Q E :=
  meets_bind (run_setGlobals g) hf

theorem meets_answers {f : Io → Handler β} (hf : Meets (View.exec io c) (f io) v Q E) :
    Meets (View.exec io c) (answers >>= f) v Q E :=
  meets_bind run_answers hf

theorem meets_recv {fd : Int} {count : Nat} {f : Option (List Byte) → Handler β}
    (h : v.live = true)
    (hf : Meets (View.exec io c) (f (recvAnswer io count))
      (v.noted (.recv fd (recvAnswer io count))) Q E) :
    Meets (View.exec io c) (recv fd count >>= f) v Q E :=
  meets_bind (run_recv h fd count) hf

theorem meets_send {fd : Int} {bytes : List Byte} {f : Option Nat → Handler β}
    (h : v.live = true)
    (hf : Meets (View.exec io c) (f (sendAnswer io bytes)) (v.noted (sendAction io fd bytes)) Q E) :
    Meets (View.exec io c) (send fd bytes >>= f) v Q E :=
  meets_bind (run_send h fd bytes) hf

theorem meets_check {o : Option α} {a : α} {f : α → Handler β} (h : o = some a)
    (hf : Meets (View.exec io c) (f a) v Q E) :
    Meets (View.exec io c) (check o >>= f) v Q E := by
  subst h
  exact meets_bind (run_check_some a) hf

theorem meets_setClient {i₀ i : Interest} {fd : Int} {f : SelectorStatus → Handler β}
    (hfd : fd = v.fd) (hc : v.client = .watched i₀) (hn : v.fd < fdSetSize)
    (hf : Meets (View.exec io c) (f .success) { v with client := .watched i } Q E) :
    Meets (View.exec io c) (Handler.selectorSetInterest fd i >>= f) v Q E := by
  subst hfd
  exact meets_bind (run_setInterest_client hc hn i) hf

theorem meets_setPeer {i₀ i : Interest} {fd : Int} {f : SelectorStatus → Handler β}
    (hfd : fd = v.peerFd) (hp : v.peer = .watched i₀) (hne : v.peerFd ≠ v.fd)
    (hn : v.peerFd < fdSetSize)
    (hf : Meets (View.exec io c) (f .success) { v with peer := .watched i } Q E) :
    Meets (View.exec io c) (Handler.selectorSetInterest fd i >>= f) v Q E := by
  subst hfd
  exact meets_bind (run_setInterest_peer hp hne hn i) hf

end

end View

end Socks5d
