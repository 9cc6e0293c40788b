import Socks5d.Authentication
import Socks5d.Connection.Copy

/-!
# The announced method

The reply to the hello names a method; which phase follows is decided later,
from `is_auth_on`. A reply with 0x00 is always followed by REQUEST_READ, since
the flag was off when that method was chosen and nothing turns it on. A reply
with 0x02 is followed by AUTH_READ as long as no HELLO_READ was initialised
without users in between.
-/

namespace Socks5d

/-- The reply to the hello: what was sent of it and what is left. -/
def helloReply (s : Socks5) : List Byte := sentTo s.clientFd s.log ++ s.writeBuffer.content

def Chosen (g : Globals) (s : Socks5) : Prop :=
  (s.stm = some .helloRead ∨ s.stm = some .helloWrite) →
    s.hello.data = socksHelloNoAuthenticationRequired → g.isAuthOn = false

/-- Where HELLO_WRITE goes after the reply with method `m`. -/
def Follows (m : Byte) (st : Option SocksState) : Prop :=
  st = some .helloWrite ∨ st = some .error ∨
    ((m = socksHelloUsernamePassword → st = some .authRead) ∧
      (m = socksHelloNoAuthenticationRequired → st = some .requestRead))

namespace View

variable {v v' : View} {io : Io} {c : ConnId}

-- ---------------------------------------------------------------------------
-- The reply
-- ---------------------------------------------------------------------------

def Greets (v : View) : SocksState → Prop
  | .helloRead => sentTo v.s.clientFd v.s.log = []
  | .helloWrite => helloReply v.s = [0x05, v.s.hello.data]
  | _ => True

theorem sentTo_advance (v : View) (next : SocksState) (fd : Int) :
    sentTo fd (v.advance next).s.log = sentTo fd v.s.log := by
  rw [advance_log]
  split
  · rfl
  · split <;> simp [sentTo]

theorem Greets.advance {next : SocksState} (h : v.Greets next) : (v.advance next).Greets next := by
  cases next with
  | helloRead =>
    have hfd : (v.advance .helloRead).s.clientFd = v.s.clientFd := by
      unfold View.advance
      split <;> rfl
    show sentTo (v.advance .helloRead).s.clientFd _ = []
    rw [sentTo_advance, hfd]
    exact h
  | helloWrite =>
    show sentTo (v.advance .helloWrite).s.clientFd _ ++ _ = _
    rw [sentTo_advance]
    unfold View.advance
    split <;> exact h
  | _ => trivial

theorem sentTo_recv (fd fd' : Int) (log : List Action) (answer : Option (List Byte)) :
    sentTo fd (log ++ [.recv fd' answer]) = sentTo fd log := by
  rw [sentTo_append]
  exact List.append_nil _

/-- Bytes that leave the write buffer for the client are still in the reply. -/
theorem helloReply_sent (hb : v.Body) {n : Nat} {wb : Buffer} (hs : Sends io v n wb) :
    helloReply (v.sent n wb).s = helloReply v.s := by
  have hlog : sentTo v.s.clientFd (v.sent n wb).s.log =
      sentTo v.s.clientFd v.s.log ++ v.s.writeBuffer.content.take n := by
    simp [View.sent, sentTo, hb.clientFd]
  show sentTo v.s.clientFd (v.sent n wb).s.log ++ wb.content = _
  rw [hlog, hs.takes.content, List.append_assoc, List.take_append_drop]
  rfl

theorem Outcome.greets {fd : Nat} {write : Bool} {ret : SocksState}
    (h : Outcome io c v fd write v' ret) (hs : v.Shape c)
    (hv : v.Greets (v.s.stm.getD .helloRead)) : v'.Greets ret := by
  cases h with
  | helloMore hst =>
    rw [hst] at hv
    exact (sentTo_recv ..).trans hv
  | helloDone hst hr hc hdone hwb =>
    rw [hst] at hv
    have hempty := (hs.phase_of hst).2.2.1
    split
    · trivial
    · show sentTo v.s.clientFd (v.s.log ++ [.recv _ _]) ++ Buffer.content _ = _
      rw [sentTo_recv, hwb.content, hempty, List.nil_append, hv]
      rfl
  | helloPart hst hsend =>
    rw [hst] at hv
    exact (helloReply_sent hs.body hsend).trans hv
  | helloSent | authDone | requestMore => split <;> trivial
  | requestDone hst hr hc hdone hprocess =>
    cases hprocess with
    | connect htype hconnect => cases hconnect <;> trivial
    | _ => trivial
  | copyReceived | copyEnded | copySent | copyFailed =>
    unfold copyNext
    split <;> trivial
  | _ => trivial

theorem Resolved.greets {ret : SocksState} (h : Resolved io v v' ret) : v'.Greets ret := by
  cases h with
  | unreachable => trivial
  | connect hlist hconnect => cases hconnect <;> trivial

-- ---------------------------------------------------------------------------
-- The method
-- ---------------------------------------------------------------------------

theorem helloConsume_chosen {isAuthOn : Bool} {b b' : Buffer} {p p' : HelloParser Byte} {e : Bool}
    (hc : helloConsume (Handler.onHelloMethod isAuthOn) b p = (b', p', e))
    (h : p.data = socksHelloNoAuthenticationRequired → isAuthOn = false) :
    p'.data = socksHelloNoAuthenticationRequired → isAuthOn = false := by
  have hp : p' = (consumeBuffer (helloMachine (Handler.onHelloMethod isAuthOn)) b p).2 := by
    simp only [helloConsume] at hc
    exact (congrArg (·.2.1) hc).symm
  rw [hp, (consumeBuffer_spec _ b p).1]
  refine (helloMachine (Handler.onHelloMethod isAuthOn)).consume_invariant
    (I := fun p => p.data = socksHelloNoAuthenticationRequired → isAuthOn = false)
    (fun p a hp => ?_) h b.content
  simp only [helloMachine, helloParserFeed]
  cases p.state with
  | methods =>
    simp only [Handler.onHelloMethod]
    cases isAuthOn with
    | false => simp
    | true =>
      simp only [Bool.not_true, Bool.false_and, Bool.true_and, Bool.false_or]
      split
      · rename_i hm
        intro h0
        rw [beq_iff_eq, h0] at hm
        cases hm
      · exact hp
  | _ => exact hp

theorem Outcome.chosen {fd : Nat} {write : Bool} {ret : SocksState}
    (h : Outcome io c v fd write v' ret) (hv : Chosen v.globals v.s)
    (hret : ret = .helloRead ∨ ret = .helloWrite) :
    v'.s.hello.data = socksHelloNoAuthenticationRequired → v.globals.isAuthOn = false := by
  cases h with
  | helloMore hst hr hc => exact helloConsume_chosen hc (hv (.inl hst))
  | helloDone hst hr hc => exact helloConsume_chosen hc (hv (.inl hst))
  | helloPart hst => exact hv (.inr hst)
  | helloSent | authDone | requestMore => split at hret <;> simp at hret
  | requestDone hst hr hc hdone hprocess =>
    cases hprocess with
    | connect htype hconnect => cases hconnect <;> simp at hret
    | _ => simp at hret
  | copyReceived | copyEnded | copySent | copyFailed =>
    unfold copyNext at hret
    split at hret <;> simp at hret
  | _ => simp at hret

theorem settle_chosen (v : View) (ret : SocksState) :
    ((v.settle ret).s.hello.data = socksHelloNoAuthenticationRequired →
      v.s.hello.data = socksHelloNoAuthenticationRequired) ∧
    (v.globals.isAuthOn = false → (v.settle ret).globals.isAuthOn = false) := by
  have hadvance : ((v.advance ret).s.hello.data = socksHelloNoAuthenticationRequired →
      v.s.hello.data = socksHelloNoAuthenticationRequired) ∧
      (v.globals.isAuthOn = false → (v.advance ret).globals.isAuthOn = false) := by
    unfold View.advance
    split
    · exact ⟨id, id⟩
    · cases ret with
      | helloRead =>
        refine ⟨fun h => (by cases h), fun h => ?_⟩
        by_cases hzero : v.globals.users.registered = 0 <;> simp [arrive, enter, hzero, h]
      | _ => exact ⟨id, id⟩
  unfold settle
  split <;> exact hadvance

theorem started_chosen (hv : Chosen v.globals v.s) : Chosen v.started.globals v.started.s := by
  unfold started
  split
  · rename_i hst
    intro _ h
    simp only [View.advance, hst, reduceCtorEq, ↓reduceIte, arrive, helloParserInit] at h
    cases h
  · exact hv

theorem Step.off {ce : ConnEvent} (h : Step c v ce v') (hoff : v.globals.isAuthOn = false) :
    v'.globals.isAuthOn = false := by
  cases h with
  | @ready fd write io v₁ ret hen hout =>
    have hstart : v.started.globals.isAuthOn = false := by
      unfold started
      split
      · exact (settle_chosen v .helloRead).2 hoff
      · exact hoff
    exact (settle_chosen v₁ ret).2 (hout.isAuthOn.trans hstart)
  | @resolved answer io v₁ ret hst hres =>
    refine (settle_chosen v₁ ret).2 ?_
    rw [hres.globals]
    exact hoff

theorem Step.chosen {ce : ConnEvent} (h : Step c v ce v') (hv : Chosen v.globals v.s) :
    Chosen v'.globals v'.s := by
  intro hst hdata
  cases h with
  | @ready fd write io v₁ ret hen hout =>
    simp only [settle_stm, Option.some.injEq] at hst
    obtain ⟨hhello, hoff⟩ := settle_chosen v₁ ret
    exact hoff (hout.isAuthOn.trans (hout.chosen (started_chosen hv) hst (hhello hdata)))
  | @resolved answer io v₁ ret hres hout =>
    simp only [settle_stm, Option.some.injEq] at hst
    cases hout with
    | unreachable => simp at hst
    | connect hlist hconnect => cases hconnect <;> simp at hst

theorem Step.of_helloWrite {ce : ConnEvent} (h : Step c v ce v') (hst : v.s.stm = some .helloWrite) :
    v'.s.stm = some .helloWrite ∨ v'.s.stm = some .error ∨
      v'.s.stm = some (if v.globals.isAuthOn then .authRead else .requestRead) := by
  cases h with
  | @ready fd write io v₁ ret hen hout =>
    have hstart : v.started = v := if_neg (by simp [hst])
    rw [hstart] at hout
    rw [settle_stm]
    cases hout <;> simp_all
  | resolved hres => simp [hst] at hres

end View

namespace World

open View
open Lib (Reaches)

variable {w₀ w w' : World} {c : ConnId}

theorem greets_rules : Rules anyEvent (fun _ => True) fun _ v => v.Greets (v.s.stm.getD .helloRead) where
  start hs hst hv _ _ := by
    rw [advance_stm]
    rw [hst] at hv
    exact ⟨Greets.advance hv, trivial⟩
  outcome hs hen hv _ _ hout := by
    rw [advance_stm]
    exact ⟨(hout.greets hs hv).advance, trivial⟩
  resolved hs hst hv _ _ hres := by
    rw [advance_stm]
    exact ⟨hres.greets.advance, trivial⟩
  ended {c v} hv := by
    show View.Greets v.ended (v.s.stm.getD .helloRead)
    cases hst : v.s.stm.getD .helloRead <;> rw [hst] at hv <;> exact hv
  frame {c v} g hv _ := by
    show View.Greets { v with globals := g } (v.s.stm.getD .helloRead)
    cases hst : v.s.stm.getD .helloRead <;> rw [hst] at hv <;> exact hv
  fresh addr _ := rfl
  turnedAway addr _ := rfl

/-- An event of a connection in HELLO_WRITE that announced 0x02 comes before any
HELLO_READ was initialised without users. -/
def MethodUndisturbed (w : World) (e : Event) : Prop :=
  Meets (fun _ s _ => s.stm = some .helloWrite → s.hello.data = socksHelloUsernamePassword →
    ¬ w.Opened) w e

structure Announced (w : World) : Prop where
  carries : Carries (fun _ => True) (fun _ v => v.Greets (v.s.stm.getD .helloRead)) w
  opened : w.globals.isAuthOn = false → w.Opened
  chosen : ∀ c conn, w.conns c = some conn → Chosen w.globals conn.s

theorem Announced.step (h : w.Announced) {e : Event} (hs : w.step e = some (.ok w')) :
    w'.Announced := by
  have hkept := greets_rules.kept
  have hcarries := h.carries.step hkept ⟨fun _ _ h => h, fun _ _ h => h⟩
    (fun _ _ _ _ _ => trivial) hs
  refine ⟨hcarries, h.carries.opened hkept h.opened hs hcarries.wired, fun c conn hc => ?_⟩
  rcases h.carries.step_cases hkept hs with ⟨c', v, ce, v', -, hshows, -, -, hstep, hrel⟩ | houtside
  · by_cases hne : c = c'
    · subst hne
      rw [hrel.shows.conn] at hc
      cases hc
      have hold := h.chosen c _ hshows.conn
      rw [hshows.globals] at hold
      rw [hrel.shows.globals]
      exact hstep.chosen hold
    · have hold := h.chosen c conn ((hrel.others.conns c hne).symm.trans hc)
      intro hst hdata
      have hoff := hold hst hdata
      rw [hshows.globals] at hoff
      rw [hrel.shows.globals]
      exact hstep.off hoff
  · by_cases hlt : c < w.allocated
    · have hold := h.chosen c conn ((houtside.same h.carries hlt).1.symm.trans hc)
      intro hst hdata
      rw [houtside.isAuthOn]
      exact hold hst hdata
    · intro hst
      have hnone := (houtside.fresh c conn (Nat.not_lt.mp hlt) hc).1
      simp [hnone] at hst

/-- The announced method is followed: in every run in which no HELLO_READ was
initialised without users before a connection that announced 0x02 leaves
HELLO_WRITE, the event of a connection in HELLO_WRITE leaves it there, ends it
or takes it to the phase of the method in its reply. -/
theorem announced_method_followed (h₀ : w₀.Initial)
    (h : Reaches World.step MethodUndisturbed w₀ w) {e : Event} (hok : MethodUndisturbed w e)
    (hs : w.step e = some (.ok w')) {conn : Conn} (hc : w.conns c = some conn)
    (hst : conn.s.stm = some .helloWrite) :
    ∃ m conn', helloReply conn.s = [0x05, m] ∧ w'.conns c = some conn' ∧ Follows m conn'.s.stm := by
  have hinv : w.Announced := by
    refine h.invariant (I := World.Announced) ⟨h₀.carries trivial, ?_, fun c conn hc => ?_⟩
      fun _ _ _ hw _ hs => hw.step hs
    · simp [h₀.isAuthOn]
    · simp [h₀.conns c] at hc
  obtain ⟨u, hu, hushape, hgreets⟩ := hinv.carries.view hc
  rw [hu.conn] at hc
  cases hc
  rw [hst] at hgreets
  have hreply : helloReply u.s = [0x05, u.s.hello.data] := hgreets
  refine ⟨u.s.hello.data, ?_⟩
  rcases hinv.carries.step_cases greets_rules.kept hs with
    ⟨c', v, ce, v', hcon, hshows, hshape, -, hstep, hrel⟩ | houtside
  · by_cases hne : c = c'
    · subst hne
      have hsame := hu.conn.symm.trans hshows.conn
      simp only [Option.some.injEq, Conn.mk.injEq] at hsame
      replace hst : v.s.stm = some .helloWrite := hsame.1 ▸ hst
      refine ⟨_, hreply, hrel.shows.conn, ?_⟩
      rcases hstep.of_helloWrite hst with h' | h' | h'
      · exact .inl h'
      · exact .inr (.inl h')
      · refine .inr (.inr ⟨fun hm => ?_, fun hm => ?_⟩)
        · have hlive := hshows.conn
          rw [hshape.body.live] at hlive
          have hclosed := hok c ce v.s hcon hlive hst (hsame.1 ▸ hm)
          cases hon : v.globals.isAuthOn with
          | true => simpa [hon] using h'
          | false => exact absurd (hinv.opened (hshows.globals ▸ hon)) hclosed
        · have hoff := hinv.chosen c _ hshows.conn (.inr hst) (hsame.1 ▸ hm)
          rw [hshows.globals] at hoff
          simpa [hoff] using h'
    · exact ⟨_, hreply, (hrel.others.conns c hne).trans hu.conn, .inl hst⟩
  · have hsame := (houtside.same hinv.carries (hinv.carries.wired.lt_allocated hu.conn)).1
    exact ⟨_, hreply, hsame.trans hu.conn, .inl hst⟩

instance (m : Byte) (st : Option SocksState) : Decidable (Follows m st) :=
  inferInstanceAs (Decidable (_ ∨ _ ∨ _))

instance (w : World) (e : Event) : Decidable (MethodUndisturbed w e) :=
  inferInstanceAs (Decidable (Meets _ w e))

def offers : List Event :=
  [.registerUser someName someName, .accept 3 { answer := some (4, {}) },
   .ready 4 false { recv := some [5, 1, 2] }]

def announces (e : Event) (next : SocksState) (w : World) : Bool :=
  (w.conns 0).any (fun conn => decide (conn.s.stm = some .helloWrite ∧ helloReply conn.s = [5, 2])) &&
    Lib.endsIn (fun w' => (w'.conns 0).any fun conn => decide (conn.s.stm = some next)) (w.step e)

theorem of_announces {e : Event} {next : SocksState} (h : announces e next w = true) :
    ∃ conn w' conn', w.conns 0 = some conn ∧ conn.s.stm = some .helloWrite ∧
      helloReply conn.s = [0x05, 0x02] ∧ w.step e = some (.ok w') ∧ w'.conns 0 = some conn' ∧
      conn'.s.stm = some next := by
  simp only [announces, Bool.and_eq_true] at h
  obtain ⟨conn, hc, hconn⟩ := (Option.any_eq_true ..).mp h.1
  obtain ⟨w', hs, hw'⟩ := Lib.endsIn_iff.mp h.2
  obtain ⟨conn', hc', hconn'⟩ := (Option.any_eq_true ..).mp hw'
  exact ⟨conn, w', conn', hc, (of_decide_eq_true hconn).1, (of_decide_eq_true hconn).2, hs, hc',
    of_decide_eq_true hconn'⟩

/-- The user is removed, and a second client arrives before the reply is sent. -/
theorem announced_method_dropped : ∃ w conn e w' conn', Reachable (startUp {}) w ∧
    w.conns 0 = some conn ∧ conn.s.stm = some .helloWrite ∧ helloReply conn.s = [0x05, 0x02] ∧
    w.step e = some (.ok w') ∧ w'.conns 0 = some conn' ∧ ¬ Follows 0x02 conn'.s.stm := by
  have hrun : Lib.endsIn (announces (.ready 4 true { send := some 2 }) .requestRead)
      (play (Meets anyEvent) (startUp {}) (offers ++
        [.unregisterUser someName, .accept 3 { answer := some (5, {}) },
         .ready 5 false { recv := some [5] }])) = true := by decide +kernel
  obtain ⟨w, hplay, hw⟩ := Lib.endsIn_iff.mp hrun
  obtain ⟨conn, w', conn', hc, hst, hreply, hs, hc', hst'⟩ := of_announces hw
  refine ⟨w, conn, _, w', conn', Lib.reaches_of_play hplay, hc, hst, hreply, hs, hc', ?_⟩
  rw [hst']
  decide

/-- The user is still there when the second client arrives. -/
theorem announced_method_kept : ∃ w conn e w' conn',
    Reaches World.step MethodUndisturbed (startUp {}) w ∧ MethodUndisturbed w e ∧
    w.conns 0 = some conn ∧ conn.s.stm = some .helloWrite ∧ helloReply conn.s = [0x05, 0x02] ∧
    w.step e = some (.ok w') ∧ w'.conns 0 = some conn' ∧ Follows 0x02 conn'.s.stm := by
  let e : Event := .ready 4 true { send := some 2 }
  have hrun : Lib.endsIn (fun w => announces e .authRead w && decide (MethodUndisturbed w e))
      (play MethodUndisturbed (startUp {}) (offers ++
        [.accept 3 { answer := some (5, {}) }, .ready 5 false { recv := some [5] }])) = true := by
    decide +kernel
  obtain ⟨w, hplay, hw⟩ := Lib.endsIn_iff.mp hrun
  rw [Bool.and_eq_true, decide_eq_true_eq] at hw
  obtain ⟨conn, w', conn', hc, hst, hreply, hs, hc', hst'⟩ := of_announces hw.1
  have hreach := Lib.reaches_of_play hplay
  obtain ⟨m, conn'', hm, hc'', hfollows⟩ :=
    announced_method_followed (startUp_initial (by decide)) hreach hw.2 hs hc hst
  rw [hreply, List.cons.injEq, List.cons.injEq] at hm
  rw [← hm.2.1, hc'.symm.trans hc'' |> Option.some.inj |>.symm] at hfollows
  exact ⟨w, conn, e, w', conn', hreach, hw.2, hc, hst, hreply, hs, hc', hfollows⟩

end World

end Socks5d
