import Socks5d.Connection.Log
import Socks5d.Runs

/-!
# The calls of `abort`

The process is ended by a state without a handler for an event, by a reply that
does not fit in the write buffer, and by a selector that refuses an operation.
The shape of the connections excludes all but the second. A reply does not fit
when too many were put in the buffer before: in REQUEST_CONNECTING a retry whose
`connect` fails at once leaves a reply behind and goes on.
-/

namespace Socks5d

namespace ConnEvent

def io : ConnEvent → Io
  | .ready _ _ io => io
  | .resolved _ io => io

end ConnEvent

def maxReplies : Nat := 102

/-- `malloc`, `pthread_create` and `fcntl` succeed, and a `connect` of a
non-blocking socket does not return 0. -/
def Assumed : World.Condition := fun _ _ ce =>
  ce.io.malloc = true ∧ ce.io.thread = true ∧ ce.io.nio = true ∧ ce.io.connect ≠ none

/-- The assumptions, and an event in REQUEST_CONNECTING comes before 102
replies were put in the buffer. -/
def FewReplies : World.Condition := fun g s ce =>
  Assumed g s ce ∧ (s.stm = some .requestConnecting → marshalled s.log < maxReplies)

namespace View

variable {v v' : View} {io : Io} {c : ConnId}

def Roomy (v : View) : SocksState → Prop
  | .requestConnecting =>
    v.peer ≠ .opened ∧ v.s.writeBuffer.space + 10 * marshalled v.s.log = rawBufferSize
  | .requestWrite | .copy | .done | .error => True
  | _ => marshalled v.s.log = 0

theorem Roomy.advance {next : SocksState} (h : v.Roomy next) : (v.advance next).Roomy next := by
  have hlog := marshalled_advance v next
  have hrest : (v.advance next).peer = v.peer ∧
      (v.advance next).s.writeBuffer = v.s.writeBuffer := by
    unfold View.advance
    split
    · exact ⟨rfl, rfl⟩
    · cases next <;> exact ⟨rfl, rfl⟩
  cases next <;> simp only [Roomy, hlog, hrest] at h ⊢ <;> exact h

/-- With `fcntl` out of the way every event in REQUEST_CONNECTING is a write. -/
theorem ConnectingLinks.enabled_write (h : v.ConnectingLinks) (hpeer : v.peer ≠ .opened) {fd : Nat}
    {write : Bool} (hen : v.Enabled fd write) : write = true := by
  rcases h with ⟨hc, hp, -⟩ | ⟨hc, ha⟩ | ⟨-, hp, -⟩
  · rcases hen.cases with ⟨-, hw⟩ | ⟨-, -, hw⟩
    · rw [hc] at hw
      cases write <;> cases hw
    · rw [hp] at hw
      cases write with
      | true => rfl
      | false => cases hw
  · obtain ⟨-, hw⟩ := hen.client ha.1
    rw [hc] at hw
    cases write with
    | true => rfl
    | false => cases hw
  · exact absurd hp hpeer

theorem space_reply {b b' : Buffer} {status : SocksStatus} (h : b.Fills (requestReply status) b') :
    b'.space + 10 = b.space := by
  have hspace := h.space
  have hroom := h.room
  rw [length_requestReply] at hspace hroom
  omega

theorem Connect.roomy {ret : SocksState} (h : Connect io v v' ret) (hnio : io.nio = true)
    (hroom : v.s.writeBuffer.space + 10 * marshalled v.s.log = rawBufferSize)
    (hpeer : v.peer = .closed) : v'.Roomy .requestConnecting := by
  cases h with
  | noSocket hio hwb =>
    have := space_reply hwb
    refine ⟨by simp [replied, socketed, hpeer], ?_⟩
    simp only [replied, socketed, marshalled_append, marshalled_cons, Action.isMarshall,
      marshalled_nil, Bool.false_eq_true, ↓reduceIte]
    omega
  | noNio hio hn hno =>
    rw [hnio] at hno
    cases hno
  | failed hio hn _ hconnect hzero herrno hwb =>
    have : _ = v.s.writeBuffer.space := space_reply hwb
    refine ⟨by simp [replied, gaveUp], ?_⟩
    simp only [replied, gaveUp, marshalled_append, marshalled_cons, Action.isMarshall,
      marshalled_nil, Bool.false_eq_true, ↓reduceIte]
    omega
  | unregistered hio hn _ hconnect hlarge hwb =>
    have : _ = v.s.writeBuffer.space := space_reply hwb
    refine ⟨by simp [replied, gaveUp], ?_⟩
    simp only [replied, gaveUp, marshalled_append, marshalled_cons, Action.isMarshall,
      marshalled_nil, Bool.false_eq_true, ↓reduceIte]
    omega
  | pending hio hn _ hconnect hlarge =>
    refine ⟨by simp, ?_⟩
    simp only [marshalled_append, marshalled_cons, Action.isMarshall, marshalled_nil,
      Bool.false_eq_true, ↓reduceIte]
    omega

theorem Connect.roomy_first {ret : SocksState} (h : Connect io v v' ret) (hnio : io.nio = true)
    (hroom : v.s.writeBuffer.space = rawBufferSize) (hlog : marshalled v.s.log = 0)
    (hpeer : v.peer = .closed) : v'.Roomy ret := by
  have hconnecting := h.roomy hnio (by rw [hroom, hlog, Nat.mul_zero, Nat.add_zero]) hpeer
  cases h with
  | noNio => exact hconnecting
  | pending => exact hconnecting
  | _ => trivial

theorem Outcome.roomy {fd : Nat} {write : Bool} {ret : SocksState}
    (h : Outcome io c v fd write v' ret) (hs : v.Shape c)
    (hcond : v.s.stm = some .helloRead ∨ io.nio = true)
    (hi : v.Roomy (v.s.stm.getD .helloRead)) : v'.Roomy ret := by
  have hat {st : SocksState} (hst : v.s.stm = some st) : v.Roomy st := by
    rw [hst] at hi
    exact hi
  cases h with
  | recvFailed => trivial
  | sendFailed => trivial
  | helloMore hst hr hc hdone =>
    have hlog : marshalled v.s.log = 0 := hat hst
    simp [Roomy, received, hlog, Action.isMarshall]
  | helloDone hst hr hc hdone hwb =>
    have hlog : marshalled v.s.log = 0 := hat hst
    split
    · trivial
    · simp [Roomy, received, hlog, Action.isMarshall]
  | helloPart hst hsends hleft =>
    have hlog : marshalled v.s.log = 0 := hat hst
    simp [Roomy, sent, hlog, Action.isMarshall]
  | helloSent hst hsends hleft =>
    have hlog : marshalled v.s.log = 0 := hat hst
    split <;> simp [Roomy, sent, hlog, Action.isMarshall]
  | authMore hst hr hc hdone =>
    have hlog : marshalled v.s.log = 0 := hat hst
    simp [Roomy, received, hlog, Action.isMarshall]
  | authDone hst hr hc hdone hstatus hwb =>
    have hlog : marshalled v.s.log = 0 := hat hst
    split
    · trivial
    · simp [Roomy, received, hlog, Action.isMarshall]
  | authPart hst hsends hleft =>
    have hlog : marshalled v.s.log = 0 := hat hst
    simp [Roomy, sent, hlog, Action.isMarshall]
  | authSent hst hsends hleft hstatus =>
    have hlog : marshalled v.s.log = 0 := hat hst
    simp [Roomy, sent, hlog, Action.isMarshall]
  | authRejected hst hsends hleft hstatus => trivial
  | requestMore hst hr hc hdone =>
    have hlog : marshalled v.s.log = 0 := hat hst
    split
    · trivial
    · simp [Roomy, received, hlog, Action.isMarshall]
  | requestDone hst hr hc hdone hprocess =>
    have hlog : marshalled v.s.log = 0 := hat hst
    obtain ⟨-, ha, hwb, -⟩ := hs.phase_of hst
    have hnio : io.nio = true := hcond.resolve_left (by simp [hst])
    cases hprocess with
    | refused => trivial
    | resolve => simp [Roomy, received, hlog, Action.isMarshall]
    | connect htype hconnect =>
      have hspace : v.s.writeBuffer.space = rawBufferSize := space_of_empty hs.body hwb
      refine hconnect.roomy_first hnio hspace ?_ ha.1
      simp [received, hlog, Action.isMarshall]
  | concluded hst hstatus hwb => trivial
  | retried hst herr he htype hcur hconnect =>
    have hnio : io.nio = true := hcond.resolve_left (by simp [hst])
    refine hconnect.roomy hnio ?_ rfl
    simp only [dropPeer, aimed, noted, marshalled_append, marshalled_cons, Action.isMarshall,
      marshalled_nil, Bool.false_eq_true, ↓reduceIte, Nat.add_zero]
    exact (hat hst).2
  | replyPart hst hsends hleft => trivial
  | replySent hst hsends hleft hstatus => trivial
  | replyRefused hst hsends hleft hstatus => trivial
  | copyReceived | copyEnded | copySent | copyFailed =>
    unfold copyNext
    split <;> trivial

end View

namespace World

open View

theorem roomy_rules : Rules FewReplies (fun _ => True) fun _ v => v.Roomy (v.s.stm.getD .helloRead) := by
  refine ⟨fun {c v fd write io} hs hst hi _ _ => ⟨?_, trivial⟩,
    fun {c v fd write io v₁ ret} hs hen hi _ hcond hout => ⟨?_, trivial⟩,
    fun {c v answer io v₁ ret} hs hst hi _ hcond hres => ⟨?_, trivial⟩, fun {c v} hi => ?_,
    fun {c v} g hi _ => ?_, fun addr _ => rfl, fun addr _ => rfl⟩
  · rw [advance_stm]
    rw [hst] at hi
    exact Roomy.advance hi
  · rw [advance_stm]
    exact Roomy.advance (hout.roomy hs (hcond.imp_right fun h => h.1.2.2.1) hi)
  · rw [advance_stm]
    rw [hst] at hi
    have hlog : marshalled v.s.log = 0 := hi
    obtain ⟨-, ha, hwb, -⟩ := hs.phase_of hst
    cases hres with
    | unreachable => exact Roomy.advance trivial
    | connect hlist hconnect =>
      have hspace : v.s.writeBuffer.space = rawBufferSize := space_of_empty hs.body hwb
      refine Roomy.advance (hconnect.roomy_first hcond.1.2.2.1 hspace ?_ ha.1)
      simp [aimed, answered, hlog, Action.isMarshall]
  · show v.ended.Roomy (v.s.stm.getD .helloRead)
    cases hst : v.s.stm.getD .helloRead <;> rw [hst] at hi
    case requestConnecting => exact ⟨by simp [View.ended], hi.2⟩
    all_goals exact hi
  · show View.Roomy _ (v.s.stm.getD .helloRead)
    cases hst : v.s.stm.getD .helloRead <;> rw [hst] at hi <;> exact hi

/-- The process never aborts: in every run in which no event comes to a
connection in REQUEST_CONNECTING after 102 replies, an event ends with a fault
only when the answers given for its system calls are impossible. -/
theorem no_abort {w₀ w : World} (h₀ : w₀.Initial) (h : Runs FewReplies w₀ w) :
    (∀ e f, Meets FewReplies w e → w.step e = some (.error f) → f = .kernel) ∧
      ∀ c s, w.conns c = some ⟨s, true⟩ → s.stm = none ∨ s.stm = some .helloRead →
        2 ≤ s.writeBuffer.space := by
  have hcarries := reaches_carries roomy_rules.kept ⟨fun _ _ h => h, fun _ _ h => h⟩ h₀ trivial h
  refine ⟨fun e f hm hs => ?_, fun c s hc hst => ?_⟩
  · obtain ⟨hfault, -⟩ := hcarries.step_safe roomy_rules.kept hs
    refine (hfault f rfl).resolve_left ?_
    rintro rfl
    cases e with
    | ready fd write io =>
      obtain ⟨c, v, hcon, hshows, hshape, hi, hen, hd⟩ := hcarries.ready hs
      obtain ⟨hassumed, hfew⟩ := hshows.meets hm hcon hshape.body.live
      cases hd with
      | error hf =>
        rcases hf with (⟨-, hc | ⟨hst, hw⟩⟩ | ⟨hk, -⟩) | ⟨hk, -⟩
        · exact hassumed.2.2.2 hc
        · rw [hst] at hi
          obtain ⟨hpeer, hroom⟩ := hi
          have hlt := hfew hst
          rcases hw with rfl | hw
          · have hwrite := (hshape.phase_of hst).1.enabled_write hpeer hen
            cases hwrite
          · simp only [maxReplies, rawBufferSize] at hlt hroom
            omega
        · cases hk
        · cases hk
    | accept fd a =>
      rcases hcarries.accept roomy_rules.kept a with ⟨w₁, hw₁, -⟩ | hk
      · rw [step_accept hs] at hw₁
        cases hw₁
      · rw [step_accept hs] at hk
        cases hk
    | resolved key answer io =>
      obtain ⟨v, hshows, hshape, -, hst, hd⟩ := hcarries.resolved hs
      obtain ⟨hassumed, -⟩ := hshows.meets hm rfl hshape.body.live
      cases hd with
      | error hf =>
        rcases hf with (⟨-, hc | ⟨hst', -⟩⟩ | ⟨hk, -⟩) | ⟨hk, -⟩
        · exact hassumed.2.2.2 hc
        · rw [hst] at hst'
          cases hst'
        · cases hk
        · cases hk
    | _ => cases hs
  · obtain ⟨v, hv, rfl, hs, -⟩ := hcarries.live_view hc
    have hempty : v.s.writeBuffer.content = [] := by
      have hphase := hs.phase
      rcases hst with hst | hst <;> rw [hst] at hphase <;> exact hphase.2.2.1
    rw [space_of_empty hs.body hempty]
    omega

def refusedIo : Io := { sockError := some econnrefused, socket := some 5, connect := some econnrefused }

/-- A client asks for a name and gets one address after the other refused: the
first one late, the others at once. -/
def retries (addresses events : Nat) : List Event :=
  [.accept 3 { answer := some (4, {}) },
   .ready 4 false { recv := some [5, 1, 0], connect := some einprogress },
   .ready 4 true { send := some 2, connect := some einprogress },
   .ready 4 false { recv := some [5, 1, 0, 3, 1, 97, 0, 80], connect := some einprogress },
   .resolved ⟨4, 0⟩ (some (List.replicate addresses ⟨afInet, {}⟩))
     { socket := some 5, connect := some einprogress },
   .ready 5 true refusedIo] ++ List.replicate events (.ready 4 true refusedIo)

instance (g : Globals) (s : Socks5) (ce : ConnEvent) : Decidable (Assumed g s ce) :=
  inferInstanceAs (Decidable (_ ∧ _ ∧ _ ∧ _))

instance (g : Globals) (s : Socks5) (ce : ConnEvent) : Decidable (FewReplies g s ce) :=
  inferInstanceAs (Decidable (_ ∧ (_ → _)))

def aborts : Option (Except Fault World) → Bool
  | some (.error .abort) => true
  | _ => false

theorem aborts_iff {r : Option (Except Fault World)} :
    aborts r = true ↔ r = some (.error .abort) := by
  unfold aborts
  split <;> simp_all

/-- With 103 addresses the last reply does not fit. -/
theorem abort_retries : ∃ w e, Runs Assumed (startUp {}) w ∧ Meets Assumed w e ∧
    w.step e = some (.error .abort) := by
  have hrun : aborts (play (Meets Assumed) (startUp {}) (retries 103 102)) = true := by decide +kernel
  exact Lib.fault_of_play (aborts_iff.mp hrun)

/-- With two addresses the process goes on. -/
theorem no_abort_retries : ∃ w, Runs FewReplies (startUp {}) w ∧
    (w.conns 0).any (fun conn => marshalled conn.s.log = 1) = true ∧
    ∀ e f, Meets FewReplies w e → w.step e = some (.error f) → f = .kernel := by
  have hrun : Lib.endsIn (fun w => (w.conns 0).any fun conn => marshalled conn.s.log = 1)
      (play (Meets FewReplies) (startUp {}) (retries 2 0)) = true := by decide +kernel
  obtain ⟨w, hplay, hone⟩ := Lib.endsIn_iff.mp hrun
  exact ⟨w, Lib.reaches_of_play hplay, hone,
    (no_abort (startUp_initial (by decide)) (Lib.reaches_of_play hplay)).1⟩

end World

end Socks5d
