import Socks5d.Connection.Log
import Socks5d.Lib.History
import Socks5d.Runs

/-!
# Authentication

Whether a connection has to authenticate is decided by `is_auth_on`, which all
connections share and which is cleared for good by the first HELLO_READ that
finds no users. As long as that has not happened, a connection that found users
reaches REQUEST_READ only after its own credentials were accepted.
-/

namespace Socks5d

open Lib (Justified)

def Protected (log : List Action) : Prop := ∃ n, 0 < n ∧ .helloInit n ∈ log

/-- `auth_process` found the credentials of the client among the users of that
moment. -/
def Granted (log : List Action) : Prop :=
  ∃ users auth, .authProcess users auth .succeeded ∈ log ∧ (users.authenticate auth).isSome

/-- A protected connection goes to REQUEST_READ through AUTH_WRITE, with its
credentials accepted. -/
def Authenticated (past : List Action) : Action → Prop
  | .enter old .requestRead => Protected past → old = some .authWrite ∧ Granted past
  | _ => True

theorem authenticated_of_ne {past : List Action} {old : Option SocksState} {next : SocksState}
    (h : next ≠ .requestRead) : Authenticated past (.enter old next) := by
  cases next <;> trivial

theorem authenticated_of_not_jump {past : List Action} {a : Action} (h : a.isJump = false) :
    Authenticated past a := by
  cases a <;> trivial

theorem Granted.mono {l l' : List Action} (h : Granted l) (hl : l <+: l') : Granted l' := by
  obtain ⟨users, auth, hmem, hsome⟩ := h
  exact ⟨users, auth, hl.subset hmem, hsome⟩

def AuthOn : World.Condition := fun g s _ =>
  s.stm = some .helloWrite → Protected s.log → g.isAuthOn = true

namespace View

variable {v v' : View} {io : Io} {c : ConnId}

structure Checked (v : View) : Prop where
  log : Justified Authenticated v.s.log
  granted : v.s.stm = some .authWrite → v.s.auth.status = .succeeded → Granted v.s.log

theorem Outcome.requestRead {fd : Nat} {write : Bool} {ret : SocksState}
    (h : Outcome io c v fd write v' ret) (hret : ret = .requestRead) :
    (v.s.stm = some .helloWrite ∧ v.globals.isAuthOn = false) ∨
      (v.s.stm = some .authWrite ∧ v.s.auth.status = .succeeded) ∨ v.s.stm = some .requestRead := by
  cases h with
  | helloDone => split at hret <;> cases hret
  | helloSent hst hs hleft =>
    cases hon : v.globals.isAuthOn with
    | false => exact .inl ⟨hst, rfl⟩
    | true => simp [hon] at hret
  | authDone => split at hret <;> cases hret
  | authSent hst hs hleft hstatus => exact .inr (.inl ⟨hst, hstatus⟩)
  | requestMore hst => exact .inr (.inr hst)
  | requestDone hst => exact .inr (.inr hst)
  | copyReceived | copyEnded | copySent | copyFailed =>
    unfold copyNext at hret
    split at hret <;> cases hret
  | _ => cases hret

theorem Outcome.authWrite {fd : Nat} {write : Bool} {ret : SocksState}
    (h : Outcome io c v fd write v' ret) (hret : ret = .authWrite) :
    (v.s.stm = some .authWrite ∧ v'.s.auth = v.s.auth) ∨
      (v'.s.auth.status = .succeeded → Granted v'.s.log) := by
  cases h with
  | helloDone => split at hret <;> cases hret
  | helloSent => split at hret <;> cases hret
  | authDone hst hr hc hdone hstatus hwb =>
    refine .inr fun hsucc => ?_
    obtain rfl : _ = AuthStatus.succeeded := hsucc
    split at hstatus
    · exact ⟨_, _, List.mem_append_right _ (List.mem_singleton.mpr rfl), ‹_›⟩
    · cases hstatus
  | authPart hst => exact .inl ⟨hst, rfl⟩
  | requestMore => split at hret <;> cases hret
  | requestDone hst hr hc hdone hprocess =>
    cases hprocess with
    | connect htype hconnect => cases hconnect <;> cases hret
    | _ => cases hret
  | copyReceived | copyEnded | copySent | copyFailed =>
    unfold copyNext at hret
    split at hret <;> cases hret
  | _ => cases hret

theorem Checked.advance (hlog : Justified Authenticated v.s.log) {ret : SocksState}
    (henter : v.s.stm ≠ some ret → Authenticated v.s.log (.enter v.s.stm ret))
    (hgranted : ret = .authWrite → v.s.auth.status = .succeeded → Granted v.s.log) :
    (v.advance ret).Checked := by
  constructor
  · rw [advance_log]
    split
    · exact hlog
    · refine Justified.append (hlog.concat (henter ‹_›)) fun a ha _ => ?_
      split at ha
      · obtain rfl := List.mem_singleton.mp ha
        trivial
      · cases ha
  · intro hst hsucc
    rw [advance_stm, Option.some.injEq] at hst
    subst hst
    refine (hgranted rfl ?_).mono (advance_grows v _)
    unfold View.advance at hsucc
    split at hsucc <;> exact hsucc

theorem Outcome.checked {fd : Nat} {write : Bool} {ret : SocksState}
    (h : Outcome io c v fd write v' ret) (hv : v.Checked)
    (hon : v.s.stm = some .helloWrite → Protected v.s.log → v.globals.isAuthOn = true) :
    (v'.advance ret).Checked := by
  obtain ⟨lines, hlines, hjump⟩ := h.logs
  have hgrows := h.logs.grows
  have hprot : Protected v'.s.log → Protected v.s.log := by
    rintro ⟨n, hn, hmem⟩
    rw [hlines] at hmem
    rcases List.mem_append.mp hmem with hmem | hmem
    · exact ⟨n, hn, hmem⟩
    · cases hjump _ hmem
  refine Checked.advance ?_ (fun hst => ?_) fun hret hsucc => ?_
  · rw [hlines]
    exact hv.log.append fun a ha _ => authenticated_of_not_jump (hjump a ha)
  · by_cases hret : ret = .requestRead
    · subst hret
      intro hp
      rcases h.requestRead rfl with ⟨hw, hoff⟩ | ⟨hw, hs⟩ | hr
      · rw [hon hw (hprot hp)] at hoff
        cases hoff
      · exact ⟨h.stm.trans hw, (hv.granted hw hs).mono hgrows⟩
      · exact absurd (h.stm.trans hr) hst
    · exact authenticated_of_ne hret
  · rcases h.authWrite hret with ⟨hw, hauth⟩ | hg
    · exact (hv.granted hw (hauth ▸ hsucc)).mono hgrows
    · exact hg hsucc

theorem Resolved.checked {answer : Option (List AddrInfo)} {ret : SocksState}
    (h : Resolved io (v.answered answer) v' ret) (hv : v.Checked) : (v'.advance ret).Checked := by
  obtain ⟨lines, hlines, hjump⟩ := h.logs
  have hret : ret = .requestWrite ∨ ret = .requestConnecting := by
    cases h with
    | unreachable => exact .inl rfl
    | connect hlist hconnect => cases hconnect <;> simp
  refine Checked.advance ?_ (fun _ => authenticated_of_ne ?_) fun hauth => ?_
  · rw [hlines]
    exact hv.log.append fun a ha _ => authenticated_of_not_jump (hjump a ha)
  · rcases hret with rfl | rfl <;> decide
  · rcases hret with rfl | rfl <;> cases hauth

-- ---------------------------------------------------------------------------
-- The flag
-- ---------------------------------------------------------------------------

theorem Outcome.isAuthOn {fd : Nat} {write : Bool} {ret : SocksState}
    (h : Outcome io c v fd write v' ret) : v'.globals.isAuthOn = v.globals.isAuthOn := by
  cases h with
  | requestDone hst hr hc hdone hprocess =>
    cases hprocess with
    | connect htype hconnect => rw [hconnect.globals]; rfl
    | _ => rfl
  | retried hst herr he htype hcur hconnect => rw [hconnect.globals]; rfl
  | copyReceived hst hr hne hb v₁ h₁ =>
    subst h₁
    unfold copied
    split <;> rfl
  | copySent hst hs hb v₁ v₂ h₁ h₂ =>
    subst h₁ h₂
    obtain ⟨dp, lines, heq, -⟩ := disected_eq (v.noted _) _ _
    rw [heq]
    unfold copied
    split <;> rfl
  | copyEnded | copyFailed =>
    unfold copied
    split <;> rfl
  | _ => rfl

theorem advance_isAuthOn {next : SocksState} (h : (v.advance next).globals.isAuthOn = false) :
    v.globals.isAuthOn = false ∨ .helloInit 0 ∈ (v.advance next).s.log := by
  unfold advance at h ⊢
  split at h
  · exact .inl h
  · rw [if_neg ‹_›]
    cases next with
    | helloRead =>
      by_cases hzero : v.globals.users.registered = 0
      · exact .inr (by simp [arrive, enter, hzero])
      · exact .inl (by simpa [arrive, enter, hzero] using h)
    | _ => exact .inl h

theorem Step.isAuthOn {ce : ConnEvent} (h : Step c v ce v') (hoff : v'.globals.isAuthOn = false) :
    v.globals.isAuthOn = false ∨ .helloInit 0 ∈ v'.s.log := by
  have hsettle {v₁ : View} {ret : SocksState} (hoff : (v₁.settle ret).globals.isAuthOn = false) :
      v₁.globals.isAuthOn = false ∨ .helloInit 0 ∈ (v₁.settle ret).s.log := by
    rw [settle_log]
    refine advance_isAuthOn ?_
    unfold settle at hoff
    split at hoff <;> exact hoff
  cases h with
  | @ready fd write io v₁ ret hen hout =>
    rcases hsettle hoff with hoff | hmem
    · rw [hout.isAuthOn] at hoff
      unfold started at hoff hout
      split at hoff
      · rename_i hst
        rw [if_pos hst] at hout
        refine (advance_isAuthOn hoff).imp_right fun hmem => ?_
        rw [settle_log]
        exact (hout.logs.grows.trans (advance_grows v₁ ret)).subset hmem
      · exact .inl hoff
    · exact .inr hmem
  | resolved hst hres =>
    refine (hsettle hoff).imp_left fun hoff => ?_
    rwa [hres.globals] at hoff

end View

namespace World

open View
open Lib (Reaches)

variable {w₀ w w' : World}

theorem checked_rules : Rules AuthOn (fun _ => True) fun _ v => v.Checked where
  start hs hst hv _ _ :=
    ⟨Checked.advance hv.log (fun _ => trivial) fun h => (by cases h), trivial⟩
  outcome hs hen hv _ hcond hout := by
    refine ⟨hout.checked hv fun hst => ?_, trivial⟩
    exact hcond.resolve_left (by simp [hst]) hst
  resolved hs hst hv _ _ hres := ⟨hres.checked hv, trivial⟩
  ended hv := ⟨hv.log, hv.granted⟩
  frame g hv _ := ⟨hv.log, hv.granted⟩
  fresh addr _ := ⟨Lib.justified_nil, fun h => (by cases h)⟩
  turnedAway addr _ := ⟨Lib.justified_nil, fun h => (by cases h)⟩

/-- Some HELLO_READ was initialised without users. -/
def Opened (w : World) : Prop := ∃ c < w.allocated, ∃ conn ∈ w.conns c, .helloInit 0 ∈ conn.s.log

/-- An event of a protected connection in HELLO_WRITE comes before any HELLO_READ
was initialised without users. -/
def AuthUndisturbed (w : World) (e : Event) : Prop :=
  Meets (fun _ s _ => s.stm = some .helloWrite → Protected s.log → ¬ w.Opened) w e

theorem Carries.log_grows {G : Globals → Prop} {I : ConnId → View → Prop} {cond : Condition}
    (hkept : Kept cond G I) (h : Carries G I w) {e : Event} (hs : w.step e = some (.ok w'))
    {c : ConnId} {conn : Conn} (hc : w.conns c = some conn) :
    ∃ conn', w'.conns c = some conn' ∧ conn.s.log <+: conn'.s.log := by
  rcases h.step_cases hkept hs with ⟨c', v, ce, v', -, hshows, -, -, hstep, hrel⟩ | houtside
  · by_cases hne : c = c'
    · subst hne
      rw [hshows.conn] at hc
      cases hc
      exact ⟨_, hrel.shows.conn, hstep.grows⟩
    · exact ⟨conn, (hrel.others.conns c hne).trans hc, List.prefix_rfl⟩
  · exact ⟨conn, (houtside.same h (h.wired.lt_allocated hc)).1.trans hc, List.prefix_rfl⟩

theorem Carries.opened {I : ConnId → View → Prop} {cond : Condition}
    (hkept : Kept cond (fun _ => True) I) (h : Carries (fun _ => True) I w)
    (hopen : w.globals.isAuthOn = false → w.Opened) {e : Event} (hs : w.step e = some (.ok w'))
    (hw' : w'.Wired) (hoff : w'.globals.isAuthOn = false) : w'.Opened := by
  have hold : w.Opened → w'.Opened := by
    rintro ⟨c, -, conn, hc, hmem⟩
    obtain ⟨conn', hc', hgrows⟩ := h.log_grows hkept hs hc
    exact ⟨c, hw'.lt_allocated hc', conn', hc', hgrows.subset hmem⟩
  rcases h.step_cases hkept hs with ⟨c, v, ce, v', -, hshows, -, -, hstep, hrel⟩ | houtside
  · rw [hrel.shows.globals] at hoff
    rcases hstep.isAuthOn hoff with hoff | hmem
    · rw [← hshows.globals] at hoff
      exact hold (hopen hoff)
    · exact ⟨c, hw'.lt_allocated hrel.shows.conn, _, hrel.shows.conn, hmem⟩
  · exact hold (hopen (houtside.isAuthOn ▸ hoff))

/-- Authentication is not skipped: in every run in which no HELLO_READ was
initialised without users before a protected connection leaves HELLO_WRITE, such
a connection enters REQUEST_READ only from AUTH_WRITE, after credentials of its
own were found among the users of that moment. -/
theorem authentication_not_skipped (h₀ : w₀.Initial) (h : Reaches World.step AuthUndisturbed w₀ w)
    {c : ConnId} {conn : Conn} (hc : w.conns c = some conn) {past rest : List Action}
    {old : Option SocksState} (hlog : conn.s.log = past ++ .enter old .requestRead :: rest)
    (hp : Protected past) : old = some .authWrite ∧ Granted past := by
  have hinv : Carries (fun _ => True) (fun _ v => v.Checked) w ∧
      (w.globals.isAuthOn = false → w.Opened) := by
    refine h.invariant (I := fun w => Carries (fun _ => True) (fun _ v => v.Checked) w ∧
      (w.globals.isAuthOn = false → w.Opened)) ⟨h₀.carries trivial, ?_⟩ ?_
    · simp [h₀.isAuthOn]
    · intro w e w' ⟨hcarries, hopen⟩ hok hs
      have hmeets : Meets AuthOn w e := by
        intro c ce s hcon hc hst hprot
        by_contra hoff
        exact hok c ce s hcon hc hst hprot (hopen (by simpa using hoff))
      have hnext := hcarries.step checked_rules.kept ⟨fun _ _ h => h, fun _ _ h => h⟩ hmeets hs
      exact ⟨hnext, hcarries.opened checked_rules.kept hopen hs hnext.wired⟩
  obtain ⟨v, hv, -, hchecked⟩ := hinv.1.view hc
  rw [hv.conn] at hc
  cases hc
  exact hchecked.log past _ rest hlog hp

instance (log : List Action) : Decidable (Protected log) :=
  decidable_of_iff (log.any fun | .helloInit n => decide (0 < n) | _ => false) (by
    simp only [Protected, List.any_eq_true]
    constructor
    · rintro ⟨a, ha, hn⟩
      cases a with
      | helloInit n => exact ⟨n, of_decide_eq_true hn, ha⟩
      | _ => cases hn
    · rintro ⟨n, hn, ha⟩
      exact ⟨_, ha, decide_eq_true hn⟩)

instance (w : World) : Decidable w.Opened :=
  inferInstanceAs (Decidable (∃ c, c < w.allocated ∧ ∃ conn, conn ∈ w.conns c ∧ _))

instance (w : World) (e : Event) : Decidable (AuthUndisturbed w e) :=
  inferInstanceAs (Decidable (Meets _ w e))

def someName : CStr := ⟨[117], by decide⟩

def greets (fd : Nat) (method : Byte) : List Event :=
  [.accept 3 { answer := some (fd, {}) },
   .ready fd false { recv := some [5, 1, method] },
   .ready fd true { send := some 2 }]

/-- The first client comes before any user is registered, the second one after. -/
theorem authentication_skipped : ∃ w conn past rest, Reachable (startUp {}) w ∧
    w.conns 1 = some conn ∧ conn.s.log = past ++ .enter (some .helloWrite) .requestRead :: rest ∧
    Protected past := by
  have hrun : Lib.endsIn (fun w => (w.conns 1).any fun conn => decide (Protected (conn.s.log.take 5)) &&
        decide (conn.s.log.drop 5 = [.enter (some .helloWrite) .requestRead]))
      (play (Meets anyEvent) (startUp {})
        (greets 4 0 ++ .registerUser someName someName :: greets 5 0)) = true := by decide +kernel
  obtain ⟨w, hplay, hlog⟩ := Lib.endsIn_iff.mp hrun
  obtain ⟨conn, hc, hlog⟩ := (Option.any_eq_true ..).mp hlog
  simp only [Bool.and_eq_true, decide_eq_true_eq] at hlog
  refine ⟨w, conn, conn.s.log.take 5, [], Lib.reaches_of_play hplay, hc, ?_, hlog.1⟩
  rw [← hlog.2, List.take_append_drop]

/-- A client that finds a user and gives the user's credentials. -/
theorem authentication_in_time : ∃ w conn past rest, Reaches World.step AuthUndisturbed (startUp {}) w ∧
    w.conns 0 = some conn ∧ conn.s.log = past ++ .enter (some .authWrite) .requestRead :: rest ∧
    Protected past ∧ Granted past := by
  have hrun : Lib.endsIn (fun w => (w.conns 0).any fun conn => decide (Protected (conn.s.log.take 10)) &&
        decide (conn.s.log.drop 10 = [.enter (some .authWrite) .requestRead]))
      (play AuthUndisturbed (startUp {}) (.registerUser someName someName :: greets 4 2 ++
        [.ready 4 false { recv := some [1, 1, 117, 1, 117] },
         .ready 4 true { send := some 2 }])) = true := by decide +kernel
  obtain ⟨w, hplay, hlog⟩ := Lib.endsIn_iff.mp hrun
  obtain ⟨conn, hc, hlog⟩ := (Option.any_eq_true ..).mp hlog
  simp only [Bool.and_eq_true, decide_eq_true_eq] at hlog
  have hsplit : conn.s.log = conn.s.log.take 10 ++ .enter (some .authWrite) .requestRead :: [] := by
    rw [← hlog.2, List.take_append_drop]
  have hreach := Lib.reaches_of_play hplay
  exact ⟨w, conn, _, [], hreach, hc, hsplit, hlog.1,
    (authentication_not_skipped (startUp_initial (by decide)) hreach hc hsplit hlog.1).2⟩

end World

end Socks5d
