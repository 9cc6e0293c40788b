import Socks5d.Selector.Iteration
import Socks5d.Selector.Map

/-!
# selector.c: every ready descriptor has its turn

`handleIteration_fresh` says what an iteration never does. Here is what it does: the
handlers are called for ready descriptors in the order of the table, for reading
before for writing, once at most for each of the two; and a registration that was
ready when `pselect` returned has its call, unless an earlier handler of the
iteration made a call on that very descriptor.
-/

namespace Socks5d

variable {η δ : Type}

def SelectorCall.fd : SelectorCall η δ → Int
  | .register fd .. | .unregister fd | .setInterest fd _ => fd

def turn (fd : Nat) (write : Bool) : Nat := 2 * fd + if write then 1 else 0

def Delivery.turn (d : Delivery) : Nat := Socks5d.turn d.fd d.write

/-- No handler called before the turn of the descriptor makes a call on it. -/
def Untouched (h : Behaviour η δ) (ds : List Delivery) (i : Nat) (write : Bool) : Prop :=
  ∀ before d, before ++ [d] <+: ds → d.turn < turn i write →
    ∀ call ∈ h (before ++ [d]), call.fd ≠ i

theorem Untouched.of_prefix {h : Behaviour η δ} {ds ds' : List Delivery} {i : Nat} {write : Bool}
    (hun : Untouched h ds' i write) (hpre : ds <+: ds') : Untouched h ds i write :=
  fun before d hb => hun before d (hb.trans hpre)

open Selector

theorem SelectorCall.exec_kept {s : Selector η δ} (hs : s.Kept) (call : SelectorCall η δ) :
    ∃ s' st, call.exec s = .ok (s', st) ∧ s'.Kept ∧
      (s'.slaveR = s.slaveR ∧ s'.slaveW = s.slaveW) ∧
      ∀ i : Nat, call.fd ≠ i → s'.entry i = s.entry i := by
  have hframe {c : TableCall η δ} {s' : Selector η δ} {st : SelectorStatus}
      (hsim : Simulates c s s' st) {i : Nat} (hi : c.fd ≠ i) : s'.entry i = s.entry i := by
    by_cases hst : st = .success
    · unfold entry
      rw [((hsim.success hst).2 i (Ne.symm hi)).1]
    · rw [(hsim.failure hst).2]
  cases call with
  | register fd handler interest data =>
    obtain ⟨s', st, hrun, hkept, hsim⟩ := register_simulates hs true fd handler interest data
    have heff : (SelectorCall.register fd handler interest data).Effect s s' := exec_effect hs.ok hrun
    exact ⟨s', st, hrun, hkept, ⟨heff.slaveR, heff.slaveW⟩, fun i hi => hframe hsim hi⟩
  | unregister fd =>
    obtain ⟨s', st, hrun, hkept, hsim⟩ := unregister_simulates hs fd
    have heff : (SelectorCall.unregister fd).Effect s s' := exec_effect hs.ok hrun
    exact ⟨s', st, hrun, hkept, ⟨heff.slaveR, heff.slaveW⟩, fun i hi => hframe hsim hi⟩
  | setInterest fd interest =>
    obtain ⟨s', st, hrun, hkept, hsim⟩ := setInterest_simulates hs fd interest
    have heff : (SelectorCall.setInterest fd interest).Effect s s' := exec_effect hs.ok hrun
    exact ⟨s', st, hrun, hkept, ⟨heff.slaveR, heff.slaveW⟩, fun i hi => hframe hsim hi⟩

structure Iteration.Ordered (readyR readyW : FdSet) (t : Nat) (it : Iteration η δ) : Prop where
  kept : it.sel.Kept
  slaveR : it.sel.slaveR = readyR
  slaveW : it.sel.slaveW = readyW
  sorted : (it.deliveries.map Delivery.turn).Pairwise (· < ·)
  past : ∀ d ∈ it.deliveries, d.turn < t
  ready : ∀ d ∈ it.deliveries, (if d.write then readyW else readyR) d.fd = true
  fault : it.fault = none ∨ it.fault = some .assertion

def Iteration.Served (i : Nat) (write : Bool) (item : Item η δ) (t : Nat) (it : Iteration η δ) : Prop :=
  if t ≤ turn i write then it.sel.entry i = some item
  else ⟨i, write, item.serial⟩ ∈ it.deliveries

namespace Iteration

variable {readyR readyW : FdSet} {it : Iteration η δ} {t i : Nat} {write : Bool} {item : Item η δ}

theorem Ordered.later (ho : it.Ordered readyR readyW t) {t' : Nat} (ht : t ≤ t') :
    it.Ordered readyR readyW t' :=
  ⟨ho.kept, ho.slaveR, ho.slaveW, ho.sorted, fun d hd => Nat.lt_of_lt_of_le (ho.past d hd) ht,
    ho.ready, ho.fault⟩

theorem Ordered.exec (ho : it.Ordered readyR readyW t) (call : SelectorCall η δ) :
    (it.exec call).Ordered readyR readyW t ∧ (it.exec call).fault = it.fault ∧
      ∀ i : Nat, call.fd ≠ i → (it.exec call).sel.entry i = it.sel.entry i := by
  unfold Iteration.exec
  cases hf : it.fault with
  | some f => exact ⟨ho, hf, fun _ _ => rfl⟩
  | none =>
    obtain ⟨s', st, hrun, hkept, ⟨hr, hw⟩, hframe⟩ := SelectorCall.exec_kept ho.kept call
    simp only [hrun]
    exact ⟨⟨hkept, hr.trans ho.slaveR, hw.trans ho.slaveW, ho.sorted, ho.past, ho.ready, .inl rfl⟩,
      trivial, hframe⟩

theorem Ordered.execs (ho : it.Ordered readyR readyW t) (calls : List (SelectorCall η δ)) :
    (calls.foldl Iteration.exec it).Ordered readyR readyW t ∧
      (calls.foldl Iteration.exec it).fault = it.fault ∧
      ∀ i : Nat, (∀ call ∈ calls, call.fd ≠ i) →
        (calls.foldl Iteration.exec it).sel.entry i = it.sel.entry i := by
  induction calls generalizing it with
  | nil => exact ⟨ho, rfl, fun _ _ => rfl⟩
  | cons call calls ih =>
    obtain ⟨ho', hf', hframe⟩ := ho.exec call
    obtain ⟨ho'', hf'', hframes⟩ := ih ho'
    refine ⟨ho'', hf''.trans hf', fun i hi => (hframes i fun c hc => hi c (.tail _ hc)).trans ?_⟩
    exact hframe i (hi call (.head _))

variable {h : Behaviour η δ} {callbacks : Callbacks η}

theorem Ordered.lookup (ho : it.Ordered readyR readyW t) (hi : i < fdSetSize) :
    ∃ item, it.sel.fds[i]? = some item := by
  have hlt : i < it.sel.fds.length := Nat.lt_of_lt_of_le hi ho.kept.size
  exact ⟨_, List.getElem?_eq_getElem hlt⟩

theorem Ordered.deliver (ho : it.Ordered readyR readyW (turn i write)) (serial : Nat)
    (hbit : (if write then readyW else readyR) i = true) :
    (it.deliver h ⟨i, write, serial⟩).Ordered readyR readyW (turn i write + 1) ∧
      (it.deliver h ⟨i, write, serial⟩).fault = it.fault ∧
      ∀ j : Nat, (∀ call ∈ h (it.deliveries ++ [⟨i, write, serial⟩]), call.fd ≠ j) →
        (it.deliver h ⟨i, write, serial⟩).sel.entry j = it.sel.entry j := by
  have hnew : ({ it with deliveries := it.deliveries ++ [⟨i, write, serial⟩] } :
      Iteration η δ).Ordered readyR readyW (turn i write + 1) := by
    refine ⟨ho.kept, ho.slaveR, ho.slaveW, ?_, fun d hd => ?_, fun d hd => ?_, ho.fault⟩
    · rw [List.map_append, List.pairwise_append]
      refine ⟨ho.sorted, List.pairwise_singleton .., fun a ha b hb => ?_⟩
      obtain ⟨d, hd, rfl⟩ := List.mem_map.mp ha
      obtain rfl : b = turn i write := by simpa [Delivery.turn] using hb
      exact ho.past d hd
    · rcases List.mem_append.mp hd with hd | hd
      · exact Nat.lt_succ_of_lt (ho.past d hd)
      · rw [List.mem_singleton.mp hd]
        exact Nat.lt_succ_self _
    · rcases List.mem_append.mp hd with hd | hd
      · exact ho.ready d hd
      · rw [List.mem_singleton.mp hd]
        exact hbit
  exact hnew.execs _

theorem Ordered.bit (ho : it.Ordered readyR readyW t) (hget : it.sel.fds[i]? = some item)
    (hready : it.ready write item = true) : (if write then readyW else readyR) i = true := by
  have hinv : ({ it with deliveries := [] } : Iteration η δ).Inv it.sel readyR readyW fun _ => False :=
    ⟨ho.kept.ok, ho.slaveR, ho.slaveW, fun _ _ h => h.elim, fun d hd => absurd hd List.not_mem_nil⟩
  exact (entry_of_ready hinv hget hready).2

theorem Ordered.visit (ho : it.Ordered readyR readyW (turn i write)) (hi : i < fdSetSize) :
    (it.visit h callbacks i write).Ordered readyR readyW (turn i write + 1) := by
  have hlater := ho.later (Nat.le_succ (turn i write))
  obtain ⟨item, hget⟩ := ho.lookup hi
  unfold Iteration.visit
  cases hf : it.fault with
  | some f => exact hlater
  | none =>
    simp only [hget]
    split
    · rename_i hready
      split
      · exact (ho.deliver item.serial (ho.bit hget hready)).1
      · exact ⟨hlater.kept, hlater.slaveR, hlater.slaveW, hlater.sorted, hlater.past, hlater.ready,
          .inr rfl⟩
    · exact hlater

theorem turn_inj {j : Nat} {w : Bool} (heq : turn i write = turn j w) : i = j ∧ write = w := by
  unfold turn at heq
  cases write <;> cases w <;> simp at heq ⊢ <;> omega

theorem Served.visit {j : Nat} {w : Bool} (hserved : it.Served j w item (turn i write))
    (ho : it.Ordered readyR readyW (turn i write)) (hi : i < fdSetSize)
    (hbit : (if w then readyW else readyR) j = true)
    (hwants : (if w then item.interest.write else item.interest.read) = true)
    (hun : Untouched h (it.visit h callbacks i write).deliveries j w)
    (hfault : (it.visit h callbacks i write).fault = none) :
    (it.visit h callbacks i write).Served j w item (turn i write + 1) := by
  have hpre := deliveries_visit h callbacks i write it
  unfold Served at hserved ⊢
  by_cases hlate : turn j w < turn i write
  · rw [if_neg (by omega)] at hserved ⊢
    exact hpre.subset hserved
  rw [if_pos (by omega)] at hserved
  obtain ⟨item', hget⟩ := ho.lookup hi
  by_cases hnow : turn i write = turn j w
  · -- its own turn
    obtain ⟨rfl, rfl⟩ := turn_inj hnow
    rw [if_neg (by omega)]
    rw [getElem?_of_entry hserved, Option.some.injEq] at hget
    subst hget
    have hready : it.ready write item = true := by
      have hfd := ho.kept.ok.fd_eq hserved
      cases write <;> simp_all [ready, fdIsset, ho.slaveR, ho.slaveW]
    unfold Iteration.visit at hfault ⊢
    cases hf : it.fault with
    | some f => simp [hf] at hfault
    | none =>
      simp only [hf, getElem?_of_entry hserved, hready, ↓reduceIte] at hfault ⊢
      by_cases hcallback : item.handler.any (callbacks.has write) = true
      · rw [if_pos hcallback]
        simp [Iteration.deliver, deliveries_execs]
      · rw [if_neg hcallback] at hfault
        cases hfault
  · -- an earlier one
    rw [if_pos (by omega)]
    unfold Iteration.visit at hun ⊢
    cases hf : it.fault with
    | some f => exact hserved
    | none =>
      simp only [hf, hget] at hun ⊢
      split
      · rename_i hready
        split
        · rename_i hcallback
          rw [if_pos hready, if_pos hcallback] at hun
          rw [(ho.deliver item'.serial (ho.bit hget hready)).2.2 j]
          · exact hserved
          · refine hun it.deliveries _ ?_ (by simp only [Delivery.turn]; omega)
            simp [Iteration.deliver, deliveries_execs]
        · exact hserved
      · exact hserved

theorem turn_next (i : Nat) : turn i true = turn i false + 1 ∧ turn (i + 1) false = turn i true + 1 := by
  refine ⟨by simp [turn], ?_⟩
  simp only [turn, Bool.false_eq_true, ↓reduceIte]
  omega

theorem Ordered.body (ho : it.Ordered readyR readyW (turn i false)) (hi : i < fdSetSize) :
    (it.body h callbacks i).Ordered readyR readyW (turn (i + 1) false) := by
  obtain ⟨hsecond, hnext⟩ := turn_next i
  have hlater := ho.later (show turn i false ≤ turn (i + 1) false by omega)
  obtain ⟨item, hget⟩ := ho.lookup hi
  unfold Iteration.body
  cases hf : it.fault with
  | some f => exact hlater
  | none =>
    simp only [hget]
    split
    · have hread : (it.visit h callbacks i false).Ordered readyR readyW (turn i false + 1) := ho.visit hi
      rw [← hsecond] at hread
      rw [hnext]
      exact hread.visit hi
    · exact hlater

theorem fault_visit (hfault : (it.visit h callbacks i write).fault = none) : it.fault = none := by
  cases hf : it.fault with
  | none => rfl
  | some f => simp [Iteration.visit, hf] at hfault

theorem fault_body (hfault : (it.body h callbacks i).fault = none) : it.fault = none := by
  cases hf : it.fault with
  | none => rfl
  | some f => simp [Iteration.body, hf] at hfault

theorem Served.body {j : Nat} {w : Bool} (hserved : it.Served j w item (turn i false))
    (ho : it.Ordered readyR readyW (turn i false)) (hi : i < fdSetSize)
    (hbit : (if w then readyW else readyR) j = true)
    (hwants : (if w then item.interest.write else item.interest.read) = true)
    (hun : Untouched h (it.body h callbacks i).deliveries j w)
    (hfault : (it.body h callbacks i).fault = none) :
    (it.body h callbacks i).Served j w item (turn (i + 1) false) := by
  obtain ⟨hsecond, hnext⟩ := turn_next i
  obtain ⟨item', hget⟩ := ho.lookup hi
  have hf := fault_body hfault
  unfold Iteration.body at hun hfault ⊢
  simp only [hf, hget] at hun hfault ⊢
  split
  · rename_i hused
    rw [if_pos hused] at hun hfault
    have hread : (it.visit h callbacks i false).Ordered readyR readyW (turn i false + 1) := ho.visit hi
    have hfirst := hserved.visit ho hi hbit hwants
      (hun.of_prefix (deliveries_visit h callbacks i true _)) (fault_visit hfault)
    rw [← hsecond] at hread hfirst
    rw [hnext]
    exact hfirst.visit hread hi hbit hwants hun hfault
  · rename_i hunused
    -- a used item is not passed over
    unfold Served at hserved ⊢
    by_cases hle : turn i false ≤ turn j w
    · rw [if_pos hle] at hserved
      have hne : i ≠ j := by
        rintro rfl
        rw [getElem?_of_entry hserved, Option.some.injEq] at hget
        exact hunused (hget ▸ used_of_entry hserved)
      rw [if_pos]
      · exact hserved
      · simp only [turn, ↓reduceIte, Bool.false_eq_true] at hle ⊢
        cases w <;> simp only [↓reduceIte, Bool.false_eq_true] at hle ⊢ <;> omega
    · rw [if_neg hle] at hserved
      rw [if_neg (by omega)]
      exact hserved

end Iteration

/-- The turns of an iteration, for any handlers: the ready descriptors are served in
the order of the table, for reading before for writing and once at most each; and
every registration that was ready when the sets were copied is served, unless a
handler called earlier in the iteration makes a call on its descriptor or the loop
meets a null callback, which is the only way to fail. -/
theorem handleIteration_serves {s : Selector η δ} (hs : s.Kept) (readyR readyW : FdSet)
    (hsubR : ∀ n, readyR n = true → s.masterR n = true)
    (hsubW : ∀ n, readyW n = true → s.masterW n = true) (h : Behaviour η δ)
    (callbacks : Callbacks η) :
    ((selectorSelect h callbacks readyR readyW s).deliveries.map Delivery.turn).Pairwise (· < ·) ∧
    (∀ d ∈ (selectorSelect h callbacks readyR readyW s).deliveries,
      (if d.write then readyW else readyR) d.fd = true) ∧
    ((selectorSelect h callbacks readyR readyW s).fault = none ∨
      (selectorSelect h callbacks readyR readyW s).fault = some .assertion) ∧
    ((selectorSelect h callbacks readyR readyW s).fault = none →
      ∀ i write, (if write then readyW else readyR) i = true →
        Untouched h (selectorSelect h callbacks readyR readyW s).deliveries i write →
        ∃ item, s.entry i = some item ∧
          ⟨i, write, item.serial⟩ ∈ (selectorSelect h callbacks readyR readyW s).deliveries) := by
  let start : Iteration η δ := { sel := { s with slaveR := readyR, slaveW := readyW } }
  have hok := hs.ok
  have hstart : start.Ordered readyR readyW (turn 0 false) :=
    ⟨⟨⟨hok.fd_eq, hok.lt, hok.le_maxFd, hok.masterR, hok.masterW, hok.serial_lt⟩,
      hs.size, hs.maxUsed⟩,
      rfl, rfl, .nil, fun d hd => absurd hd List.not_mem_nil, fun d hd => absurd hd List.not_mem_nil,
      .inl rfl⟩
  have hmax : s.maxFd < fdSetSize := by
    rcases hs.maxUsed with hzero | hsome
    · rw [hzero]
      decide
    · obtain ⟨item, hitem⟩ := Option.isSome_iff_exists.mp hsome
      exact hok.lt hitem
  have hsucc (n : Nat) : (List.range (n + 1)).foldl (Iteration.body h callbacks) start =
      ((List.range n).foldl (Iteration.body h callbacks) start).body h callbacks n := by
    rw [List.range_succ, List.foldl_append, List.foldl_cons, List.foldl_nil]
  have hloop (n : Nat) (hn : n ≤ fdSetSize) :
      ((List.range n).foldl (Iteration.body h callbacks) start).Ordered readyR readyW (turn n false) := by
    induction n with
    | zero => exact hstart
    | succ n ih =>
      rw [hsucc]
      exact (ih (by omega)).body hn
  have hend := hloop (s.maxFd + 1) hmax
  refine ⟨hend.sorted, hend.ready, hend.fault, fun hfault i write hbit hun => ?_⟩
  obtain ⟨item, hentry, hwants⟩ : ∃ item, s.entry i = some item ∧
      (if write then item.interest.write else item.interest.read) = true := by
    cases write with
    | true =>
      have hmaster := hsubW i hbit
      rw [hok.masterW, Option.any_eq_true] at hmaster
      exact hmaster
    | false =>
      have hmaster := hsubR i hbit
      rw [hok.masterR, Option.any_eq_true] at hmaster
      exact hmaster
  refine ⟨item, hentry, ?_⟩
  have hserves (n : Nat) (hn : n ≤ fdSetSize) :
      ((List.range n).foldl (Iteration.body h callbacks) start).fault = none →
      Untouched h ((List.range n).foldl (Iteration.body h callbacks) start).deliveries i write →
      ((List.range n).foldl (Iteration.body h callbacks) start).Served i write item (turn n false) := by
    induction n with
    | zero =>
      intro _ _
      show Iteration.Served i write item (turn 0 false) start
      unfold Iteration.Served
      rw [if_pos (by simp [turn])]
      exact hentry
    | succ n ih =>
      rw [hsucc]
      intro hf hun
      have hprev := ih (by omega) (Iteration.fault_body hf)
        (hun.of_prefix (Iteration.deliveries_body h callbacks _ n))
      exact hprev.body (hloop n (by omega)) hn hbit hwants hun hf
  have hserved := hserves (s.maxFd + 1) hmax hfault hun
  unfold Iteration.Served at hserved
  have hle := hok.le_maxFd hentry
  rwa [if_neg (by simp only [turn, ↓reduceIte, Bool.false_eq_true]; cases write <;> simp <;> omega)]
    at hserved

theorem Selector.kept_after {s : Selector η δ} (hs : s.Kept) (calls : List (SelectorCall η δ)) :
    (s.after calls).Kept := by
  have hstart : ({ sel := s } : Iteration η δ).Ordered s.slaveR s.slaveW 0 :=
    ⟨hs, rfl, rfl, .nil, fun d hd => absurd hd List.not_mem_nil, fun d hd => absurd hd List.not_mem_nil,
      .inl rfl⟩
  exact (hstart.execs calls).1.kept

def threeServed : Selector Unit Unit :=
  Selector.after { fds := List.replicate 1025 {} }
    [.register 3 () opRead none, .register 4 () opRead none, .register 5 () ⟨true, true⟩ none]

theorem threeServed_kept : threeServed.Kept := by
  refine Selector.kept_after ⟨Selector.ok_empty 1025, ?_, .inl rfl⟩ _
  rw [List.length_replicate]
  decide

/-- The first handler ends its connection, and the second descriptor is served. -/
theorem handleIteration_serves_second : ∃ item, threeServed.entry 4 = some item ∧
    ⟨4, false, item.serial⟩ ∈ (selectorSelect endFirst allCallbacks (fun n => n == 3 || n == 4)
      (fun n => n == 5) threeServed).deliveries := by
  have hmasters : threeServed.masterR 3 = true ∧ threeServed.masterR 4 = true ∧
      threeServed.masterW 5 = true ∧ (selectorSelect endFirst allCallbacks
        (fun n => n == 3 || n == 4) (fun n => n == 5) threeServed).fault = none := by
    decide +kernel
  obtain ⟨h3, h4, h5, hfault⟩ := hmasters
  refine (handleIteration_serves threeServed_kept (fun n => n == 3 || n == 4) (fun n => n == 5) ?_ ?_
    endFirst allCallbacks).2.2.2 hfault 4 false rfl ?_
  · intro n hn
    simp only [Bool.or_eq_true, beq_iff_eq] at hn
    rcases hn with rfl | rfl
    · exact h3
    · exact h4
  · intro n hn
    simp only [beq_iff_eq] at hn
    subst hn
    exact h5
  · intro before d _ _ call hmem
    unfold endFirst at hmem
    split at hmem
    · simp only [List.mem_cons, List.not_mem_nil, or_false] at hmem
      rcases hmem with rfl | rfl <;> decide
    · cases hmem

end Socks5d
