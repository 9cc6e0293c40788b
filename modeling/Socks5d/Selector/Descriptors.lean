import Socks5d.Selector.Iteration
import Socks5d.Selector.Map
import Socks5d.Selector.Capacity

/-!
# selector.c: descriptors that nobody registered

`INVALID_FD` compares with `FD_SETSIZE`, the table ends at `fd_size`, and
only `selector_register` looks at the latter. `harmless_iff` says for which
descriptors `selector_set_interest` and `selector_unregister_fd` stay inside
the table, whatever the history of the selector.
-/

namespace Socks5d

variable {η δ : Type}

namespace Selector

-- ---------------------------------------------------------------------------
-- The items that the operations look at
-- ---------------------------------------------------------------------------

def setInterestItems (fd : Int) : List Nat := if invalidFd fd then [] else [fd.toNat]

/-- The indices that `selector_unregister_fd` looks at; the loop of `items_max_fd`
goes over the items up to the cached maximum. -/
def unregisterFdItems (s : Selector η δ) (fd : Int) : List Nat :=
  if invalidFd fd then []
  else match s.registered fd with
    | .ok (some _) => fd.toNat :: List.range (s.maxFd + 1)
    | _ => [fd.toNat]

def IsRegistered (s : Selector η δ) (fd : Int) : Prop :=
  ∃ n : Nat, fd = n ∧ (s.entry n).isSome = true

/-- Only items of the table are looked at, and a descriptor that is not
registered is refused without a change. -/
structure Harmless (s : Selector η δ) (fd : Int) : Prop where
  setInterest : ∀ n ∈ setInterestItems fd, n < s.fds.length
  unregisterFd : ∀ n ∈ s.unregisterFdItems fd, n < s.fds.length
  refused : ¬ s.IsRegistered fd → (∀ i, selectorSetInterest s fd i = .ok (s, .iargs)) ∧
    selectorUnregisterFd s fd = .ok (s, .iargs)

/-- What `selector_new` makes, and what calls make of it, with any results of
the allocations. -/
inductive Made : Selector η δ → Prop
  | new {alloc : Bool} {initialElements : Nat} {s : Selector η δ} (hle : initialElements ≤ fdSetSize)
      (h : selectorNew alloc initialElements = some s) : Made s
  | call {s s' : Selector η δ} {alloc : Bool} {call : TableCall η δ} {st : SelectorStatus}
      (h : Made s) (hcall : call.exec alloc s = .ok (s', st)) : Made s'

-- ---------------------------------------------------------------------------
-- The cached maximum stays inside the table
-- ---------------------------------------------------------------------------

structure Bounded (s : Selector η δ) : Prop where
  ok : s.Ok
  maxFd : s.maxFd < s.fds.length

theorem bounded_new {alloc : Bool} {n : Nat} {s : Selector η δ} (hn : n ≤ fdSetSize)
    (h : selectorNew alloc n = some s) : s.Bounded := by
  cases alloc with
  | false =>
    simp only [selectorNew, ensureCapacity, List.length_nil, Nat.not_lt_zero, ↓reduceIte,
      Bool.false_eq_true, itemsMaxSize, gt_iff_lt, Nat.not_lt.mpr hn] at h
    cases h
  | true =>
    rw [selectorNew_eq n hn] at h
    cases h
    have hlt := lt_nextCapacity hn
    refine ⟨ok_empty _, ?_⟩
    rw [List.length_replicate]
    exact Nat.zero_lt_of_lt hlt

theorem ensureCapacity_cases (alloc : Bool) {s : Selector η δ} {n : Nat} (hn : n < fdSetSize) :
    ensureCapacity alloc s n = (s, .enomem) ∨
      ((ensureCapacity alloc s n).2 = .success ∧ n < (ensureCapacity alloc s n).1.fds.length ∧
        s.fds.length ≤ (ensureCapacity alloc s n).1.fds.length ∧
        (ensureCapacity alloc s n).1.maxFd = s.maxFd) := by
  have hmax : ¬ n > itemsMaxSize := Nat.not_lt.mpr (Nat.le_of_lt hn)
  have hlt := lt_nextCapacity (Nat.le_of_lt hn)
  by_cases hsize : n < s.fds.length
  · rw [ensureCapacity, if_pos hsize]
    exact .inr ⟨rfl, hsize, Nat.le_refl _, rfl⟩
  · rw [ensureCapacity, if_neg hsize, if_neg hmax]
    cases alloc with
    | false => exact .inl rfl
    | true =>
      refine .inr ⟨rfl, ?_, ?_, rfl⟩
      · simp only [↓reduceIte, List.length_append, List.length_replicate]
        omega
      · simp only [↓reduceIte, List.length_append, List.length_replicate]
        omega

theorem Bounded.ensureCapacity {s : Selector η δ} (h : s.Bounded) (alloc : Bool) {n : Nat}
    (hn : n < fdSetSize) : (ensureCapacity alloc s n).1.Bounded := by
  refine ⟨ok_ensureCapacity h.ok alloc n, ?_⟩
  rcases ensureCapacity_cases alloc (s := s) hn with heq | ⟨-, -, hle, hmax⟩
  · rw [heq]
    exact h.maxFd
  · rw [hmax]
    exact Nat.lt_of_lt_of_le h.maxFd hle

theorem Bounded.register_fitting {s s' : Selector η δ} {st : SelectorStatus} (h : s.Bounded) {n : Nat}
    (hn : n < fdSetSize) (hsize : n < s.fds.length) {alloc : Bool} {handler : η} {i : Interest}
    {data : Option δ} (hr : selectorRegister alloc s n handler i data = .ok (s', st)) :
    s'.Bounded := by
  cases he : s.entry n with
  | some item =>
    rw [register_inUse h.ok he] at hr
    cases hr
    exact h
  | none =>
    obtain ⟨s₁, hs₁, hok, hlength, -⟩ := register_spec h.ok hn hsize he alloc handler i data
    rw [register_eq hn hsize he] at hr hs₁
    cases hs₁
    cases hr
    refine ⟨hok, ?_⟩
    rw [hlength]
    exact Nat.max_lt.mpr ⟨h.maxFd, hsize⟩

theorem Bounded.register {s s' : Selector η δ} {st : SelectorStatus} (h : s.Bounded) {fd : Int}
    {alloc : Bool} {handler : η} {i : Interest} {data : Option δ}
    (hr : selectorRegister alloc s fd handler i data = .ok (s', st)) : s'.Bounded := by
  rcases fd_cases fd with hinvalid | ⟨n, rfl, hn⟩
  · rw [register_invalid s hinvalid] at hr
    cases hr
    exact h
  by_cases hsize : n < s.fds.length
  · exact h.register_fitting hn hsize hr
  · rcases ensureCapacity_cases alloc (s := s) hn with heq | ⟨hsuccess, hgrown, -, -⟩
    · have hvalid : invalidFd (n : Int) = false := by
        rw [invalidFd_natCast, decide_eq_false_iff_not]
        omega
      simp only [selectorRegister, hvalid, Bool.false_eq_true, ↓reduceIte, Int.toNat_natCast,
        ge_iff_le, Nat.not_lt.mp hsize, heq] at hr
      cases hr
      exact h
    · rw [register_grown alloc handler i data hn hsize hsuccess hgrown] at hr
      exact (h.ensureCapacity alloc hn).register_fitting hn hgrown hr

theorem Bounded.release {s : Selector η δ} (h : s.Bounded) {n : Nat} {item : Item η δ}
    (he : s.entry n = some item) : (s.release n item).Bounded := by
  obtain ⟨hok, hlength, -, -, -, -⟩ := release_spec h.ok he
  refine ⟨hok, ?_⟩
  have hmax : (s.release n item).maxFd = 0 ∨
      ((s.release n item).entry (s.release n item).maxFd).isSome = true :=
    itemsMaxFd_used (s := (itemsUpdateFdsetForFd s { item with interest := opNoop }).setItem n {})
      fun he => hok.fd_eq he
  rcases hmax with h0 | hsome
  · rw [h0, hlength]
    exact Nat.zero_lt_of_lt h.maxFd
  · obtain ⟨item', hitem'⟩ := Option.isSome_iff_exists.mp hsome
    exact (List.getElem?_eq_some_iff.mp (getElem?_of_entry hitem')).1

theorem Bounded.unregisterFd {s s' : Selector η δ} {st : SelectorStatus} (h : s.Bounded) {fd : Int}
    (hr : selectorUnregisterFd s fd = .ok (s', st)) : s'.Bounded := by
  unfold selectorUnregisterFd at hr
  cases hreg : s.registered fd with
  | error f =>
    rw [hreg] at hr
    cases hr
  | ok r =>
    rw [hreg] at hr
    obtain rfl | ⟨n, item, rfl, rfl, he⟩ := registered_cases hreg
    · cases hr
      exact h
    · cases hr
      exact h.release he

theorem Bounded.setInterest {s s' : Selector η δ} {st : SelectorStatus} (h : s.Bounded) {fd : Int}
    {i : Interest} (hr : selectorSetInterest s fd i = .ok (s', st)) : s'.Bounded := by
  cases hreg : s.registered fd with
  | error f =>
    simp only [selectorSetInterest, hreg] at hr
    cases hr
  | ok r =>
    obtain rfl | ⟨n, item, rfl, rfl, he⟩ := registered_cases hreg
    · rw [setInterest_unregistered hreg] at hr
      cases hr
      exact h
    · obtain ⟨s₁, hs₁, hok, hlength, -, hmax, -⟩ := setInterest_spec h.ok he i
      rw [Int.ofNat_eq_natCast, hs₁] at hr
      cases hr
      exact ⟨hok, by rw [hmax, hlength]; exact h.maxFd⟩

theorem Bounded.exec {s s' : Selector η δ} {st : SelectorStatus} (h : s.Bounded) {alloc : Bool}
    {call : TableCall η δ} (hr : call.exec alloc s = .ok (s', st)) : s'.Bounded := by
  cases call with
  | register fd handler interest data =>
    cases handler with
    | none =>
      cases hr
      exact h
    | some handler => exact h.register hr
  | unregisterFd fd => exact h.unregisterFd hr
  | setInterest fd interest => exact h.setInterest hr
  | setInterestKey fd interest =>
    simp only [TableCall.exec] at hr
    split at hr
    · cases hr
      exact h
    · exact h.setInterest hr

theorem Made.bounded {s : Selector η δ} (h : s.Made) : s.Bounded := by
  induction h with
  | new hle h => exact bounded_new hle h
  | call _ hcall ih => exact ih.exec hcall

-- ---------------------------------------------------------------------------
-- Harmless descriptors
-- ---------------------------------------------------------------------------

theorem not_harmless {s : Selector η δ} {n : Nat} (hn : n < fdSetSize) (hsize : s.fds.length ≤ n) :
    ¬ s.Harmless n := by
  intro h
  have hvalid : invalidFd (n : Int) = false := by
    rw [invalidFd_natCast, decide_eq_false_iff_not]
    omega
  have hin := h.setInterest n (by simp [setInterestItems, hvalid])
  exact absurd hin (Nat.not_lt.mpr hsize)

theorem harmless_invalid (s : Selector η δ) {fd : Int} (h : invalidFd fd = true) :
    s.Harmless fd := by
  refine ⟨fun n hn => ?_, fun n hn => ?_, fun _ => ⟨fun i => ?_, ?_⟩⟩
  · rw [setInterestItems, if_pos h] at hn
    cases hn
  · rw [unregisterFdItems, if_pos h] at hn
    cases hn
  · exact setInterest_unregistered (registered_invalid s h) i
  · simp only [selectorUnregisterFd, registered_invalid s h]
    rfl

theorem Bounded.harmless {s : Selector η δ} (h : s.Bounded) {n : Nat} (hn : n < fdSetSize)
    (hsize : n < s.fds.length) : s.Harmless n := by
  have hvalid : invalidFd (n : Int) = false := by
    rw [invalidFd_natCast, decide_eq_false_iff_not]
    omega
  have hreg := registered_eq s hn hsize
  refine ⟨fun m hm => ?_, fun m hm => ?_, fun hno => ?_⟩
  · rw [setInterestItems, hvalid] at hm
    rw [List.mem_singleton.mp hm]
    exact hsize
  · rw [unregisterFdItems, hvalid, hreg] at hm
    cases he : s.entry n with
    | none =>
      rw [he] at hm
      rw [List.mem_singleton.mp hm]
      exact hsize
    | some item =>
      rw [he] at hm
      rcases List.mem_cons.mp hm with rfl | hm
      · exact hsize
      · have hmax := h.maxFd
        rw [List.mem_range] at hm
        omega
  · have he : s.entry n = none := by
      rw [← Option.not_isSome_iff_eq_none]
      exact fun hsome => hno ⟨n, rfl, hsome⟩
    rw [he] at hreg
    refine ⟨fun i => setInterest_unregistered hreg i, ?_⟩
    simp only [selectorUnregisterFd, hreg]
    rfl

/-- The operations are harmless exactly on the descriptors that `INVALID_FD`
refuses and on those below `fd_size`. -/
theorem harmless_iff {s : Selector η δ} (h : s.Made) (fd : Int) :
    s.Harmless fd ↔ fd < 0 ∨ fd ≥ fdSetSize ∨ fd < s.fds.length := by
  rcases fd_cases fd with hinvalid | ⟨n, rfl, hn⟩
  · have hcond : fd < 0 ∨ fd ≥ fdSetSize := by simpa [invalidFd] using hinvalid
    exact ⟨fun _ => hcond.imp id .inl, fun _ => harmless_invalid s hinvalid⟩
  · by_cases hsize : n < s.fds.length
    · exact ⟨fun _ => .inr (.inr (by omega)), fun _ => h.bounded.harmless hn hsize⟩
    · refine ⟨fun hharmless => absurd hharmless (not_harmless hn (Nat.not_lt.mp hsize)), ?_⟩
      rintro (hneg | hlarge | hlt) <;> omega

def smallTable : Selector Unit Unit := { fds := List.replicate 2 {} }

theorem smallTable_made : smallTable.Made := by
  have hcapacity : nextCapacity 0 = 2 := by simp [nextCapacity, shiftCount, itemsMaxSize, fdSetSize]
  have hnew := selectorNew_eq (η := Unit) (δ := Unit) 0 (Nat.zero_le _)
  rw [hcapacity] at hnew
  exact .new (Nat.zero_le _) hnew

theorem smallTable_harmless : smallTable.Harmless 1 ∧ ¬ smallTable.Harmless 2 :=
  ⟨(harmless_iff smallTable_made 1).mpr (by decide),
    fun h => absurd ((harmless_iff smallTable_made 2).mp h) (by decide)⟩

/-- Nobody registered 5, and both operations look at memory behind the table. -/
theorem smallTable_five :
    smallTable.Made ∧ ¬ smallTable.IsRegistered 5 ∧
      selectorSetInterest smallTable 5 opRead = .error .outOfBounds ∧
      selectorUnregisterFd smallTable 5 = .error .outOfBounds ∧ ¬ smallTable.Harmless 5 := by
  refine ⟨smallTable_made, ?_, rfl, rfl, not_harmless (n := 5) (by decide) (by decide)⟩
  rintro ⟨n, hn, hsome⟩
  obtain rfl : n = 5 := by omega
  cases hsome

end Selector

end Socks5d
