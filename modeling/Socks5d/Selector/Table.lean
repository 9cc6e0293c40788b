import Socks5d.Selector

/-!
# The selector as a finite map

The callers of the selector see it through `entry`, the item of a registered
descriptor. `Selector.Ok` ties the table to the sets handed to `pselect`, and
every operation keeps it; the lemmas `*_spec` say what each operation does to
the entries.
-/

namespace Socks5d

variable {η δ : Type}

namespace Selector

def entry (s : Selector η δ) (n : Nat) : Option (Item η δ) := s.fds[n]?.filter Item.used

structure Ok (s : Selector η δ) : Prop where
  fd_eq : ∀ {n item}, s.entry n = some item → item.fd = n
  lt : ∀ {n item}, s.entry n = some item → n < fdSetSize
  le_maxFd : ∀ {n item}, s.entry n = some item → n ≤ s.maxFd
  masterR : ∀ n, s.masterR n = (s.entry n).any (·.interest.read)
  masterW : ∀ n, s.masterW n = (s.entry n).any (·.interest.write)
  serial_lt : ∀ {n item}, s.entry n = some item → item.serial < s.serial

theorem entry_empty (fds n : Nat) :
    ({ fds := List.replicate fds {} } : Selector η δ).entry n = none := by
  simp only [entry, List.getElem?_replicate]
  split <;> rfl

theorem ok_empty (fds : Nat) : ({ fds := List.replicate fds {} } : Selector η δ).Ok := by
  constructor <;> simp [entry_empty]

-- ---------------------------------------------------------------------------
-- Entries after an update
-- ---------------------------------------------------------------------------

theorem used_of_entry {s : Selector η δ} {n : Nat} {item : Item η δ} (h : s.entry n = some item) :
    item.used = true := by
  simp only [entry, Option.filter_eq_some_iff] at h
  exact h.2

theorem used_of_fd {item : Item η δ} {n : Nat} (h : item.fd = n) : item.used = true := by
  have hne : (n : Int) ≠ fdUnused := by
    unfold fdUnused
    omega
  simpa [Item.used, h] using hne

theorem getElem?_of_entry {s : Selector η δ} {n : Nat} {item : Item η δ}
    (h : s.entry n = some item) : s.fds[n]? = some item := by
  simp only [entry, Option.filter_eq_some_iff] at h
  exact h.1

theorem entry_setItem_self {s : Selector η δ} {n : Nat} (item : Item η δ) (h : n < s.fds.length) :
    (s.setItem n item).entry n = if item.used then some item else none := by
  simp only [entry, setItem, List.getElem?_set_self h, Option.filter]

theorem entry_setItem_ne {s : Selector η δ} {n m : Nat} (item : Item η δ) (h : m ≠ n) :
    (s.setItem n item).entry m = s.entry m := by
  simp only [entry, setItem, List.getElem?_set_ne (Ne.symm h)]

theorem entry_append_unused (s : Selector η δ) (k n : Nat) :
    ({ s with fds := s.fds ++ List.replicate k {} } : Selector η δ).entry n = s.entry n := by
  simp only [entry]
  by_cases h : n < s.fds.length
  · rw [List.getElem?_append_left h]
  · have hn : s.fds[n]? = none := List.getElem?_eq_none (Nat.le_of_not_lt h)
    rw [List.getElem?_append_right (Nat.le_of_not_lt h), hn, List.getElem?_replicate]
    split <;> rfl

theorem entry_ensureCapacity (alloc : Bool) (s : Selector η δ) (k n : Nat) :
    (ensureCapacity alloc s k).1.entry n = s.entry n := by
  unfold ensureCapacity
  split
  · rfl
  · split
    · rfl
    · split
      · exact entry_append_unused s _ n
      · rfl

theorem ok_ensureCapacity {s : Selector η δ} (hs : s.Ok) (alloc : Bool) (k : Nat) :
    (ensureCapacity alloc s k).1.Ok := by
  have hentry := entry_ensureCapacity alloc s k
  have hrest : (ensureCapacity alloc s k).1.maxFd = s.maxFd ∧
      (ensureCapacity alloc s k).1.masterR = s.masterR ∧
      (ensureCapacity alloc s k).1.masterW = s.masterW ∧
      (ensureCapacity alloc s k).1.serial = s.serial := by
    unfold ensureCapacity
    split
    · exact ⟨rfl, rfl, rfl, rfl⟩
    · split
      · exact ⟨rfl, rfl, rfl, rfl⟩
      · split <;> exact ⟨rfl, rfl, rfl, rfl⟩
  obtain ⟨hmax, hr, hw, hserial⟩ := hrest
  refine ⟨fun h => ?_, fun h => ?_, fun h => ?_, fun n => ?_, fun n => ?_, fun h => ?_⟩
  · exact hs.fd_eq (hentry _ ▸ h)
  · exact hs.lt (hentry _ ▸ h)
  · exact hmax ▸ hs.le_maxFd (hentry _ ▸ h)
  · rw [hr, hentry]
    exact hs.masterR n
  · rw [hw, hentry]
    exact hs.masterW n
  · exact hserial ▸ hs.serial_lt (hentry _ ▸ h)

-- ---------------------------------------------------------------------------
-- Lookup
-- ---------------------------------------------------------------------------

theorem invalidFd_natCast {n : Nat} : invalidFd (n : Int) = decide (fdSetSize ≤ n) := by
  simp only [invalidFd, ge_iff_le, Int.ofNat_le, Int.not_ofNat_neg, decide_false, Bool.false_or]

theorem fd_cases (fd : Int) : invalidFd fd = true ∨ ∃ n : Nat, fd = n ∧ n < fdSetSize := by
  by_cases h : invalidFd fd = true
  · exact .inl h
  · simp only [invalidFd, ge_iff_le, Bool.or_eq_true, decide_eq_true_eq, not_or] at h
    exact .inr ⟨fd.toNat, (Int.toNat_of_nonneg (Int.not_lt.mp h.1)).symm, by omega⟩

theorem registered_invalid (s : Selector η δ) {fd : Int} (h : invalidFd fd = true) :
    s.registered fd = .ok none := by
  simp only [registered, h, ↓reduceIte]
  rfl

theorem registered_eq (s : Selector η δ) {n : Nat} (h : n < fdSetSize) (hsize : n < s.fds.length) :
    s.registered n = .ok (s.entry n) := by
  have hvalid : invalidFd (n : Int) = false := by
    rw [invalidFd_natCast, decide_eq_false_iff_not]
    omega
  have hitem : s.item n = .ok s.fds[n] := by
    simp only [item, List.getElem?_eq_getElem hsize]
  simp only [registered, hvalid, Bool.false_eq_true, ↓reduceIte, Int.toNat_natCast, hitem, entry,
    List.getElem?_eq_getElem hsize]
  rfl

-- ---------------------------------------------------------------------------
-- Interests
-- ---------------------------------------------------------------------------

theorem ok_store {s : Selector η δ} (hs : s.Ok) {n : Nat} (item : Item η δ)
    (hn : n < fdSetSize) (hsize : n < s.fds.length) (hfd : item.fd = n)
    (maxFd serial : Nat) (hmax : s.maxFd ≤ maxFd) (hmax' : n ≤ maxFd)
    (hserial : s.serial ≤ serial) (hserial' : item.serial < serial) :
    (itemsUpdateFdsetForFd { s.setItem n item with maxFd, serial } item).Ok := by
  have hused := used_of_fd hfd
  have hself : (s.setItem n item).entry n = some item := by
    rw [entry_setItem_self item hsize, if_pos hused]
  have hother : ∀ {m}, m ≠ n → (s.setItem n item).entry m = s.entry m := entry_setItem_ne item
  have hentry : ∀ m, (itemsUpdateFdsetForFd { s.setItem n item with maxFd, serial } item).entry m =
      (s.setItem n item).entry m := fun m => rfl
  refine ⟨fun {m it} h => ?_, fun {m it} h => ?_, fun {m it} h => ?_, fun m => ?_, fun m => ?_,
    fun {m it} h => ?_⟩
  · rw [hentry] at h
    by_cases hm : m = n
    · subst hm
      rw [hself] at h
      cases h
      exact hfd
    · exact hs.fd_eq (hother hm ▸ h)
  · rw [hentry] at h
    by_cases hm : m = n
    · exact hm ▸ hn
    · exact hs.lt (hother hm ▸ h)
  · rw [hentry] at h
    by_cases hm : m = n
    · exact hm ▸ hmax'
    · exact Nat.le_trans (hs.le_maxFd (hother hm ▸ h)) hmax
  · rw [hentry]
    simp only [itemsUpdateFdsetForFd, fdSetTo, hfd, Int.toNat_natCast]
    by_cases hm : m = n
    · subst hm
      simp [hself, hused]
    · rw [Function.update_of_ne hm, hother hm]
      exact hs.masterR m
  · rw [hentry]
    simp only [itemsUpdateFdsetForFd, fdSetTo, hfd, Int.toNat_natCast]
    by_cases hm : m = n
    · subst hm
      simp [hself, hused]
    · rw [Function.update_of_ne hm, hother hm]
      exact hs.masterW m
  · rw [hentry] at h
    by_cases hm : m = n
    · subst hm
      rw [hself] at h
      cases h
      exact hserial'
    · exact Nat.lt_of_lt_of_le (hs.serial_lt (hother hm ▸ h)) hserial

theorem setInterest_spec {s : Selector η δ} (hs : s.Ok) {n : Nat} {item : Item η δ}
    (h : s.entry n = some item) (i : Interest) :
    ∃ s', selectorSetInterest s n i = .ok (s', .success) ∧ s'.Ok ∧
      s'.fds.length = s.fds.length ∧ s'.serial = s.serial ∧ s'.maxFd = s.maxFd ∧
      (s'.slaveR = s.slaveR ∧ s'.slaveW = s.slaveW) ∧
      s'.entry n = some { item with interest := i } ∧ ∀ m, m ≠ n → s'.entry m = s.entry m := by
  have hn := hs.lt h
  have hsize : n < s.fds.length := (List.getElem?_eq_some_iff.mp (getElem?_of_entry h)).1
  have hfd := hs.fd_eq h
  refine ⟨_, ?_, ok_store hs { item with interest := i } hn hsize hfd s.maxFd s.serial
    (Nat.le_refl _) (hs.le_maxFd h) (Nat.le_refl _)
    (show item.serial < s.serial from hs.serial_lt h), ?_, rfl, rfl, ⟨rfl, rfl⟩, ?_,
    fun m hm => ?_⟩
  · simp only [selectorSetInterest, registered_eq s hn hsize, h, Int.toNat_natCast]
    rfl
  · exact List.length_set ..
  · have hused : ({ item with interest := i } : Item η δ).used = true := used_of_fd hfd
    exact (entry_setItem_self _ hsize).trans (if_pos hused)
  · exact entry_setItem_ne _ hm

theorem setInterest_unregistered {s : Selector η δ} {fd : Int} (h : s.registered fd = .ok none)
    (i : Interest) : selectorSetInterest s fd i = .ok (s, .iargs) := by
  simp only [selectorSetInterest, h]
  rfl

-- ---------------------------------------------------------------------------
-- Registration
-- ---------------------------------------------------------------------------

def fresh (s : Selector η δ) (n : Nat) (handler : η) (i : Interest) (data : Option δ) :
    Item η δ :=
  ⟨n, i, some handler, data, s.serial⟩

theorem register_eq {s : Selector η δ} {n : Nat} (hn : n < fdSetSize) (hsize : n < s.fds.length)
    (h : s.entry n = none) (alloc : Bool) (handler : η) (i : Interest) (data : Option δ) :
    selectorRegister alloc s n handler i data =
      .ok (itemsUpdateFdsetForFd { s.setItem n (s.fresh n handler i data) with
        maxFd := max s.maxFd n, serial := s.serial + 1 } (s.fresh n handler i data), .success) := by
  have hvalid : invalidFd (n : Int) = false := by
    rw [invalidFd_natCast, decide_eq_false_iff_not]
    omega
  have hitem : s.item n = .ok s.fds[n] := by
    simp only [Selector.item, List.getElem?_eq_getElem hsize]
  have hunused : s.fds[n].used = false := by
    simpa [entry, List.getElem?_eq_getElem hsize, Option.filter] using h
  simp only [selectorRegister, hvalid, Bool.false_eq_true, ↓reduceIte, Int.toNat_natCast,
    ge_iff_le, Nat.not_le.mpr hsize, ne_eq, not_true_eq_false, hitem]
  simp only [Bind.bind, Except.bind, hunused, Bool.false_eq_true, ↓reduceIte]
  rfl

theorem register_spec {s : Selector η δ} (hs : s.Ok) {n : Nat} (hn : n < fdSetSize)
    (hsize : n < s.fds.length) (h : s.entry n = none) (alloc : Bool) (handler : η) (i : Interest)
    (data : Option δ) :
    ∃ s', selectorRegister alloc s n handler i data = .ok (s', .success) ∧ s'.Ok ∧
      s'.fds.length = s.fds.length ∧ s'.serial = s.serial + 1 ∧
      (s'.slaveR = s.slaveR ∧ s'.slaveW = s.slaveW) ∧
      s'.entry n = some ⟨n, i, some handler, data, s.serial⟩ ∧
      ∀ m, m ≠ n → s'.entry m = s.entry m := by
  refine ⟨_, register_eq hn hsize h alloc handler i data,
    ok_store hs (s.fresh n handler i data) hn hsize rfl (max s.maxFd n) (s.serial + 1)
      (Nat.le_max_left _ _) (Nat.le_max_right _ _) (Nat.le_succ _) (Nat.lt_succ_self _),
    List.length_set .., rfl, ⟨rfl, rfl⟩, ?_, fun m hm => ?_⟩
  · exact (entry_setItem_self (s.fresh n handler i data) hsize).trans (if_pos (used_of_fd rfl))
  · exact entry_setItem_ne _ hm

theorem register_invalid (s : Selector η δ) {fd : Int} (h : invalidFd fd = true) (alloc : Bool)
    (handler : η) (i : Interest) (data : Option δ) :
    selectorRegister alloc s fd handler i data = .ok (s, .iargs) := by
  simp only [selectorRegister, h, ↓reduceIte]
  rfl

theorem register_inUse {s : Selector η δ} (hs : s.Ok) {n : Nat} {item : Item η δ}
    (h : s.entry n = some item) (alloc : Bool) (handler : η) (i : Interest) (data : Option δ) :
    selectorRegister alloc s n handler i data = .ok (s, .fdinuse) := by
  have hn := hs.lt h
  have hget := getElem?_of_entry h
  have hsize : n < s.fds.length := (List.getElem?_eq_some_iff.mp hget).1
  have hvalid : invalidFd (n : Int) = false := by
    rw [invalidFd_natCast, decide_eq_false_iff_not]
    omega
  have hitem : s.item n = .ok item := by
    simp only [Selector.item, hget]
  simp only [selectorRegister, hvalid, Bool.false_eq_true, ↓reduceIte, Int.toNat_natCast, ge_iff_le,
    Nat.not_le.mpr hsize, ne_eq, not_true_eq_false, hitem]
  simp only [Bind.bind, Except.bind, used_of_entry h, ↓reduceIte]
  rfl

-- ---------------------------------------------------------------------------
-- Unregistration
-- ---------------------------------------------------------------------------

theorem le_maxFdStep (m : Nat) (item : Item η δ) : m ≤ maxFdStep m item := by
  unfold maxFdStep
  split
  · rename_i h
    simp only [Bool.and_eq_true, decide_eq_true_eq] at h
    omega
  · exact Nat.le_refl m

theorem le_foldl_maxFdStep (items : List (Item η δ)) (m : Nat) : m ≤ items.foldl maxFdStep m := by
  induction items generalizing m with
  | nil => exact Nat.le_refl m
  | cons item items ih => exact Nat.le_trans (le_maxFdStep m item) (ih _)

theorem fd_le_foldl_maxFdStep {items : List (Item η δ)} {item : Item η δ} (h : item ∈ items)
    (hused : item.used = true) (m : Nat) : item.fd.toNat ≤ items.foldl maxFdStep m := by
  induction items generalizing m with
  | nil => cases h
  | cons first items ih =>
    cases h with
    | head =>
      refine Nat.le_trans ?_ (le_foldl_maxFdStep items _)
      simp only [maxFdStep, hused, Bool.true_and, gt_iff_lt, decide_eq_true_eq]
      split <;> omega
    | tail _ h => exact ih h _

theorem le_itemsMaxFd {s : Selector η δ} {n : Nat} {item : Item η δ} (h : s.entry n = some item)
    (hfd : item.fd = n) (hle : n ≤ s.maxFd) : n ≤ itemsMaxFd s := by
  have hmem : item ∈ s.fds.take (s.maxFd + 1) := by
    refine List.mem_of_getElem? (i := n) ?_
    rw [List.getElem?_take_of_lt (Nat.lt_succ_of_le hle)]
    exact getElem?_of_entry h
  have hfold := fd_le_foldl_maxFdStep hmem (used_of_entry h) 0
  rwa [hfd, Int.toNat_natCast] at hfold

theorem release_spec {s : Selector η δ} (hs : s.Ok) {n : Nat} {item : Item η δ}
    (h : s.entry n = some item) :
    (s.release n item).Ok ∧ (s.release n item).fds.length = s.fds.length ∧
      (s.release n item).serial = s.serial ∧
      ((s.release n item).slaveR = s.slaveR ∧ (s.release n item).slaveW = s.slaveW) ∧
      (s.release n item).entry n = none ∧
      ∀ m, m ≠ n → (s.release n item).entry m = s.entry m := by
  have hsize : n < s.fds.length := (List.getElem?_eq_some_iff.mp (getElem?_of_entry h)).1
  have hfd := hs.fd_eq h
  have hself : (s.release n item).entry n = none := entry_setItem_self ({} : Item η δ) hsize
  have hother : ∀ m, m ≠ n → (s.release n item).entry m = s.entry m :=
    fun m hm => entry_setItem_ne ({} : Item η δ) hm
  have hmasterR : (s.release n item).masterR = Function.update s.masterR n false := by
    simp [release, itemsUpdateFdsetForFd, setItem, fdSetTo, hfd, opNoop]
  have hmasterW : (s.release n item).masterW = Function.update s.masterW n false := by
    simp [release, itemsUpdateFdsetForFd, setItem, fdSetTo, hfd, opNoop]
  have hsome : ∀ {m it}, (s.release n item).entry m = some it → m ≠ n ∧ s.entry m = some it := by
    intro m it hm
    have hne : m ≠ n := by
      rintro rfl
      rw [hself] at hm
      cases hm
    exact ⟨hne, hother m hne ▸ hm⟩
  refine ⟨⟨fun he => ?_, fun he => ?_, fun he => ?_, fun m => ?_, fun m => ?_, fun he => ?_⟩,
    List.length_set .., rfl, ⟨rfl, rfl⟩, hself, hother⟩
  · exact hs.fd_eq (hsome he).2
  · exact hs.lt (hsome he).2
  · have he' := hsome he
    exact le_itemsMaxFd (s := (itemsUpdateFdsetForFd s { item with interest := opNoop }).setItem n {})
      (by rw [entry_setItem_ne _ he'.1]; exact he'.2) (hs.fd_eq he'.2) (hs.le_maxFd he'.2)
  · rw [hmasterR]
    by_cases hm : m = n
    · subst hm
      rw [Function.update_self, hself]
      rfl
    · rw [Function.update_of_ne hm, hother m hm]
      exact hs.masterR m
  · rw [hmasterW]
    by_cases hm : m = n
    · subst hm
      rw [Function.update_self, hself]
      rfl
    · rw [Function.update_of_ne hm, hother m hm]
      exact hs.masterW m
  · exact hs.serial_lt (hsome he).2

end Selector

end Socks5d
