import Socks5d.Selector.Table

/-!
# selector.c: growing the table

`ensure_capacity` as the source has it: the block that `calloc` or `realloc`
hands out, what its new memory holds, the loop that marks the new items as
unused, and the assertions on the way. `ensureCapacity_safe` says what a caller
can rely on; `ensureCapacity_shows` ties it to the table of the other modules,
which has only zeroed items behind the old ones.
-/

namespace Socks5d

variable {η δ : Type}

/-- `s->fds` and `s->fd_size`. -/
structure Block (η δ : Type) where
  fds : Option (List (Item η δ))
  fdSize : Nat
  fdSize_eq : fdSize = (fds.getD []).length

/-- `SIZE_MAX`. -/
def sizeMax : Nat := 2 ^ 64 - 1

/-- `sizeof(struct item)`. -/
def itemSize : Nat := 24

def zeroItem : Item η δ := ⟨0, opNoop, none, none, 0⟩

namespace Block

def nextCapacity (n : Nat) : Except Fault Nat :=
  let tmp := (1 <<< shiftCount n) % 2 ^ 64
  if tmp ≥ n then .ok ((if tmp > itemsMaxSize then itemsMaxSize else tmp) + 1)
  else .error .assertion

def itemInit (item : Item η δ) : Item η δ := { item with fd := fdUnused }

def itemsInit (fds : List (Item η δ)) (last : Nat) : Except Fault (List (Item η δ)) :=
  if last ≤ fds.length then .ok (fds.take last ++ (fds.drop last).map itemInit)
  else .error .assertion

/-- `realloc` to `newSize` items; `memory` is what the new memory holds. -/
def realloc (fds : List (Item η δ)) (newSize : Nat) (memory : Nat → Item η δ) : List (Item η δ) :=
  (List.range newSize).map fun i => fds[i]?.getD (memory i)

def install (fds : List (Item η δ)) (last : Nat) : Except Fault (Block η δ × SelectorStatus) := do
  let fds ← itemsInit fds last
  return (⟨some fds, fds.length, rfl⟩, .success)

/-- `alloc` is `none` when the allocation fails. -/
def ensureCapacity (alloc : Option (Nat → Item η δ)) (s : Block η δ) (n : Nat) :
    Except Fault (Block η δ × SelectorStatus) :=
  if n < s.fdSize then .ok (s, .success)
  else if n > itemsMaxSize then .ok (s, .maxfd)
  else match s.fds with
    | none => do
      let newSize ← nextCapacity n
      match alloc with
      | none => return (s, .enomem)
      -- calloc clears what it hands out
      | some _ => install (List.replicate newSize zeroItem) 0
    | some fds => do
      let newSize ← nextCapacity n
      if newSize > sizeMax / itemSize then return (s, .enomem)
      match alloc with
      | none => return (s, .enomem)
      | some memory => install (realloc fds newSize memory) s.fdSize

-- ---------------------------------------------------------------------------
-- The new size
-- ---------------------------------------------------------------------------

end Block

theorem lt_two_pow_shiftCount (n : Nat) : n < 2 ^ shiftCount n := by
  induction n using Nat.strongRecOn with
  | ind n ih =>
    unfold shiftCount
    by_cases h : n = 0
    · simp [h]
    · have := ih (n / 2) (by omega)
      rw [if_neg h, Nat.pow_succ]
      omega

theorem shiftCount_le {n k : Nat} (h : n < 2 ^ k) : shiftCount n ≤ k := by
  induction k generalizing n with
  | zero =>
    obtain rfl : n = 0 := by omega
    simp [shiftCount]
  | succ k ih =>
    unfold shiftCount
    by_cases h0 : n = 0
    · rw [if_pos h0]
      exact Nat.zero_le _
    · have := ih (n := n / 2) (by rw [Nat.pow_succ] at h; omega)
      rw [if_neg h0]
      omega

theorem lt_nextCapacity {n : Nat} (h : n ≤ itemsMaxSize) : n < nextCapacity n := by
  have := lt_two_pow_shiftCount n
  simp only [nextCapacity]
  split <;> omega

theorem nextCapacity_le (n : Nat) : nextCapacity n ≤ itemsMaxSize + 1 := by
  simp only [nextCapacity]
  split <;> omega

namespace Block

/-- The assertion of `next_capacity` holds and the power of two does not overflow. -/
theorem nextCapacity_eq {n : Nat} (h : n ≤ itemsMaxSize) :
    nextCapacity n = .ok (Socks5d.nextCapacity n) := by
  have hlt := lt_two_pow_shiftCount n
  have hmax : itemsMaxSize < 2 ^ 11 := by decide
  have hpow : 2 ^ shiftCount n ≤ 2 ^ 11 :=
    Nat.pow_le_pow_right (by decide) (shiftCount_le (Nat.lt_of_le_of_lt h hmax))
  have hmod : (1 <<< shiftCount n) % 2 ^ 64 = 2 ^ shiftCount n := by
    rw [Nat.one_shiftLeft, Nat.mod_eq_of_lt (Nat.lt_of_le_of_lt hpow (by decide))]
  unfold nextCapacity
  rw [hmod, if_pos (Nat.le_of_lt hlt)]
  rfl

/-- The block after a growth to `newSize`: the old items, and unused ones. -/
structure Grown (s s' : Block η δ) : Prop where
  fits : s.fdSize ≤ s'.fdSize
  old : ∀ i < s.fdSize, (s'.fds.getD [])[i]? = (s.fds.getD [])[i]?
  new : ∀ i item, s.fdSize ≤ i → (s'.fds.getD [])[i]? = some item → item.used = false

theorem Grown.refl (s : Block η δ) : s.Grown s where
  fits := Nat.le_refl _
  old _ _ := rfl
  new i item hi hget := by
    rw [s.fdSize_eq] at hi
    rw [List.getElem?_eq_none hi] at hget
    cases hget

theorem itemInit_used (item : Item η δ) : (itemInit item).used = false := rfl

theorem install_grown (s : Block η δ) (fds : List (Item η δ)) (hsize : s.fdSize ≤ fds.length)
    (hold : ∀ i < s.fdSize, fds[i]? = (s.fds.getD [])[i]?) :
    ∃ s', install fds s.fdSize = .ok (s', .success) ∧ s'.fdSize = fds.length ∧ s.Grown s' := by
  have hlen : (fds.take s.fdSize).length = s.fdSize := List.length_take_of_le hsize
  have hall : (fds.take s.fdSize ++ (fds.drop s.fdSize).map itemInit).length = fds.length := by
    rw [List.length_append, hlen, List.length_map, List.length_drop]
    omega
  refine ⟨⟨some (fds.take s.fdSize ++ (fds.drop s.fdSize).map itemInit), _, rfl⟩, ?_, hall, ?_,
    fun i hi => ?_, fun i item hi hget => ?_⟩
  · simp only [install, itemsInit, hsize, ↓reduceIte]
    rfl
  · exact Nat.le_trans hsize (Nat.le_of_eq hall.symm)
  · show (fds.take s.fdSize ++ _)[i]? = _
    rw [List.getElem?_append_left (hlen.symm ▸ hi), List.getElem?_take_of_lt hi, hold i hi]
  · replace hget : (fds.take s.fdSize ++ (fds.drop s.fdSize).map itemInit)[i]? = some item := hget
    rw [List.getElem?_append_right (hlen.symm ▸ hi), List.getElem?_map, Option.map_eq_some_iff] at hget
    obtain ⟨old, -, rfl⟩ := hget
    exact itemInit_used old

theorem getElem?_realloc {fds : List (Item η δ)} {newSize : Nat} (memory : Nat → Item η δ) {i : Nat}
    (hi : i < fds.length) (hsize : fds.length ≤ newSize) :
    (realloc fds newSize memory)[i]? = fds[i]? := by
  have hlt : i < newSize := Nat.lt_of_lt_of_le hi hsize
  simp only [realloc, List.getElem?_map, List.getElem?_range hlt, Option.map_some,
    List.getElem?_eq_getElem hi, Option.getD_some]

theorem ensureCapacity_growing (alloc : Option (Nat → Item η δ)) {s : Block η δ} {n : Nat}
    (hn : s.fdSize ≤ n) (hmax : n ≤ itemsMaxSize) :
    (alloc.isSome = false ∧ s.ensureCapacity alloc n = .ok (s, .enomem)) ∨
      (alloc.isSome = true ∧ ∃ s', s.ensureCapacity alloc n = .ok (s', .success) ∧
        s'.fdSize = Socks5d.nextCapacity n ∧ s.Grown s') := by
  have hcapacity := nextCapacity_eq hmax
  have hlt := lt_nextCapacity hmax
  have hfits : ¬ Socks5d.nextCapacity n > sizeMax / itemSize := by
    have := nextCapacity_le n
    have hbound : itemsMaxSize + 1 ≤ sizeMax / itemSize := by decide
    omega
  have hsize := s.fdSize_eq
  unfold ensureCapacity
  rw [if_neg (Nat.not_lt.mpr hn), if_neg (Nat.not_lt.mpr hmax), hcapacity]
  cases hfds : s.fds with
  | none =>
    rw [hfds] at hsize
    have hzero : s.fdSize = 0 := hsize
    cases alloc with
    | none => exact .inl ⟨rfl, rfl⟩
    | some memory =>
      obtain ⟨s', hs', hlen, hgrown⟩ := install_grown s
        (List.replicate (Socks5d.nextCapacity n) zeroItem) (hzero ▸ Nat.zero_le _)
        (fun i hi => absurd (hzero ▸ hi) (Nat.not_lt_zero i))
      rw [hzero] at hs'
      exact .inr ⟨rfl, s', hs', by rw [hlen, List.length_replicate], hgrown⟩
  | some fds =>
    rw [hfds] at hsize
    have hlen : s.fdSize = fds.length := hsize
    cases alloc with
    | none =>
      refine .inl ⟨rfl, ?_⟩
      simp only [Bind.bind, Except.bind, hfits, ↓reduceIte]
      rfl
    | some memory =>
      have hreallocated : (realloc fds (Socks5d.nextCapacity n) memory).length =
          Socks5d.nextCapacity n := by
        rw [realloc, List.length_map, List.length_range]
      obtain ⟨s', hs', hlen', hgrown⟩ := install_grown s
        (realloc fds (Socks5d.nextCapacity n) memory) (by omega) (fun i hi => by
          rw [getElem?_realloc memory (hlen ▸ hi) (by omega), hfds]
          rfl)
      refine .inr ⟨rfl, s', ?_, hlen'.trans hreallocated, hgrown⟩
      simp only [Bind.bind, Except.bind, hfits, ↓reduceIte, hs']

/-- What a caller of `ensure_capacity` can rely on, for every state of the table,
every `n` and every result of the allocation. No assertion fails on the way,
neither here nor in `next_capacity`. -/
theorem ensureCapacity_safe (alloc : Option (Nat → Item η δ)) (s : Block η δ) (n : Nat) :
    (∃ s' st, s.ensureCapacity alloc n = .ok (s', st) ∧
      (st = .success → n < s'.fdSize ∧ s.Grown s') ∧
      (st = .maxfd ↔ s.fdSize ≤ n ∧ itemsMaxSize < n) ∧
      (st ≠ .success → s' = s)) ∧
    ∀ m ≤ itemsMaxSize, ∃ capacity, nextCapacity m = .ok capacity ∧ m < capacity := by
  refine ⟨?_, fun m hm => ⟨_, nextCapacity_eq hm, lt_nextCapacity hm⟩⟩
  by_cases hn : n < s.fdSize
  · refine ⟨s, .success, if_pos hn, fun _ => ⟨hn, .refl s⟩, ?_, fun _ => rfl⟩
    exact ⟨fun h => SelectorStatus.noConfusion h, fun h => absurd hn (Nat.not_lt.mpr h.1)⟩
  have hle := Nat.not_lt.mp hn
  by_cases hmax : n > itemsMaxSize
  · have hmaxfd : s.ensureCapacity alloc n = .ok (s, .maxfd) := by
      rw [ensureCapacity, if_neg hn, if_pos hmax]
    exact ⟨s, .maxfd, hmaxfd, fun h => SelectorStatus.noConfusion h,
      ⟨fun _ => ⟨hle, hmax⟩, fun _ => rfl⟩, fun _ => rfl⟩
  have hmax' := Nat.not_lt.mp hmax
  rcases ensureCapacity_growing alloc hle hmax' with ⟨-, henomem⟩ | ⟨-, s', hs', hsize, hgrown⟩
  · refine ⟨s, .enomem, henomem, fun h => SelectorStatus.noConfusion h, ?_, fun _ => rfl⟩
    exact ⟨fun h => SelectorStatus.noConfusion h, fun h => absurd h.2 hmax⟩
  · refine ⟨s', .success, hs', fun _ => ⟨hsize ▸ lt_nextCapacity hmax', hgrown⟩, ?_,
      fun h => absurd rfl h⟩
    exact ⟨fun h => SelectorStatus.noConfusion h, fun h => absurd h.2 hmax⟩

-- ---------------------------------------------------------------------------
-- The table of the other modules
-- ---------------------------------------------------------------------------

/-- The block behind a table; the fields of an unused item do not matter. -/
structure Shows (s : Block η δ) (sel : Selector η δ) : Prop where
  size : s.fdSize = sel.fds.length
  items : ∀ i, (s.fds.getD [])[i]?.filter Item.used = sel.entry i

theorem Grown.shows {s s' : Block η δ} {sel sel' : Selector η δ} (h : s.Shows sel)
    (hg : s.Grown s') (hsize : s'.fdSize = sel'.fds.length) (hentry : ∀ i, sel'.entry i = sel.entry i) :
    s'.Shows sel' := by
  refine ⟨hsize, fun i => ?_⟩
  rw [hentry, ← h.items]
  by_cases hi : i < s.fdSize
  · rw [hg.old i hi]
  · have hle := Nat.not_lt.mp hi
    have hnone : (s.fds.getD [])[i]? = none := List.getElem?_eq_none (s.fdSize_eq ▸ hle)
    rw [hnone]
    cases hget : (s'.fds.getD [])[i]? with
    | none => rfl
    | some item => simp [hg.new i item hle hget]

theorem ensureCapacity_shows {s : Block η δ} {sel : Selector η δ} (h : s.Shows sel)
    (alloc : Option (Nat → Item η δ)) (n : Nat) :
    ∃ s', s.ensureCapacity alloc n =
        .ok (s', (Socks5d.ensureCapacity alloc.isSome sel n).2) ∧
      s'.Shows (Socks5d.ensureCapacity alloc.isSome sel n).1 := by
  have hentry := Selector.entry_ensureCapacity alloc.isSome sel n
  by_cases hn : n < s.fdSize
  · rw [Socks5d.ensureCapacity, if_pos (h.size ▸ hn)]
    exact ⟨s, if_pos hn, h⟩
  by_cases hmax : n > itemsMaxSize
  · rw [Socks5d.ensureCapacity, if_neg (h.size ▸ hn), if_pos hmax, ensureCapacity, if_neg hn,
      if_pos hmax]
    exact ⟨s, rfl, h⟩
  have hlt := lt_nextCapacity (Nat.not_lt.mp hmax)
  rcases ensureCapacity_growing alloc (Nat.not_lt.mp hn) (Nat.not_lt.mp hmax) with
    ⟨halloc, henomem⟩ | ⟨halloc, s', hs', hsize, hgrown⟩
  · have hsame : Socks5d.ensureCapacity alloc.isSome sel n = (sel, .enomem) := by
      rw [Socks5d.ensureCapacity, if_neg (h.size ▸ hn), if_neg hmax, halloc]
      rfl
    rw [hsame]
    exact ⟨s, henomem, h⟩
  · have hgrow : Socks5d.ensureCapacity alloc.isSome sel n = ({ sel with
        fds := sel.fds ++ List.replicate (Socks5d.nextCapacity n - sel.fds.length) {} }, .success) := by
      rw [Socks5d.ensureCapacity, if_neg (h.size ▸ hn), if_neg hmax, halloc]
      rfl
    rw [hgrow] at hentry ⊢
    refine ⟨s', hs', hgrown.shows h ?_ hentry⟩
    have := h.size
    rw [hsize]
    simp only [List.length_append, List.length_replicate]
    omega

end Block

end Socks5d
