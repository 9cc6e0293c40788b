import Mathlib.Data.List.Basic

/-!
# A bounded queue that gets its room back late

Items are appended at the back and dropped from the front. The room of the
items dropped is not free again at once, only when the queue runs empty or is
compacted. The structure carries what ties the two together.
-/

namespace Lib

@[ext] structure Queue (α : Type) where
  capacity : Nat
  items : List α
  free : Nat
  fits : items.length + free ≤ capacity
  refreshed : items = [] → free = capacity

namespace Queue

variable {α : Type}

def empty (capacity : Nat) : Queue α :=
  ⟨capacity, [], capacity, by simp, fun _ => rfl⟩

def append (q : Queue α) (as : List α) : Queue α :=
  if h : as.length ≤ q.free then
    { q with
      items := q.items ++ as
      free := q.free - as.length
      fits := by
        have := q.fits
        rw [List.length_append]
        omega
      refreshed := fun hnil => by
        obtain ⟨hitems, has⟩ := List.append_eq_nil_iff.mp hnil
        rw [q.refreshed hitems, has, List.length_nil, Nat.sub_zero] }
  else q

def drop (q : Queue α) (k : Nat) : Queue α :=
  { q with
    items := q.items.drop k
    free := if q.items.drop k = [] then q.capacity else q.free
    fits := by
      have := q.fits
      rw [List.length_drop]
      split
      · rename_i h
        rw [List.drop_eq_nil_iff] at h
        omega
      · omega
    refreshed := fun h => if_pos h }

def compact (q : Queue α) : Queue α :=
  { q with
    free := q.capacity - q.items.length
    fits := by
      have := q.fits
      omega
    refreshed := fun h => by rw [h, List.length_nil, Nat.sub_zero] }

theorem append_of_le {q : Queue α} {as : List α} (h : as.length ≤ q.free) :
    (q.append as).items = q.items ++ as ∧ (q.append as).free = q.free - as.length := by
  simp only [append, h, ↓reduceDIte, and_self]

@[simp] theorem capacity_append (q : Queue α) (as : List α) :
    (q.append as).capacity = q.capacity := by
  unfold append
  split <;> rfl

theorem append_of_full {q : Queue α} {a : α} (h : q.free = 0) : q.append [a] = q := by
  simp only [append, h, List.length_singleton, Nat.le_zero, Nat.one_ne_zero, ↓reduceDIte]

theorem items_or_free (q : Queue α) (h : 0 < q.capacity) : q.items ≠ [] ∨ 0 < q.free := by
  by_cases hitems : q.items = []
  · exact .inr (q.refreshed hitems ▸ h)
  · exact .inl hitems

end Queue

end Lib
