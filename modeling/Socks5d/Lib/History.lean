import Mathlib.Data.List.Induction

/-!
# Histories

A history lists what was done, in order. `Justified` is the form of the
properties that speak of the past: every entry is justified by the entries
before it.
-/

namespace Lib

variable {α : Type*}

def Justified (P : List α → α → Prop) (l : List α) : Prop :=
  ∀ past a rest, l = past ++ a :: rest → P past a

variable {P : List α → α → Prop} {l l' : List α}

theorem justified_nil : Justified P [] := fun _ _ _ h => by simp at h

theorem Justified.concat (h : Justified P l) {a : α} (ha : P l a) : Justified P (l ++ [a]) := by
  intro past b rest heq
  rcases List.eq_nil_or_concat rest with rfl | ⟨rest, x, rfl⟩
  · obtain ⟨rfl, hb⟩ := List.append_inj' heq rfl
    obtain rfl : a = b := List.singleton_inj.mp hb
    exact ha
  · have heq' : l ++ [a] = (past ++ b :: rest) ++ [x] := by simpa using heq
    exact h past b rest (List.append_inj' heq' rfl).1

theorem justified_concat_iff {a : α} : Justified P (l ++ [a]) ↔ Justified P l ∧ P l a :=
  ⟨fun h => ⟨fun past b rest heq => h past b (rest ++ [a]) (by simp [heq]), h l a [] rfl⟩,
    fun h => h.1.concat h.2⟩

theorem justified_iff_getElem :
    Justified P l ↔ ∀ i, (h : i < l.length) → P (l.take i) l[i] := by
  constructor
  · intro h i hi
    exact h _ _ (l.drop (i + 1)) (by rw [← List.drop_eq_getElem_cons hi, List.take_append_drop])
  · rintro h past a rest rfl
    have ha := h past.length (by simp)
    rw [List.take_left, List.getElem_append_right (Nat.le_refl _)] at ha
    simpa only [Nat.sub_self, List.getElem_cons_zero] using ha

instance [∀ past a, Decidable (P past a)] : Decidable (Justified P l) :=
  decidable_of_iff _ justified_iff_getElem.symm

theorem justified_congr {Q : List α → α → Prop}
    (h : ∀ past a rest, l = past ++ a :: rest → Justified P past → (P past a ↔ Q past a)) :
    Justified P l ↔ Justified Q l := by
  induction l using List.reverseRecOn with
  | nil => exact ⟨fun _ => justified_nil, fun _ => justified_nil⟩
  | append_singleton l a ih =>
    have hl : Justified P l ↔ Justified Q l :=
      ih fun past b rest heq => h past b (rest ++ [a]) (by simp [heq])
    rw [justified_concat_iff, justified_concat_iff, ← hl]
    exact and_congr_right fun hp => h l a [] rfl hp

theorem Justified.append (h : Justified P l) (h' : ∀ a ∈ l', ∀ past, P past a) :
    Justified P (l ++ l') := by
  induction l' generalizing l with
  | nil => rwa [List.append_nil]
  | cons a l' ih =>
    rw [List.append_cons]
    exact ih (h.concat (h' a List.mem_cons_self l)) fun b hb => h' b (List.mem_cons_of_mem a hb)

end Lib
