/-!
# Stages

A procedure that passes through stages, any of which can stop it. `Stage E P x` says
where `x` can stop and what it leaves when it does not; the rules follow the ways
in which stages are put together.
-/

namespace Lib

variable {ε α β : Type}

structure Stage (E : ε → Prop) (P : α → Prop) (x : Except ε α) : Prop where
  stops : ∀ e, x = .error e → E e
  ends : ∀ a, x = .ok a → P a

namespace Stage

variable {E : ε → Prop} {P : α → Prop} {Q : β → Prop} {x : Except ε α} {f : α → Except ε β}

theorem ok {a : α} (h : P a) : Stage E P (.ok a : Except ε α) := by
  constructor
  · intro e he
    cases he
  · intro b hb
    cases hb
    exact h

theorem error {e : ε} (h : E e) : Stage E P (.error e : Except ε α) := by
  constructor
  · intro e' he
    cases he
    exact h
  · intro a ha
    cases ha

theorem bind (hx : Stage E P x) (hf : ∀ a, P a → Stage E Q (f a)) : Stage E Q (x >>= f) := by
  cases x with
  | error e => exact .error (hx.stops e rfl)
  | ok a => exact hf a (hx.ends a rfl)

theorem ite {c : Prop} [Decidable c] {y : Except ε α} (hx : c → Stage E P x)
    (hy : ¬ c → Stage E P y) : Stage E P (if c then x else y) := by
  by_cases h : c
  · rw [if_pos h]
    exact hx h
  · rw [if_neg h]
    exact hy h

end Stage

end Lib
