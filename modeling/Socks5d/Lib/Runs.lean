/-!
# Runs of a system that can fail

An event takes a state to a next one, ends the run with a fault, or cannot
happen at all. `Reaches` collects the states of the runs whose events all meet
a condition on the state they meet; `invariant` is the induction over them, and
`play` computes one of them.
-/

namespace Lib

variable {σ α ε : Type}

inductive Reaches (step : σ → α → Option (Except ε σ)) (ok : σ → α → Prop) (s₀ : σ) :
    σ → Prop
  | start : Reaches step ok s₀ s₀
  | next {s s' : σ} {a : α} (h : Reaches step ok s₀ s) (hok : ok s a)
      (hstep : step s a = some (.ok s')) : Reaches step ok s₀ s'

namespace Reaches

variable {step : σ → α → Option (Except ε σ)} {ok : σ → α → Prop} {s₀ s : σ}

theorem invariant {I : σ → Prop} (h : Reaches step ok s₀ s) (h₀ : I s₀)
    (hstep : ∀ s a s', I s → ok s a → step s a = some (.ok s') → I s') : I s := by
  induction h with
  | start => exact h₀
  | next _ hok hs ih => exact hstep _ _ _ ih hok hs

theorem mono {ok' : σ → α → Prop} (h : Reaches step ok s₀ s) (himp : ∀ s a, ok s a → ok' s a) :
    Reaches step ok' s₀ s := by
  induction h with
  | start => exact .start
  | next _ hok hs ih => exact .next ih (himp _ _ hok) hs

theorem trans {s' : σ} (h : Reaches step ok s₀ s) (h' : Reaches step ok s s') :
    Reaches step ok s₀ s' := by
  induction h' with
  | start => exact h
  | next _ hok hs ih => exact .next ih hok hs

end Reaches

-- ---------------------------------------------------------------------------
-- Concrete runs
-- ---------------------------------------------------------------------------

/-- The events of a list, one after the other, as long as they meet the
condition. -/
def play (step : σ → α → Option (Except ε σ)) (ok : σ → α → Prop) [∀ s a, Decidable (ok s a)]
    (s : σ) : List α → Option (Except ε σ)
  | [] => some (.ok s)
  | a :: as =>
    if ok s a then
      match step s a with
      | some (.ok s) => play step ok s as
      | r => r
    else none

def endsIn (p : σ → Bool) : Option (Except ε σ) → Bool
  | some (.ok s) => p s
  | _ => false

theorem endsIn_iff {p : σ → Bool} {r : Option (Except ε σ)} :
    endsIn p r = true ↔ ∃ s, r = some (.ok s) ∧ p s = true := by
  unfold endsIn
  split <;> simp_all

variable {step : σ → α → Option (Except ε σ)} {ok : σ → α → Prop} [∀ s a, Decidable (ok s a)]
  {s s' : σ}

theorem play_cons {a : α} {as : List α} {r : Except ε σ} (h : play step ok s (a :: as) = some r) :
    ok s a ∧ ((∃ f, step s a = some (.error f) ∧ r = .error f) ∨
      ∃ s', step s a = some (.ok s') ∧ play step ok s' as = some r) := by
  unfold play at h
  by_cases hok : ok s a
  · rw [if_pos hok] at h
    refine ⟨hok, ?_⟩
    cases hs : step s a with
    | none => simp [hs] at h
    | some r' =>
      cases r' with
      | error f =>
        simp only [hs, Option.some.injEq] at h
        exact .inl ⟨f, rfl, h.symm⟩
      | ok s' =>
        simp only [hs] at h
        exact .inr ⟨s', rfl, h⟩
  · rw [if_neg hok] at h
    cases h

theorem play_next {a : α} (as : List α) (hok : ok s a) (hs : step s a = some (.ok s')) :
    play step ok s (a :: as) = play step ok s' as := by
  rw [play, if_pos hok, hs]

theorem reaches_of_play {as : List α} (h : play step ok s as = some (.ok s')) :
    Reaches step ok s s' := by
  induction as generalizing s with
  | nil =>
    cases h
    exact .start
  | cons a as ih =>
    obtain ⟨hok, ⟨f, -, hr⟩ | ⟨s₁, hs, hplay⟩⟩ := play_cons h
    · cases hr
    · exact Reaches.trans (.next .start hok hs) (ih hplay)

theorem fault_of_play {as : List α} {f : ε} (h : play step ok s as = some (.error f)) :
    ∃ s' a, Reaches step ok s s' ∧ ok s' a ∧ step s' a = some (.error f) := by
  induction as generalizing s with
  | nil => cases h
  | cons a as ih =>
    obtain ⟨hok, ⟨f', hs, hr⟩ | ⟨s₁, hs, hplay⟩⟩ := play_cons h
    · cases hr
      exact ⟨s, a, .start, hok, hs⟩
    · obtain ⟨s', a', hrun, hrest⟩ := ih hplay
      exact ⟨s', a', Reaches.trans (.next .start hok hs) hrun, hrest⟩

end Lib
