import Mathlib.Tactic.Common

/-!
# Programs of calls

A program either returns or makes a call and goes on with the answer. What a
call does is given from outside, by an interpretation over some state, so one
program can be run over several states. `Meets` is a postcondition of a run, and
`run_agrees` compares two runs: where every single call agrees, whole programs
do.
-/

namespace Lib

structure Signature where
  Call : Type
  Answer : Call → Type

inductive Prog (S : Signature) (α : Type) : Type
  | ret (a : α)
  | call (o : S.Call) (next : S.Answer o → Prog S α)

namespace Prog

variable {S : Signature} {α β : Type}

def bind : Prog S α → (α → Prog S β) → Prog S β
  | .ret a, f => f a
  | .call o next, f => .call o fun r => (next r).bind f

instance : Monad (Prog S) where
  pure := .ret
  bind := bind

def perform (o : S.Call) : Prog S (S.Answer o) := .call o .ret

end Prog

theorem bind_ok {ε α β : Type} {x : Except ε α} {f : α → Except ε β} {b : β}
    (h : x >>= f = .ok b) : ∃ a, x = .ok a ∧ f a = .ok b := by
  cases x with
  | error e => cases h
  | ok a => exact ⟨a, rfl, h⟩

/-- What a call does to a state: an answer, or a fault that ends the run. -/
abbrev Interp (S : Signature) (σ ε : Type) := (o : S.Call) → σ → Except ε (σ × S.Answer o)

namespace Prog

variable {S : Signature} {α β σ τ ε : Type}

def run (exec : Interp S σ ε) : Prog S α → σ → Except ε (σ × α)
  | .ret a, s => .ok (s, a)
  | .call o next, s =>
    match exec o s with
    | .ok (s, r) => (next r).run exec s
    | .error e => .error e

@[simp] theorem run_pure (exec : Interp S σ ε) (a : α) (s : σ) :
    (pure a : Prog S α).run exec s = .ok (s, a) := rfl

@[simp] theorem run_perform (exec : Interp S σ ε) (o : S.Call) (s : σ) :
    (perform o).run exec s = exec o s := by
  simp only [perform, run]
  cases exec o s <;> rfl

@[simp] theorem run_bind (exec : Interp S σ ε) (p : Prog S α) (f : α → Prog S β) (s : σ) :
    (p >>= f).run exec s =
      match p.run exec s with
      | .ok (s, a) => (f a).run exec s
      | .error e => .error e := by
  show (p.bind f).run exec s = _
  induction p generalizing s with
  | ret a => rfl
  | call o next ih =>
    simp only [bind, run]
    cases exec o s with
    | error e => rfl
    | ok r => exact ih r.2 r.1

-- ---------------------------------------------------------------------------
-- Postconditions
-- ---------------------------------------------------------------------------

def Meets (exec : Interp S σ ε) (p : Prog S α) (s : σ) (Q : σ → α → Prop) (E : ε → Prop) : Prop :=
  match p.run exec s with
  | .ok (s, a) => Q s a
  | .error e => E e

variable {exec : Interp S σ ε} {p : Prog S α} {f : α → Prog S β} {s : σ}

theorem meets_of_run {Q : σ → α → Prop} {E : ε → Prop} {s' : σ} {a : α}
    (h : p.run exec s = .ok (s', a)) (hq : Q s' a) : Meets exec p s Q E := by
  rw [Meets, h]
  exact hq

theorem meets_of_error {Q : σ → α → Prop} {E : ε → Prop} {e : ε} (h : p.run exec s = .error e)
    (he : E e) : Meets exec p s Q E := by
  rw [Meets, h]
  exact he

theorem meets_pure {Q : σ → α → Prop} {E : ε → Prop} {a : α} (h : Q s a) :
    Meets exec (pure a) s Q E := h

theorem Meets.bind {Q : σ → α → Prop} {Q' : σ → β → Prop} {E : ε → Prop}
    (hp : Meets exec p s Q E) (hf : ∀ s' a, Q s' a → Meets exec (f a) s' Q' E) :
    Meets exec (p >>= f) s Q' E := by
  unfold Meets at hp ⊢
  rw [run_bind]
  cases hrun : p.run exec s with
  | ok r =>
    rw [hrun] at hp
    exact hf _ _ hp
  | error e =>
    rw [hrun] at hp
    exact hp

theorem meets_bind {Q : σ → β → Prop} {E : ε → Prop} {s' : σ} {a : α}
    (h : p.run exec s = .ok (s', a)) (hf : Meets exec (f a) s' Q E) :
    Meets exec (p >>= f) s Q E := by
  unfold Meets at hf ⊢
  rw [run_bind, h]
  exact hf

theorem meets_bind_error {Q : σ → β → Prop} {E : ε → Prop} {e : ε} (h : p.run exec s = .error e)
    (he : E e) : Meets exec (p >>= f) s Q E := by
  unfold Meets
  rw [run_bind, h]
  exact he

theorem Meets.mono {Q Q' : σ → α → Prop} {E E' : ε → Prop} (h : Meets exec p s Q E)
    (hq : ∀ s' a, Q s' a → Q' s' a) (he : ∀ e, E e → E' e) : Meets exec p s Q' E' := by
  unfold Meets at h ⊢
  cases hrun : p.run exec s with
  | ok r =>
    rw [hrun] at h
    exact hq _ _ h
  | error e =>
    rw [hrun] at h
    exact he _ h

theorem run_keeps {I : σ → Prop} (hcall : ∀ o s s' r, I s → exec o s = .ok (s', r) → I s')
    (p : Prog S α) {s s' : σ} {a : α} (h : I s) (hrun : p.run exec s = .ok (s', a)) : I s' := by
  induction p generalizing s with
  | ret a =>
    cases hrun
    exact h
  | call o next ih =>
    rw [run] at hrun
    cases hexec : exec o s with
    | error e =>
      rw [hexec] at hrun
      cases hrun
    | ok r =>
      rw [hexec] at hrun
      exact ih r.2 (hcall o s r.1 r.2 h hexec) hrun

end Prog

-- ---------------------------------------------------------------------------
-- Two runs of one program
-- ---------------------------------------------------------------------------

/-- The results of one computation over two states. Either the first one met
an excused fault, or both end alike, in related states. -/
inductive Agree {σ τ ε α : Type} (excused : ε → Prop) (R : σ → τ → Prop) :
    Except ε (σ × α) → Except ε (τ × α) → Prop
  | excuse {e : ε} (h : excused e) (y : Except ε (τ × α)) : Agree excused R (.error e) y
  | fault (e : ε) : Agree excused R (.error e) (.error e)
  | done {s : σ} {t : τ} (a : α) (h : R s t) : Agree excused R (.ok (s, a)) (.ok (t, a))

variable {S : Signature} {α σ τ ε : Type}

/-- Calls that agree make programs that agree. Calls on which the second
interpretation gives up with the fault `outside` need not agree. -/
theorem Prog.run_agrees {exec : Interp S σ ε} {view : Interp S τ ε} {excused : ε → Prop}
    {outside : ε} {R : σ → τ → Prop}
    (hcall : ∀ o s t, R s t → view o t ≠ .error outside → Agree excused R (exec o s) (view o t))
    (p : Prog S α) {s : σ} {t : τ} (h : R s t) (hin : p.run view t ≠ .error outside) :
    Agree excused R (p.run exec s) (p.run view t) := by
  induction p generalizing s t with
  | ret a => exact .done a h
  | call o next ih =>
    simp only [Prog.run] at hin ⊢
    have hview : view o t ≠ .error outside := by
      intro he
      rw [he] at hin
      exact hin rfl
    have hagree := hcall o s t h hview
    generalize exec o s = x at hagree ⊢
    generalize view o t = y at hagree hin ⊢
    cases hagree with
    | excuse he => exact .excuse he _
    | fault e => exact .fault e
    | done a hr => exact ih a hr hin

/-- A map of the states that every call commutes with is one that programs
commute with. The view tells which calls have to. -/
theorem Prog.run_commutes {exec : Interp S σ ε} {view : Interp S τ ε} {excused : ε → Prop}
    {outside : ε} {R : σ → τ → Prop} {f : σ → σ}
    (hcall : ∀ o s t, R s t → view o t ≠ .error outside → Agree excused R (exec o s) (view o t))
    (hcomm : ∀ o s t, R s t → view o t ≠ .error outside →
      exec o (f s) = (exec o s).map (Prod.map f id))
    (p : Prog S α) {s : σ} {t : τ} (h : R s t) (hin : p.run view t ≠ .error outside) :
    p.run exec (f s) = (p.run exec s).map (Prod.map f id) := by
  induction p generalizing s t with
  | ret a => rfl
  | call o next ih =>
    simp only [Prog.run] at hin ⊢
    have hview : view o t ≠ .error outside := by
      intro he
      rw [he] at hin
      exact hin rfl
    have hagree := hcall o s t h hview
    rw [hcomm o s t h hview]
    generalize exec o s = x at hagree ⊢
    generalize view o t = y at hagree hin
    cases hagree with
    | excuse he => rfl
    | fault e => rfl
    | done a hr => exact ih a hr hin

end Lib
