import Socks5d.Lib.History

/-!
# Machines fed one symbol at a time

A machine reads symbols until it reports that it is done and leaves the rest
unread. `consume` is that loop over one chunk, `consumeChunks` over a sequence
of chunks. When a finished machine ignores further symbols the chunks do not
matter: only their concatenation does (`consumeChunks_eq`).
-/

namespace Lib

structure Machine (σ α : Type*) where
  feed : σ → α → σ
  done : σ → Bool

namespace Machine

variable {σ α : Type*} (m : Machine σ α)

def consume : σ → List α → σ × List α
  | s, [] => (s, [])
  | s, a :: as => if m.done (m.feed s a) then (m.feed s a, as) else consume (m.feed s a) as

def consumeChunks (s : σ) (chunks : List (List α)) : σ :=
  chunks.foldl (fun s chunk => (m.consume s chunk).1) s

def Absorbing : Prop := ∀ s a, m.done s = true → m.feed s a = s

@[simp] theorem consume_nil (s : σ) : m.consume s [] = (s, []) := rfl

theorem consume_cons (s : σ) (a : α) (as : List α) : m.consume s (a :: as) =
    if m.done (m.feed s a) then (m.feed s a, as) else m.consume (m.feed s a) as := rfl

theorem consume_cons_done {s : σ} {a : α} (h : m.done (m.feed s a) = true) (as : List α) :
    m.consume s (a :: as) = (m.feed s a, as) := by
  simp [consume_cons, h]

theorem consume_cons_more {s : σ} {a : α} (h : m.done (m.feed s a) = false) (as : List α) :
    m.consume s (a :: as) = m.consume (m.feed s a) as := by
  simp [consume_cons, h]

theorem consume_rest {s : σ} {xs : List α} (h : m.done (m.consume s xs).1 = false) :
    (m.consume s xs).2 = [] := by
  induction xs generalizing s with
  | nil => rfl
  | cons a as ih =>
    rw [consume_cons] at h ⊢
    split at h
    · simp_all
    · rw [if_neg ‹_›]
      exact ih h

theorem consume_append {s : σ} {xs : List α} (h : m.done (m.consume s xs).1 = false)
    (ys : List α) : m.consume s (xs ++ ys) = m.consume (m.consume s xs).1 ys := by
  induction xs generalizing s with
  | nil => rfl
  | cons a as ih =>
    cases hd : m.done (m.feed s a) with
    | true => simp [consume_cons, hd] at h
    | false =>
      rw [consume_cons_more m hd] at h
      rw [List.cons_append, consume_cons_more m hd, consume_cons_more m hd, ih h]

theorem consume_append_done {s : σ} {xs : List α} (hx : xs ≠ [])
    (h : m.done (m.consume s xs).1 = true) (ys : List α) :
    m.consume s (xs ++ ys) = ((m.consume s xs).1, (m.consume s xs).2 ++ ys) := by
  induction xs generalizing s with
  | nil => exact absurd rfl hx
  | cons a as ih =>
    cases hd : m.done (m.feed s a) with
    | true => simp [consume_cons, hd]
    | false =>
      rw [consume_cons_more m hd] at h
      rw [List.cons_append, consume_cons_more m hd, consume_cons_more m hd]
      refine ih ?_ h
      rintro rfl
      simp [hd] at h

theorem consume_invariant {I : σ → Prop} (step : ∀ s a, I s → I (m.feed s a)) {s : σ}
    (hs : I s) (xs : List α) : I (m.consume s xs).1 := by
  induction xs generalizing s with
  | nil => exact hs
  | cons a as ih =>
    rw [consume_cons]
    split
    · exact step s a hs
    · exact ih (step s a hs)

/-- An invariant of the symbols read so far and the state. -/
theorem consume_history {I : List α → σ → Prop}
    (step : ∀ read s a, m.done s = false → I read s → I (read ++ [a]) (m.feed s a)) {s : σ}
    {read : List α} (hd : m.done s = false) (hs : I read s) (xs : List α) :
    ∃ more, xs = more ++ (m.consume s xs).2 ∧ I (read ++ more) (m.consume s xs).1 := by
  induction xs generalizing s read with
  | nil => exact ⟨[], rfl, by rwa [List.append_nil]⟩
  | cons a as ih =>
    have hstep := step read s a hd hs
    cases hd' : m.done (m.feed s a) with
    | true =>
      rw [consume_cons_done m hd']
      exact ⟨[a], rfl, hstep⟩
    | false =>
      rw [consume_cons_more m hd']
      obtain ⟨more, hmore, hI⟩ := ih hd' hstep
      refine ⟨a :: more, congrArg (a :: ·) hmore, ?_⟩
      rwa [List.append_assoc, List.singleton_append] at hI

structure Reads (s : σ) (xs : List α) (s' : σ) : Prop where
  consume : m.consume s xs = (s', [])
  going : m.done s' = false

namespace Reads

variable {m} {s s' s'' : σ} {xs ys : List α} {a : α}

theorem nil (h : m.done s = false) : m.Reads s [] s := ⟨rfl, h⟩

theorem single (h : m.feed s a = s') (hd : m.done s' = false) : m.Reads s [a] s' := by
  subst h
  exact ⟨consume_cons_more m hd [], hd⟩

theorem append (h : m.Reads s xs s') (h' : m.Reads s' ys s'') : m.Reads s (xs ++ ys) s'' := by
  refine ⟨?_, h'.going⟩
  rw [consume_append m (by rw [h.consume]; exact h.going), h.consume, h'.consume]

theorem of_isPrefix (h : m.Reads s xs s') (hs : m.done s = false) (hp : ys <+: xs) :
    m.done (m.consume s ys).1 = false := by
  obtain ⟨zs, rfl⟩ := hp
  by_contra hd
  have hd : m.done (m.consume s ys).1 = true := by simpa using hd
  have hne : ys ≠ [] := by
    rintro rfl
    exact absurd (hs.symm.trans hd) Bool.false_ne_true
  have hend := consume_append_done m hne hd zs
  rw [h.consume] at hend
  rw [← congrArg Prod.fst hend] at hd
  exact absurd (h.going.symm.trans hd) Bool.false_ne_true

end Reads

structure Ends (s : σ) (xs : List α) (s' : σ) : Prop where
  last : ∃ before a s₁, xs = before ++ [a] ∧ m.Reads s before s₁ ∧ m.feed s₁ a = s'
  done : m.done s' = true

section
variable {m} {s s' s₁ : σ} {xs ys : List α} {a : α}

theorem Reads.ends (h : m.Reads s xs s₁) (hf : m.feed s₁ a = s') (hd : m.done s' = true) :
    m.Ends s (xs ++ [a]) s' :=
  ⟨⟨xs, a, s₁, rfl, h, hf⟩, hd⟩

theorem Reads.append_ends (h : m.Reads s xs s₁) (h' : m.Ends s₁ ys s') : m.Ends s (xs ++ ys) s' := by
  obtain ⟨before, a, s₂, rfl, hr, hf⟩ := h'.last
  rw [← List.append_assoc]
  exact (h.append hr).ends hf h'.done

theorem Ends.consume (h : m.Ends s xs s') : m.consume s xs = (s', []) := by
  obtain ⟨before, a, s₁, rfl, hr, rfl⟩ := h.last
  rw [consume_append m (by rw [hr.consume]; exact hr.going), hr.consume,
    consume_cons_done m h.done]

theorem Ends.consume_append (h : m.Ends s xs s') (ys : List α) : m.consume s (xs ++ ys) = (s', ys) := by
  have hne : xs ≠ [] := by
    obtain ⟨before, a, s₁, rfl, -⟩ := h.last
    simp
  rw [consume_append_done m hne (by rw [h.consume]; exact h.done), h.consume, List.nil_append]

theorem consume_ends (m : Machine σ α) (hs : m.done s = false) (h : m.done (m.consume s xs).1 = true) :
    ∃ read, xs = read ++ (m.consume s xs).2 ∧ m.Ends s read (m.consume s xs).1 := by
  induction xs generalizing s with
  | nil => exact absurd (hs.symm.trans h) Bool.false_ne_true
  | cons a as ih =>
    cases hd : m.done (m.feed s a) with
    | true =>
      rw [consume_cons_done m hd]
      exact ⟨[a], rfl, (Reads.nil hs).ends rfl hd⟩
    | false =>
      rw [consume_cons_more m hd] at h ⊢
      obtain ⟨read, hread, hends⟩ := ih hd h
      exact ⟨a :: read, congrArg (a :: ·) hread, (Reads.single rfl hd).append_ends hends⟩

theorem Ends.of_consume (hs : m.done s = false) (h : m.consume s xs = (s', []))
    (hd : m.done s' = true) : m.Ends s xs s' := by
  have hend : m.done (m.consume s xs).1 = true := by rwa [h]
  obtain ⟨read, hread, hends⟩ := consume_ends m hs hend
  rw [h, List.append_nil] at hread
  rw [h, ← hread] at hends
  exact hends

theorem Ends.not_before (h : m.Ends s xs s') (hs : m.done s = false) (hp : ys <+: xs) (hne : ys ≠ xs) :
    m.done (m.consume s ys).1 = false := by
  obtain ⟨before, a, s₁, rfl, hr, -⟩ := h.last
  refine hr.of_isPrefix hs ?_
  rcases List.prefix_concat_iff.mp hp with heq | hp
  · exact absurd heq hne
  · exact hp

theorem Reads.before {s'' : σ} {zs : List α} (h : m.Reads s xs s') (h' : m.Ends s ys s'')
    (hs : m.done s = false) (hx : xs <+: zs) (hy : ys <+: zs) : xs <+: ys := by
  refine (List.prefix_or_prefix_of_prefix hx hy).resolve_right fun hp => ?_
  have hgoing := h.of_isPrefix hs hp
  rw [h'.consume] at hgoing
  exact absurd (hgoing.symm.trans h'.done) Bool.false_ne_true

theorem Ends.unique {s'' : σ} {zs : List α} (h : m.Ends s xs s') (h' : m.Ends s ys s'')
    (hs : m.done s = false) (hx : xs <+: zs) (hy : ys <+: zs) : xs = ys ∧ s' = s'' := by
  have heq : xs = ys := by
    by_contra hne
    rcases List.prefix_or_prefix_of_prefix hx hy with hp | hp
    · have := h'.not_before hs hp hne
      rw [h.consume] at this
      exact absurd (this.symm.trans h.done) Bool.false_ne_true
    · have := h.not_before hs hp (Ne.symm hne)
      rw [h'.consume] at this
      exact absurd (this.symm.trans h'.done) Bool.false_ne_true
  subst heq
  exact ⟨rfl, congrArg Prod.fst (h.consume.symm.trans h'.consume)⟩

end

def Accepts (good : σ → Prop) (s : σ) (xs : List α) : Prop := ∃ s', m.Ends s xs s' ∧ good s'

section
variable {m} {good : σ → Prop} {s s' : σ} {xs ys : List α}

theorem accepts_iff (hs : m.done s = false) : m.Accepts good s xs ↔
    m.done (m.consume s xs).1 = true ∧ (m.consume s xs).2 = [] ∧ good (m.consume s xs).1 := by
  constructor
  · rintro ⟨s', hends, hgood⟩
    rw [hends.consume]
    exact ⟨hends.done, rfl, hgood⟩
  · rintro ⟨hd, hrest, hgood⟩
    exact ⟨_, .of_consume hs (Prod.ext rfl hrest) hd, hgood⟩

theorem not_accepts_nil (hs : m.done s = false) : ¬ m.Accepts good s [] := by
  rw [accepts_iff hs]
  exact fun h => absurd (hs.symm.trans h.1) Bool.false_ne_true

theorem accepts_cons_done (hs : m.done s = false) {a : α} (hd : m.done (m.feed s a) = true) :
    m.Accepts good s (a :: xs) ↔ xs = [] ∧ good (m.feed s a) := by
  rw [accepts_iff hs, consume_cons_done m hd]
  exact and_iff_right hd

theorem accepts_cons_more (hs : m.done s = false) {a : α} (hd : m.done (m.feed s a) = false) :
    m.Accepts good s (a :: xs) ↔ m.Accepts good (m.feed s a) xs := by
  rw [accepts_iff hs, accepts_iff hd, consume_cons_more m hd]

theorem Reads.accepts_append (h : m.Reads s xs s') (hs : m.done s = false) :
    m.Accepts good s (xs ++ ys) ↔ m.Accepts good s' ys := by
  rw [accepts_iff hs, accepts_iff h.going, consume_append m (by rw [h.consume]; exact h.going),
    h.consume]

theorem Reads.not_accepts (h : m.Reads s xs s') (hs : m.done s = false) (hp : ys <+: xs) :
    ¬ m.Accepts good s ys := by
  rw [accepts_iff hs]
  exact fun hd => absurd ((h.of_isPrefix hs hp).symm.trans hd.1) Bool.false_ne_true

end

theorem consume_map {τ : Type*} {m : Machine σ α} {m' : Machine τ α} {f : σ → τ}
    (hfeed : ∀ s a, f (m.feed s a) = m'.feed (f s) a) (hdone : ∀ s, m'.done (f s) = m.done s) (s : σ)
    (xs : List α) : m'.consume (f s) xs = (f (m.consume s xs).1, (m.consume s xs).2) := by
  induction xs generalizing s with
  | nil => rfl
  | cons a as ih =>
    rw [consume_cons, consume_cons, ← hfeed, hdone]
    split
    · rfl
    · exact ih (m.feed s a)

theorem consume_related {R : σ → σ → Prop} (step : ∀ s s' a, R s s' →
      R (m.feed s a) (m.feed s' a) ∧ m.done (m.feed s a) = m.done (m.feed s' a)) {s s' : σ}
    (h : R s s') (xs : List α) : R (m.consume s xs).1 (m.consume s' xs).1 := by
  induction xs generalizing s s' with
  | nil => exact h
  | cons a as ih =>
    obtain ⟨hr, hd⟩ := step s s' a h
    rw [consume_cons, consume_cons, ← hd]
    split
    · exact hr
    · exact ih hr

def fed : σ → List α → List (σ × α)
  | _, [] => []
  | s, a :: as => (s, a) :: if m.done (m.feed s a) then [] else fed (m.feed s a) as

theorem fed_justified {I : List (σ × α) → σ → Prop}
    (step : ∀ past s a, I past s → I (past ++ [(s, a)]) (m.feed s a)) {past : List (σ × α)} {s : σ}
    (hpast : Justified (fun past x => I past x.1) past) (hs : I past s) (xs : List α) :
    Justified (fun past x => I past x.1) (past ++ m.fed s xs) ∧
      I (past ++ m.fed s xs) (m.consume s xs).1 := by
  induction xs generalizing past s with
  | nil =>
    rw [fed, List.append_nil]
    exact ⟨hpast, hs⟩
  | cons a as ih =>
    have hnext := step past s a hs
    have hpast' : Justified (fun past x => I past x.1) (past ++ [(s, a)]) := hpast.concat hs
    cases hd : m.done (m.feed s a) with
    | true =>
      rw [consume_cons_done m hd, fed, if_pos hd]
      exact ⟨hpast', hnext⟩
    | false =>
      rw [consume_cons_more m hd, fed, hd, if_neg Bool.false_ne_true, List.append_cons]
      exact ih hpast' hnext

theorem Absorbing.consume {m : Machine σ α} (h : m.Absorbing) {s : σ} (hs : m.done s = true)
    (xs : List α) : (m.consume s xs).1 = s := by
  cases xs with
  | nil => rfl
  | cons a as => simp [consume_cons, h s a hs, hs]

theorem Absorbing.consume_fst_append {m : Machine σ α} (h : m.Absorbing) (s : σ)
    (xs ys : List α) : (m.consume s (xs ++ ys)).1 = (m.consume (m.consume s xs).1 ys).1 := by
  cases hd : m.done (m.consume s xs).1 with
  | false => rw [consume_append m hd]
  | true =>
    rw [h.consume hd]
    by_cases hx : xs = []
    · subst hx
      exact h.consume hd ys
    · rw [consume_append_done m hx hd]

theorem Absorbing.consumeChunks_eq {m : Machine σ α} (h : m.Absorbing) (s : σ)
    (chunks : List (List α)) : m.consumeChunks s chunks = (m.consume s chunks.flatten).1 := by
  induction chunks generalizing s with
  | nil => rfl
  | cons c cs ih =>
    rw [List.flatten_cons, h.consume_fst_append, ← ih]
    rfl

end Machine

end Lib
