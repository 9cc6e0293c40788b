import Socks5d.Buffer
import Socks5d.Lib.Machine

/-!
# The loop of the `_consume` functions

`hello_consume`, `auth_consume`, `request_consume` and `monitor_consume` are
one loop: while the buffer can be read, take a byte, feed it, and stop when
the parser is done. `consumeBuffer` is that loop over any byte-fed machine,
and `consumeBuffer_spec` reads it as `Machine.consume` on the content.
-/

namespace Socks5d

open Lib (Machine)

variable {σ : Type}

def consumeLoop (m : Machine σ Byte) : Nat → Buffer → σ → Buffer × σ
  | 0, b, s => (b, s)
  | n + 1, b, s =>
    if bufferCanRead b then
      let (c, b) := bufferRead b
      let s := m.feed s c
      if m.done s then (b, s) else consumeLoop m n b s
    else (b, s)

def consumeBuffer (m : Machine σ Byte) (b : Buffer) (s : σ) : Buffer × σ :=
  consumeLoop m b.content.length b s

structure Drained (b b' : Buffer) : Prop where
  limit : b'.limit = b.limit
  rewound : b.Rewound → b'.Rewound
  full : b'.content = [] → b.Rewound → b'.space = b.limit

theorem Drained.refl (b : Buffer) : Drained b b :=
  ⟨rfl, id, fun he hr => hr.space_of_empty he⟩

theorem consumeLoop_spec (m : Machine σ Byte) (n : Nat) (b : Buffer) (s : σ)
    (h : b.content.length ≤ n) :
    (consumeLoop m n b s).2 = (m.consume s b.content).1 ∧
      (consumeLoop m n b s).1.content = (m.consume s b.content).2 ∧
      Drained b (consumeLoop m n b s).1 := by
  induction n generalizing b s with
  | zero =>
    have hc : b.content = [] := List.eq_nil_of_length_eq_zero (Nat.le_zero.mp h)
    simp only [consumeLoop, hc, Machine.consume_nil]
    exact ⟨trivial, trivial, .refl b⟩
  | succ n ih =>
    cases hc : b.content with
    | nil =>
      have hcan : bufferCanRead b = false := by simpa using hc
      simp only [consumeLoop, hcan, Bool.false_eq_true, ↓reduceIte, hc, Machine.consume_nil]
      exact ⟨trivial, trivial, .refl b⟩
    | cons c rest =>
      obtain ⟨hb, hrest, hlim, hrew, hspace⟩ := Buffer.bufferRead_spec hc
      have hcan : bufferCanRead b = true := by simp [hc]
      simp only [consumeLoop, hcan, ↓reduceIte, hb]
      cases hd : m.done (m.feed s c) with
      | true =>
        simp only [↓reduceIte, Machine.consume_cons_done m hd]
        refine ⟨trivial, hrest, hlim, fun _ => hrew, fun he _ => ?_⟩
        rw [hspace, if_pos (hrest ▸ he)]
      | false =>
        have hlen : (bufferRead b).2.content.length ≤ n := by
          rw [hrest]
          simpa [hc] using h
        obtain ⟨h1, h2, h3⟩ := ih (bufferRead b).2 (m.feed s c) hlen
        rw [hrest] at h1 h2
        simp only [Bool.false_eq_true, ↓reduceIte, Machine.consume_cons_more m hd]
        refine ⟨h1, h2, h3.limit.trans hlim, fun _ => h3.rewound hrew, fun he _ => ?_⟩
        rw [h3.full he hrew, hlim]

theorem consumeBuffer_spec (m : Machine σ Byte) (b : Buffer) (s : σ) :
    (consumeBuffer m b s).2 = (m.consume s b.content).1 ∧
      (consumeBuffer m b s).1.content = (m.consume s b.content).2 ∧
      Drained b (consumeBuffer m b s).1 :=
  consumeLoop_spec m _ b s (Nat.le_refl _)

/-- Related states that stay related and stop together empty the buffer alike. -/
theorem consumeBuffer_related {m : Machine σ Byte} {R : σ → σ → Prop}
    (step : ∀ s s' c, R s s' → R (m.feed s c) (m.feed s' c) ∧
      m.done (m.feed s c) = m.done (m.feed s' c))
    (b : Buffer) {s s' : σ} (h : R s s') :
    (consumeBuffer m b s).1 = (consumeBuffer m b s').1 ∧
      R (consumeBuffer m b s).2 (consumeBuffer m b s').2 := by
  unfold consumeBuffer
  generalize b.content.length = n
  induction n generalizing b s s' with
  | zero => exact ⟨rfl, h⟩
  | succ n ih =>
    simp only [consumeLoop]
    obtain ⟨hr, hd⟩ := step s s' (bufferRead b).1 h
    by_cases hc : bufferCanRead b = true
    · simp only [hc, ↓reduceIte, hd]
      split
      · exact ⟨rfl, hr⟩
      · exact ih (bufferRead b).2 hr
    · simp only [hc, ↓reduceIte, Bool.false_eq_true]
      exact ⟨trivial, h⟩

-- ---------------------------------------------------------------------------
-- Calls until the parser is done
-- ---------------------------------------------------------------------------

def contents (bs : List Buffer) : List Byte := bs.flatMap Buffer.content

/-- The calls of a `_consume` function on these buffers, until one reports that
the parser is done: the parser, the `*errored` of that call, and what it leaves of
its buffer, with the buffers that it did not see. -/
def consumeCalls (consume : Buffer → σ → Buffer × σ × Bool) (done : σ → Bool) (s : σ) :
    List Buffer → σ × Bool × Option (Buffer × List Buffer)
  | [] => (s, false, none)
  | b :: bs =>
    let (b, s, errored) := consume b s
    if done s then (s, errored, some (b, bs)) else consumeCalls consume done s bs

section

variable {m : Machine σ Byte} {isError : σ → Bool} {consume : Buffer → σ → Buffer × σ × Bool}

/-- The `_consume` functions that tell errors apart. -/
def Consumes (m : Machine σ Byte) (isError : σ → Bool) (consume : Buffer → σ → Buffer × σ × Bool) :
    Prop :=
  ∀ b s, consume b s = ((consumeBuffer m b s).1, (consumeBuffer m b s).2,
    bufferCanRead b && isError (consumeBuffer m b s).2)

theorem consumeCalls_spec (h : Consumes m isError consume) {s : σ} (hs : m.done s = false)
    (bs : List Buffer) :
    (m.done (m.consume s (contents bs)).1 = false →
      consumeCalls consume m.done s bs = ((m.consume s (contents bs)).1, false, none)) ∧
    (m.done (m.consume s (contents bs)).1 = true → ∃ b rest,
      consumeCalls consume m.done s bs = ((m.consume s (contents bs)).1,
        isError (m.consume s (contents bs)).1, some (b, rest)) ∧
      b.content ++ contents rest = (m.consume s (contents bs)).2) := by
  induction bs generalizing s with
  | nil => exact ⟨fun _ => rfl, fun hd => absurd (hs.symm.trans hd) Bool.false_ne_true⟩
  | cons b bs ih =>
    obtain ⟨hstate, hrest, -⟩ := consumeBuffer_spec m b s
    have hcontents : contents (b :: bs) = b.content ++ contents bs := rfl
    rw [hcontents]
    simp only [consumeCalls, h b s, hstate]
    cases hd : m.done (m.consume s b.content).1 with
    | false =>
      rw [Machine.consume_append m hd]
      exact ih hd
    | true =>
      have hne : b.content ≠ [] := by
        intro he
        rw [he] at hd
        exact absurd (hs.symm.trans hd) Bool.false_ne_true
      rw [Machine.consume_append_done m hne hd]
      refine ⟨fun hd' => absurd (hd'.symm.trans hd) Bool.false_ne_true,
        fun _ => ⟨(consumeBuffer m b s).1, bs, ?_, ?_⟩⟩
      · rw [if_pos rfl, (Buffer.canRead_iff b).mpr hne, Bool.true_and]
      · rw [hrest]

/-- A message that ends the parser is recognised, and the rest is left. -/
theorem consumeCalls_ends (h : Consumes m isError consume) {s s' : σ} (hs : m.done s = false)
    {message trailing : List Byte} (hends : m.Ends s message s') {bs : List Buffer}
    (hbs : contents bs = message ++ trailing) :
    ∃ b rest, consumeCalls consume m.done s bs = (s', isError s', some (b, rest)) ∧
      b.content ++ contents rest = trailing := by
  obtain ⟨-, hdone⟩ := consumeCalls_spec h hs bs
  rw [hbs, hends.consume_append] at hdone
  exact hdone hends.done

end

end Socks5d
