import Socks5d.Lib.Machine

/-!
# Messages that arrive in chunks

A reader works through a sequence of messages. It looks for the end of its
current message only when a chunk arrives, so a chunk completes at most one of
them, and what is left of it waits for the next chunk. `Completes` counts the
messages completed that way; all of them are if and only if there are as many
chunks, one after the other, that find them there (`Completes.spread_iff`).
-/

namespace Lib

variable {α σ : Type*}

inductive Completes (messages : List (List α)) : List (List α) → Nat → Prop
  | start : Completes messages [] 0
  | wait {chunks : List (List α)} {k : Nat} (chunk : List α) (h : Completes messages chunks k)
      (hmore : k < messages.length →
        ¬ (messages.take (k + 1)).flatten <+: (chunks ++ [chunk]).flatten) :
      Completes messages (chunks ++ [chunk]) k
  | next {chunks : List (List α)} {k : Nat} {chunk : List α} (h : Completes messages chunks k)
      (hk : k < messages.length)
      (hall : (messages.take (k + 1)).flatten <+: (chunks ++ [chunk]).flatten) :
      Completes messages (chunks ++ [chunk]) (k + 1)

def SpreadUpTo (messages chunks : List (List α)) (n : Nat) : Prop :=
  ∃ f : Nat → Nat, (∀ i j, i < j → j < n → f i < f j) ∧
    ∀ j < n, f j < chunks.length ∧
      (messages.take (j + 1)).flatten <+: (chunks.take (f j + 1)).flatten

/-- Every message has a chunk of its own in which it is there as a whole. -/
def Spread (messages chunks : List (List α)) : Prop := SpreadUpTo messages chunks messages.length

namespace SpreadUpTo

variable {messages chunks : List (List α)} {chunk : List α} {n : Nat}

theorem zero : SpreadUpTo messages chunks 0 :=
  ⟨id, fun _ _ _ hj => absurd hj (Nat.not_lt_zero _), fun _ hj => absurd hj (Nat.not_lt_zero _)⟩

theorem concat (h : SpreadUpTo messages chunks n) : SpreadUpTo messages (chunks ++ [chunk]) n := by
  obtain ⟨f, hmono, hf⟩ := h
  refine ⟨f, hmono, fun j hj => ?_⟩
  obtain ⟨hlt, hall⟩ := hf j hj
  rw [List.length_append, List.take_append_of_le_length hlt]
  exact ⟨Nat.lt_add_right _ hlt, hall⟩

theorem next (h : SpreadUpTo messages chunks n)
    (hall : (messages.take (n + 1)).flatten <+: (chunks ++ [chunk]).flatten) :
    SpreadUpTo messages (chunks ++ [chunk]) (n + 1) := by
  obtain ⟨f, hmono, hf⟩ := h
  refine ⟨fun j => if j < n then f j else chunks.length, fun i j hij hj => ?_, fun j hj => ?_⟩
  · simp only [show i < n by omega, ↓reduceIte]
    split
    · exact hmono i j hij ‹_›
    · exact (hf i (by omega)).1
  · by_cases hjn : j < n
    · simp only [hjn, ↓reduceIte]
      obtain ⟨hlt, hold⟩ := hf j hjn
      rw [List.length_append, List.take_append_of_le_length hlt]
      exact ⟨Nat.lt_add_right _ hlt, hold⟩
    · obtain rfl : j = n := by omega
      simp only [hjn, ↓reduceIte]
      rw [List.take_of_length_le (l := chunks ++ [chunk]) (by simp)]
      exact ⟨by simp, hall⟩

theorem of_concat (h : SpreadUpTo messages (chunks ++ [chunk]) (n + 1)) :
    SpreadUpTo messages chunks n ∧ (SpreadUpTo messages chunks (n + 1) ∨
      (messages.take (n + 1)).flatten <+: (chunks ++ [chunk]).flatten) := by
  obtain ⟨f, hmono, hf⟩ := h
  have hlen (j : Nat) (hj : j < n + 1) : f j ≤ chunks.length := by
    have := (hf j hj).1
    rw [List.length_append, List.length_singleton] at this
    omega
  have hold (j : Nat) (hj : j < n + 1) (hlt : f j < chunks.length) :
      f j < chunks.length ∧ (messages.take (j + 1)).flatten <+: (chunks.take (f j + 1)).flatten := by
    have := (hf j hj).2
    rw [List.take_append_of_le_length hlt] at this
    exact ⟨hlt, this⟩
  have hbelow (j : Nat) (hj : j < n) : f j < chunks.length :=
    Nat.lt_of_lt_of_le (hmono j n hj (Nat.lt_succ_self n)) (hlen n (Nat.lt_succ_self n))
  refine ⟨⟨f, fun i j hij hj => hmono i j hij (by omega), fun j hj => ?_⟩, ?_⟩
  · exact hold j (by omega) (hbelow j hj)
  · by_cases hlast : f n < chunks.length
    · refine .inl ⟨f, hmono, fun j hj => hold j hj ?_⟩
      rcases Nat.lt_succ_iff_lt_or_eq.mp hj with hj | rfl
      · exact hbelow j hj
      · exact hlast
    · right
      have := (hf n (Nat.lt_succ_self n)).2
      rwa [List.take_of_length_le (l := chunks ++ [chunk])
        (by rw [List.length_append, List.length_singleton]; omega)] at this

end SpreadUpTo

namespace Completes

variable {messages chunks : List (List α)} {chunk : List α} {k n : Nat}

theorem le (h : Completes messages chunks k) : k ≤ messages.length := by
  induction h with
  | start => exact Nat.zero_le _
  | wait _ _ _ ih => exact ih
  | next _ hk _ _ => exact hk

theorem append (h : Completes messages chunks messages.length) (more : List (List α)) :
    Completes messages (chunks ++ more) messages.length := by
  induction more generalizing chunks with
  | nil => rwa [List.append_nil]
  | cons chunk more ih =>
    rw [List.append_cons]
    exact ih (.wait chunk h fun hlt => absurd hlt (Nat.lt_irrefl _))

theorem spreadUpTo_iff (h : Completes messages chunks k) (hn : n ≤ messages.length) :
    SpreadUpTo messages chunks n ↔ n ≤ k := by
  induction h generalizing n with
  | start =>
    cases n with
    | zero => exact ⟨fun _ => Nat.le_refl _, fun _ => .zero⟩
    | succ n =>
      refine ⟨fun ⟨f, _, hf⟩ => ?_, fun hle => absurd hle (Nat.not_succ_le_zero n)⟩
      exact absurd (hf 0 (Nat.succ_pos n)).1 (Nat.not_lt_zero _)
  | @wait chunks k chunk h hmore ih =>
    refine ⟨fun hs => ?_, fun hle => ((ih hn).mpr hle).concat⟩
    cases n with
    | zero => exact Nat.zero_le _
    | succ n =>
      obtain ⟨hbelow, hs | hall⟩ := hs.of_concat
      · exact (ih hn).mp hs
      · have hle := (ih (Nat.le_of_succ_le hn)).mp hbelow
        refine Nat.lt_of_le_of_ne hle ?_
        rintro rfl
        exact hmore hn hall
  | @next chunks k chunk h hk hall ih =>
    refine ⟨fun hs => ?_, fun hle => ?_⟩
    · cases n with
      | zero => exact Nat.zero_le _
      | succ n => exact Nat.succ_le_succ ((ih (Nat.le_of_succ_le hn)).mp hs.of_concat.1)
    · rcases Nat.le_succ_iff.mp hle with hle | rfl
      · exact ((ih hn).mpr hle).concat
      · exact ((ih (Nat.le_of_lt hk)).mpr (Nat.le_refl _)).next hall

theorem spread_iff (h : Completes messages chunks k) :
    Spread messages chunks ↔ k = messages.length := by
  rw [Spread, h.spreadUpTo_iff (Nat.le_refl _)]
  exact ⟨fun hle => Nat.le_antisymm h.le hle, fun heq => heq ▸ Nat.le_refl _⟩

end Completes

-- ---------------------------------------------------------------------------
-- Reading one message
-- ---------------------------------------------------------------------------

namespace Machine

structure Reading (m : Machine σ α) (init : σ) (before received buffer : List α) (s : σ) : Prop where
  fed : ∃ fed, received = before ++ fed ++ buffer ∧ (fed = [] ∨ buffer = []) ∧ m.Reads init fed s

variable {m : Machine σ α} {init s : σ} {before received buffer : List α}

theorem Reading.start (h : m.done init = false) (hr : received = before ++ buffer) :
    m.Reading init before received buffer init :=
  ⟨[], by rw [hr, List.append_nil], .inl rfl, .nil h⟩

theorem Reading.more (h : m.Reading init before received buffer s) {chunk : List α}
    (hd : m.done (m.consume s (buffer ++ chunk)).1 = false) :
    m.Reading init before (received ++ chunk) (m.consume s (buffer ++ chunk)).2
      (m.consume s (buffer ++ chunk)).1 := by
  obtain ⟨fed, rfl, -, hreads⟩ := h.fed
  have hrest := consume_rest m hd
  refine ⟨fed ++ (buffer ++ chunk), ?_, .inr hrest, ?_⟩
  · simp [hrest]
  · exact hreads.append ⟨Prod.ext rfl hrest, hd⟩

theorem Reading.ended (h : m.Reading init before received buffer s) {chunk : List α}
    (hd : m.done (m.consume s (buffer ++ chunk)).1 = true) :
    ∃ message, m.Ends init message (m.consume s (buffer ++ chunk)).1 ∧
      received ++ chunk = before ++ message ++ (m.consume s (buffer ++ chunk)).2 := by
  obtain ⟨fed, rfl, -, hreads⟩ := h.fed
  obtain ⟨message, hmessage, hends⟩ := consume_ends m hreads.going hd
  refine ⟨fed ++ message, hreads.append_ends hends, ?_⟩
  simp only [List.append_assoc, ← hmessage]

theorem Reading.incomplete {message : List α} {last : σ} (h : m.Reading init [] received [] s)
    (hinit : m.done init = false) (hends : m.Ends init message last) : ¬ message <+: received := by
  intro hp
  obtain ⟨fed, rfl, -, hreads⟩ := h.fed
  rw [List.nil_append, List.append_nil] at hp
  have hgoing := hreads.of_isPrefix hinit hp
  rw [hends.consume] at hgoing
  exact absurd (hgoing.symm.trans hends.done) Bool.false_ne_true

theorem Reading.complete {message chunk : List α} {last : σ} (h : m.Reading init [] received buffer s)
    (hinit : m.done init = false) (hends : m.Ends init message last)
    (hstream : received ++ chunk <+: message ∨ message <+: received ++ chunk)
    (hd : m.done (m.consume s (buffer ++ chunk)).1 = true) :
    (m.consume s (buffer ++ chunk)).1 = last ∧
      received ++ chunk = message ++ (m.consume s (buffer ++ chunk)).2 := by
  obtain ⟨message', hends', hrest⟩ := h.ended hd
  rw [List.nil_append] at hrest
  have hread : message' <+: received ++ chunk := ⟨_, hrest.symm⟩
  obtain ⟨rfl, hlast⟩ : message' = message ∧ _ = last := by
    rcases hstream with hp | hp
    · exact hends'.unique hends hinit (hread.trans hp) List.prefix_rfl
    · exact hends'.unique hends hinit hread hp
  exact ⟨hlast, hrest⟩

theorem Reading.completes {messages chunks : List (List α)} {k : Nat} {message chunk after : List α}
    {last : σ} (hinit : m.done init = false) (hcount : Completes messages chunks k)
    (hmessage : messages[k]? = some message) (hends : m.Ends init message last)
    (h : m.Reading init (messages.take k).flatten chunks.flatten buffer s)
    (hstream : (chunks ++ [chunk]).flatten <+: messages.flatten ++ after) :
    (m.done (m.consume s (buffer ++ chunk)).1 = false ∧ Completes messages (chunks ++ [chunk]) k ∧
      m.Reading init (messages.take k).flatten (chunks ++ [chunk]).flatten
        (m.consume s (buffer ++ chunk)).2 (m.consume s (buffer ++ chunk)).1) ∨
    ((m.consume s (buffer ++ chunk)).1 = last ∧ Completes messages (chunks ++ [chunk]) (k + 1) ∧
      (chunks ++ [chunk]).flatten =
        (messages.take (k + 1)).flatten ++ (m.consume s (buffer ++ chunk)).2) := by
  obtain ⟨hk, rfl⟩ := List.getElem?_eq_some_iff.mp hmessage
  have htake : (messages.take (k + 1)).flatten = (messages.take k).flatten ++ messages[k] := by
    rw [List.take_succ_eq_append_getElem hk, List.flatten_append, List.flatten_singleton]
  have hall : (chunks ++ [chunk]).flatten = chunks.flatten ++ chunk := by
    rw [List.flatten_append, List.flatten_singleton]
  rw [hall] at hstream
  cases hd : m.done (m.consume s (buffer ++ chunk)).1 with
  | false =>
    have hreading := h.more hd
    refine .inl ⟨rfl, .wait chunk hcount fun _ hp => ?_, hall ▸ hreading⟩
    -- The message would have ended among the symbols fed so far.
    obtain ⟨fed, hfed, -, hreads⟩ := hreading.fed
    rw [hall, htake, hfed, consume_rest m hd, List.append_nil, List.prefix_append_right_inj] at hp
    have := hreads.of_isPrefix hinit hp
    rw [hends.consume] at this
    exact absurd (this.symm.trans hends.done) Bool.false_ne_true
  | true =>
    obtain ⟨message, hend, hreceived⟩ := h.ended hd
    rw [hreceived, List.append_assoc, ← List.take_append_drop k messages, List.flatten_append,
      List.append_assoc, List.take_append_drop, List.prefix_append_right_inj] at hstream
    rw [List.drop_eq_getElem_cons hk, List.flatten_cons, List.append_assoc] at hstream
    obtain ⟨rfl, rfl⟩ := hend.unique hends hinit
      ((List.prefix_append ..).trans hstream) (List.prefix_append ..)
    refine .inr ⟨rfl, .next hcount hk ?_, ?_⟩
    · rw [hall, hreceived, htake]
      exact List.prefix_append ..
    · rw [hall, hreceived, htake]

end Machine

end Lib
