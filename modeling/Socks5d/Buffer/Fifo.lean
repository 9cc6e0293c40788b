import Socks5d.Lib.Queue
import Socks5d.Buffer.Pointers

/-!
# The buffer is a bounded queue

The users of a buffer call its functions in any order and stay within what it
offers. `BufferCall.apply` says what each call does to a queue;
`buffer_refines_queue` ties the pointers to that queue, for any calls after
`buffer_init`. The asserts of the source hold in every one of these runs.
-/

namespace Socks5d

open Lib (Queue)

inductive BufferCall
  /-- `buffer_write_ptr`, a store of `bytes` through it, `buffer_write_adv(k)`. -/
  | produce (bytes : List Byte) (k : Nat)
  /-- `buffer_read_ptr`, `buffer_read_adv(k)`. -/
  | consume (k : Nat)
  | write (c : Byte)
  | read
  | compact
  | reset
  deriving DecidableEq

namespace BufferCall

def exec (b : Pointers) : BufferCall → Except Fault (List Byte × Pointers)
  | produce bytes k => do
    let _ ← b.bufferWritePtr
    let b ← b.fill bytes
    return ([], ← b.bufferWriteAdv k)
  | consume k => do
    let _ ← b.bufferReadPtr
    return (b.content.take k, ← b.bufferReadAdv k)
  | write c => do return ([], ← b.bufferWrite c)
  | read => do
    let (c, b) ← b.bufferRead
    return ([c], b)
  | compact => do return ([], ← b.bufferCompact)
  | reset => .ok ([], b.bufferReset)

/-- What is stored and what is advanced over is within what the buffer offers.
The bytes stored may be those that were there. -/
def Within (b : Pointers) : BufferCall → Prop
  | produce bytes k => k ≤ bytes.length ∧
      ∀ offered ∈ b.bufferWritePtr.toOption, bytes.length ≤ offered
  | consume k => ∀ offered ∈ b.bufferReadPtr.toOption, k ≤ offered
  | _ => True

instance (b : Pointers) (call : BufferCall) : Decidable (call.Within b) := by
  cases call <;> unfold Within <;> infer_instance

/-- The same call on a queue. A read of an empty queue gives a zero. -/
def apply (q : Queue Byte) : BufferCall → List Byte × Queue Byte
  | produce bytes k => ([], q.append (bytes.take k))
  | consume k => (q.items.take k, q.drop k)
  | write c => ([], q.append [c])
  | read => ([q.items.headD 0], q.drop 1)
  | compact => ([], q.compact)
  | reset => ([], .empty q.capacity)

def execs (b : Pointers) : List BufferCall → Except Fault (List Byte × Pointers)
  | [] => .ok ([], b)
  | call :: calls => do
    let (out, b) ← call.exec b
    let (outs, b) ← execs b calls
    return (out ++ outs, b)

def applies (q : Queue Byte) : List BufferCall → List Byte × Queue Byte
  | [] => ([], q)
  | call :: calls => ((call.apply q).1 ++ (applies (call.apply q).2 calls).1,
      (applies (call.apply q).2 calls).2)

/-- Each call is within what the buffer offers when it is made. -/
def AllWithin (b : Pointers) : List BufferCall → Prop
  | [] => True
  | call :: calls => call.Within b ∧ ∀ r ∈ (call.exec b).toOption, AllWithin r.2 calls

instance decidableAllWithin : ∀ (b : Pointers) (calls : List BufferCall),
    Decidable (AllWithin b calls)
  | _, [] => .isTrue trivial
  | b, call :: calls =>
    have : ∀ r : List Byte × Pointers, Decidable (AllWithin r.2 calls) :=
      fun r => decidableAllWithin r.2 calls
    inferInstanceAs (Decidable (call.Within b ∧ ∀ r ∈ (call.exec b).toOption, AllWithin r.2 calls))

end BufferCall

-- ---------------------------------------------------------------------------
-- A buffer and its queue
-- ---------------------------------------------------------------------------

namespace Buffer

structure Serves (b : Buffer) (q : Queue Byte) : Prop where
  content : b.content = q.items
  space : b.space = q.free
  limit : b.limit = q.capacity
  rewound : b.Rewound

variable {b b' : Buffer} {q : Queue Byte}

theorem serves_bufferInit (data : List Byte) :
    (bufferInit data).Serves (.empty data.length) :=
  ⟨content_bufferInit data, space_bufferInit data, limit_bufferInit data, rewound_bufferInit data⟩

theorem Serves.reset (h : b.Serves q) : (bufferReset b).Serves (.empty q.capacity) :=
  ⟨content_bufferInit b.data, h.limit ▸ space_bufferInit b.data, h.limit,
    rewound_bufferInit b.data⟩

/-- `buffer_write_ptr`, fill, `buffer_write_adv`: the queue gets the bytes. -/
theorem Serves.produce (h : b.Serves q) {bytes : List Byte} {k : Nat} (hk : k ≤ bytes.length)
    (hroom : bytes.length ≤ b.space) :
    ∃ b', bufferWriteAdv (b.fill bytes) k = some b' ∧ b'.Serves (q.append (bytes.take k)) := by
  obtain ⟨b', hb', hcontent, hspace, hlimit, hread, hwrite⟩ := writeAdv_fill_take hk hroom
  have hlen : (bytes.take k).length = k := List.length_take_of_le hk
  have hfree : (bytes.take k).length ≤ q.free := by
    rw [hlen, ← h.space]
    exact Nat.le_trans hk hroom
  obtain ⟨hitems, hfree'⟩ := Queue.append_of_le hfree
  refine ⟨b', hb', ?_, ?_, ?_, fun heq => ?_⟩
  · rw [hcontent, h.content, hitems]
  · rw [hspace, h.space, hfree', hlen]
  · rw [hlimit, h.limit, Queue.capacity_append]
  · -- both pointers are where they were, or the write pointer has moved on
    have hle := b.read_le
    rw [hread, hwrite] at heq
    rw [hread]
    exact h.rewound (by omega)

theorem Serves.takes (h : b.Serves q) {k : Nat} (ht : b.Takes k b') : b'.Serves (q.drop k) := by
  refine ⟨by rw [ht.content, h.content]; rfl, ?_, ht.limit.trans h.limit, ht.rewound⟩
  have hle := ht.le
  rw [ht.space, h.limit, h.space, h.content]
  rw [h.content] at hle
  show _ = if q.items.drop k = [] then q.capacity else q.free
  by_cases hk : k = q.items.length
  · rw [if_pos hk, if_pos (by rw [hk, List.drop_length])]
  · rw [if_neg hk, if_neg (by rw [List.drop_eq_nil_iff]; omega)]

theorem bufferCompact_spec (b : Buffer) :
    (bufferCompact b).content = b.content ∧ (bufferCompact b).limit = b.limit ∧
      ((bufferCompact b).read = 0 ∧ (bufferCompact b).write = b.content.length) := by
  have hr := b.read_le
  have hw := b.write_le
  have hlen := length_content b
  unfold bufferCompact
  by_cases h0 : b.read = 0
  · rw [if_pos h0]
    exact ⟨rfl, rfl, h0, by rw [hlen, h0, Nat.sub_zero]⟩
  by_cases he : b.read = b.write
  · have hnil : b.content = [] := (content_eq_nil_iff b).mpr he
    rw [if_neg h0, if_pos he, hnil]
    exact ⟨content_bufferInit b.data, rfl, rfl, rfl⟩
  · rw [if_neg h0, if_neg he]
    refine ⟨?_, ?_, rfl, hlen.symm⟩
    · show (List.drop 0 (b.content ++ _)).take (b.write - b.read - 0) = b.content
      rw [List.drop_zero, Nat.sub_zero, ← hlen, List.take_left]
    · show (b.content ++ b.data.drop (b.write - b.read)).length = b.data.length
      rw [List.length_append, List.length_drop, hlen]
      omega

theorem Serves.compact (h : b.Serves q) : (bufferCompact b).Serves q.compact := by
  obtain ⟨hcontent, hlimit, hread, hwrite⟩ := bufferCompact_spec b
  refine ⟨hcontent.trans h.content, ?_, hlimit.trans h.limit, fun _ => hread⟩
  show (bufferCompact b).limit - (bufferCompact b).write = q.capacity - q.items.length
  rw [hlimit, hwrite, h.limit, h.content]

theorem Serves.write (h : b.Serves q) (c : Byte) : (bufferWrite b c).Serves (q.append [c]) := by
  unfold bufferWrite
  by_cases hcan : bufferCanWrite b = true
  · obtain ⟨b', hb', hserves⟩ := h.produce (Nat.le_refl [c].length) ((canWrite_iff b).mp hcan)
    have hb1 : bufferWriteAdv (b.fill [c]) 1 = some b' := hb'
    rw [if_pos hcan, hb1]
    exact hserves
  · have hfull : q.free = 0 := by
      rw [← h.space]
      rw [canWrite_iff] at hcan
      omega
    rw [if_neg hcan, Queue.append_of_full hfull]
    exact h

theorem Serves.consume (h : b.Serves q) {k : Nat} (hk : k ≤ b.content.length) :
    ∃ b', bufferReadAdv b k = some b' ∧ b'.Serves (q.drop k) := by
  obtain ⟨b', hb', htakes⟩ := readAdv_takes hk
  exact ⟨b', hb', h.takes htakes⟩

theorem Serves.read (h : b.Serves q) :
    (bufferRead b).1 = q.items.headD 0 ∧ (bufferRead b).2.Serves (q.drop 1) := by
  unfold bufferRead
  by_cases hcan : bufferCanRead b = true
  · have hne : b.content ≠ [] := (canRead_iff b).mp hcan
    obtain ⟨b', hb', hserves⟩ := h.consume (List.length_pos_iff.mpr hne)
    have hb1 : bufferReadAdv b 1 = some b' := hb'
    rw [if_pos hcan, hb1, h.content]
    exact ⟨rfl, hserves⟩
  · have hnil : b.content = [] := by
      rw [← canRead_eq_false_iff]
      simpa using hcan
    have hitems : q.items = [] := h.content ▸ hnil
    have hdrop : q.drop 1 = q := by
      ext1
      · rfl
      · rw [hitems]
        simp [Queue.drop, hitems]
      · simp [Queue.drop, hitems, q.refreshed hitems]
    rw [if_neg hcan, hitems, hdrop]
    exact ⟨rfl, h⟩

theorem Serves.exec (h : b.Serves q) (call : BufferCall) (hin : call.Within b.toPointers) :
    ∃ b' : Buffer, call.exec b.toPointers = .ok ((call.apply q).1, b'.toPointers) ∧
      b'.Serves (call.apply q).2 := by
  cases call with
  | produce bytes k =>
    have hroom : bytes.length ≤ b.space :=
      hin.2 _ (by rw [bufferWritePtr_toPointers]; rfl)
    obtain ⟨b', hb', hserves⟩ := h.produce hin.1 hroom
    have hadv := bufferWriteAdv_toPointers (b.fill bytes) k
    rw [hb'] at hadv
    refine ⟨b', ?_, hserves⟩
    simp only [BufferCall.exec, bufferWritePtr_toPointers, fill_toPointers hroom, Bind.bind,
      Except.bind, hadv]
    rfl
  | consume k =>
    obtain ⟨b', hb', hserves⟩ := h.consume (hin _ (by rw [bufferReadPtr_toPointers]; rfl))
    have hadv := bufferReadAdv_toPointers b k
    rw [hb'] at hadv
    refine ⟨b', ?_, hserves⟩
    simp only [BufferCall.exec, bufferReadPtr_toPointers, hadv, content_toPointers, h.content]
    rfl
  | write c =>
    refine ⟨bufferWrite b c, ?_, h.write c⟩
    simp only [BufferCall.exec, bufferWrite_toPointers]
    rfl
  | read =>
    refine ⟨(bufferRead b).2, ?_, h.read.2⟩
    simp only [BufferCall.exec, bufferRead_toPointers, h.read.1]
    rfl
  | compact =>
    refine ⟨bufferCompact b, ?_, h.compact⟩
    simp only [BufferCall.exec, bufferCompact_toPointers]
    rfl
  | reset => exact ⟨bufferReset b, rfl, h.reset⟩

theorem Serves.execs (h : b.Serves q) {calls : List BufferCall}
    (hin : BufferCall.AllWithin b.toPointers calls) :
    ∃ b' : Buffer, BufferCall.execs b.toPointers calls =
        .ok ((BufferCall.applies q calls).1, b'.toPointers) ∧
      b'.Serves (BufferCall.applies q calls).2 := by
  induction calls generalizing b q with
  | nil => exact ⟨b, rfl, h⟩
  | cons call calls ih =>
    obtain ⟨b₁, hb₁, h₁⟩ := h.exec call hin.1
    obtain ⟨b', hb', hserves⟩ := ih h₁ (hin.2 (_, b₁.toPointers) (by rw [hb₁]; rfl))
    refine ⟨b', ?_, hserves⟩
    simp only [BufferCall.execs, hb₁, Bind.bind, Except.bind, hb']
    rfl

end Buffer

-- ---------------------------------------------------------------------------
-- Every run
-- ---------------------------------------------------------------------------

/-- The pointers hold the queue in a memory of `n` bytes. -/
structure Pointers.Fifo (n : Nat) (b : Pointers) (q : Queue Byte) : Prop where
  ordered : b.read ≤ b.write ∧ b.write ≤ b.limit ∧ b.limit = n
  rewound : b.read = b.write → b.read = 0 ∧ b.write = 0
  usable : b.bufferCanRead = true ∨ b.bufferCanWrite = true
  content : b.content = q.items
  readPtr : b.bufferReadPtr = .ok q.items.length
  writePtr : b.bufferWritePtr = .ok q.free
  full : b.bufferCanWrite = false → ∀ c, b.bufferWrite c = .ok b
  empty : b.bufferCanRead = false → b.bufferRead = .ok (0, b)
  compacted : ∃ b', b.bufferCompact = .ok b' ∧ b'.content = b.content ∧
    b'.bufferWritePtr = .ok (n - b.content.length)

theorem BufferCall.capacity_applies (q : Queue Byte) (calls : List BufferCall) :
    (applies q calls).2.capacity = q.capacity := by
  induction calls generalizing q with
  | nil => rfl
  | cons call calls ih =>
    refine (ih _).trans ?_
    cases call with
    | produce | write => exact Queue.capacity_append ..
    | consume | read | compact | reset => rfl

open Buffer in
theorem Buffer.Serves.fifo {b : Buffer} {q : Queue Byte} (h : b.Serves q) (hcap : 0 < q.capacity) :
    b.toPointers.Fifo q.capacity q where
  ordered := ⟨b.read_le, b.write_le, h.limit⟩
  rewound heq := ⟨h.rewound heq, heq ▸ h.rewound heq⟩
  usable := by
    rw [bufferCanRead_toPointers, bufferCanWrite_toPointers, canRead_iff, canWrite_iff, h.content,
      h.space]
    exact q.items_or_free hcap
  content := h.content
  readPtr := by rw [bufferReadPtr_toPointers, h.content]
  writePtr := by rw [bufferWritePtr_toPointers, h.space]
  full hfull c := by
    rw [bufferCanWrite_toPointers] at hfull
    rw [bufferWrite_toPointers, bufferWrite, hfull]
    rfl
  empty hempty := by
    rw [bufferCanRead_toPointers] at hempty
    rw [bufferRead_toPointers, bufferRead, hempty]
    rfl
  compacted := by
    obtain ⟨hcontent, hlimit, -, hwrite⟩ := bufferCompact_spec b
    refine ⟨_, bufferCompact_toPointers b, hcontent, ?_⟩
    rw [bufferWritePtr_toPointers, Buffer.space, hlimit, hwrite, h.limit]
    rfl

/-- After any calls that stay within what the buffer offers no assertion has
failed and no access was outside the memory, the callers have seen what the
queue gives them, and the buffer holds the queue. -/
theorem buffer_refines_queue (data : List Byte) (hdata : 0 < data.length) (calls : List BufferCall)
    (hin : BufferCall.AllWithin (Pointers.bufferInit data.length data) calls) :
    ∃ b, BufferCall.execs (Pointers.bufferInit data.length data) calls =
        .ok ((BufferCall.applies (.empty data.length) calls).1, b) ∧
      b.Fifo data.length (BufferCall.applies (.empty data.length) calls).2 := by
  obtain ⟨b, hb, hserves⟩ := (Buffer.serves_bufferInit data).execs hin
  have hcap := BufferCall.capacity_applies (.empty data.length) calls
  have hfifo := hserves.fifo (hcap ▸ hdata)
  rw [hcap] at hfifo
  exact ⟨b.toPointers, hb, hfifo⟩

/-- The example of buffer.h, and a read of the buffer that became empty. -/
theorem buffer_refines_queue_hola :
    ∃ b, BufferCall.execs (Pointers.bufferInit 6 [0, 0, 0, 0, 0, 0])
        [.produce [72, 79, 76, 65] 4, .consume 3, .produce [32, 77] 2, .compact, .consume 3, .read] =
        .ok ([72, 79, 76, 65, 32, 77, 0], b) ∧ b.Fifo 6 (.empty 6) :=
  buffer_refines_queue [0, 0, 0, 0, 0, 0] (by decide)
    [.produce [72, 79, 76, 65] 4, .consume 3, .produce [32, 77] 2, .compact, .consume 3, .read]
    (by decide)

end Socks5d
