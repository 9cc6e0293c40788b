import Socks5d.Basic

/-!
# buffer.c: the buffer between the sockets and the parsers

A buffer is a block of memory with a read and a write index. The structure
carries the invariant of buffer.h, `R <= W <= limit`, so the assertions of
`buffer_write_ptr` and `buffer_read_ptr` hold by construction; the ones of
`buffer_write_adv` and `buffer_read_adv` depend on the argument, and the
operation has no result when they fail.

The callers see a buffer through `content`, the bytes waiting to be read, and
`space`, the room that `buffer_write_ptr` offers.
-/

namespace Socks5d

structure Buffer where
  data : List Byte
  read : Nat
  write : Nat
  read_le : read ≤ write
  write_le : write ≤ data.length
  deriving DecidableEq

namespace Buffer

def limit (b : Buffer) : Nat := b.data.length

/-- The bytes between the read and the write pointer. -/
def content (b : Buffer) : List Byte := (b.data.drop b.read).take (b.write - b.read)

/-- The room between the write pointer and the limit. -/
def space (b : Buffer) : Nat := b.limit - b.write

def Rewound (b : Buffer) : Prop := b.read = b.write → b.read = 0

end Buffer

-- ---------------------------------------------------------------------------
-- The operations
-- ---------------------------------------------------------------------------

def bufferReset (b : Buffer) : Buffer :=
  { b with read := 0, write := 0, read_le := Nat.le_refl 0, write_le := Nat.zero_le _ }

def bufferInit (data : List Byte) : Buffer :=
  { data, read := 0, write := 0, read_le := Nat.le_refl 0, write_le := Nat.zero_le _ }

def bufferCanWrite (b : Buffer) : Bool := b.limit - b.write > 0

/-- The number of bytes offered; they start at index `write`. -/
def bufferWritePtr (b : Buffer) : Nat := b.space

def bufferCanRead (b : Buffer) : Bool := b.write - b.read > 0

def bufferReadPtr (b : Buffer) : List Byte := b.content

def Buffer.fill (b : Buffer) (bytes : List Byte) : Buffer :=
  { b with
    data := b.data.take b.write ++ bytes.take b.space ++ b.data.drop (b.write + bytes.length)
    write_le := by
      have := b.write_le
      simp only [List.length_append, List.length_take, List.length_drop]
      omega }

def bufferCompact (b : Buffer) : Buffer :=
  if b.read = 0 then b
  else if b.read = b.write then bufferReset b
  else
    -- memmove of the content to the start
    { data := b.content ++ b.data.drop (b.write - b.read)
      read := 0
      write := b.write - b.read
      read_le := Nat.zero_le _
      write_le := by
        have := b.write_le
        simp only [Buffer.content, List.length_append, List.length_take, List.length_drop]
        omega }

def bufferWriteAdv (b : Buffer) (bytes : Int) : Option Buffer :=
  if bytes > -1 then
    if h : b.write + bytes.toNat ≤ b.data.length then
      some { b with
        write := b.write + bytes.toNat
        read_le := Nat.le_trans b.read_le (Nat.le_add_right _ _)
        write_le := h }
    else none
  else some b

def bufferReadAdv (b : Buffer) (bytes : Int) : Option Buffer :=
  if bytes > -1 then
    if h : b.read + bytes.toNat ≤ b.write then
      let b' := { b with read := b.read + bytes.toNat, read_le := h }
      -- the cheap compaction of an empty buffer
      some (if b'.read = b'.write then bufferCompact b' else b')
    else none
  else some b

def bufferRead (b : Buffer) : Byte × Buffer :=
  if bufferCanRead b then
    (b.content.headD 0, (bufferReadAdv b 1).getD b)
  else (0, b)

def bufferWrite (b : Buffer) (c : Byte) : Buffer :=
  if bufferCanWrite b then (bufferWriteAdv (b.fill [c]) 1).getD b else b

/-- The marshallers that check the room, store through `buffer_write_ptr` and
advance; they return -1 when the room is too small. -/
def bufferMarshall (b : Buffer) (bytes : List Byte) : Option Buffer :=
  if bufferWritePtr b < bytes.length then none
  else some ((bufferWriteAdv (b.fill bytes) bytes.length).getD b)

-- ---------------------------------------------------------------------------
-- What the callers see of them
-- ---------------------------------------------------------------------------

namespace Buffer

theorem length_content (b : Buffer) : b.content.length = b.write - b.read := by
  have := b.write_le
  simp only [content, List.length_take, List.length_drop]
  omega

theorem content_eq_nil_iff (b : Buffer) : b.content = [] ↔ b.read = b.write := by
  rw [← List.length_eq_zero_iff, length_content]
  have := b.read_le
  omega

@[simp] theorem canRead_iff (b : Buffer) : bufferCanRead b = true ↔ b.content ≠ [] := by
  rw [Ne, content_eq_nil_iff]
  have := b.read_le
  simp only [bufferCanRead, gt_iff_lt, decide_eq_true_eq]
  omega

@[simp] theorem canRead_eq_false_iff (b : Buffer) : bufferCanRead b = false ↔ b.content = [] := by
  rw [← Bool.not_eq_true, canRead_iff, not_not]

@[simp] theorem canWrite_iff (b : Buffer) : bufferCanWrite b = true ↔ 0 < b.space := by
  simp [bufferCanWrite, space]

@[simp] theorem space_bufferInit (data : List Byte) : (bufferInit data).space = data.length := by
  simp [bufferInit, space, limit]

@[simp] theorem content_bufferInit (data : List Byte) : (bufferInit data).content = [] := by
  simp [bufferInit, content]

@[simp] theorem limit_bufferInit (data : List Byte) : (bufferInit data).limit = data.length := rfl

theorem rewound_bufferInit (data : List Byte) : (bufferInit data).Rewound := fun _ => rfl

theorem Rewound.space_of_empty {b : Buffer} (h : b.Rewound) (hc : b.content = []) :
    b.space = b.limit := by
  have hrw := (content_eq_nil_iff b).mp hc
  have := h hrw
  simp only [space]
  omega

@[simp] theorem limit_fill (b : Buffer) (bytes : List Byte) : (b.fill bytes).limit = b.limit := by
  have := b.write_le
  simp only [fill, limit, space, List.length_append, List.length_take, List.length_drop]
  omega

theorem writeAdv_fill_take {b : Buffer} {bytes : List Byte} {k : Nat} (hk : k ≤ bytes.length)
    (h : bytes.length ≤ b.space) :
    ∃ b', bufferWriteAdv (b.fill bytes) k = some b' ∧
      b'.content = b.content ++ bytes.take k ∧ b'.space = b.space - k ∧
      b'.limit = b.limit ∧ b'.read = b.read ∧ b'.write = b.write + k := by
  have hw := b.write_le
  have hr := b.read_le
  have hl := limit_fill b bytes
  simp only [space, limit] at h hl
  have hadv : b.write + k ≤ (b.fill bytes).data.length := by omega
  refine ⟨{ b.fill bytes with
    write := b.write + k
    read_le := Nat.le_trans hr (Nat.le_add_right _ _)
    write_le := hadv }, ?_, ?_, ?_, hl, rfl, rfl⟩
  · have hw' : (b.fill bytes).write = b.write := rfl
    simp [bufferWriteAdv, hw', hadv, show (-1 : Int) < k by omega]
  · have htake : bytes.take b.space = bytes := List.take_of_length_le (by simpa [space, limit] using h)
    have hnum : b.write + k - b.read = (b.write - b.read) + k := by omega
    simp only [content, fill, htake, hnum, List.append_assoc]
    rw [List.drop_append_of_le_length (by simpa using Nat.le_min.mpr ⟨hr, by omega⟩)]
    rw [List.drop_take, List.take_append]
    have hlen : (List.take (b.write - b.read) (List.drop b.read b.data)).length = b.write - b.read := by
      simp only [List.length_take, List.length_drop]
      omega
    rw [hlen, List.take_of_length_le (by omega), Nat.add_sub_cancel_left,
      List.take_append_of_le_length hk]
  · simp only [space, limit, hl]
    omega

theorem writeAdv_fill {b : Buffer} {bytes : List Byte} (h : bytes.length ≤ b.space) :
    ∃ b', bufferWriteAdv (b.fill bytes) bytes.length = some b' ∧
      b'.content = b.content ++ bytes ∧ b'.space = b.space - bytes.length ∧
      b'.limit = b.limit ∧ b'.read = b.read ∧ b'.write = b.write + bytes.length := by
  have hfill := writeAdv_fill_take (Nat.le_refl bytes.length) h
  rwa [List.take_length] at hfill

theorem bufferMarshall_spec {b : Buffer} {bytes : List Byte} (h : bytes.length ≤ b.space) :
    ∃ b', bufferMarshall b bytes = some b' ∧ b'.content = b.content ++ bytes ∧
      b'.space = b.space - bytes.length ∧ b'.limit = b.limit ∧ b'.read = b.read ∧
      b'.write = b.write + bytes.length := by
  obtain ⟨b', hb, hrest⟩ := writeAdv_fill h
  refine ⟨b', ?_, hrest⟩
  simp only [bufferMarshall, bufferWritePtr, Nat.not_lt.mpr h, ↓reduceIte, hb, Option.getD_some]

theorem bufferMarshall_eq_none {b : Buffer} {bytes : List Byte} :
    bufferMarshall b bytes = none ↔ b.space < bytes.length := by
  unfold bufferMarshall bufferWritePtr
  split <;> simp_all

/-- Advancing the read pointer drops bytes from the front; a buffer that
becomes empty is rewound. -/
theorem readAdv_spec {b : Buffer} {k : Nat} (h : k ≤ b.content.length) :
    ∃ b', bufferReadAdv b k = some b' ∧ b'.content = b.content.drop k ∧ b'.limit = b.limit ∧
      b'.Rewound ∧ b'.space = if k = b.content.length then b.limit else b.space := by
  have hw := b.write_le
  have hr := b.read_le
  rw [length_content] at h ⊢
  have hadv : b.read + k ≤ b.write := by omega
  have hcontent : b.content.drop k = (b.data.drop (b.read + k)).take (b.write - (b.read + k)) := by
    rw [content, List.drop_take, List.drop_drop]
    congr 1
    omega
  by_cases he : b.read + k = b.write
  · refine ⟨bufferReset b, ?_, ?_, rfl, fun _ => rfl, ?_⟩
    · simp only [bufferReadAdv, show (-1 : Int) < (k : Int) by omega, ↓reduceIte,
        Int.toNat_natCast, he, bufferCompact]
      by_cases h0 : b.write = 0
      · simp [bufferReset, h0]
      · simp [bufferReset, h0]
    · rw [hcontent, he]
      simp [bufferReset, content]
    · simp only [show k = b.write - b.read by omega, ↓reduceIte]
      simp [bufferReset, space, limit]
  · refine ⟨{ b with read := b.read + k, read_le := hadv }, ?_, ?_, rfl, ?_, ?_⟩
    · simp [bufferReadAdv, show (-1 : Int) < (k : Int) by omega, hadv, he]
    · rw [hcontent]
      rfl
    · intro heq
      exact absurd heq he
    · rw [if_neg (by omega)]
      rfl

theorem bufferRead_spec {b : Buffer} {c : Byte} {rest : List Byte} (h : b.content = c :: rest) :
    (bufferRead b).1 = c ∧ (bufferRead b).2.content = rest ∧ (bufferRead b).2.limit = b.limit ∧
      (bufferRead b).2.Rewound ∧
      (bufferRead b).2.space = if rest = [] then b.limit else b.space := by
  have hlen : 1 ≤ b.content.length := by simp [h]
  obtain ⟨b', hb, hc, hl, hrw, hs⟩ := readAdv_spec hlen
  have hcan : bufferCanRead b = true := by simp [h]
  have hb1 : bufferReadAdv b 1 = some b' := hb
  simp only [bufferRead, hcan, hb1, ↓reduceIte, Option.getD_some]
  refine ⟨by simp [h], by simpa [h] using hc, hl, hrw, ?_⟩
  simpa [h, eq_comm (a := (0 : Nat))] using hs

theorem bufferWrite_spec {b : Buffer} (c : Byte) (h : 0 < b.space) :
    (bufferWrite b c).content = b.content ++ [c] ∧ (bufferWrite b c).space = b.space - 1 ∧
      (bufferWrite b c).limit = b.limit ∧ (bufferWrite b c).read = b.read ∧
      (bufferWrite b c).write = b.write + 1 := by
  obtain ⟨b', hb, hc, hs, hl, hr, hw⟩ := writeAdv_fill (by exact h : [c].length ≤ b.space)
  have hcan : bufferCanWrite b = true := by simpa using h
  have hb1 : bufferWriteAdv (b.fill [c]) 1 = some b' := hb
  simp only [bufferWrite, hcan, hb1, ↓reduceIte, Option.getD_some]
  exact ⟨hc, by simpa using hs, hl, hr, by simpa using hw⟩

-- ---------------------------------------------------------------------------
-- Filling and taking
-- ---------------------------------------------------------------------------

structure Fills (b : Buffer) (bytes : List Byte) (b' : Buffer) : Prop where
  room : bytes.length ≤ b.space
  content : b'.content = b.content ++ bytes
  space : b'.space = b.space - bytes.length
  limit : b'.limit = b.limit
  rewound : bytes ≠ [] → b'.Rewound

structure Takes (b : Buffer) (k : Nat) (b' : Buffer) : Prop where
  le : k ≤ b.content.length
  content : b'.content = b.content.drop k
  limit : b'.limit = b.limit
  rewound : b'.Rewound
  space : b'.space = if k = b.content.length then b.limit else b.space

theorem rewound_of_write {b b' : Buffer} {k : Nat} (hr : b'.read = b.read)
    (hw : b'.write = b.write + k) (hk : k ≠ 0) : b'.Rewound := by
  intro he
  have := b.read_le
  omega

theorem writeAdv_fills {b : Buffer} {bytes : List Byte} (h : bytes.length ≤ b.space) :
    ∃ b', bufferWriteAdv (b.fill bytes) bytes.length = some b' ∧ b.Fills bytes b' := by
  obtain ⟨b', hb, hc, hs, hl, hr, hw⟩ := writeAdv_fill h
  exact ⟨b', hb, h, hc, hs, hl, fun hne => rewound_of_write hr hw (by simpa using hne)⟩

theorem bufferMarshall_fills {b : Buffer} (bytes : List Byte) (h : bytes.length ≤ b.space) :
    ∃ b', bufferMarshall b bytes = some b' ∧ b.Fills bytes b' := by
  obtain ⟨b', hb, hc, hs, hl, hr, hw⟩ := bufferMarshall_spec h
  exact ⟨b', hb, h, hc, hs, hl, fun hne => rewound_of_write hr hw (by simpa using hne)⟩

theorem readAdv_takes {b : Buffer} {k : Nat} (h : k ≤ b.content.length) :
    ∃ b', bufferReadAdv b k = some b' ∧ b.Takes k b' := by
  obtain ⟨b', hb, hc, hl, hr, hs⟩ := readAdv_spec h
  exact ⟨b', hb, h, hc, hl, hr, hs⟩

end Buffer

end Socks5d
