import Socks5d.Buffer

/-!
# buffer.c: the buffer as pointers into memory

The functions as the source has them, on pointers that nothing ties together:
the assertions are made when the source makes them, and a load or a store
through a pointer stays inside the memory at `data` or the run leaves C
semantics. The lemmas `*_toPointers` say that on the pointers of a `Buffer` all
of them do what `Socks5d.Buffer` says, so its invariant is what the assertions
check.
-/

namespace Socks5d

/-- `struct buffer`. The pointers are offsets from `data`, where `memory` is. -/
structure Pointers where
  memory : List Byte
  limit : Nat
  read : Nat
  write : Nat
  deriving DecidableEq

namespace Pointers

-- ---------------------------------------------------------------------------
-- Memory and assertions
-- ---------------------------------------------------------------------------

/-- `assert(3)`. -/
def check (condition : Prop) [Decidable condition] : Except Fault Unit :=
  if condition then .ok () else .error .assertion

def load (memory : List Byte) (src : Nat) : Except Fault Byte :=
  match memory[src]? with
  | some c => .ok c
  | none => .error .outOfBounds

def store (memory : List Byte) (dst : Nat) (bytes : List Byte) : Except Fault (List Byte) :=
  if dst + bytes.length ≤ memory.length then
    .ok (memory.take dst ++ bytes ++ memory.drop (dst + bytes.length))
  else .error .outOfBounds

/-- The count is a `size_t`: a negative difference is far too large. -/
def memmove (memory : List Byte) (dst src : Nat) (n : Int) : Except Fault (List Byte) :=
  if 0 ≤ n ∧ src + n ≤ memory.length then
    store memory dst ((memory.drop src).take n.toNat)
  else .error .outOfBounds

-- ---------------------------------------------------------------------------
-- The operations
-- ---------------------------------------------------------------------------

def bufferReset (b : Pointers) : Pointers := { b with read := 0, write := 0 }

def bufferInit (n : Nat) (data : List Byte) : Pointers :=
  bufferReset { memory := data, limit := n, read := 0, write := 0 }

def bufferCanWrite (b : Pointers) : Bool := (b.limit : Int) - b.write > 0

def bufferWritePtr (b : Pointers) : Except Fault Nat := do
  check (b.write ≤ b.limit)
  return b.limit - b.write

def bufferCanRead (b : Pointers) : Bool := (b.write : Int) - b.read > 0

def bufferReadPtr (b : Pointers) : Except Fault Nat := do
  check (b.read ≤ b.write)
  return b.write - b.read

def bufferCompact (b : Pointers) : Except Fault Pointers :=
  if b.read = 0 then .ok b
  else if b.read = b.write then .ok { b with read := 0, write := 0 }
  else do
    let memory ← memmove b.memory 0 b.read ((b.write : Int) - b.read)
    return { b with memory, read := 0, write := b.write - b.read }

def bufferWriteAdv (b : Pointers) (bytes : Int) : Except Fault Pointers :=
  if bytes > -1 then do
    let b := { b with write := b.write + bytes.toNat }
    check (b.write ≤ b.limit)
    return b
  else .ok b

def bufferReadAdv (b : Pointers) (bytes : Int) : Except Fault Pointers :=
  if bytes > -1 then do
    let b := { b with read := b.read + bytes.toNat }
    check (b.read ≤ b.write)
    if b.read = b.write then bufferCompact b else return b
  else .ok b

def bufferRead (b : Pointers) : Except Fault (Byte × Pointers) :=
  if bufferCanRead b then do
    let c ← load b.memory b.read
    return (c, ← bufferReadAdv b 1)
  else .ok (0, b)

def bufferWrite (b : Pointers) (c : Byte) : Except Fault Pointers :=
  if bufferCanWrite b then do
    let memory ← store b.memory b.write [c]
    bufferWriteAdv { b with memory } 1
  else .ok b

def fill (b : Pointers) (bytes : List Byte) : Except Fault Pointers := do
  let memory ← store b.memory b.write bytes
  return { b with memory }

def content (b : Pointers) : List Byte := (b.memory.drop b.read).take (b.write - b.read)

end Pointers

-- ---------------------------------------------------------------------------
-- The pointers of a buffer
-- ---------------------------------------------------------------------------

namespace Buffer

def toPointers (b : Buffer) : Pointers := ⟨b.data, b.limit, b.read, b.write⟩

theorem check_of {condition : Prop} [Decidable condition] (h : condition) :
    Pointers.check condition = .ok () := if_pos h

theorem check_of_not {condition : Prop} [Decidable condition] (h : ¬ condition) :
    Pointers.check condition = .error .assertion := if_neg h

@[simp] theorem content_toPointers (b : Buffer) : b.toPointers.content = b.content := rfl

theorem bufferReset_toPointers (b : Buffer) :
    b.toPointers.bufferReset = (bufferReset b).toPointers := rfl

theorem bufferInit_toPointers (data : List Byte) :
    Pointers.bufferInit data.length data = (bufferInit data).toPointers := rfl

theorem bufferCanWrite_toPointers (b : Buffer) :
    b.toPointers.bufferCanWrite = bufferCanWrite b := by
  show decide ((b.limit : Int) - b.write > 0) = decide (b.limit - b.write > 0)
  rw [decide_eq_decide]
  omega

theorem bufferCanRead_toPointers (b : Buffer) : b.toPointers.bufferCanRead = bufferCanRead b := by
  show decide ((b.write : Int) - b.read > 0) = decide (b.write - b.read > 0)
  rw [decide_eq_decide]
  omega

theorem bufferWritePtr_toPointers (b : Buffer) : b.toPointers.bufferWritePtr = .ok b.space := by
  have hwrite : b.toPointers.write ≤ b.toPointers.limit := b.write_le
  simp only [Pointers.bufferWritePtr, check_of hwrite]
  rfl

theorem bufferReadPtr_toPointers (b : Buffer) :
    b.toPointers.bufferReadPtr = .ok b.content.length := by
  have hread : b.toPointers.read ≤ b.toPointers.write := b.read_le
  simp only [Pointers.bufferReadPtr, check_of hread, length_content]
  rfl

theorem memmove_content (b : Buffer) :
    Pointers.memmove b.data 0 b.read ((b.write : Int) - b.read) =
      .ok (b.content ++ b.data.drop (b.write - b.read)) := by
  have hr := b.read_le
  have hw := b.write_le
  have hn : ((b.write : Int) - b.read).toNat = b.write - b.read := by omega
  have hlen : ((b.data.drop b.read).take (b.write - b.read)).length = b.write - b.read :=
    length_content b
  rw [Pointers.memmove, if_pos (by omega), hn, Pointers.store, if_pos (by omega), hlen,
    List.take_zero, List.nil_append, Nat.zero_add]
  rfl

theorem bufferCompact_toPointers (b : Buffer) :
    b.toPointers.bufferCompact = .ok (bufferCompact b).toPointers := by
  have hr := b.read_le
  have hw := b.write_le
  unfold Pointers.bufferCompact bufferCompact
  by_cases h0 : b.read = 0
  · have h0' : b.toPointers.read = 0 := h0
    rw [if_pos h0, if_pos h0']
  have h0' : ¬ b.toPointers.read = 0 := h0
  rw [if_neg h0, if_neg h0']
  by_cases he : b.read = b.write
  · have he' : b.toPointers.read = b.toPointers.write := he
    rw [if_pos he, if_pos he']
    rfl
  · have he' : ¬ b.toPointers.read = b.toPointers.write := he
    have hmove : Pointers.memmove b.toPointers.memory 0 b.toPointers.read
        ((b.toPointers.write : Int) - b.toPointers.read) = _ := memmove_content b
    have hlimit : b.limit = (b.content ++ b.data.drop (b.write - b.read)).length := by
      rw [List.length_append, length_content, List.length_drop, limit]
      omega
    rw [if_neg he, if_neg he', hmove]
    show Except.ok (Pointers.mk _ b.limit 0 (b.write - b.read)) = _
    rw [hlimit]
    rfl

theorem bufferWriteAdv_toPointers (b : Buffer) (bytes : Int) :
    b.toPointers.bufferWriteAdv bytes = asserted ((bufferWriteAdv b bytes).map toPointers) := by
  unfold Pointers.bufferWriteAdv bufferWriteAdv
  by_cases hb : bytes > -1
  · rw [if_pos hb, if_pos hb]
    by_cases h : b.write + bytes.toNat ≤ b.data.length
    · rw [dif_pos h]
      show (do Pointers.check (b.write + bytes.toNat ≤ b.data.length); pure _) = _
      rw [check_of h]
      rfl
    · rw [dif_neg h]
      show (do Pointers.check (b.write + bytes.toNat ≤ b.data.length); pure _) = _
      rw [check_of_not h]
      rfl
  · rw [if_neg hb, if_neg hb]
    rfl

theorem bufferReadAdv_toPointers (b : Buffer) (bytes : Int) :
    b.toPointers.bufferReadAdv bytes = asserted ((bufferReadAdv b bytes).map toPointers) := by
  unfold Pointers.bufferReadAdv bufferReadAdv
  by_cases hb : bytes > -1
  · rw [if_pos hb, if_pos hb]
    by_cases h : b.read + bytes.toNat ≤ b.write
    · let b' : Buffer := { b with read := b.read + bytes.toNat, read_le := h }
      rw [dif_pos h]
      show (do Pointers.check (b.read + bytes.toNat ≤ b.write); _) = _
      rw [check_of h]
      show (if b'.read = b'.write then b'.toPointers.bufferCompact else .ok b'.toPointers) =
        .ok (if b'.read = b'.write then bufferCompact b' else b').toPointers
      rw [bufferCompact_toPointers]
      split <;> rfl
    · rw [dif_neg h]
      show (do Pointers.check (b.read + bytes.toNat ≤ b.write); _) = _
      rw [check_of_not h]
      rfl
  · rw [if_neg hb, if_neg hb]
    rfl

theorem fill_toPointers {b : Buffer} {bytes : List Byte} (h : bytes.length ≤ b.space) :
    b.toPointers.fill bytes = .ok (b.fill bytes).toPointers := by
  have hl := limit_fill b bytes
  have hw := b.write_le
  have hin : b.write + bytes.length ≤ b.data.length := by
    simp only [space, limit] at h
    omega
  have htake : bytes.take b.space = bytes := List.take_of_length_le h
  simp only [Pointers.fill, Pointers.store, toPointers, hin, ↓reduceIte, hl]
  simp only [fill, htake]
  rfl

theorem bufferWrite_toPointers (b : Buffer) (c : Byte) :
    b.toPointers.bufferWrite c = .ok (bufferWrite b c).toPointers := by
  unfold Pointers.bufferWrite bufferWrite
  rw [bufferCanWrite_toPointers]
  by_cases h : bufferCanWrite b = true
  · have hspace : [c].length ≤ b.space := (canWrite_iff b).mp h
    obtain ⟨b', hb, -⟩ := writeAdv_fill hspace
    have hb1 : bufferWriteAdv (b.fill [c]) 1 = some b' := hb
    have hadv := bufferWriteAdv_toPointers (b.fill [c]) 1
    have hfill := fill_toPointers hspace
    simp only [Pointers.fill] at hfill
    cases hstore : Pointers.store b.toPointers.memory b.toPointers.write [c] with
    | error f =>
      rw [hstore] at hfill
      cases hfill
    | ok memory =>
      rw [hstore] at hfill
      have hfilled : { b.toPointers with memory } = (b.fill [c]).toPointers := by
        injection hfill
      simp only [h, ↓reduceIte, hb1, Option.getD_some]
      show ({ b.toPointers with memory } : Pointers).bufferWriteAdv 1 = _
      rw [hfilled, hadv, hb1]
      rfl
  · simp only [h, Bool.false_eq_true, ↓reduceIte]

theorem bufferRead_toPointers (b : Buffer) :
    b.toPointers.bufferRead = .ok ((bufferRead b).1, (bufferRead b).2.toPointers) := by
  unfold Pointers.bufferRead bufferRead
  rw [bufferCanRead_toPointers]
  by_cases h : bufferCanRead b = true
  · have hne : b.content ≠ [] := by simpa using h
    obtain ⟨c, rest, hcontent⟩ := List.exists_cons_of_ne_nil hne
    obtain ⟨b', hb, -⟩ := readAdv_spec (b := b) (k := 1) (by simp [hcontent])
    have hb1 : bufferReadAdv b 1 = some b' := hb
    have hload : Pointers.load b.toPointers.memory b.toPointers.read = .ok c := by
      have hget : b.content[0]? = some c := by rw [hcontent, List.getElem?_cons_zero]
      have hlen := length_content b
      rw [hcontent, List.length_cons] at hlen
      rw [content, List.getElem?_take_of_lt (by omega), List.getElem?_drop, Nat.add_zero] at hget
      simp only [Pointers.load, toPointers, hget]
    have hadv := bufferReadAdv_toPointers b 1
    rw [hb1] at hadv
    simp only [h, ↓reduceIte, hload, hadv, hb1, hcontent, List.headD_cons, Option.getD_some]
    rfl
  · simp only [h, Bool.false_eq_true, ↓reduceIte]

end Buffer

end Socks5d
