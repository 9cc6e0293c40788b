import Mathlib.Data.List.Basic

/-!
# Bytes, descriptors and the ways a run can stop

What every module shares: the octets of the protocol, file descriptors with
`-1` for "none", and the faults that end the process or leave C semantics.
-/

namespace Socks5d

abbrev Byte := UInt8

/-- `FD_SETSIZE`, the number of descriptors `select(2)` can watch. -/
def fdSetSize : Nat := 1024

inductive Fault
  /-- A call of `abort()`. -/
  | abort
  /-- An `assert` that does not hold. -/
  | assertion
  /-- A `struct socks5` read through a pointer after it was released. -/
  | useAfterFree
  /-- An access outside an array. -/
  | outOfBounds
  /-- A null pointer is followed. -/
  | nullPointer
  /-- The answer supplied for a system call is one the kernel cannot give. -/
  | kernel
  /-- Used where a connection is looked at alone: the call concerns others. -/
  | foreign
  deriving DecidableEq, Repr

/-- NUL-terminated strings, as the bytes before the terminator. -/
def CStr := { bytes : List Byte // (0 : Byte) ∉ bytes }

instance : DecidableEq CStr := inferInstanceAs (DecidableEq { bytes : List Byte // (0 : Byte) ∉ bytes })

/-- What `strlen`, `strcmp` and `printf` read of the memory at a pointer. -/
def cstr (memory : List Byte) : List Byte := memory.takeWhile (· ≠ 0)

theorem cstr_append {l : List Byte} (h : (0 : Byte) ∉ l) (r : List Byte) :
    cstr (l ++ r) = l ++ cstr r := by
  refine List.takeWhile_append_of_pos fun a ha => ?_
  rw [decide_eq_true_eq]
  rintro rfl
  exact h ha

theorem cstr_zero (r : List Byte) : cstr (0 :: r) = [] := rfl

theorem cstr_zeros (n : Nat) : cstr (List.replicate n 0) = [] := by
  cases n <;> rfl

theorem cstr_append_of_mem {l : List Byte} (h : (0 : Byte) ∈ l) (r : List Byte) :
    cstr (l ++ r) = cstr l := by
  induction l with
  | nil => cases h
  | cons a l ih =>
    by_cases ha : a = 0
    · subst ha
      rfl
    · have hl : (0 : Byte) ∈ l := (List.mem_cons.mp h).resolve_left (Ne.symm ha)
      have hcons (r : List Byte) : cstr (a :: r) = a :: cstr r := by simp [cstr, ha]
      rw [List.cons_append, hcons, hcons, ih hl]

theorem cstr_eq_self {l : List Byte} (h : (0 : Byte) ∉ l) : cstr l = l := by
  simpa [cstr] using cstr_append h []

theorem length_cstr_lt {l : List Byte} (h : (cstr l).length < l.length) : (0 : Byte) ∈ l := by
  by_contra hno
  rw [cstr_eq_self hno] at h
  exact Nat.lt_irrefl _ h

theorem length_toUInt8 {l : List Byte} (h : l.length ≤ 255) : l.length.toUInt8.toNat = l.length := by
  rw [Nat.toUInt8, UInt8.toNat_ofNat']
  omega

def overwrite (array bytes : List Byte) : List Byte := bytes ++ array.drop bytes.length

@[simp] theorem overwrite_nil (array : List Byte) : overwrite array [] = array := rfl

theorem overwrite_set {array bytes : List Byte} (h : bytes.length < array.length) (c : Byte) :
    (overwrite array bytes).set bytes.length c = overwrite array (bytes ++ [c]) := by
  unfold overwrite
  rw [List.set_append_right _ _ (Nat.le_refl _), Nat.sub_self, List.drop_eq_getElem_cons h,
    List.set_cons_zero, List.length_append, List.length_singleton, List.append_assoc,
    List.singleton_append]

/-- `assert(3)` on an operation that has no result when the assertion fails. -/
def asserted : Option α → Except Fault α
  | some a => .ok a
  | none => .error .assertion

end Socks5d
