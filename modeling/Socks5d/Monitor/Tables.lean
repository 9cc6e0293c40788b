import Socks5d.Monitor.Process
import Socks5d.Users.Map

/-!
# The tables that the monitor administers

`Users.Whole` and `Admins.Valid` are what the declarations of the arrays and
`monitor_register_admin` make sure of: the counters stay in their arrays, and the
token of an administrator has 16 bytes before its NUL. The operations keep both,
and one that fails leaves its table as it was.
-/

namespace Socks5d

-- ---------------------------------------------------------------------------
-- The users
-- ---------------------------------------------------------------------------

structure Users.Whole (t : Users) : Prop where
  slots : t.slots.length = maxUsers
  registered : t.registered ≤ maxUsers
  sized : t.Sized

namespace Users.Whole

theorem empty : Users.Whole {} := by
  refine ⟨rfl, by decide, fun u hu => ?_⟩
  obtain rfl := List.eq_of_mem_replicate hu
  exact ⟨List.length_replicate, List.length_replicate⟩

variable {t : Users}

theorem register (h : t.Whole) (uname passwd : CStr) :
    (socksv5RegisterUser t uname passwd).1.Whole := by
  refine ⟨?_, ?_, h.sized.register uname passwd⟩
  · unfold socksv5RegisterUser
    split_ifs
    · exact h.slots
    · exact h.slots
    · simpa using h.slots
  · unfold socksv5RegisterUser
    split_ifs with hfull
    · exact h.registered
    · exact h.registered
    · exact Nat.lt_of_not_ge hfull

theorem unregister (h : t.Whole) (uname : CStr) : (socksv5UnregisterUser t uname).1.Whole := by
  have hle : t.registered ≤ t.slots.length := h.slots ▸ h.registered
  refine ⟨?_, ?_, h.sized.unregister uname⟩
  · unfold socksv5UnregisterUser
    split
    · rename_i i hi
      have hlt : i < t.registered := List.mem_range.mp (List.mem_of_find?_eq_some hi)
      exact (length_remove hlt hle).trans h.slots
    · exact h.slots
  · unfold socksv5UnregisterUser
    split
    · exact Nat.le_trans (Nat.sub_le _ _) h.registered
    · exact h.registered

end Users.Whole

theorem socksv5RegisterUser_failed {t : Users} {uname passwd : CStr}
    (h : (socksv5RegisterUser t uname passwd).2 ≠ 0) :
    (socksv5RegisterUser t uname passwd).1 = t := by
  unfold socksv5RegisterUser at h ⊢
  split_ifs at h ⊢
  · rfl
  · rfl
  · exact absurd rfl h

theorem socksv5UnregisterUser_failed {t : Users} {uname : CStr}
    (h : (socksv5UnregisterUser t uname).2 ≠ 0) : (socksv5UnregisterUser t uname).1 = t := by
  unfold socksv5UnregisterUser at h ⊢
  split at h
  · exact absurd rfl h
  · rfl

-- ---------------------------------------------------------------------------
-- The administrators
-- ---------------------------------------------------------------------------

structure Admins.Valid (t : Admins) : Prop where
  slots : t.slots.length = maxAdmins
  registered : t.registered ≤ maxAdmins
  sized : ∀ a ∈ t.slots, a.uname.length = 0xff ∧ a.token.length = 0x11
  tokens : ∀ i a, i < t.registered → t.slots[i]? = some a → (0 : Byte) ∉ a.token.take tokenSize

theorem take_strncpy {u : CStr} {k n : Nat} (hlen : u.val.length = k) (hk : k ≤ n) :
    (strncpy u n).take k = u.val := by
  have htake : u.val.take n = u.val := List.take_of_length_le (hlen ▸ hk)
  rw [strncpy, htake, ← hlen, List.take_left]

def Admins.Registered (t : Admins) (token : List Byte) : Prop :=
  ∃ i a, i < t.registered ∧ t.slots[i]? = some a ∧ a.token.take tokenSize = token

namespace Admins.Valid

theorem empty : Admins.Valid {} := by
  refine ⟨rfl, by decide, fun a ha => ?_, nofun⟩
  obtain rfl := List.eq_of_mem_replicate ha
  exact ⟨List.length_replicate, List.length_replicate⟩

variable {t : Admins}

theorem register (h : t.Valid) (uname token : CStr) :
    (monitorRegisterAdmin t uname token).1.Valid := by
  unfold monitorRegisterAdmin
  split
  · exact h
  split
  · exact h
  split
  · exact h
  · rename_i hfull hlen _
    have hlt : t.registered < maxAdmins := Nat.lt_of_not_ge hfull
    have hlen : token.val.length = tokenSize := not_not.mp hlen
    refine ⟨by simpa using h.slots, hlt, fun a ha => ?_, fun i a hi ha => ?_⟩
    · rcases List.mem_or_eq_of_mem_set ha with ha | rfl
      · exact h.sized a ha
      · exact ⟨length_strncpy .., length_strncpy ..⟩
    · by_cases hi' : i = t.registered
      · subst hi'
        rw [List.getElem?_set_self (h.slots ▸ hlt)] at ha
        cases ha
        rw [take_strncpy hlen (by decide)]
        exact token.property
      · rw [List.getElem?_set_ne (Ne.symm hi')] at ha
        exact h.tokens i a (by exact Nat.lt_of_le_of_ne (Nat.le_of_lt_succ hi) hi') ha

theorem unregister (h : t.Valid) (uname : CStr) : (monitorUnregisterAdmin t uname).1.Valid := by
  have hle : t.registered ≤ t.slots.length := h.slots ▸ h.registered
  unfold monitorUnregisterAdmin
  split
  · exact h
  split
  · rename_i i hi
    have hlt : i < t.registered :=
      List.mem_range.mp (List.mem_of_mem_drop (List.mem_of_find?_eq_some hi))
    refine ⟨(length_remove hlt hle).trans h.slots, Nat.le_trans (Nat.sub_le _ _) h.registered,
      fun a ha => h.sized a (mem_of_mem_remove ha), fun j a hj ha => ?_⟩
    have hj : j < t.registered - 1 := hj
    rw [getElem?_remove hlt hle hj] at ha
    refine h.tokens _ a ?_ ha
    split <;> omega
  · exact h

theorem isAdmin_iff (h : t.Valid) {token : List Byte} (hlen : token.length = tokenSize) :
    monitorIsAdmin t token = true ↔ t.Registered token := by
  have hsame {a : Admin} {i : Nat} (hi : i < t.registered) (ha : t.slots[i]? = some a) :
      strncmpEq token a.token 0x10 = true ↔ a.token.take tokenSize = token := by
    have hno := h.tokens i a hi ha
    have hsize : (a.token.take tokenSize).length = tokenSize := by
      rw [List.length_take, (h.sized a (List.mem_of_getElem? ha)).2]
      decide
    have htoken : token.take 0x10 = token := List.take_of_length_le (Nat.le_of_eq hlen)
    have hself : cstr (a.token.take 0x10) = a.token.take tokenSize := cstr_eq_self hno
    rw [strncmpEq, htoken, hself, decide_eq_true_eq]
    constructor
    · intro heq
      -- a string as long as its memory is all of it
      have hbegins : cstr token <+: token := List.takeWhile_prefix _
      rw [heq] at hbegins
      exact hbegins.eq_of_length (hsize.trans hlen.symm)
    · intro heq
      rw [← heq]
      exact cstr_eq_self hno
  simp only [monitorIsAdmin, List.any_eq_true, List.mem_range, Admins.accepts, Admins.Registered]
  constructor
  · rintro ⟨i, hi, hacc⟩
    split at hacc
    · rename_i a ha
      exact ⟨i, a, hi, ha, (hsame hi ha).mp hacc⟩
    · cases hacc
  · rintro ⟨i, a, hi, ha, heq⟩
    refine ⟨i, hi, ?_⟩
    rw [ha]
    exact (hsame hi ha).mpr heq

end Admins.Valid

theorem monitorRegisterAdmin_failed {t : Admins} {uname token : CStr}
    (h : (monitorRegisterAdmin t uname token).2 ≠ 0) :
    (monitorRegisterAdmin t uname token).1 = t := by
  unfold monitorRegisterAdmin at h ⊢
  split at h
  · rw [if_pos ‹_›]
  split at h
  · rw [if_neg ‹_›, if_pos ‹_›]
  split at h
  · rw [if_neg ‹_›, if_neg ‹_›, if_pos ‹_›]
  · exact absurd rfl h

theorem monitorUnregisterAdmin_failed {t : Admins} {uname : CStr}
    (h : (monitorUnregisterAdmin t uname).2 ≠ 0) : (monitorUnregisterAdmin t uname).1 = t := by
  unfold monitorUnregisterAdmin at h ⊢
  split_ifs at h ⊢
  · rfl
  · split at h
    · exact absurd rfl h
    · rfl

-- ---------------------------------------------------------------------------
-- The lists of names
-- ---------------------------------------------------------------------------

theorem length_cstr_le (memory : List Byte) : (cstr memory).length ≤ memory.length :=
  (List.takeWhile_prefix _).length_le

theorem length_flatMap_le {α : Type} {l : List α} {f : α → List Byte} {size : Nat}
    (h : ∀ a ∈ l, (f a).length ≤ size) : (l.flatMap f).length ≤ l.length * size := by
  induction l with
  | nil => simp
  | cons a l ih =>
    have ha := h a List.mem_cons_self
    have hl := ih fun b hb => h b (List.mem_cons_of_mem a hb)
    rw [List.flatMap_cons, List.length_append, List.length_cons, Nat.succ_mul]
    omega

theorem length_flatMap_drop_le {α : Type} {slots : List α} {f : α → List Byte} (size : Nat)
    (h : ∀ a ∈ slots, (f a).length = size) (i : Nat) :
    ((slots.drop i).flatMap f).length ≤ slots.length * size := by
  refine Nat.le_trans
    (length_flatMap_le fun a ha => Nat.le_of_eq (h a (List.mem_of_mem_drop ha))) ?_
  rw [List.length_drop]
  exact Nat.mul_le_mul_right _ (Nat.sub_le _ _)

theorem toNat_toUInt16 {n : Nat} (h : n ≤ 0xffff) : n.toUInt16.toNat = n := by
  rw [Nat.toUInt16_eq, UInt16.toNat_ofNat']
  exact Nat.mod_eq_of_lt (by omega)

theorem toNat_listNames {names : List (List Byte)}
    (h : (names.flatMap (· ++ [0])).length ≤ 0xffff) :
    (listNames names).1.toNat = (names.flatMap (· ++ [0])).length - 1 := by
  have hlen := toNat_toUInt16 h
  have hone : (1 : UInt16).toNat = 1 := rfl
  simp only [listNames]
  by_cases hgt : (names.flatMap (· ++ [0])).length.toUInt16 > 1
  · rw [if_pos hgt, UInt16.toNat_sub_of_le _ _ (UInt16.le_of_lt hgt), hlen, hone]
  · rw [if_neg hgt]
    rw [gt_iff_lt, UInt16.lt_iff_toNat_lt, hlen] at hgt
    show 0 = _
    omega

theorem flatMap_terminated {names : List (List Byte)} (h : names ≠ []) :
    names.flatMap (· ++ [0]) = [(0 : Byte)].intercalate names ++ [0] := by
  induction names with
  | nil => exact absurd rfl h
  | cons name names ih =>
    cases names with
    | nil => simp
    | cons next names =>
      rw [List.flatMap_cons, ih (List.cons_ne_nil _ _), List.intercalate_cons_cons]
      simp only [List.append_assoc]

/-- The bytes that the answer takes: the names, with a NUL between two of them. -/
theorem take_listNames {names : List (List Byte)}
    (h : (names.flatMap (· ++ [0])).length ≤ 0xffff) :
    (listNames names).2.take (listNames names).1.toNat = [(0 : Byte)].intercalate names := by
  rw [toNat_listNames h]
  by_cases hne : names = []
  · subst hne
    rfl
  · show (names.flatMap (· ++ [0])).take _ = _
    rw [flatMap_terminated hne, List.length_append, List.length_singleton, Nat.add_sub_cancel,
      List.take_left]

theorem listNames_le {names : List (List Byte)} (h : (names.flatMap (· ++ [0])).length ≤ 0xfffc) :
    (listNames names).1.toNat ≤ (listNames names).2.length ∧ (listNames names).1.toNat + 3 ≤ 0xffff := by
  have hlen := toNat_listNames (Nat.le_trans h (by decide))
  have htotal : (listNames names).2.length = (names.flatMap (· ++ [0])).length := rfl
  omega

theorem length_terminated_le {names : List (List Byte)} (count size : Nat)
    (hcount : names.length ≤ count) (hsize : ∀ name ∈ names, name.length ≤ size) :
    (names.flatMap (· ++ [0])).length ≤ count * (size + 1) := by
  refine Nat.le_trans (length_flatMap_le fun name hname => ?_) (Nat.mul_le_mul_right _ hcount)
  simpa using hsize name hname

def Users.copiedNames (t : Users) : List (List Byte) :=
  (List.range t.registered).map fun i => cstr (t.memory i)

def Admins.copiedNames (t : Admins) : List (List Byte) :=
  (List.range t.registered).map fun i => cstr (t.memory i)

theorem Users.Whole.names_fit {t : Users} (h : t.Whole) :
    (t.copiedNames.flatMap (· ++ [0])).length ≤ 0xfffc := by
  refine Nat.le_trans (length_terminated_le maxUsers 5100 ?_ ?_) (by decide)
  · simpa [Users.copiedNames] using h.registered
  · simp only [Users.copiedNames, List.mem_map, forall_exists_index, and_imp,
      forall_apply_eq_imp_iff₂]
    intro i _
    refine Nat.le_trans (length_cstr_le _) (Nat.le_trans (length_flatMap_drop_le 510 ?_ i) ?_)
    · intro u hu
      rw [List.length_append, (h.sized u hu).1, (h.sized u hu).2]
      rfl
    · rw [h.slots]
      decide

theorem Admins.Valid.names_fit {t : Admins} (h : t.Valid) :
    (t.copiedNames.flatMap (· ++ [0])).length ≤ 0xfffc := by
  refine Nat.le_trans (length_terminated_le maxAdmins 816 ?_ ?_) (by decide)
  · simpa [Admins.copiedNames] using h.registered
  · simp only [Admins.copiedNames, List.mem_map, forall_exists_index, and_imp,
      forall_apply_eq_imp_iff₂]
    intro i _
    refine Nat.le_trans (length_cstr_le _) (Nat.le_trans (length_flatMap_drop_le 272 ?_ i) ?_)
    · intro a ha
      rw [List.length_append, (h.sized a ha).1, (h.sized a ha).2]
    · rw [h.slots]
      decide

end Socks5d
