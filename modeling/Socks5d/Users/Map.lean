import Socks5d.Users

/-!
# The table of users as a map

`UserMap` is what the table is for: at most `MAX_USERS` names with their
passwords, in the order of their registration. A slot holds a name without a
terminator when the name has 255 bytes or more, and `strcmp` then reads on into
the password; `users_refine_map` says that the table is the map as long as every
accepted registration is one that its slot can hold.
-/

namespace Socks5d

-- ---------------------------------------------------------------------------
-- C strings
-- ---------------------------------------------------------------------------

theorem not_mem_take (u : CStr) (n : Nat) : (0 : Byte) ∉ u.val.take n :=
  fun h => u.property (List.mem_of_mem_take h)

theorem length_strncpy (u : CStr) (n : Nat) : (strncpy u n).length = n := by
  simp only [strncpy, List.length_append, List.length_take, List.length_replicate]
  omega

theorem cstr_strncpy_lt {u : CStr} {n : Nat} (h : u.val.length < n) (r : List Byte) :
    cstr (strncpy u n ++ r) = u.val := by
  obtain ⟨k, hk⟩ : ∃ k, n - u.val.length = k + 1 := ⟨n - u.val.length - 1, by omega⟩
  rw [strncpy, List.take_of_length_le (Nat.le_of_lt h), hk, List.replicate_succ, List.append_assoc,
    cstr_append u.property, List.cons_append, cstr_zero, List.append_nil]

theorem cstr_strncpy_ge {u : CStr} {n : Nat} (h : n ≤ u.val.length) (r : List Byte) :
    cstr (strncpy u n ++ r) = u.val.take n ++ cstr r := by
  rw [strncpy, Nat.sub_eq_zero_of_le h, List.replicate_zero, List.append_nil,
    cstr_append (not_mem_take u n)]

theorem cstr_strncpy_le {u : CStr} {n : Nat} (h : u.val.length ≤ n) : cstr (strncpy u n) = u.val := by
  rw [strncpy, List.take_of_length_le h, cstr_append u.property, cstr_zeros, List.append_nil]

-- ---------------------------------------------------------------------------
-- The hole that is covered
-- ---------------------------------------------------------------------------

section
variable {α : Type} {slots : List α} {n i : Nat}

theorem length_remove (hi : i < n) (hn : n ≤ slots.length) :
    (slots.take i ++ (slots.drop (i + 1)).take (n - (i + 1)) ++ slots.drop (n - 1)).length =
      slots.length := by
  simp only [List.length_append, List.length_take, List.length_drop]
  omega

theorem mem_of_mem_remove {a : α}
    (h : a ∈ slots.take i ++ (slots.drop (i + 1)).take (n - (i + 1)) ++ slots.drop (n - 1)) :
    a ∈ slots := by
  rcases List.mem_append.mp h with h | h
  · rcases List.mem_append.mp h with h | h
    · exact List.mem_of_mem_take h
    · exact List.mem_of_mem_drop (List.mem_of_mem_take h)
  · exact List.mem_of_mem_drop h

theorem getElem?_remove {j : Nat} (hi : i < n) (hn : n ≤ slots.length) (hj : j < n - 1) :
    (slots.take i ++ (slots.drop (i + 1)).take (n - (i + 1)) ++ slots.drop (n - 1))[j]? =
      slots[if j < i then j else j + 1]? := by
  have hlen : (slots.take i).length = i := List.length_take_of_le (by omega)
  have hmid : ((slots.drop (i + 1)).take (n - (i + 1))).length = n - (i + 1) := by
    rw [List.length_take_of_le]
    rw [List.length_drop]
    omega
  rw [List.getElem?_append_left (by rw [List.length_append, hlen, hmid]; omega)]
  by_cases hji : j < i
  · rw [List.getElem?_append_left (by omega), List.getElem?_take_of_lt hji, if_pos hji]
  · rw [List.getElem?_append_right (by omega), hlen, List.getElem?_take_of_lt (by omega),
      List.getElem?_drop, if_neg hji, show i + 1 + (j - i) = j + 1 by omega]

end

-- ---------------------------------------------------------------------------
-- The arrays
-- ---------------------------------------------------------------------------

def Users.Sized (t : Users) : Prop :=
  ∀ u ∈ t.slots, u.uname.length = credentialSize ∧ u.passwd.length = credentialSize

theorem Users.Sized.register {t : Users} (h : t.Sized) (uname passwd : CStr) :
    (socksv5RegisterUser t uname passwd).1.Sized := by
  unfold socksv5RegisterUser
  split
  · exact h
  split
  · exact h
  · intro u hu
    rcases List.mem_or_eq_of_mem_set hu with hu | rfl
    · exact h u hu
    · exact ⟨length_strncpy .., length_strncpy ..⟩

theorem Users.Sized.unregister {t : Users} (h : t.Sized) (uname : CStr) :
    (socksv5UnregisterUser t uname).1.Sized := by
  unfold socksv5UnregisterUser
  split
  · exact fun u hu => h u (mem_of_mem_remove hu)
  · exact h

-- ---------------------------------------------------------------------------
-- The map
-- ---------------------------------------------------------------------------

abbrev UserMap := List (CStr × CStr)

inductive UserCall
  | register (uname passwd : CStr)
  | unregister (uname : CStr)

namespace UserMap

def names (m : UserMap) : List CStr := m.map Prod.fst

def register (m : UserMap) (uname passwd : CStr) : UserMap × Int :=
  if m.length ≥ maxUsers then (m, 1)
  else if uname ∈ m.names then (m, -1)
  else (m ++ [(uname, passwd)], 0)

def unregister (m : UserMap) (uname : CStr) : UserMap × Int :=
  if uname ∈ m.names then (m.filter fun e => e.1 ≠ uname, 0) else (m, -1)

end UserMap

namespace UserCall

def exec (t : Users) : UserCall → Users × Int
  | register uname passwd => socksv5RegisterUser t uname passwd
  | unregister uname => socksv5UnregisterUser t uname

def apply (m : UserMap) : UserCall → UserMap × Int
  | register uname passwd => m.register uname passwd
  | unregister uname => m.unregister uname

end UserCall

def Users.after (t : Users) (calls : List UserCall) : Users :=
  calls.foldl (fun t call => (call.exec t).1) t

def UserMap.after (m : UserMap) (calls : List UserCall) : UserMap :=
  calls.foldl (fun m call => (call.apply m).1) m

/-- The names that `strcmp` sees, with the passwords that `strncmp` sees. -/
def Users.entries (t : Users) : List (List Byte × List Byte) :=
  (List.range t.registered).map fun i =>
    (cstr (t.memory i), cstr ((t.slots[i]?).elim [] (·.passwd)))

/-- What a slot can hold: the password fits, and the name ends in its array (or
reads on to what happens to be its own end). -/
def Fits (uname passwd : CStr) : Prop :=
  passwd.val.length ≤ credentialSize ∧
    (uname.val.length < credentialSize ∨
      (passwd.val.length < credentialSize ∧ uname.val.drop credentialSize = passwd.val))

instance (uname passwd : CStr) : Decidable (Fits uname passwd) :=
  inferInstanceAs (Decidable (_ ∧ (_ ∨ (_ ∧ _))))

/-- A registration that is accepted fits. -/
def UserCall.Fits (m : UserMap) : UserCall → Prop
  | .register uname passwd =>
    m.length < maxUsers → uname ∉ m.names → Socks5d.Fits uname passwd
  | .unregister _ => True

def CallsFit (m : UserMap) : List UserCall → Prop
  | [] => True
  | call :: calls => call.Fits m ∧ CallsFit (call.apply m).1 calls

-- ---------------------------------------------------------------------------
-- The table holds the map
-- ---------------------------------------------------------------------------

def stored (e : CStr × CStr) : User where
  uname := strncpy e.1 credentialSize
  passwd := strncpy e.2 credentialSize

structure Holds (t : Users) (m : UserMap) : Prop where
  size : t.slots.length = maxUsers
  registered : t.registered = m.length
  le : m.length ≤ maxUsers
  slots : t.slots.take m.length = m.map stored
  fits : ∀ e ∈ m, Fits e.1 e.2
  nodup : m.names.Nodup

variable {t : Users} {m : UserMap}

theorem holds_empty : Holds {} [] :=
  ⟨rfl, rfl, Nat.zero_le _, rfl, fun _ h => absurd h List.not_mem_nil, List.nodup_nil⟩

namespace Holds

theorem slot (h : Holds t m) {i : Nat} {e : CStr × CStr} (he : m[i]? = some e) :
    t.slots[i]? = some (stored e) := by
  have hi : i < m.length := (List.getElem?_eq_some_iff.mp he).1
  rw [← List.getElem?_take_of_lt hi, h.slots, List.getElem?_map, he]
  rfl

theorem name (h : Holds t m) {i : Nat} {e : CStr × CStr} (he : m[i]? = some e) :
    cstr (t.memory i) = e.1.val := by
  have hslot := h.slot he
  obtain ⟨hi, hget⟩ := List.getElem?_eq_some_iff.mp hslot
  have hmemory : t.memory i =
      strncpy e.1 credentialSize ++ (strncpy e.2 credentialSize ++ t.memory (i + 1)) := by
    rw [Users.memory, List.drop_eq_getElem_cons hi, List.flatMap_cons, hget, List.append_assoc]
    rfl
  rw [hmemory]
  rcases (h.fits e (List.mem_of_getElem? he)).2 with hlt | ⟨hlt, hdrop⟩
  · exact cstr_strncpy_lt hlt _
  · by_cases hu : e.1.val.length < credentialSize
    · exact cstr_strncpy_lt hu _
    · rw [cstr_strncpy_ge (Nat.not_lt.mp hu), cstr_strncpy_lt hlt, ← hdrop, List.take_append_drop]

theorem sameName_iff (h : Holds t m) {i : Nat} {e : CStr × CStr} (he : m[i]? = some e)
    (uname : CStr) : t.sameName uname i = decide (e.1 = uname) := by
  rw [Users.sameName, h.name he]
  exact decide_eq_decide.mpr ⟨fun hv => (Subtype.ext hv).symm, fun hv => hv ▸ rfl⟩

theorem entries_eq (h : Holds t m) : t.entries = m.map fun e => (e.1.val, e.2.val) := by
  refine List.ext_getElem? fun i => ?_
  rw [Users.entries, h.registered, List.getElem?_map, List.getElem?_map]
  cases he : m[i]? with
  | none =>
    have hi : ¬ i < m.length := Nat.not_lt.mpr (List.getElem?_eq_none_iff.mp he)
    simp [hi]
  | some e =>
    have hi : i < m.length := (List.getElem?_eq_some_iff.mp he).1
    have hp : cstr (strncpy e.2 credentialSize) = e.2.val :=
      cstr_strncpy_le (h.fits e (List.mem_of_getElem? he)).1
    simp [hi, h.name he, h.slot he, stored, hp]

-- ---------------------------------------------------------------------------
-- Registration
-- ---------------------------------------------------------------------------

theorem any_sameName (h : Holds t m) (uname : CStr) :
    (List.range t.registered).any (t.sameName uname) = decide (uname ∈ m.names) := by
  rw [h.registered, Bool.eq_iff_iff, List.any_eq_true, decide_eq_true_eq]
  constructor
  · rintro ⟨i, hi, hname⟩
    have he := List.getElem?_eq_getElem (List.mem_range.mp hi)
    rw [h.sameName_iff he, decide_eq_true_eq] at hname
    exact hname ▸ List.mem_map_of_mem (List.getElem_mem _)
  · intro hmem
    obtain ⟨e, he, rfl⟩ := List.mem_map.mp hmem
    obtain ⟨i, hi, rfl⟩ := List.mem_iff_getElem.mp he
    refine ⟨i, List.mem_range.mpr hi, ?_⟩
    rw [h.sameName_iff (List.getElem?_eq_getElem hi), decide_eq_true_eq]

theorem register_result (h : Holds t m) (uname passwd : CStr) :
    (socksv5RegisterUser t uname passwd).2 = (m.register uname passwd).2 ∧
      ((socksv5RegisterUser t uname passwd).2 ≠ 0 → (socksv5RegisterUser t uname passwd).1 = t) := by
  unfold socksv5RegisterUser UserMap.register
  rw [h.any_sameName, h.registered]
  by_cases hfull : m.length ≥ maxUsers
  · simp [hfull]
  · by_cases hmem : uname ∈ m.names <;> simp [hfull, hmem]

theorem register (h : Holds t m) {uname passwd : CStr}
    (hfits : m.length < maxUsers → uname ∉ m.names → Fits uname passwd) :
    Holds (socksv5RegisterUser t uname passwd).1 (m.register uname passwd).1 := by
  unfold socksv5RegisterUser UserMap.register
  rw [h.any_sameName, h.registered]
  by_cases hfull : m.length ≥ maxUsers
  · simp [hfull, h]
  by_cases hmem : uname ∈ m.names
  · simp [hfull, hmem, h]
  simp only [hfull, hmem, ↓reduceIte, decide_false, Bool.false_eq_true]
  have hlt : m.length < t.slots.length := by
    rw [h.size]
    omega
  refine ⟨?_, ?_, ?_, ?_, fun e he => ?_, ?_⟩
  · rw [List.length_set, h.size]
  · rw [List.length_append]
    rfl
  · rw [List.length_append, List.length_singleton]
    omega
  · rw [List.length_append, List.length_singleton, List.take_add_one, List.take_set_of_le (Nat.le_refl _),
      h.slots, List.getElem?_set_self hlt, List.map_append]
    rfl
  · rcases List.mem_append.mp he with he | he
    · exact h.fits e he
    · rw [List.mem_singleton.mp he]
      exact hfits (Nat.not_le.mp hfull) hmem
  · rw [UserMap.names, List.map_append]
    refine List.nodup_append.mpr ⟨h.nodup, List.nodup_cons.mpr ⟨List.not_mem_nil, List.nodup_nil⟩,
      fun a ha b hb hab => ?_⟩
    obtain rfl : b = uname := by simpa using hb
    exact hmem (hab ▸ ha)

-- ---------------------------------------------------------------------------
-- Removal
-- ---------------------------------------------------------------------------

theorem find (h : Holds t m) {uname : CStr} (hmem : uname ∈ m.names) :
    ∃ before e behind, m = before ++ e :: behind ∧ e.1 = uname ∧
      (m.filter fun e => e.1 ≠ uname) = before ++ behind ∧
      (List.range t.registered).find? (t.sameName uname) = some before.length := by
  obtain ⟨e, he, rfl⟩ := List.mem_map.mp hmem
  obtain ⟨before, behind, rfl⟩ := List.append_of_mem he
  have hnames := h.nodup
  rw [UserMap.names, List.map_append, List.map_cons, List.nodup_append, List.nodup_cons] at hnames
  obtain ⟨-, ⟨hbehind, -⟩, hbefore⟩ := hnames
  have hne₁ : ∀ e' ∈ before, e'.1 ≠ e.1 := fun e' he' =>
    hbefore _ (List.mem_map_of_mem he') _ List.mem_cons_self
  have hne₂ : ∀ e' ∈ behind, e'.1 ≠ e.1 := fun e' he' heq =>
    hbehind (heq ▸ List.mem_map_of_mem he')
  refine ⟨before, e, behind, rfl, rfl, ?_, ?_⟩
  · rw [List.filter_append, List.filter_cons]
    simp only [ne_eq, not_true_eq_false, decide_false, Bool.false_eq_true, ↓reduceIte]
    congr 1
    · exact List.filter_eq_self.mpr fun e' he' => by simpa using hne₁ e' he'
    · exact List.filter_eq_self.mpr fun e' he' => by simpa using hne₂ e' he'
  · rw [List.find?_range_eq_some, h.registered]
    refine ⟨?_, ?_, fun j hj => ?_⟩
    · rw [h.sameName_iff (e := e) (by simp), decide_eq_true_eq]
    · simp
    · have hj' : (before ++ e :: behind)[j]? = some before[j] := by
        rw [List.getElem?_append_left hj, List.getElem?_eq_getElem hj]
      rw [h.sameName_iff hj', Bool.not_eq_true', decide_eq_false_iff_not]
      exact hne₁ _ (List.getElem_mem hj)

theorem find_none (h : Holds t m) {uname : CStr} (hmem : uname ∉ m.names) :
    (List.range t.registered).find? (t.sameName uname) = none := by
  have hany := h.any_sameName uname
  rw [decide_eq_false hmem, List.any_eq_false] at hany
  exact List.find?_eq_none.mpr hany

theorem unregister (h : Holds t m) (uname : CStr) :
    Holds (socksv5UnregisterUser t uname).1 (m.unregister uname).1 ∧
      (socksv5UnregisterUser t uname).2 = (m.unregister uname).2 ∧
      ((socksv5UnregisterUser t uname).2 ≠ 0 → (socksv5UnregisterUser t uname).1 = t) := by
  unfold socksv5UnregisterUser UserMap.unregister
  by_cases hmem : uname ∈ m.names
  · obtain ⟨before, e, behind, hm, -, hfilter, hfind⟩ := h.find hmem
    simp only [hfind, hmem, ↓reduceIte, hfilter]
    refine ⟨?_, trivial, fun hne => absurd rfl hne⟩
    have hsize := h.size
    have hle := h.le
    have hreg := h.registered
    have hslots := h.slots
    rw [hm, List.length_append, List.length_cons] at hle hreg hslots
    -- the slots in use are those before the name, its own and those behind it
    have hbefore : t.slots.take before.length = before.map stored := by
      have hle' : before.length ≤ before.length + (behind.length + 1) := Nat.le_add_right ..
      rw [← Nat.min_eq_left hle', ← List.take_take, hslots, List.map_append]
      exact List.take_left' (List.length_map ..)
    have hbehind : (t.slots.drop (before.length + 1)).take behind.length = behind.map stored := by
      have hlength : behind.length = before.length + (behind.length + 1) - (before.length + 1) := by
        omega
      rw [hlength, ← List.drop_take, hslots, List.append_cons, List.map_append]
      exact List.drop_left' (by simp)
    have hcount : t.registered - (before.length + 1) = behind.length := by omega
    refine ⟨?_, ?_, ?_, ?_, fun e' he' => ?_, ?_⟩
    · simp only [List.length_append, List.length_take, List.length_drop]
      omega
    · rw [List.length_append]
      show t.registered - 1 = _
      omega
    · rw [List.length_append]
      omega
    · show List.take _ (t.slots.take before.length ++ (t.slots.drop (before.length + 1)).take _ ++ _) = _
      rw [hcount, hbefore, hbehind, ← List.map_append, List.take_left']
      simp
    · refine h.fits e' (hm ▸ ?_)
      rcases List.mem_append.mp he' with he' | he'
      · exact List.mem_append_left _ he'
      · exact List.mem_append_right _ (List.mem_cons_of_mem _ he')
    · have hnames := h.nodup
      rw [hm, UserMap.names, List.map_append, List.map_cons] at hnames
      rw [UserMap.names, List.map_append]
      exact hnames.sublist ((List.sublist_cons_self ..).append_left _)
  · simp only [h.find_none hmem, hmem, ↓reduceIte]
    exact ⟨h, trivial, fun _ => trivial⟩

end Holds

-- ---------------------------------------------------------------------------
-- Any sequence of calls
-- ---------------------------------------------------------------------------

theorem Holds.exec (h : Holds t m) {call : UserCall} (hfits : call.Fits m) :
    Holds (call.exec t).1 (call.apply m).1 := by
  cases call with
  | register uname passwd => exact h.register hfits
  | unregister uname => exact (h.unregister uname).1

theorem Holds.result (h : Holds t m) (call : UserCall) :
    (call.exec t).2 = (call.apply m).2 ∧ ((call.exec t).2 ≠ 0 → (call.exec t).1 = t) := by
  cases call with
  | register uname passwd => exact h.register_result uname passwd
  | unregister uname => exact (h.unregister uname).2

theorem Holds.after (h : Holds t m) {calls : List UserCall} (hfit : CallsFit m calls) :
    Holds (t.after calls) (m.after calls) := by
  induction calls generalizing t m with
  | nil => exact h
  | cons call calls ih => exact ih (h.exec hfit.1) hfit.2

/-- The table is the map: after any calls of which the accepted registrations fit
their slots, it has the entries of the map, with different names and at most
`MAX_USERS` of them; the next call has the result it has on the map, changes
nothing unless that is 0, and does to the table what it does to the map. -/
theorem users_refine_map {calls : List UserCall} (hfit : CallsFit [] calls) :
    (Users.after {} calls).entries = (UserMap.after [] calls).map (fun e => (e.1.val, e.2.val)) ∧
    (UserMap.after [] calls).names.Nodup ∧ (UserMap.after [] calls).length ≤ maxUsers ∧
    ∀ call : UserCall,
      (call.exec (Users.after {} calls)).2 = (call.apply (UserMap.after [] calls)).2 ∧
      ((call.exec (Users.after {} calls)).2 ≠ 0 →
        (call.exec (Users.after {} calls)).1 = Users.after {} calls) ∧
      (call.Fits (UserMap.after [] calls) → (call.exec (Users.after {} calls)).1.entries =
        (call.apply (UserMap.after [] calls)).1.map fun e => (e.1.val, e.2.val)) := by
  have h := holds_empty.after hfit
  refine ⟨h.entries_eq, h.nodup, h.le, fun call => ?_⟩
  obtain ⟨hresult, hsame⟩ := h.result call
  exact ⟨hresult, hsame, fun hcall => (h.exec hcall).entries_eq⟩

instance (m : UserMap) (call : UserCall) : Decidable (call.Fits m) :=
  match call with
  | .register uname passwd => inferInstanceAs (Decidable (_ → _ → Fits uname passwd))
  | .unregister _ => .isTrue trivial

instance decidableCallsFit (m : UserMap) : (calls : List UserCall) → Decidable (CallsFit m calls)
  | [] => .isTrue trivial
  | call :: calls =>
    have := decidableCallsFit (call.apply m).1 calls
    inferInstanceAs (Decidable (call.Fits m ∧ CallsFit (call.apply m).1 calls))

def fullName : CStr := ⟨List.replicate credentialSize 97, by simp [List.mem_replicate]⟩

def oneByte : CStr := ⟨[98], by decide⟩

/-- A name of 255 bytes is registered twice. -/
theorem users_register_twice :
    ((UserCall.register fullName oneByte).exec
      (Users.after {} [.register fullName oneByte])).2 = 0 ∧
    ((UserCall.register fullName oneByte).apply
      (UserMap.after [] [.register fullName oneByte])).2 = -1 ∧
    (Users.after {} [.register fullName oneByte, .register fullName oneByte]).entries =
      [(fullName.val ++ oneByte.val, oneByte.val), (fullName.val ++ oneByte.val, oneByte.val)] := by
  decide +kernel

/-- Two names, the first of them removed. -/
theorem users_refine_map_short :
    CallsFit [] [.register fullName ⟨[], by decide⟩, .register oneByte fullName,
      .unregister fullName] ∧
    (Users.after {} [.register fullName ⟨[], by decide⟩, .register oneByte fullName,
      .unregister fullName]).entries = [(oneByte.val, fullName.val)] := by
  have hfit : CallsFit [] [.register fullName ⟨[], by decide⟩, .register oneByte fullName,
      .unregister fullName] := by decide +kernel
  refine ⟨hfit, (users_refine_map hfit).1.trans ?_⟩
  decide +kernel

end Socks5d
