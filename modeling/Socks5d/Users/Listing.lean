import Socks5d.Monitor.Tables

/-!
# socks5nio.c: the list of the proxy users

`socksv5_get_users` copies the names one after the other into an array of
`MAX_USERS * 0xff` bytes. `strcpy` and `strlen` take a name up to its NUL, and a
name of 255 bytes has none in its own array: what follows it there is the
password. `listing_iff` says for which tables the list is the names and
nothing else.
-/

namespace Socks5d

def unamesSize : Nat := maxUsers * credentialSize

/-- `strcpy(array + dst, memory)`. -/
def strcpyTo (array : List Byte) (dst : Nat) (memory : List Byte) : Except Fault (List Byte) :=
  -- without a NUL it reads on behind the last slot
  if ¬ (0 : Byte) ∈ memory then .error .outOfBounds
  else if dst + (cstr memory).length + 1 ≤ array.length then
    .ok (array.take dst ++ (cstr memory ++ [0]) ++ array.drop (dst + (cstr memory).length + 1))
  else .error .outOfBounds

namespace Users

def listName (t : Users) (dlen : UInt16) (unames : List Byte) (i : Nat) :
    Except Fault (UInt16 × List Byte) := do
  let unames ← strcpyTo unames dlen.toNat (t.memory i)
  return (dlen + ((cstr (t.memory i)).length + 1).toUInt16, unames)

def listLoop (t : Users) (dlen : UInt16) (unames : List Byte) :
    List Nat → Except Fault (UInt16 × List Byte)
  | [] => .ok (dlen, unames)
  | i :: rest => do
    let (dlen, unames) ← t.listName dlen unames i
    listLoop t dlen unames rest

/-- `socksv5_get_users` with the array of the caller. -/
def getUsers (t : Users) (unames : List Byte) : Except Fault (UInt16 × List Byte) := do
  let (dlen, unames) ← t.listLoop 0 unames (List.range t.registered)
  return (if dlen > 1 then dlen - 1 else 0, unames)

def storedNames (t : Users) : List (List Byte) :=
  (t.slots.take t.registered).map fun u => cstr u.uname

/-- The array is respected, and the bytes returned are the names. -/
def Listing (t : Users) (unames : List Byte) : Prop :=
  ∃ dlen out, t.getUsers unames = .ok (dlen, out) ∧ (dlen = 0 ↔ t.registered = 0) ∧
    (t.registered ≠ 0 → (out.take dlen.toNat).splitOn 0 = t.storedNames)

/-- The slot ends the name: in its own array, or at once in the one behind it. -/
def EndsName (u : User) : Prop := (cstr u.uname).length < credentialSize ∨ cstr u.passwd = []

instance (u : User) : Decidable (EndsName u) := inferInstanceAs (Decidable (_ ∨ _))

/-- Every name ends, and with their terminators they fit into the array. -/
def Listable (t : Users) : Prop :=
  (∀ u ∈ t.slots.take t.registered, EndsName u) ∧
    (t.storedNames.flatMap (· ++ [0])).length ≤ unamesSize

instance (t : Users) : Decidable t.Listable := inferInstanceAs (Decidable (_ ∧ _))

-- ---------------------------------------------------------------------------
-- The strings in the slots
-- ---------------------------------------------------------------------------

def Named (t : Users) : Prop := ∀ u ∈ t.slots.take t.registered, cstr u.uname ≠ []

variable {t : Users}

theorem memory_eq {i : Nat} (hi : i < t.slots.length) :
    t.memory i = t.slots[i].uname ++ (t.slots[i].passwd ++ t.memory (i + 1)) := by
  rw [memory, List.drop_eq_getElem_cons hi, List.flatMap_cons, List.append_assoc]
  rfl

theorem cstr_append_eq_nil {l : List Byte} (h : l ≠ []) (r : List Byte) :
    cstr (l ++ r) = [] ↔ cstr l = [] := by
  obtain ⟨c, l, rfl⟩ := List.exists_cons_of_ne_nil h
  by_cases hc : c = 0 <;> simp [cstr, hc]

theorem mem_of_cstr_eq_nil {l : List Byte} (h : l ≠ []) (hc : cstr l = []) : (0 : Byte) ∈ l := by
  refine length_cstr_lt ?_
  rw [hc]
  exact List.length_pos_iff.mpr h

theorem cstr_memory_eq_iff {u : User} (huname : u.uname.length = credentialSize)
    (hpasswd : u.passwd.length = credentialSize) (rest : List Byte) :
    cstr (u.uname ++ (u.passwd ++ rest)) = cstr u.uname ↔ EndsName u := by
  by_cases hmem : (0 : Byte) ∈ u.uname
  · have hlt : (cstr u.uname).length < credentialSize := by
      refine Nat.lt_of_le_of_ne (huname ▸ length_cstr_le _) fun heq => ?_
      have hall : cstr u.uname = u.uname :=
        (List.takeWhile_prefix _).eq_of_length (heq.trans huname.symm)
      exact zero_not_mem_cstr u.uname (hall.symm ▸ hmem)
    exact ⟨fun _ => .inl hlt, fun _ => cstr_append_of_mem hmem _⟩
  · have hne : u.passwd ≠ [] := List.ne_nil_of_length_pos (hpasswd ▸ (by decide))
    have hge : ¬ (cstr u.uname).length < credentialSize := by
      rw [cstr_eq_self hmem, huname]
      exact Nat.lt_irrefl _
    rw [cstr_append hmem, cstr_eq_self hmem, List.append_right_eq_self, cstr_append_eq_nil hne]
    exact ⟨.inr, fun h => Or.resolve_left h hge⟩

theorem EndsName.mem {u : User} (h : EndsName u) (huname : u.uname.length = credentialSize)
    (hpasswd : u.passwd.length = credentialSize) (rest : List Byte) :
    (0 : Byte) ∈ u.uname ++ (u.passwd ++ rest) := by
  rcases h with hlt | hnil
  · exact List.mem_append_left _ (length_cstr_lt (huname.symm ▸ hlt))
  · have hne : u.passwd ≠ [] := List.ne_nil_of_length_pos (hpasswd ▸ (by decide))
    exact List.mem_append_right _ (List.mem_append_left _ (mem_of_cstr_eq_nil hne hnil))

-- ---------------------------------------------------------------------------
-- The loop
-- ---------------------------------------------------------------------------

def copied (t : Users) (is : List Nat) : List Byte := is.flatMap fun i => cstr (t.memory i) ++ [0]

theorem strcpyTo_overwrite {array written memory : List Byte} (hmem : (0 : Byte) ∈ memory)
    (hfits : (written ++ (cstr memory ++ [0])).length ≤ array.length) :
    strcpyTo (overwrite array written) written.length memory =
      .ok (overwrite array (written ++ (cstr memory ++ [0]))) := by
  simp only [List.length_append, List.length_singleton] at hfits
  have hlen : (overwrite array written).length = array.length := by
    simp only [overwrite, List.length_append, List.length_drop]
    omega
  have hdrop : (overwrite array written).drop (written.length + (cstr memory).length + 1) =
      array.drop (written.length + ((cstr memory).length + 1)) := by
    rw [overwrite, List.drop_append, List.drop_eq_nil_of_le (by omega), List.nil_append,
      List.drop_drop]
    congr 1
    omega
  rw [strcpyTo, if_neg (not_not.mpr hmem), if_pos (by omega), hdrop, overwrite, List.take_left,
    overwrite, List.length_append, List.length_append, List.length_singleton]

theorem of_strcpyTo {array memory out : List Byte} {dst : Nat}
    (h : strcpyTo array dst memory = .ok out) :
    (0 : Byte) ∈ memory ∧ dst + (cstr memory).length + 1 ≤ array.length := by
  unfold strcpyTo at h
  split at h
  · cases h
  rename_i hmem
  split at h
  · exact ⟨not_not.mp hmem, ‹_›⟩
  · cases h

theorem length_overwrite {array written : List Byte} (h : written.length ≤ array.length) :
    (overwrite array written).length = array.length := by
  rw [overwrite, List.length_append, List.length_drop]
  omega

theorem toUInt16_add (m n : Nat) : m.toUInt16 + n.toUInt16 = (m + n).toUInt16 := by
  apply UInt16.toNat.inj
  simp [Nat.toUInt16]

variable {array : List Byte}

/-- The loop stays inside of the array if and only if every name ends somewhere
and all of them fit; then it leaves them one after the other. -/
theorem listLoop_ok_iff (harray : array.length = unamesSize) {written : List Byte}
    (hwritten : written.length ≤ unamesSize) (is : List Nat) :
    ((∃ r, t.listLoop written.length.toUInt16 (overwrite array written) is = .ok r) ↔
      (∀ i ∈ is, (0 : Byte) ∈ t.memory i) ∧ (written ++ t.copied is).length ≤ unamesSize) ∧
    ∀ r, t.listLoop written.length.toUInt16 (overwrite array written) is = .ok r →
      r = ((written ++ t.copied is).length.toUInt16, overwrite array (written ++ t.copied is)) := by
  induction is generalizing written with
  | nil =>
    rw [copied, List.flatMap_nil, List.append_nil]
    refine ⟨⟨fun _ => ⟨fun _ h => absurd h List.not_mem_nil, hwritten⟩, fun _ => ⟨_, rfl⟩⟩,
      fun r h => ?_⟩
    cases h
    rfl
  | cons i is ih =>
    have hcopied : written ++ t.copied (i :: is) =
        (written ++ (cstr (t.memory i) ++ [0])) ++ t.copied is := by
      rw [copied, List.flatMap_cons, ← List.append_assoc]
      rfl
    have hdlen := toNat_toUInt16 (Nat.le_trans hwritten (by decide))
    rw [hcopied]
    by_cases hstep : (0 : Byte) ∈ t.memory i ∧
        (written ++ (cstr (t.memory i) ++ [0])).length ≤ unamesSize
    · obtain ⟨hmem, hfits⟩ := hstep
      have hcopy := @strcpyTo_overwrite array _ _ hmem (harray ▸ hfits)
      have hnext : t.listLoop written.length.toUInt16 (overwrite array written) (i :: is) =
          t.listLoop (written ++ (cstr (t.memory i) ++ [0])).length.toUInt16
            (overwrite array (written ++ (cstr (t.memory i) ++ [0]))) is := by
        have hlen : written.length.toUInt16 + ((cstr (t.memory i)).length + 1).toUInt16 =
            (written ++ (cstr (t.memory i) ++ [0])).length.toUInt16 := by
          rw [toUInt16_add, List.length_append, List.length_append, List.length_singleton]
        simp only [listLoop, listName, hdlen, hcopy, ← hlen]
        rfl
      obtain ⟨hiff, hresult⟩ := ih hfits
      rw [hnext]
      refine ⟨hiff.trans ⟨fun h => ⟨?_, h.2⟩,
        fun h => ⟨fun j hj => h.1 j (List.mem_cons_of_mem i hj), h.2⟩⟩,
        hresult⟩
      intro j hj
      rcases List.mem_cons.mp hj with rfl | hj
      · exact hmem
      · exact h.1 j hj
    · -- the copy of the first name already leaves the arrays
      have hfault : ∀ r,
          t.listLoop written.length.toUInt16 (overwrite array written) (i :: is) ≠ .ok r := by
        intro r h
        cases hcopy : strcpyTo (overwrite array written) written.length (t.memory i) with
        | error f =>
          simp only [listLoop, listName, hdlen, hcopy] at h
          cases h
        | ok out =>
          obtain ⟨hmem, hle⟩ := of_strcpyTo hcopy
          rw [length_overwrite (harray ▸ hwritten), harray] at hle
          refine hstep ⟨hmem, ?_⟩
          simp only [List.length_append, List.length_singleton]
          omega
      refine ⟨⟨fun ⟨r, h⟩ => absurd h (hfault r), fun h =>
        absurd ⟨h.1 i List.mem_cons_self, ?_⟩ hstep⟩,
        fun r h => absurd h (hfault r)⟩
      have hle := h.2
      rw [List.length_append] at hle
      exact Nat.le_trans (Nat.le_add_right _ _) hle

theorem copied_eq (t : Users) :
    t.copied (List.range t.registered) = t.copiedNames.flatMap (· ++ [0]) := by
  rw [copied, copiedNames, List.flatMap_map]

/-- When the names end and fit, the array holds what the responses of the
monitor are made of. -/
theorem getUsers_ok_iff (harray : array.length = unamesSize) :
    ((∃ r, t.getUsers array = .ok r) ↔
      (∀ i ∈ List.range t.registered, (0 : Byte) ∈ t.memory i) ∧
        (t.copiedNames.flatMap (· ++ [0])).length ≤ unamesSize) ∧
    ∀ r, t.getUsers array = .ok r →
      r = ((socksv5GetUsers t).1, overwrite array (socksv5GetUsers t).2) := by
  obtain ⟨hiff, hresult⟩ := @listLoop_ok_iff t array harray []
    (Nat.zero_le _) (List.range t.registered)
  rw [List.nil_append, copied_eq] at hiff hresult
  have hstart : t.getUsers array = do
      let (dlen, unames) ← t.listLoop ([] : List Byte).length.toUInt16 (overwrite array [])
        (List.range t.registered)
      return (if dlen > 1 then dlen - 1 else 0, unames) := rfl
  rw [hstart]
  cases hloop : t.listLoop ([] : List Byte).length.toUInt16 (overwrite array [])
      (List.range t.registered) with
  | error f =>
    rw [hloop] at hiff
    refine ⟨⟨fun ⟨r, h⟩ => ?_, fun h => ?_⟩, fun r h => ?_⟩
    · cases h
    · obtain ⟨r, h⟩ := hiff.mpr h
      cases h
    · cases h
  | ok r =>
    have hfits := hiff.mp ⟨r, hloop⟩
    obtain rfl := hresult r hloop
    refine ⟨⟨fun _ => hfits, fun _ => ⟨_, rfl⟩⟩, fun r h => ?_⟩
    cases h
    rfl

-- ---------------------------------------------------------------------------
-- The list and the names
-- ---------------------------------------------------------------------------

theorem take_overwrite (hne : t.copiedNames ≠ [])
    (hfits : (t.copiedNames.flatMap (· ++ [0])).length ≤ unamesSize) (array : List Byte) :
    (overwrite array (socksv5GetUsers t).2).take (socksv5GetUsers t).1.toNat =
      [(0 : Byte)].intercalate t.copiedNames := by
  have hdlen : (socksv5GetUsers t).1.toNat = (t.copiedNames.flatMap (· ++ [0])).length - 1 :=
    toNat_listNames (Nat.le_trans hfits (by decide))
  have hlist : (socksv5GetUsers t).2 = t.copiedNames.flatMap (· ++ [0]) := rfl
  rw [hdlen, hlist, flatMap_terminated hne, overwrite, List.length_append, List.length_singleton,
    Nat.add_sub_cancel, List.append_assoc, List.take_left]

theorem splitOn_copiedNames (hne : t.copiedNames ≠ []) :
    ([(0 : Byte)].intercalate t.copiedNames).splitOn 0 = t.copiedNames := by
  refine List.splitOn_intercalate 0 (fun name hname => ?_) hne
  obtain ⟨i, -, rfl⟩ := List.mem_map.mp hname
  exact zero_not_mem_cstr _

theorem copiedNames_eq_iff (h : t.Whole) :
    t.copiedNames = t.storedNames ↔ ∀ u ∈ t.slots.take t.registered, EndsName u := by
  have hle : t.registered ≤ t.slots.length := h.slots ▸ h.registered
  have hname (i : Nat) (hlt : i < t.slots.length) :
      cstr (t.memory i) = cstr t.slots[i].uname ↔ EndsName t.slots[i] := by
    have hsized := h.sized _ (List.getElem_mem hlt)
    rw [memory_eq hlt]
    exact cstr_memory_eq_iff hsized.1 hsized.2 _
  have hlen : (t.slots.take t.registered).length = t.registered := List.length_take_of_le hle
  constructor
  · intro heq u hu
    obtain ⟨i, hi, rfl⟩ := List.mem_iff_getElem.mp hu
    rw [hlen] at hi
    rw [List.getElem_take]
    refine (hname i (Nat.lt_of_lt_of_le hi hle)).mp ?_
    have hget := congrArg (fun names => names[i]?) heq
    simp only [copiedNames, storedNames, List.getElem?_map, List.getElem?_range hi, Option.map_some,
      List.getElem?_take_of_lt hi, List.getElem?_eq_getElem (Nat.lt_of_lt_of_le hi hle)] at hget
    exact Option.some.inj hget
  · intro hall
    refine List.ext_getElem ?_ fun i hi hi' => ?_
    · rw [copiedNames, storedNames, List.length_map, List.length_range, List.length_map, hlen]
    · rw [copiedNames, List.length_map, List.length_range] at hi
      simp only [copiedNames, storedNames, List.getElem_map, List.getElem_range, List.getElem_take]
      refine (hname i (Nat.lt_of_lt_of_le hi hle)).mpr (hall _ ?_)
      exact List.mem_iff_getElem.mpr ⟨i, hlen.symm ▸ hi, List.getElem_take⟩

theorem mem_memory (h : t.Whole) (hall : ∀ u ∈ t.slots.take t.registered, EndsName u) :
    ∀ i ∈ List.range t.registered, (0 : Byte) ∈ t.memory i := by
  intro i hi
  rw [List.mem_range] at hi
  have hlt : i < t.slots.length := Nat.lt_of_lt_of_le hi (h.slots ▸ h.registered)
  have hsized := h.sized _ (List.getElem_mem hlt)
  have hmem : t.slots[i] ∈ t.slots.take t.registered := by
    refine List.mem_iff_getElem.mpr ⟨i, ?_, List.getElem_take⟩
    rw [List.length_take]
    omega
  rw [memory_eq hlt]
  exact (hall _ hmem).mem hsized.1 hsized.2 _

theorem dlen_eq_zero_iff (hnamed : ∀ name ∈ t.copiedNames, name ≠ [])
    (hfits : (t.copiedNames.flatMap (· ++ [0])).length ≤ unamesSize) :
    (socksv5GetUsers t).1 = 0 ↔ t.registered = 0 := by
  have hdlen : (socksv5GetUsers t).1.toNat = (t.copiedNames.flatMap (· ++ [0])).length - 1 :=
    toNat_listNames (Nat.le_trans hfits (by decide))
  have hlength : t.copiedNames.length = t.registered := by
    rw [copiedNames, List.length_map, List.length_range]
  rw [← UInt16.toNat_inj, hdlen]
  show _ = 0 ↔ _
  cases hnames : t.copiedNames with
  | nil =>
    rw [hnames] at hlength
    simp [← hlength]
  | cons name names =>
    have hpos : 0 < name.length := List.length_pos_iff.mpr (hnamed name (hnames ▸ List.mem_cons_self))
    rw [hnames, List.length_cons] at hlength
    simp only [List.flatMap_cons, List.length_append, List.length_singleton]
    omega

theorem Named.copied (hnamed : t.Named)
    (heq : t.copiedNames = t.storedNames) : ∀ name ∈ t.copiedNames, name ≠ [] := by
  intro name hname
  rw [heq] at hname
  obtain ⟨u, hu, rfl⟩ := List.mem_map.mp hname
  exact hnamed u hu

theorem listing_iff_listable (h : t.Whole) (hnamed : t.Named) (harray : array.length = unamesSize) :
    t.Listing array ↔ t.Listable := by
  obtain ⟨hiff, hresult⟩ := getUsers_ok_iff (t := t) harray
  have hempty : t.copiedNames = [] ↔ t.registered = 0 := by
    rw [copiedNames, List.map_eq_nil_iff, List.range_eq_nil]
  constructor
  · rintro ⟨dlen, out, hget, -, hsplit⟩
    have hfits := (hiff.mp ⟨_, hget⟩).2
    cases hresult _ hget
    have heq : t.copiedNames = t.storedNames := by
      by_cases h0 : t.registered = 0
      · rw [hempty.mpr h0, storedNames, h0]
        rfl
      · have hne := fun hnil => h0 (hempty.mp hnil)
        rw [← splitOn_copiedNames hne, ← take_overwrite hne hfits array]
        exact hsplit h0
    exact ⟨(copiedNames_eq_iff h).mp heq, heq ▸ hfits⟩
  · rintro ⟨hall, hlength⟩
    have heq := (copiedNames_eq_iff h).mpr hall
    have hfits : (t.copiedNames.flatMap (· ++ [0])).length ≤ unamesSize := heq ▸ hlength
    obtain ⟨r, hget⟩ := hiff.mpr ⟨mem_memory h hall, hfits⟩
    have hr := hresult r hget
    refine ⟨(socksv5GetUsers t).1, overwrite array (socksv5GetUsers t).2, hr ▸ hget,
      dlen_eq_zero_iff (hnamed.copied heq) hfits, fun h0 => ?_⟩
    have hne := fun hnil => h0 (hempty.mp hnil)
    rw [take_overwrite hne hfits, splitOn_copiedNames hne, heq]

-- ---------------------------------------------------------------------------
-- Every table
-- ---------------------------------------------------------------------------

/-- The registrations give a name. -/
def NamesGiven (calls : List UserCall) : Prop :=
  ∀ uname passwd, UserCall.register uname passwd ∈ calls → uname.val ≠ []

theorem cstr_strncpy_ne_nil {u : CStr} {n : Nat} (hu : u.val ≠ []) (hn : 0 < n) :
    cstr (strncpy u n) ≠ [] := by
  obtain ⟨c, rest, hval⟩ := List.exists_cons_of_ne_nil hu
  obtain ⟨n, rfl⟩ := Nat.exists_eq_succ_of_ne_zero (Nat.ne_of_gt hn)
  have hc : c ≠ 0 := by
    rintro rfl
    exact u.property (hval ▸ List.mem_cons_self)
  simp [strncpy, hval, cstr, hc]

theorem Named.register (hnamed : t.Named) {uname : CStr} (hu : uname.val ≠ []) (passwd : CStr) :
    (socksv5RegisterUser t uname passwd).1.Named := by
  unfold socksv5RegisterUser
  split
  · exact hnamed
  split
  · exact hnamed
  · intro u hmem
    obtain ⟨i, hi, rfl⟩ := List.mem_iff_getElem.mp hmem
    rw [List.getElem_take, List.getElem_set]
    split
    · exact cstr_strncpy_ne_nil hu (by decide)
    · rename_i hne
      rw [List.length_take, List.length_set] at hi
      have hi : i < t.registered + 1 ∧ i < t.slots.length := by
        have := Nat.lt_min.mp hi
        exact this
      refine hnamed _ (List.mem_iff_getElem.mpr ⟨i, ?_, List.getElem_take⟩)
      rw [List.length_take]
      omega

theorem Named.unregister (hnamed : t.Named) (h : t.Whole) (uname : CStr) :
    (socksv5UnregisterUser t uname).1.Named := by
  have hle : t.registered ≤ t.slots.length := h.slots ▸ h.registered
  unfold socksv5UnregisterUser
  split
  · rename_i i hi
    have hlt : i < t.registered := List.mem_range.mp (List.mem_of_find?_eq_some hi)
    intro u hmem
    obtain ⟨j, hj⟩ := List.mem_iff_getElem?.mp hmem
    have hjlt : j < t.registered - 1 := by
      have hlength := (List.getElem?_eq_some_iff.mp hj).1
      rw [List.length_take] at hlength
      exact Nat.lt_of_lt_of_le hlength (Nat.min_le_left _ _)
    rw [List.getElem?_take_of_lt hjlt, getElem?_remove hlt hle hjlt] at hj
    refine hnamed u (List.mem_iff_getElem?.mpr ⟨_, (List.getElem?_take_of_lt ?_).trans hj⟩)
    split <;> omega
  · exact hnamed

theorem whole_named_after {calls : List UserCall} (hnames : NamesGiven calls) (h : t.Whole)
    (hnamed : t.Named) : (t.after calls).Whole ∧ (t.after calls).Named := by
  induction calls generalizing t with
  | nil => exact ⟨h, hnamed⟩
  | cons call calls ih =>
    have hrest : NamesGiven calls := fun uname passwd hmem =>
      hnames uname passwd (List.mem_cons_of_mem _ hmem)
    cases call with
    | register uname passwd =>
      exact ih hrest (h.register uname passwd)
        (hnamed.register (hnames uname passwd List.mem_cons_self) passwd)
    | unregister uname => exact ih hrest (h.unregister uname) (hnamed.unregister h uname)

/-- The list of a table is its names, and nothing else, if and only if every
name ends before the password begins and they fit into the array. -/
theorem listing_iff {calls : List UserCall} (hnames : NamesGiven calls) {array : List Byte}
    (harray : array.length = unamesSize) :
    (Users.after {} calls).Listing array ↔ (Users.after {} calls).Listable := by
  obtain ⟨h, hnamed⟩ := whole_named_after hnames .empty fun u hu => absurd hu (by simp)
  exact listing_iff_listable h hnamed harray

/-- Two users, one with a password as long as its array. -/
theorem listing_iff_short :
    (Users.after {} [.register oneByte fullName, .register ⟨[99, 100], by decide⟩ oneByte]).Listing
      (List.replicate unamesSize 0) := by
  refine (listing_iff ?_ List.length_replicate).mpr (by decide +kernel)
  intro uname passwd hmem
  simp only [List.mem_cons, UserCall.register.injEq, List.not_mem_nil, or_false] at hmem
  rcases hmem with ⟨rfl, -⟩ | ⟨rfl, -⟩ <;> decide

/-- A user whose name fills its array: the list shows the password. -/
theorem listing_leak :
    (∃ out, (Users.after {} [.register fullName oneByte]).getUsers (List.replicate unamesSize 0) =
      .ok (256, out) ∧ out.take 256 = fullName.val ++ oneByte.val) ∧
    ¬ (Users.after {} [.register fullName oneByte]).Listing (List.replicate unamesSize 0) := by
  refine ⟨⟨overwrite (List.replicate unamesSize 0) (fullName.val ++ oneByte.val ++ [0]), ?_, ?_⟩, ?_⟩
  · decide +kernel
  · decide +kernel
  · have hnames : NamesGiven [.register fullName oneByte] := by
      intro uname passwd hmem
      obtain ⟨rfl, -⟩ : uname = fullName ∧ passwd = oneByte := by simpa using hmem
      decide
    obtain ⟨h, hnamed⟩ := whole_named_after hnames .empty fun u hu => absurd hu (by simp)
    rw [listing_iff_listable h hnamed List.length_replicate]
    decide +kernel

end Users

end Socks5d
