import Socks5d.Monitor.Tables

/-!
# The root administrator stays

`main` registers the root administrator before anything else; after that the
requests of the monitor register and remove administrators in any order.
`Admins.Rooted` is what all of them keep, and `root_admin_stays` what it means
for those who present a token.
-/

namespace Socks5d

inductive AdminCall
  | register (uname token : CStr)
  | unregister (uname : CStr)

def AdminCall.exec (t : Admins) : AdminCall → Admins × Int
  | register uname token => monitorRegisterAdmin t uname token
  | unregister uname => monitorUnregisterAdmin t uname

def Admins.after (t : Admins) (calls : List AdminCall) : Admins :=
  calls.foldl (fun t call => (call.exec t).1) t

def rootAdmins (token : CStr) : Admins := (monitorRegisterAdmin {} defaultAdminUname token).1

def rootAdmin (token : CStr) : Admin where
  uname := strncpy defaultAdminUname 0xff
  token := strncpy token 0x11

namespace Admins

/-- The token of the slots in use: 16 bytes and the terminator. -/
def TokensEnd (t : Admins) : Prop :=
  ∀ i a, i < t.registered → t.slots[i]? = some a →
    ∃ token : CStr, token.val.length = tokenSize ∧ a.token = token.val ++ [0]

structure Rooted (root : Admin) (t : Admins) : Prop where
  valid : t.Valid
  first : t.slots[0]? = some root
  pos : 1 ≤ t.registered
  tokens : t.TokensEnd

variable {t : Admins} {root : Admin}

theorem strncpy_token {token : CStr} (h : token.val.length = tokenSize) :
    strncpy token 0x11 = token.val ++ [0] := by
  have hle : token.val.length ≤ 0x11 := h ▸ (by decide)
  rw [strncpy, List.take_of_length_le hle, h]
  rfl

-- ---------------------------------------------------------------------------
-- What the calls keep
-- ---------------------------------------------------------------------------

theorem rooted_rootAdmins {token : CStr} (h : token.val.length = tokenSize) :
    (rootAdmins token).Rooted (rootAdmin token) := by
  have heq : rootAdmins token = { slots := [rootAdmin token, {}, {}], registered := 1 } := by
    have hlen : ¬ token.val.length ≠ 0x10 := not_not.mpr h
    simp only [rootAdmins, monitorRegisterAdmin, hlen]
    rfl
  refine ⟨Valid.empty.register defaultAdminUname token, by rw [heq]; rfl,
    heq ▸ Nat.le_refl 1,
    fun i a hi ha => ⟨token, h, ?_⟩⟩
  rw [heq] at hi ha
  obtain rfl : i = 0 := Nat.lt_one_iff.mp hi
  cases ha
  exact strncpy_token h

theorem Rooted.register (h : t.Rooted root) (uname token : CStr) :
    (monitorRegisterAdmin t uname token).1.Rooted root := by
  have hvalid := h.valid.register uname token
  have hpos := h.pos
  unfold monitorRegisterAdmin at hvalid ⊢
  by_cases hfull : t.registered ≥ maxAdmins
  · rwa [if_pos hfull]
  by_cases hlen : token.val.length ≠ 0x10
  · rwa [if_neg hfull, if_pos hlen]
  by_cases hknown : (List.range t.registered).any (t.sameName uname)
  · rwa [if_neg hfull, if_neg hlen, if_pos hknown]
  rw [if_neg hfull, if_neg hlen, if_neg hknown] at hvalid ⊢
  -- the slot behind those in use is written, and that is not the first one
  refine ⟨hvalid, ?_, Nat.le_succ_of_le hpos, fun i a hi ha => ?_⟩
  · rw [List.getElem?_set_ne (by omega)]
    exact h.first
  · by_cases hnew : i = t.registered
    · subst hnew
      rw [List.getElem?_set_self (h.valid.slots ▸ Nat.lt_of_not_ge hfull)] at ha
      cases ha
      exact ⟨token, not_not.mp hlen, strncpy_token (not_not.mp hlen)⟩
    · rw [List.getElem?_set_ne (Ne.symm hnew)] at ha
      exact h.tokens i a (Nat.lt_of_le_of_ne (Nat.le_of_lt_succ hi) hnew) ha

/-- The loop of `monitor_unregister_admin` starts behind the root administrator. -/
theorem of_mem_drop_range {i n : Nat} (h : i ∈ (List.range n).drop 1) : 1 ≤ i ∧ i < n := by
  obtain ⟨j, hj, rfl⟩ := List.mem_iff_getElem.mp h
  rw [List.length_drop, List.length_range] at hj
  rw [List.getElem_drop, List.getElem_range]
  omega

/-- What a successful removal does: the slots behind the hole move up. -/
structure Removes (t : Admins) (uname : CStr) (i : Nat) (t' : Admins) : Prop where
  pos : 1 ≤ i
  lt : i < t.registered
  name : cstr (t.memory i) = uname.val
  registered : t'.registered = t.registered - 1
  slots : ∀ j < t.registered - 1, t'.slots[j]? = t.slots[if j < i then j else j + 1]?

theorem Valid.removes (h : t.Valid) {uname : CStr} (hret : (monitorUnregisterAdmin t uname).2 = 0) :
    ∃ i, t.Removes uname i (monitorUnregisterAdmin t uname).1 := by
  have hle : t.registered ≤ t.slots.length := h.slots ▸ h.registered
  unfold monitorUnregisterAdmin at hret ⊢
  by_cases hroot : defaultAdminUname = uname
  · rw [if_pos hroot] at hret
    cases hret
  rw [if_neg hroot] at hret ⊢
  cases hfind : ((List.range t.registered).drop 1).find? (t.sameName uname) with
  | none =>
    rw [hfind] at hret
    cases hret
  | some i =>
    obtain ⟨hpos, hlt⟩ := of_mem_drop_range (List.mem_of_find?_eq_some hfind)
    have hname : t.sameName uname i = true := List.find?_some hfind
    exact ⟨i, hpos, hlt, (of_decide_eq_true hname).symm, rfl,
      fun j hj => getElem?_remove hlt hle hj⟩

theorem Rooted.unregister (h : t.Rooted root) (uname : CStr) :
    (monitorUnregisterAdmin t uname).1.Rooted root := by
  by_cases hret : (monitorUnregisterAdmin t uname).2 = 0
  · obtain ⟨i, hremoves⟩ := h.valid.removes hret
    have hpos := hremoves.pos
    have hlt := hremoves.lt
    refine ⟨h.valid.unregister uname, ?_, ?_, fun j a hj ha => ?_⟩
    · rw [hremoves.slots 0 (by omega), if_pos (by omega)]
      exact h.first
    · rw [hremoves.registered]
      omega
    · rw [hremoves.registered] at hj
      rw [hremoves.slots j hj] at ha
      exact h.tokens _ a (by split <;> omega) ha
  · rw [monitorUnregisterAdmin_failed hret]
    exact h

theorem Rooted.after (h : t.Rooted root) (calls : List AdminCall) : (t.after calls).Rooted root := by
  induction calls generalizing t with
  | nil => exact h
  | cons call calls ih =>
    refine ih ?_
    cases call with
    | register uname token => exact h.register uname token
    | unregister uname => exact h.unregister uname

-- ---------------------------------------------------------------------------
-- Who is accepted
-- ---------------------------------------------------------------------------

theorem Rooted.accepts {token : CStr} (htoken : token.val.length = tokenSize)
    (h : t.Rooted (rootAdmin token)) : monitorIsAdmin t token.val = true := by
  rw [h.valid.isAdmin_iff htoken]
  exact ⟨0, rootAdmin token, h.pos, h.first, take_strncpy htoken (by decide)⟩

theorem Rooted.rejects (h : t.Rooted root) {uname : CStr} {i : Nat} {a : Admin}
    (hremoves : t.Removes uname i (monitorUnregisterAdmin t uname).1)
    (ha : t.slots[i]? = some a)
    (honly : ∀ j b, j < t.registered → j ≠ i → t.slots[j]? = some b →
      b.token.take tokenSize ≠ a.token.take tokenSize) :
    monitorIsAdmin (monitorUnregisterAdmin t uname).1 (a.token.take tokenSize) = false := by
  obtain ⟨token, hlen, htoken⟩ := h.tokens i a hremoves.lt ha
  have hsize : (a.token.take tokenSize).length = tokenSize := by
    rw [htoken, ← hlen, List.take_left]
  rw [Bool.eq_false_iff, Ne, (h.valid.unregister uname).isAdmin_iff hsize]
  rintro ⟨j, b, hj, hb, hsame⟩
  rw [hremoves.registered] at hj
  rw [hremoves.slots j hj] at hb
  have hlt := hremoves.lt
  refine honly _ b ?_ ?_ hb hsame
  · split <;> omega
  · split <;> omega

/-- The root administrator is in the first slot and accepted, the tokens are
whole, those who are accepted are those in the table, and an administrator who
is removed is not accepted any more. -/
structure RootStays (token : CStr) (t : Admins) : Prop where
  first : t.slots[0]? = some (rootAdmin token)
  registered : 1 ≤ t.registered ∧ t.registered ≤ maxAdmins
  tokens : t.TokensEnd
  accepted : ∀ presented : List Byte, presented.length = tokenSize →
    (monitorIsAdmin t presented = true ↔ t.Registered presented)
  root : monitorIsAdmin t token.val = true
  removed : ∀ uname, (monitorUnregisterAdmin t uname).2 = 0 →
    ∃ i a, t.Removes uname i (monitorUnregisterAdmin t uname).1 ∧ t.slots[i]? = some a ∧
      ((∀ j b, j < t.registered → j ≠ i → t.slots[j]? = some b →
          b.token.take tokenSize ≠ a.token.take tokenSize) →
        monitorIsAdmin (monitorUnregisterAdmin t uname).1 (a.token.take tokenSize) = false)

theorem root_admin_stays {token : CStr} (htoken : token.val.length = tokenSize)
    (calls : List AdminCall) : ((rootAdmins token).after calls).RootStays token := by
  have h := (rooted_rootAdmins htoken).after calls
  refine ⟨h.first, ⟨h.pos, h.valid.registered⟩, h.tokens, fun _ => h.valid.isAdmin_iff,
    h.accepts htoken, fun uname hret => ?_⟩
  obtain ⟨i, hremoves⟩ := h.valid.removes hret
  have hlt : i < ((rootAdmins token).after calls).slots.length :=
    Nat.lt_of_lt_of_le hremoves.lt (h.valid.slots ▸ h.valid.registered)
  exact ⟨i, _, hremoves, List.getElem?_eq_getElem hlt,
    h.rejects hremoves (List.getElem?_eq_getElem hlt)⟩

def sixteenA : CStr := ⟨List.replicate 16 97, by decide⟩

/-- A second administrator comes and goes, and one with a short token is refused. -/
theorem root_admin_stays_short :
    ((rootAdmins sixteenA).after [.register oneByte ⟨List.replicate 16 98, by decide⟩,
      .register fullName oneByte, .unregister oneByte]).RootStays sixteenA :=
  @root_admin_stays sixteenA (by decide) _

end Admins

end Socks5d
