import Socks5d.Monitor.Messages

/-!
# The requests that the monitor takes

monitor.h describes the format of a request. The parser takes every request in that
format and some others: the data of target 00 is one byte whatever DLEN says and
whatever the byte is, an add request can do without its separator, and since the
length is compared only after a byte was stored, a DLEN of 0 is read as 1.
-/

namespace Socks5d

open Lib (Machine)

namespace Grammar

-- ---------------------------------------------------------------------------
-- The format
-- ---------------------------------------------------------------------------

def Alnums (bytes : List Byte) : Prop := ∀ c ∈ bytes, isAlnum c = true

inductive DataKind
  | disector | add | delete
  deriving DecidableEq, Repr

def dataKind (target : Byte) : Option DataKind :=
  if target = monitorTargetConfigPop3disector then some .disector
  else if target = monitorTargetConfigAddProxyuser ∨ target = monitorTargetConfigAddAdmin then
    some .add
  else if target = monitorTargetConfigDeleteProxyuser ∨ target = monitorTargetConfigDeleteAdmin then
    some .delete
  else none

inductive Data : DataKind → List Byte → Prop
  | disector {c : Byte} (h : c = 0 ∨ c = 1) : Data .disector [c]
  | add {user secret : List Byte} (hne : user ≠ []) (hu : Alnums user) (hs : Alnums secret) :
      Data .add (user ++ 0 :: secret)
  | delete {user : List Byte} (hne : user ≠ []) (hu : Alnums user) : Data .delete user

/-- The data that is not in that form, or not of the length that DLEN says, and that
is taken all the same. -/
inductive LaxData : DataKind → Nat → List Byte → Prop
  | disector {dlen : Nat} {c : Byte} (h : dlen ≠ 1 ∨ c ≠ 0 ∧ c ≠ 1) : LaxData .disector dlen [c]
  | unseparated {dlen : Nat} {user : List Byte} (hu : Alnums user)
      (hlen : user.length = max 1 dlen) : LaxData .add dlen user
  | missing {c : Byte} (hc : isAlnum c = true) : LaxData .delete 0 [c]

def Headed (rest : List Byte → Prop) (w : List Byte) : Prop :=
  ∃ token tail, w = 0x01 :: (token ++ tail) ∧ token.length = tokenSize ∧ rest tail

def Get (tail : List Byte) : Prop := ∃ target, tail = [0x00, target] ∧ target ≤ 0x04

def Config (data : DataKind → Nat → List Byte → Prop) (tail : List Byte) : Prop :=
  ∃ target high low bytes kind, tail = 0x01 :: target :: high :: low :: bytes ∧
    dataKind target = some kind ∧ data kind (high.toNat * 256 + low.toNat) bytes

def Documented : List Byte → Prop :=
  Headed fun tail => Get tail ∨ Config (fun kind dlen data => dlen = data.length ∧ Data kind data) tail

def Lax : List Byte → Prop := Headed (Config LaxData)

def monitorCalls (st : Statics) (bs : List Buffer) :
    (Statics × MonitorParser) × Bool × Option (Buffer × List Buffer) :=
  consumeCalls (fun b s =>
    let (st, b, p) := monitorConsume s.1 b s.2
    (b, (st, p), false)) monitorMachine.done (st, monitorParserInit) bs

/-- The first call that reports an end reports `monitor_done`, and nothing is left. -/
def Takes (st : Statics) (bs : List Buffer) : Prop :=
  ∃ s errored b rest, monitorCalls st bs = (s, errored, some (b, rest)) ∧ s.2.state = .done ∧
    b.content ++ contents rest = []

-- ---------------------------------------------------------------------------
-- The data
-- ---------------------------------------------------------------------------

def Accepted (s : Statics × MonitorParser) (bytes : List Byte) : Prop :=
  monitorMachine.Accepts (fun s => s.2.state = .done) s bytes

section

variable {s : Statics × MonitorParser} {c : Byte} {rest : List Byte} {state : MonitorState}

theorem not_accepted_nil (hs : monitorMachine.done s = false) : ¬ Accepted s [] :=
  Machine.not_accepts_nil hs

theorem accepted_stop (hs : monitorMachine.done s = false)
    (hst : (monitorMachine.feed s c).2.state = state) (hd : monitorIsDone state = true) :
    Accepted s (c :: rest) ↔ rest = [] ∧ state = .done := by
  have hdone : monitorMachine.done (monitorMachine.feed s c) = true := by
    show monitorIsDone _ = true
    rw [hst, hd]
  rw [Accepted, Machine.accepts_cons_done hs hdone, hst]

theorem accepted_more (hs : monitorMachine.done s = false)
    (hd : monitorMachine.done (monitorMachine.feed s c) = false) :
    Accepted s (c :: rest) ↔ Accepted (monitorMachine.feed s c) rest :=
  Machine.accepts_cons_more hs hd

end

variable {t : Byte} {sep : Bool} {k total : Nat} {st : Statics} {p : MonitorParser}

theorem going_of {state : MonitorState} (hs : p.state = state) (h : monitorIsDone state = false) :
    monitorMachine.done (st, p) = false := by
  show monitorIsDone p.state = false
  rw [hs, h]

def AddByte (sep : Bool) (k : Nat) (c : Byte) : Prop :=
  isAlnum c = true ∨ (sep = false ∧ 0 < k ∧ c = 0)

inductive ByteStep (t : Byte) (sep : Bool) (k total : Nat) (ok : Prop)
    (s : Statics × MonitorParser) : Prop
  | last (hok : ok) (hlast : k + 1 = total) (hst : s.2.state = .done)
  | more (hok : ok) (h : Reading t sep (k + 1) total s.2)
  | bad (hbad : ¬ ok) (hst : s.2.state = .errorInvalidData)

theorem byteStep_add (st : Statics) {storeSecret : MonitorParser → Nat → Byte → MonitorParser}
    {userField secretField : Field} (ha : Adding t userField secretField storeSecret)
    (h : Reading t sep k total p) (c : Byte) :
    ByteStep t (sep || decide (c = 0)) k total (AddByte sep k c) (monitorMachine.feed (st, p) c) := by
  have hlt := h.lt
  rw [feed_data st h.state, ha.data st p c h.target]
  unfold Monitor.addState
  split
  · rename_i hzero
    obtain ⟨hi, rfl⟩ := hzero
    refine .bad ?_ rfl
    rintro (hc | ⟨-, hk, -⟩)
    · exact absurd hc (by decide)
    · exact absurd (h.i_eq_zero.mp hi) (Nat.ne_of_gt hk)
  · rename_i hzero
    split
    · rename_i hc
      have hc0 : c ≠ 0 := by
        rintro rfl
        exact absurd hc (by decide)
      rw [decide_eq_false hc0, Bool.or_false]
      dsimp only
      generalize hq : (if p.separated = false then p.storeUser userField p.i.toNat c
        else storeSecret p (Monitor.secretIndex st p) c).next = q
      have hsame : q.i = p.i + 1 ∧ q.len = p.len ∧ q.monitor.target = p.monitor.target ∧
          q.separated = p.separated := by
        rw [← hq]
        split
        · exact ⟨rfl, rfl, rfl, rfl⟩
        · simp only [MonitorParser.next, ha.secret.i, ha.secret.len, ha.secret.target,
            ha.secret.separated, and_self]
      obtain ⟨hi, hlen, htarget, hseparated⟩ := hsame
      rw [h.remainingIsDone hi hlen]
      by_cases hlast : k + 1 = total
      · rw [decide_eq_true hlast]
        exact .last (.inl hc) hlast rfl
      · rw [decide_eq_false hlast]
        exact .more (.inl hc) ⟨rfl, htarget.trans h.target, hseparated.trans h.separated, h.next_i hi,
          hlen ▸ h.len, by omega⟩
    · rename_i hc
      split
      · rename_i hsepar
        obtain ⟨rfl, hseparated⟩ := hsepar
        have hsep0 : sep = false := h.separated.symm.trans hseparated
        have hk : 0 < k := Nat.pos_of_ne_zero fun hk => hzero ⟨h.i_eq_zero.mpr hk, rfl⟩
        have hi : (p.storeUser userField p.i.toNat 0).next.i = p.i + 1 := rfl
        have hdone : MonitorParser.remainingIsDone
            { (p.storeUser userField p.i.toNat 0).next with separated := true } =
              decide (k + 1 = total) := h.remainingIsDone rfl rfl
        rw [decide_eq_true rfl, Bool.or_true]
        dsimp only
        rw [hdone]
        by_cases hlast : k + 1 = total
        · rw [decide_eq_true hlast]
          exact .last (.inr ⟨hsep0, hk, rfl⟩) hlast rfl
        · rw [decide_eq_false hlast]
          exact .more (.inr ⟨hsep0, hk, rfl⟩) ⟨rfl, h.target, rfl, h.next_i hi, h.len, by omega⟩
      · rename_i hsepar
        refine .bad ?_ rfl
        rintro (h' | ⟨h', -, h0⟩)
        · exact hc h'
        · exact hsepar ⟨h0, h.separated.trans h'⟩

theorem byteStep_delete (st : Statics) (hd : Deleting t) (h : Reading t false k total p) (c : Byte) :
    ByteStep t false k total (isAlnum c = true) (monitorMachine.feed (st, p) c) := by
  have hlt := h.lt
  rw [feed_data st h.state, hd.data h.target]
  simp only [Monitor.deleteState]
  by_cases hc : isAlnum c = true
  · have hdone : (p.storeUser .dataUser p.i.toNat c).next.remainingIsDone = decide (k + 1 = total) :=
      h.remainingIsDone rfl rfl
    rw [if_pos hc, hdone]
    by_cases hlast : k + 1 = total
    · rw [decide_eq_true hlast]
      exact .last hc hlast rfl
    · rw [decide_eq_false hlast]
      exact .more hc ⟨rfl, h.target, h.separated, h.next_i rfl, h.len, by omega⟩
  · rw [if_neg hc]
    exact .bad hc rfl

namespace ByteStep

variable {ok : Prop} {s : Statics × MonitorParser} {c : Byte} {rest : List Byte}

theorem accepted_iff (h : ByteStep t sep k total ok (monitorMachine.feed s c))
    (hs : monitorMachine.done s = false) : Accepted s (c :: rest) ↔
      ok ∧ if k + 1 = total then rest = [] else Accepted (monitorMachine.feed s c) rest := by
  cases h with
  | last hok hlast hst =>
    rw [accepted_stop hs hst rfl, if_pos hlast]
    exact ⟨fun hnil => ⟨hok, hnil.1⟩, fun hnil => ⟨hnil.2, rfl⟩⟩
  | more hok h =>
    have hlt := h.lt
    rw [accepted_more hs h.going, if_neg (by omega)]
    exact (and_iff_right hok).symm
  | bad hbad hst =>
    rw [accepted_stop hs hst rfl]
    exact ⟨fun h => absurd h.2 (by simp), fun h => absurd h.1 hbad⟩

theorem reading (h : ByteStep t sep k total ok (monitorMachine.feed s c)) (hok : ok)
    (hmore : k + 1 ≠ total) : Reading t sep (k + 1) total (monitorMachine.feed s c).2 := by
  cases h with
  | last _ hlast => exact absurd hlast hmore
  | more _ h => exact h
  | bad hbad => exact absurd hok hbad

end ByteStep

theorem alnums_nil : Alnums [] := fun _ hmem => absurd hmem List.not_mem_nil

theorem alnums_cons {c : Byte} {rest : List Byte} :
    Alnums (c :: rest) ↔ isAlnum c = true ∧ Alnums rest := List.forall_mem_cons

theorem accepted_delete (hd : Deleting t) (h : Reading t false k total p) (data : List Byte) :
    Accepted (st, p) data ↔ k + data.length = total ∧ Alnums data := by
  induction data generalizing st p k with
  | nil =>
    have hlt := h.lt
    refine iff_of_false (not_accepted_nil h.going) fun hall => ?_
    rw [List.length_nil] at hall
    omega
  | cons c rest ih =>
    have hstep := byteStep_delete st hd h c
    rw [hstep.accepted_iff h.going, alnums_cons, List.length_cons]
    split
    · rename_i hlast
      constructor
      · rintro ⟨hc, rfl⟩
        exact ⟨hlast, hc, alnums_nil⟩
      · rintro ⟨hlen, hc, -⟩
        exact ⟨hc, List.eq_nil_of_length_eq_zero (by omega)⟩
    · rename_i hmore
      rw [and_left_comm]
      refine and_congr_right fun hc => ?_
      rw [ih (hstep.reading hc hmore), Nat.add_right_comm, ← Nat.add_assoc]

def AddData (sep : Bool) (k : Nat) (data : List Byte) : Prop :=
  Alnums data ∨ (sep = false ∧ ∃ user secret, data = user ++ 0 :: secret ∧
    0 < k + user.length ∧ Alnums user ∧ Alnums secret)

theorem addData_cons {c : Byte} {rest : List Byte} : AddData sep k (c :: rest) ↔
    AddByte sep k c ∧ AddData (sep || decide (c = 0)) (k + 1) rest := by
  have hzero : isAlnum 0 = false := by decide
  constructor
  · rintro (hall | ⟨hsep, user, secret, hdata, hpos, hu, hs⟩)
    · obtain ⟨hc, hrest⟩ := alnums_cons.mp hall
      exact ⟨.inl hc, .inl hrest⟩
    · cases user with
      | nil =>
        obtain ⟨rfl, rfl⟩ := List.cons.inj hdata
        exact ⟨.inr ⟨hsep, by simpa using hpos, rfl⟩, .inl hs⟩
      | cons a user =>
        obtain ⟨rfl, rfl⟩ := List.cons.inj hdata
        obtain ⟨hc, hu⟩ := alnums_cons.mp hu
        have hc0 : c ≠ 0 := by
          rintro rfl
          exact absurd (hzero.symm.trans hc) Bool.false_ne_true
        refine ⟨.inl hc, .inr ⟨by simp [hsep, hc0], user, secret, rfl, by omega, hu, hs⟩⟩
  · rintro ⟨hc | ⟨hsep, hk, rfl⟩, hrest⟩
    · rcases hrest with hrest | ⟨hsep, user, secret, rfl, hpos, hu, hs⟩
      · exact .inl (alnums_cons.mpr ⟨hc, hrest⟩)
      · rw [Bool.or_eq_false_iff] at hsep
        refine .inr ⟨hsep.1, c :: user, secret, rfl, ?_, alnums_cons.mpr ⟨hc, hu⟩, hs⟩
        rw [List.length_cons]
        omega
    · rcases hrest with hrest | ⟨hsep', -⟩
      · exact .inr ⟨hsep, [], rest, rfl, by simpa using hk, alnums_nil, hrest⟩
      · simp at hsep'

theorem accepted_add {storeSecret : MonitorParser → Nat → Byte → MonitorParser}
    {userField secretField : Field} (ha : Adding t userField secretField storeSecret)
    (h : Reading t sep k total p) (data : List Byte) :
    Accepted (st, p) data ↔ k + data.length = total ∧ AddData sep k data := by
  induction data generalizing st p k sep with
  | nil =>
    have hlt := h.lt
    refine iff_of_false (not_accepted_nil h.going) fun hall => ?_
    rw [List.length_nil] at hall
    omega
  | cons c rest ih =>
    have hstep := byteStep_add st ha h c
    rw [hstep.accepted_iff h.going, addData_cons, List.length_cons]
    split
    · rename_i hlast
      constructor
      · rintro ⟨hc, rfl⟩
        exact ⟨hlast, hc, .inl alnums_nil⟩
      · rintro ⟨hlen, hc, -⟩
        exact ⟨hc, List.eq_nil_of_length_eq_zero (by omega)⟩
    · rename_i hmore
      rw [and_left_comm]
      refine and_congr_right fun hc => ?_
      rw [ih (hstep.reading hc hmore), Nat.add_right_comm, ← Nat.add_assoc]

-- ---------------------------------------------------------------------------
-- The fields in front of the data
-- ---------------------------------------------------------------------------

theorem dataKind_isSome : (dataKind t).isSome = true ↔ ConfigTarget t := by
  unfold dataKind ConfigTarget
  split
  · simp [*]
  · split
    · rename_i h
      rcases h with h | h <;> simp [h]
    · split
      · rename_i h
        rcases h with h | h <;> simp [h]
      · simp_all

def AnyData (kind : DataKind) (dlen : Nat) (data : List Byte) : Prop :=
  (dlen = data.length ∧ Data kind data) ∨ LaxData kind dlen data

theorem reading_data {dlen : UInt16} (h : Expects t dlen p)
    (ht : t ≠ monitorTargetConfigPop3disector) : Reading t false 0 (max 1 dlen.toNat) p := by
  obtain ⟨hi, hlen⟩ := h.remaining ht
  exact ⟨h.state, h.target, h.separated, by rw [hi]; rfl, by rw [hlen], by omega⟩

theorem anyData_add {dlen : Nat} {data : List Byte} :
    AnyData .add dlen data ↔ 0 + data.length = max 1 dlen ∧ AddData false 0 data := by
  constructor
  · rintro (⟨rfl, hdata⟩ | hlax)
    · cases hdata with
      | @add user secret hne hu hs =>
        have hpos := List.length_pos_of_ne_nil hne
        refine ⟨?_, .inr ⟨rfl, user, secret, rfl, by omega, hu, hs⟩⟩
        rw [List.length_append, List.length_cons]
        omega
    · cases hlax with
      | unseparated hu hlen => exact ⟨by omega, .inl hu⟩
  · rintro ⟨hlen, hall | ⟨-, user, secret, rfl, hpos, hu, hs⟩⟩
    · exact .inr (.unseparated hall (by omega))
    · refine .inl ⟨?_, .add ?_ hu hs⟩
      · rw [List.length_append, List.length_cons] at hlen ⊢
        omega
      · rintro rfl
        simp at hpos

theorem anyData_delete {dlen : Nat} {data : List Byte} :
    AnyData .delete dlen data ↔ 0 + data.length = max 1 dlen ∧ Alnums data := by
  constructor
  · rintro (⟨rfl, hdata⟩ | hlax)
    · cases hdata with
      | delete hne hu =>
        have hpos := List.length_pos_of_ne_nil hne
        exact ⟨by omega, hu⟩
    · cases hlax with
      | missing hc => exact ⟨rfl, alnums_cons.mpr ⟨hc, alnums_nil⟩⟩
  · rintro ⟨hlen, hall⟩
    by_cases hdlen : dlen = 0
    · subst hdlen
      obtain ⟨c, rfl⟩ := List.length_eq_one_iff.mp (show data.length = 1 by omega)
      exact .inr (.missing (hall c List.mem_cons_self))
    · refine .inl ⟨by omega, .delete ?_ hall⟩
      rintro rfl
      rw [List.length_nil] at hlen
      omega

theorem anyData_disector {dlen : Nat} {data : List Byte} :
    AnyData .disector dlen data ↔ ∃ c, data = [c] := by
  constructor
  · rintro (⟨-, hdata⟩ | hlax)
    · cases hdata with
      | disector => exact ⟨_, rfl⟩
    · cases hlax with
      | disector => exact ⟨_, rfl⟩
  · rintro ⟨c, rfl⟩
    by_cases h : dlen = 1 ∧ (c = 0 ∨ c = 1)
    · exact .inl ⟨h.1, .disector h.2⟩
    · refine .inr (.disector ?_)
      rw [not_and_or, not_or] at h
      exact h

theorem accepted_data {dlen : UInt16} {kind : DataKind} (h : Expects t dlen p)
    (hk : dataKind t = some kind) (data : List Byte) :
    Accepted (st, p) data ↔ AnyData kind dlen.toNat data := by
  have hs : monitorMachine.done (st, p) = false := going_of h.state rfl
  unfold dataKind at hk
  split at hk
  · rename_i ht
    cases hk
    rw [anyData_disector]
    cases data with
    | nil => exact iff_of_false (not_accepted_nil hs) (by simp)
    | cons c rest =>
      have hfeed : (monitorMachine.feed (st, p) c).2.state = .done := by
        rw [feed_data st h.state]
        simp [Monitor.dataState, h.target, ht]
      rw [accepted_stop hs hfeed rfl]
      simp
  · rename_i hpop
    have hreading := reading_data h hpop
    split at hk
    · rename_i ht
      cases hk
      rw [anyData_add]
      rcases ht with rfl | rfl
      · exact accepted_add addProxyuser_adding hreading data
      · exact accepted_add addAdmin_adding hreading data
    · split at hk
      · rename_i ht
        cases hk
        rw [anyData_delete]
        exact accepted_delete ht hreading data
      · cases hk

theorem toNat_networkLen (high low : Byte) :
    (Monitor.networkLen (high, low)).toNat = high.toNat * 256 + low.toNat := by
  have hh := high.toNat_lt
  have hl := low.toNat_lt
  simp only [Monitor.networkLen, UInt16.toNat_add, UInt16.toNat_mul, UInt8.toNat_toUInt16]
  simp
  omega

theorem accepted_dlen {kind : DataKind} (hs : p.state = .dlen) (hi : p.i = 0) (hl : p.len = 2)
    (hk : dataKind p.monitor.target = some kind) (hdata : p.monitor.data = {})
    (hsep : p.separated = false) (tail : List Byte) : Accepted (st, p) tail ↔
      ∃ high low bytes, tail = high :: low :: bytes ∧
        AnyData kind (high.toNat * 256 + low.toNat) bytes := by
  have hgoing : monitorMachine.done (st, p) = false := going_of hs rfl
  have ht : ConfigTarget p.monitor.target := dataKind_isSome.mp (by rw [hk]; rfl)
  cases tail with
  | nil => exact iff_of_false (not_accepted_nil hgoing) (by simp)
  | cons high tail =>
    have hhigh := feed_dlenHigh st hs hi hl high
    have hgoing' : monitorMachine.done
        ({ st with combinedlen := (high, st.combinedlen.2) }, p.dlenHigh) = false := going_of hs rfl
    rw [accepted_more hgoing (by rw [hhigh]; exact hgoing'), hhigh]
    cases tail with
    | nil => exact iff_of_false (not_accepted_nil hgoing') (by simp)
    | cons low bytes =>
      have hlow := feed_dlenLow st hs hl ht high low
      have hexpects : Expects p.monitor.target (Monitor.networkLen (high, low))
          (p.dlenHigh.dlenLow (Monitor.networkLen (high, low))) :=
        ⟨rfl, rfl, hdata, hsep, fun hpop => ⟨if_neg hpop, if_neg hpop⟩⟩
      rw [accepted_more hgoing' (by rw [hlow]; exact going_of rfl rfl), hlow,
        accepted_data hexpects hk, toNat_networkLen]
      simp

theorem accepted_get (hs : p.state = .target) (hm : p.monitor.method = monitorMethodGet)
    (tail : List Byte) : Accepted (st, p) tail ↔ ∃ target, tail = [target] ∧ target ≤ 0x04 := by
  have hgoing : monitorMachine.done (st, p) = false := going_of hs rfl
  cases tail with
  | nil => exact iff_of_false (not_accepted_nil hgoing) (by simp)
  | cons target rest =>
    have htarget : (target = monitorTargetGetHistoric ∨ target = monitorTargetGetConcurrent ∨
        target = monitorTargetGetTransfered ∨ target = monitorTargetGetProxyusers ∨
        target = monitorTargetGetAdminusers) ↔ target ≤ 0x04 := by
      simp only [monitorTargetGetHistoric, monitorTargetGetConcurrent, monitorTargetGetTransfered,
        monitorTargetGetProxyusers, monitorTargetGetAdminusers, ← UInt8.toNat_inj,
        UInt8.le_iff_toNat_le, UInt8.reduceToNat]
      omega
    have hfeed : (monitorMachine.feed (st, p) target).2.state =
        if target ≤ 0x04 then .done else .errorUnsupportedTarget := by
      simp only [monitorMachine, monitorParserFeed_eq, monitorParserNext, hs, Monitor.targetState, hm,
        ↓reduceIte, htarget]
      split <;> rfl
    rw [accepted_stop hgoing hfeed (by split <;> rfl)]
    by_cases h4 : target ≤ 0x04
    · simp [h4]
    · simp [h4]

theorem accepted_config (hs : p.state = .target) (hm : p.monitor.method = monitorMethodConfig)
    (hdata : p.monitor.data = {}) (hsep : p.separated = false) (tail : List Byte) :
    Accepted (st, p) tail ↔ ∃ target high low bytes kind, tail = target :: high :: low :: bytes ∧
      dataKind target = some kind ∧ AnyData kind (high.toNat * 256 + low.toNat) bytes := by
  have hgoing : monitorMachine.done (st, p) = false := going_of hs rfl
  cases tail with
  | nil => exact iff_of_false (not_accepted_nil hgoing) (by simp)
  | cons target tail =>
    cases hk : dataKind target with
    | some kind =>
      have hfeed := feed_target st hs hm (dataKind_isSome.mp (by rw [hk]; rfl))
      rw [accepted_more hgoing (by rw [hfeed]; rfl), hfeed, accepted_dlen (p := { p with
        state := .dlen, monitor := { p.monitor with target }, i := 0, len := 2 }) rfl rfl rfl hk hdata
        hsep]
      constructor
      · rintro ⟨high, low, bytes, rfl, hbytes⟩
        exact ⟨target, high, low, bytes, kind, rfl, hk, hbytes⟩
      · rintro ⟨target', high, low, bytes, kind', heq, hk', hbytes⟩
        cases heq
        cases hk.symm.trans hk'
        exact ⟨high, low, bytes, rfl, hbytes⟩
    | none =>
      have ht : ¬ ConfigTarget target := by
        rw [← dataKind_isSome, hk]
        simp
      have hget : monitorMethodConfig ≠ monitorMethodGet := by decide
      have hfeed : (monitorMachine.feed (st, p) target).2.state = .errorUnsupportedTarget := by
        unfold ConfigTarget at ht
        simp only [monitorMachine, monitorParserFeed_eq, monitorParserNext, hs, Monitor.targetState,
          hm, hget, ht, ↓reduceIte]
      rw [accepted_stop hgoing hfeed rfl]
      refine iff_of_false (fun h => absurd h.2 (by simp)) ?_
      rintro ⟨target', high, low, bytes, kind', heq, hk', -⟩
      cases heq
      cases hk.symm.trans hk'

theorem accepted_method (hs : p.state = .method) (hdata : p.monitor.data = {})
    (hsep : p.separated = false) (tail : List Byte) :
    Accepted (st, p) tail ↔ Get tail ∨ Config AnyData tail := by
  have hgoing : monitorMachine.done (st, p) = false := going_of hs rfl
  cases tail with
  | nil => exact iff_of_false (not_accepted_nil hgoing) (by simp [Get, Config])
  | cons method tail =>
    have hfeed := feed_method st hs method
    by_cases hget : method = monitorMethodGet
    · rw [if_pos (.inl hget)] at hfeed
      rw [accepted_more hgoing (by rw [hfeed]; rfl), hfeed,
        accepted_get (p := { p with monitor := { p.monitor with method }, state := .target }) rfl hget]
      subst hget
      simp [Get, Config, monitorMethodGet]
    · by_cases hconfig : method = monitorMethodConfig
      · rw [if_pos (.inr hconfig)] at hfeed
        rw [accepted_more hgoing (by rw [hfeed]; rfl), hfeed,
          accepted_config (p := { p with monitor := { p.monitor with method }, state := .target }) rfl
            hconfig hdata hsep]
        subst hconfig
        simp [Get, Config, monitorMethodConfig]
      · rw [if_neg (not_or.mpr ⟨hget, hconfig⟩)] at hfeed
        have hstate : (monitorMachine.feed (st, p) method).2.state = .errorUnsupportedMethod := by
          rw [hfeed]
        rw [accepted_stop hgoing hstate rfl]
        refine iff_of_false (fun h => absurd h.2 (by simp)) ?_
        rintro (⟨target, heq, -⟩ | ⟨target, high, low, bytes, kind, heq, -⟩)
        · exact hget (List.cons.inj heq).1
        · exact hconfig (List.cons.inj heq).1

theorem accepted_fresh (st : Statics) (w : List Byte) :
    Accepted (st, monitorParserInit) w ↔ Headed (fun tail => Get tail ∨ Config AnyData tail) w := by
  have hgoing : monitorMachine.done (st, monitorParserInit) = false := rfl
  by_cases hshape : ∃ token tail, w = 0x01 :: (token ++ tail) ∧ token.length = tokenSize
  · obtain ⟨token, tail, rfl, hlen⟩ := hshape
    obtain ⟨q, hreads, hst, hdata, hsep⟩ := reads_header st hlen
    have haccepts : Accepted (st, monitorParserInit) (0x01 :: (token ++ tail)) ↔
        Accepted (st, q) tail := hreads.accepts_append hgoing
    rw [haccepts, accepted_method hst hdata hsep]
    constructor
    · exact fun h => ⟨token, tail, rfl, hlen, h⟩
    · rintro ⟨token', tail', heq, hlen', h⟩
      obtain ⟨rfl, rfl⟩ := List.append_inj (List.cons.inj heq).2 (hlen.trans hlen'.symm)
      exact h
  · refine iff_of_false (fun h => ?_) fun ⟨token, tail, heq, hlen, _⟩ =>
      hshape ⟨token, tail, heq, hlen⟩
    cases w with
    | nil => exact not_accepted_nil hgoing h
    | cons version rest =>
      by_cases hv : version = 0x01
      · -- The token is too short: more bytes of it would be read.
        subst hv
        have hshort : rest.length < tokenSize := by
          by_contra hlong
          refine hshape ⟨rest.take tokenSize, rest.drop tokenSize, ?_, ?_⟩
          · rw [List.take_append_drop]
          · rw [List.length_take]
            omega
        have htoken : (rest ++ List.replicate (tokenSize - rest.length) 0).length = tokenSize := by
          rw [List.length_append, List.length_replicate]
          omega
        obtain ⟨q, hreads, -⟩ := reads_header st htoken
        exact hreads.not_accepts hgoing ⟨_, rfl⟩ h
      · have hstate : (monitorMachine.feed (st, monitorParserInit) version).2.state =
            .errorUnsupportedVersion := by
          simp [monitorMachine, monitorParserFeed_eq, monitorParserNext, monitorParserInit,
            Monitor.versionState, hv]
        rw [accepted_stop hgoing hstate rfl] at h
        cases h.2

-- ---------------------------------------------------------------------------
-- The request in buffers
-- ---------------------------------------------------------------------------

theorem takes_iff (st : Statics) (bs : List Buffer) :
    Takes st bs ↔ Accepted (st, monitorParserInit) (contents bs) := by
  have hgoing : monitorMachine.done (st, monitorParserInit) = false := rfl
  have hconsumes : Consumes monitorMachine (fun _ => false) fun b s =>
      let (st, b, p) := monitorConsume s.1 b s.2
      (b, (st, p), false) := by
    intro b s
    simp [monitorConsume]
  obtain ⟨hmore, hdone⟩ := consumeCalls_spec hconsumes hgoing bs
  rw [Accepted, Machine.accepts_iff hgoing]
  cases hd : monitorMachine.done (monitorMachine.consume (st, monitorParserInit) (contents bs)).1 with
  | false =>
    refine iff_of_false ?_ fun h => absurd h.1 Bool.false_ne_true
    rintro ⟨s, errored, b, rest, hcalls, -⟩
    cases hcalls.symm.trans (hmore hd)
  | true =>
    obtain ⟨b, rest, hcalls, hrest⟩ := hdone hd
    constructor
    · rintro ⟨s, errored, b', rest', hcalls', hst, hnil⟩
      cases hcalls'.symm.trans hcalls
      exact ⟨rfl, hrest.symm.trans hnil, hst⟩
    · rintro ⟨-, hnil, hst⟩
      exact ⟨_, _, b, rest, hcalls, hst, hrest.trans hnil⟩

theorem Headed.unique {P Q : List Byte → Prop} {w : List Byte} (h : Headed P w) (h' : Headed Q w) :
    ∃ tail, P tail ∧ Q tail := by
  obtain ⟨token, tail, rfl, hlen, hp⟩ := h
  obtain ⟨token', tail', heq, hlen', hq⟩ := h'
  obtain ⟨-, rfl⟩ := List.append_inj (List.cons.inj heq).2 (hlen.trans hlen'.symm)
  exact ⟨tail, hp, hq⟩

theorem Config.unique {D E : DataKind → Nat → List Byte → Prop} {tail : List Byte}
    (h : Config D tail) (h' : Config E tail) : ∃ kind dlen data, D kind dlen data ∧ E kind dlen data := by
  obtain ⟨target, high, low, bytes, kind, rfl, hk, hd⟩ := h
  obtain ⟨target', high', low', bytes', kind', heq, hk', he⟩ := h'
  cases heq
  cases hk.symm.trans hk'
  exact ⟨kind, _, bytes, hd, he⟩

theorem LaxData.not_documented {kind : DataKind} {dlen : Nat} {data : List Byte}
    (h : LaxData kind dlen data) (hlen : dlen = data.length) : ¬ Data kind data := by
  cases h with
  | disector h =>
    intro hdata
    cases hdata with
    | disector hc => exact not_or.mpr (h.resolve_left fun hne => hne hlen) hc
  | unseparated hu =>
    intro hdata
    generalize hkind : DataKind.add = kind at hdata
    cases hdata with
    | add => exact absurd (hu 0 (by simp)) (by decide)
    | _ => cases hkind
  | missing => cases hlen

theorem takes_of_lax {st : Statics} {bs : List Buffer} (h : Lax (contents bs)) : Takes st bs := by
  rw [takes_iff, accepted_fresh]
  obtain ⟨token, tail, heq, hlen, target, high, low, bytes, kind, htail, hk, hlax⟩ := h
  exact ⟨token, tail, heq, hlen, .inr ⟨target, high, low, bytes, kind, htail, hk, .inr hlax⟩⟩

theorem not_documented_of_lax {w : List Byte} (h : Lax w) : ¬ Documented w := by
  intro hdoc
  obtain ⟨tail, hconfig, hget | hconfig'⟩ := h.unique hdoc
  · obtain ⟨target, high, low, bytes, kind, rfl, -⟩ := hconfig
    obtain ⟨target', heq, -⟩ := hget
    cases heq
  · obtain ⟨kind, dlen, data, hlax, hlen, hdata⟩ := hconfig.unique hconfig'
    exact hlax.not_documented hlen hdata

/-- The parser takes what monitor.h describes and nothing else, except for requests
with lax data. -/
theorem monitor_grammar_iff (st : Statics) (bs : List Buffer) :
    (Takes st bs ↔ Documented (contents bs)) ↔ ¬ Lax (contents bs) := by
  constructor
  · exact fun h hlax => not_documented_of_lax hlax (h.mp (takes_of_lax hlax))
  · intro hstrict
    rw [takes_iff, accepted_fresh]
    constructor
    · rintro ⟨token, tail, heq, hlen, hget | hconfig⟩
      · exact ⟨token, tail, heq, hlen, .inl hget⟩
      · obtain ⟨target, high, low, bytes, kind, htail, hk, hdata | hlax⟩ := hconfig
        · exact ⟨token, tail, heq, hlen, .inr ⟨target, high, low, bytes, kind, htail, hk, hdata⟩⟩
        · exact absurd ⟨token, tail, heq, hlen, target, high, low, bytes, kind, htail, hk, hlax⟩ hstrict
    · rintro ⟨token, tail, heq, hlen, hget | hconfig⟩
      · exact ⟨token, tail, heq, hlen, .inl hget⟩
      · obtain ⟨target, high, low, bytes, kind, htail, hk, hdata⟩ := hconfig
        exact ⟨token, tail, heq, hlen,
          .inr ⟨target, high, low, bytes, kind, htail, hk, .inl hdata⟩⟩

def unseparatedRequest : List Byte :=
  [0x01] ++ List.replicate tokenSize 0x41 ++ [0x01, 0x01, 0x00, 0x01, 0x75]

theorem unseparated_taken :
    Takes {} [⟨unseparatedRequest, 0, 22, by decide, by decide⟩] ∧
      ¬ Documented (contents [⟨unseparatedRequest, 0, 22, by decide, by decide⟩]) := by
  have hlax : Lax (contents [⟨unseparatedRequest, 0, 22, by decide, by decide⟩]) :=
    ⟨List.replicate tokenSize 0x41, [0x01, 0x01, 0x00, 0x01, 0x75], by decide, by decide,
      0x01, 0x00, 0x01, [0x75], .add, rfl, by decide,
      .unseparated (alnums_cons.mpr ⟨by decide, alnums_nil⟩) (by decide)⟩
  exact ⟨takes_of_lax hlax, not_documented_of_lax hlax⟩

end Grammar

end Socks5d
