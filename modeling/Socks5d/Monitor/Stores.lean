import Socks5d.Monitor.Parser

/-!
# Where the monitor parser stores

A fresh parser fed any bytes makes a store outside its field exactly for the
streams `requestFits` rules out: CONFIG requests that add or delete a user and
whose accepted data overruns one of the arrays. The token and DLEN are always
stored inside (`consume_token`); the data is followed byte by byte, first the
user name, then the secret (`consume_user`, `consume_secret`).
-/

namespace Socks5d

open Lib (Machine)

/-- Every store made so far is inside its field. -/
def MonitorParser.StoresInside (p : MonitorParser) : Prop := ∀ s ∈ p.stores, s.Inside

-- ---------------------------------------------------------------------------
-- The streams whose stores fit
-- ---------------------------------------------------------------------------

def addFits (size k total : Nat) (data : List Byte) : Prop :=
  let data := data.take (total - k)
  let user := data.takeWhile isAlnum
  let rest := data.dropWhile isAlnum
  if 0 < k + user.length ∧ rest.head? = some 0 then
    let secret := rest.tail.takeWhile isAlnum
    k + user.length + 1 ≤ usernameSize ∧ secret.length ≤ size ∧
      (k + user.length + 1 + secret.length = total → total < size)
  else k + user.length ≤ usernameSize ∧ (k + user.length = total → total < size)

/-- The data of a delete request: a name and its terminator. -/
def deleteFits (k total : Nat) (data : List Byte) : Prop :=
  let user := (data.take (total - k)).takeWhile isAlnum
  k + user.length ≤ usernameSize ∧ (k + user.length = total → total < usernameSize)

/-- The data of a CONFIG request: at least one byte is read, whatever DLEN says. -/
def dataFits (target : Byte) (dlen : UInt16) (data : List Byte) : Prop :=
  let total := max 1 dlen.toNat
  if target = monitorTargetConfigAddProxyuser then addFits passwordSize 0 total data
  else if target = monitorTargetConfigAddAdmin then addFits tokenSize 0 total data
  else if target = monitorTargetConfigDeleteProxyuser ∨ target = monitorTargetConfigDeleteAdmin then
    deleteFits 0 total data
  else True

def methodFits : List Byte → Prop
  | method :: target :: high :: low :: data =>
    method = monitorMethodConfig → dataFits target (Monitor.networkLen (high, low)) data
  | _ => True

/-- A whole request: VER and 16 token bytes come before METHOD. -/
def requestFits : List Byte → Prop
  | version :: rest => version = 0x01 → methodFits (rest.drop tokenSize)
  | [] => True

-- ---------------------------------------------------------------------------
-- Stores only accumulate
-- ---------------------------------------------------------------------------

theorem MonitorParser.storesInside_of_append {p q : MonitorParser} {l : List Store}
    (h : q.stores = p.stores ++ l) : q.StoresInside ↔ p.StoresInside ∧ ∀ s ∈ l, s.Inside := by
  simp only [StoresInside, h, List.mem_append]
  constructor
  · intro hq
    exact ⟨fun s hs => hq s (.inl hs), fun s hs => hq s (.inr hs)⟩
  · rintro ⟨hp, hl⟩ s (hs | hs)
    · exact hp s hs
    · exact hl s hs

structure StoresSecret (storeSecret : MonitorParser → Nat → Byte → MonitorParser)
    (field : Field) : Prop where
  stores : ∀ p n c, (storeSecret p n c).stores = p.stores ++ [⟨field, n⟩]
  i : ∀ p n c, (storeSecret p n c).i = p.i
  len : ∀ p n c, (storeSecret p n c).len = p.len
  separated : ∀ p n c, (storeSecret p n c).separated = p.separated
  target : ∀ p n c, (storeSecret p n c).monitor.target = p.monitor.target

theorem storePass_stores : StoresSecret MonitorParser.storePass .proxyPass :=
  ⟨fun _ _ _ => rfl, fun _ _ _ => rfl, fun _ _ _ => rfl, fun _ _ _ => rfl, fun _ _ _ => rfl⟩

theorem storeToken_stores : StoresSecret MonitorParser.storeToken .adminToken :=
  ⟨fun _ _ _ => rfl, fun _ _ _ => rfl, fun _ _ _ => rfl, fun _ _ _ => rfl, fun _ _ _ => rfl⟩

theorem addState_stores {storeSecret : MonitorParser → Nat → Byte → MonitorParser} {field : Field}
    (hsec : StoresSecret storeSecret field) (userField : Field) (c : Byte) (st : Statics)
    (p : MonitorParser) :
    ∃ l, (Monitor.addState userField storeSecret c st p).2.1.stores = p.stores ++ l := by
  unfold Monitor.addState
  split
  · exact ⟨[], by simp⟩
  · split
    · dsimp only
      split <;> split <;>
        simp [MonitorParser.next, MonitorParser.storeUser, MonitorParser.storing,
          MonitorParser.setData, hsec.stores]
    · split
      · dsimp only
        split <;>
          simp [MonitorParser.next, MonitorParser.storeUser, MonitorParser.storing,
            MonitorParser.setData, hsec.stores]
      · exact ⟨[], by simp⟩

theorem deleteState_stores (c : Byte) (p : MonitorParser) :
    ∃ l, (Monitor.deleteState c p).1.stores = p.stores ++ l := by
  unfold Monitor.deleteState
  split
  · dsimp only
    split <;>
      simp [MonitorParser.next, MonitorParser.storeUser, MonitorParser.storing,
        MonitorParser.setData]
  · exact ⟨[], by simp⟩

theorem dataState_stores (c : Byte) (st : Statics) (p : MonitorParser) :
    ∃ l, (Monitor.dataState c st p).2.1.stores = p.stores ++ l := by
  unfold Monitor.dataState
  split
  · exact ⟨[], by simp [MonitorParser.setData]⟩
  · split
    · exact addState_stores storePass_stores _ c st p
    · split
      · exact deleteState_stores c p
      · split
        · exact addState_stores storeToken_stores _ c st p
        · split
          · exact deleteState_stores c p
          · exact ⟨[], by simp⟩

theorem versionState_stores (c : Byte) (p : MonitorParser) :
    (Monitor.versionState c p).1.stores = p.stores := by
  unfold Monitor.versionState
  split <;> rfl

theorem targetState_stores (c : Byte) (p : MonitorParser) :
    (Monitor.targetState c p).1.stores = p.stores := by
  unfold Monitor.targetState
  split
  · split <;> rfl
  · split
    · split <;> rfl
    · rfl

theorem dlenState_stores (c : Byte) (st : Statics) (p : MonitorParser) :
    (Monitor.dlenState c st p).2.1.stores = p.stores ++ [⟨.combinedlen, p.i.toNat⟩] := by
  unfold Monitor.dlenState
  dsimp only
  split
  · split
    · rfl
    · split <;> rfl
  · rfl

theorem monitorParserFeed_stores (st : Statics) (p : MonitorParser) (c : Byte) :
    ∃ l, (monitorParserFeed st p c).2.stores = p.stores ++ l := by
  rw [monitorParserFeed_eq]
  dsimp only
  cases hs : p.state with
  | version => exact ⟨[], by simp [monitorParserNext, hs, versionState_stores]⟩
  | token => exact ⟨[⟨.token, p.i.toNat⟩], by simp [monitorParserNext, hs, Monitor.tokenState,
      MonitorParser.storing, MonitorParser.next]⟩
  | method => exact ⟨[], by simp [monitorParserNext, hs, Monitor.methodState]⟩
  | target => exact ⟨[], by simp [monitorParserNext, hs, targetState_stores]⟩
  | dlen => exact ⟨_, by simp [monitorParserNext, hs, dlenState_stores]; rfl⟩
  | data =>
    obtain ⟨l, hl⟩ := dataState_stores c st p
    exact ⟨l, by simp [monitorParserNext, hs, hl]⟩
  | _ => exact ⟨[], by simp [monitorParserNext, hs]⟩

theorem consume_storesInside {st : Statics} {p : MonitorParser} {data : List Byte}
    (h : (monitorMachine.consume (st, p) data).1.2.StoresInside) : p.StoresInside := by
  by_contra hp
  refine Machine.consume_invariant monitorMachine (I := fun s => ¬ s.2.StoresInside) ?_ hp data h
  intro s c hs hfeed
  obtain ⟨l, hl⟩ := monitorParserFeed_stores s.1 s.2 c
  exact hs ((MonitorParser.storesInside_of_append hl).mp hfeed).1

-- ---------------------------------------------------------------------------
-- One byte of data
-- ---------------------------------------------------------------------------

theorem isAlnum_zero : isAlnum 0 = false := by decide

structure Reading (target : Byte) (separated : Bool) (k total : Nat) (p : MonitorParser) :
    Prop where
  state : p.state = .data
  target : p.monitor.target = target
  separated : p.separated = separated
  i : p.i.toNat = k
  len : max 1 p.len.toNat = total
  lt : k < total

variable {t : Byte} {sep : Bool} {k total : Nat}

theorem Reading.next_i {p q : MonitorParser} (h : Reading t sep k total p)
    (hi : q.i = p.i + 1) : q.i.toNat = k + 1 := by
  have hlen := p.len.toNat_lt
  have := h.len
  have := h.lt
  have := h.i
  rw [hi, UInt16.toNat_add]
  simp only [UInt16.toNat_one]
  omega

theorem Reading.remainingIsDone {p q : MonitorParser} (h : Reading t sep k total p)
    (hi : q.i = p.i + 1) (hl : q.len = p.len) :
    q.remainingIsDone = decide (k + 1 = total) := by
  have := h.len
  have := h.lt
  simp only [MonitorParser.remainingIsDone, ge_iff_le, UInt16.le_iff_toNat_le, h.next_i hi, hl,
    decide_eq_decide]
  omega

theorem Reading.i_eq_zero {p : MonitorParser} (h : Reading t sep k total p) :
    p.i = 0 ↔ k = 0 := by
  rw [← h.i, ← UInt16.toNat_inj]
  rfl

structure Adding (target : Byte) (userField secretField : Field)
    (storeSecret : MonitorParser → Nat → Byte → MonitorParser) : Prop where
  data : ∀ st p c, p.monitor.target = target →
    Monitor.dataState c st p = Monitor.addState userField storeSecret c st p
  secret : StoresSecret storeSecret secretField
  size : userField.size = usernameSize

theorem addProxyuser_adding :
    Adding monitorTargetConfigAddProxyuser .proxyUser .proxyPass MonitorParser.storePass := by
  refine ⟨fun st p c ht => ?_, storePass_stores, rfl⟩
  simp [Monitor.dataState, ht, monitorTargetConfigAddProxyuser, monitorTargetConfigPop3disector]

theorem addAdmin_adding :
    Adding monitorTargetConfigAddAdmin .adminUser .adminToken MonitorParser.storeToken := by
  refine ⟨fun st p c ht => ?_, storeToken_stores, rfl⟩
  simp [Monitor.dataState, ht, monitorTargetConfigAddAdmin, monitorTargetConfigAddProxyuser,
    monitorTargetConfigDeleteProxyuser, monitorTargetConfigPop3disector]

theorem feed_data (st : Statics) {p : MonitorParser} (hs : p.state = .data) (c : Byte) :
    monitorMachine.feed (st, p) c = ((Monitor.dataState c st p).1,
      { (Monitor.dataState c st p).2.1 with state := (Monitor.dataState c st p).2.2 }) := by
  simp only [monitorMachine, monitorParserFeed_eq, monitorParserNext, hs]

inductive DataStep (t : Byte) (k total : Nat) (p : MonitorParser) (s : Statics × MonitorParser)
    (l : List Store) (next : Option Bool) : Prop
  | stop (hnext : next = none) (hdone : monitorMachine.done s = true)
      (hstores : s.2.stores = p.stores ++ l)
  | go (separated : Bool) (hnext : next = some separated) (hdone : monitorMachine.done s = false)
      (hstores : s.2.stores = p.stores ++ l) (h : Reading t separated (k + 1) total s.2)

theorem secretIndex_eq {st : Statics} {p : MonitorParser} (h : Reading t sep k total p)
    (hu : st.usernameLenWithNull ≤ k) :
    Monitor.secretIndex st p = k - st.usernameLenWithNull := by
  have := p.i.toNat_lt
  have := h.i
  simp only [Monitor.secretIndex]
  omega

theorem feed_secret {storeSecret : MonitorParser → Nat → Byte → MonitorParser}
    (ha : Adding t userField secretField storeSecret) {st : Statics} {p : MonitorParser}
    (h : Reading t true k total p) (hu : st.usernameLenWithNull ≤ k) (hk : 0 < k) (c : Byte) :
    (monitorMachine.feed (st, p) c).1 = st ∧
    DataStep t k total p (monitorMachine.feed (st, p) c)
      (if isAlnum c then ⟨secretField, k - st.usernameLenWithNull⟩ ::
        (if k + 1 = total then [⟨secretField, total⟩] else []) else [])
      (if isAlnum c ∧ k + 1 ≠ total then some true else none) := by
  have hi0 : p.i ≠ 0 := by
    rw [Ne, h.i_eq_zero]
    omega
  rw [feed_data st h.state, ha.data st p c h.target]
  simp only [Monitor.addState, hi0, false_and, ↓reduceIte, h.separated, Bool.true_eq_false,
    and_false, secretIndex_eq h hu]
  by_cases hc : isAlnum c = true
  · simp only [hc, ↓reduceIte]
    generalize hq : (storeSecret p (k - st.usernameLenWithNull) c).next = q
    have hqi : q.i = p.i + 1 := by rw [← hq, MonitorParser.next, ha.secret.i]
    have hql : q.len = p.len := by rw [← hq, MonitorParser.next, ha.secret.len]
    have hqs : q.stores = p.stores ++ [⟨secretField, k - st.usernameLenWithNull⟩] := by
      rw [← hq, MonitorParser.next, ha.secret.stores]
    rw [h.remainingIsDone hqi hql]
    by_cases ht : k + 1 = total
    · simp only [ht, decide_true, ↓reduceIte]
      refine ⟨trivial, .stop (by simp) rfl ?_⟩
      simp [ha.secret.stores, hqs, h.next_i hqi, ht]
    · simp only [ht, decide_false, Bool.false_eq_true, ↓reduceIte]
      refine ⟨trivial, .go true (by simp [ht]) rfl hqs ⟨rfl, ?_, ?_, h.next_i hqi, ?_, ?_⟩⟩
      · simp [← hq, MonitorParser.next, ha.secret.target, h.target]
      · simp [← hq, MonitorParser.next, ha.secret.separated, h.separated]
      · simp [hql, h.len]
      · have := h.lt
        omega
  · simp only [hc, Bool.false_eq_true, ↓reduceIte]
    exact ⟨trivial, .stop (by simp) rfl (by simp)⟩

theorem feed_user {storeSecret : MonitorParser → Nat → Byte → MonitorParser}
    (ha : Adding t userField secretField storeSecret) (st : Statics) {p : MonitorParser}
    (h : Reading t false k total p) (c : Byte) :
    (c = 0 → (monitorMachine.feed (st, p) c).1.usernameLenWithNull = if k = 0 then
      st.usernameLenWithNull else k + 1) ∧
    DataStep t k total p (monitorMachine.feed (st, p) c)
      (if isAlnum c ∨ (0 < k ∧ c = 0) then ⟨userField, k⟩ ::
        (if k + 1 = total then [⟨secretField, total⟩] else []) else [])
      (if (isAlnum c ∨ (0 < k ∧ c = 0)) ∧ k + 1 ≠ total then some (!isAlnum c) else none) := by
  rw [feed_data st h.state, ha.data st p c h.target]
  simp only [Monitor.addState, h.i_eq_zero, h.separated, and_true, ↓reduceIte]
  generalize hq : (p.storeUser userField p.i.toNat c).next = q
  have hqi : q.i = p.i + 1 := by rw [← hq]; rfl
  have hql : q.len = p.len := by rw [← hq]; rfl
  have hqs : q.stores = p.stores ++ [⟨userField, k⟩] := by
    rw [← hq, ← h.i]
    rfl
  have hsep : q.separated = false := by rw [← hq]; exact h.separated
  have htgt : q.monitor.target = t := by rw [← hq]; exact h.target
  have hlt := h.lt
  by_cases h0 : k = 0 ∧ c = 0
  · obtain ⟨rfl, rfl⟩ := h0
    simp only [and_self, ↓reduceIte]
    exact ⟨fun _ => trivial, .stop (by simp [isAlnum_zero]) rfl (by simp [isAlnum_zero])⟩
  simp only [h0, ↓reduceIte]
  by_cases hc : isAlnum c = true
  · have hc0 : c ≠ 0 := by
      rintro rfl
      simp [isAlnum_zero] at hc
    simp only [hc, ↓reduceIte, true_or, true_and, Bool.not_true, h.remainingIsDone hqi hql]
    refine ⟨fun h => absurd h hc0, ?_⟩
    by_cases ht : k + 1 = total
    · simp only [ht, decide_true, ↓reduceIte]
      exact .stop (by simp) rfl (by simp [ha.secret.stores, hqs, h.next_i hqi, ht])
    · simp only [ht, decide_false, Bool.false_eq_true, ↓reduceIte]
      exact .go false (by simp [ht]) rfl hqs ⟨rfl, htgt, hsep, h.next_i hqi, hql ▸ h.len, by omega⟩
  · by_cases hc0 : c = 0
    · have hk0 : k ≠ 0 := fun hk => h0 ⟨hk, hc0⟩
      have hk : 0 < k := Nat.pos_of_ne_zero hk0
      simp only [hc0, hk, Bool.false_eq_true, ↓reduceIte, and_true, or_true, true_and,
        isAlnum_zero, Bool.not_false]
      generalize hq' : { q with separated := true } = q'
      have hqi' : q'.i = p.i + 1 := by rw [← hq']; exact hqi
      have hql' : q'.len = p.len := by rw [← hq']; exact hql
      have hqs' : q'.stores = p.stores ++ [⟨userField, k⟩] := by rw [← hq']; exact hqs
      rw [h.remainingIsDone hqi' hql']
      by_cases ht : k + 1 = total
      · simp only [ht, decide_true, ↓reduceIte]
        refine ⟨fun _ => ?_, .stop (by simp) rfl ?_⟩
        · rw [if_neg hk0, ← ht]
          exact h.next_i hqi
        · simp [ha.secret.stores, ← hq', hqs, h.next_i hqi, ht]
      · simp only [ht, decide_false, Bool.false_eq_true, ↓reduceIte]
        refine ⟨fun _ => ?_, .go true (by simp [ht]) rfl hqs' ⟨rfl, ?_, ?_, h.next_i hqi', ?_, ?_⟩⟩
        · rw [if_neg hk0]
          exact h.next_i hqi
        · rw [← hq']
          exact htgt
        · rw [← hq']
        · rw [hql']
          exact h.len
        · omega
    · simp only [hc, hc0, Bool.false_eq_true, ↓reduceIte, and_false, or_self, false_and]
      exact ⟨False.elim, .stop rfl rfl (by simp)⟩

def Deleting (t : Byte) : Prop :=
  t = monitorTargetConfigDeleteProxyuser ∨ t = monitorTargetConfigDeleteAdmin

theorem Deleting.data {p : MonitorParser} (hd : Deleting t) (ht : p.monitor.target = t)
    (st : Statics) (c : Byte) : Monitor.dataState c st p = (st, Monitor.deleteState c p) := by
  rcases hd with rfl | rfl <;>
    simp [Monitor.dataState, ht, monitorTargetConfigAddAdmin, monitorTargetConfigAddProxyuser,
      monitorTargetConfigDeleteAdmin, monitorTargetConfigDeleteProxyuser,
      monitorTargetConfigPop3disector]

theorem feed_delete (hd : Deleting t) (st : Statics) {p : MonitorParser}
    (h : Reading t false k total p) (c : Byte) :
    DataStep t k total p (monitorMachine.feed (st, p) c)
      (if isAlnum c then ⟨.dataUser, k⟩ ::
        (if k + 1 = total then [⟨.dataUser, total⟩] else []) else [])
      (if isAlnum c ∧ k + 1 ≠ total then some false else none) := by
  rw [feed_data st h.state, hd.data h.target]
  simp only [Monitor.deleteState]
  by_cases hc : isAlnum c = true
  · simp only [hc, ↓reduceIte, true_and]
    generalize hq : (p.storeUser .dataUser p.i.toNat c).next = q
    have hqi : q.i = p.i + 1 := by rw [← hq]; rfl
    have hql : q.len = p.len := by rw [← hq]; rfl
    have hqs : q.stores = p.stores ++ [⟨.dataUser, k⟩] := by
      rw [← hq, ← h.i]
      rfl
    rw [h.remainingIsDone hqi hql]
    by_cases ht : k + 1 = total
    · simp only [ht, decide_true, ↓reduceIte]
      refine .stop (by simp) rfl ?_
      simp [MonitorParser.storeUser, MonitorParser.storing, MonitorParser.setData, hqs,
        h.next_i hqi, ht]
    · have hlt := h.lt
      simp only [ht, decide_false, Bool.false_eq_true, ↓reduceIte]
      refine .go false (by simp [ht]) rfl hqs ⟨rfl, ?_, ?_, h.next_i hqi, hql ▸ h.len, by omega⟩
      · rw [← hq]
        exact h.target
      · rw [← hq]
        exact h.separated
  · simp only [hc, Bool.false_eq_true, ↓reduceIte, false_and]
    exact .stop rfl rfl (by simp)

-- ---------------------------------------------------------------------------
-- All the data
-- ---------------------------------------------------------------------------

theorem Reading.take_cons {p : MonitorParser} (h : Reading t sep k total p) (c : Byte)
    (data : List Byte) :
    (c :: data).take (total - k) = c :: data.take (total - (k + 1)) := by
  have := h.lt
  rw [show total - k = total - (k + 1) + 1 by omega, List.take_succ_cons]

theorem DataStep.stop_iff {p : MonitorParser} {s s' : Statics × MonitorParser} {c : Byte}
    {l : List Store} (h : DataStep t k total p s' l none) (hs : monitorMachine.feed s c = s')
    (hin : p.StoresInside) (data : List Byte) :
    (monitorMachine.consume s (c :: data)).1.2.StoresInside ↔ ∀ x ∈ l, x.Inside := by
  subst hs
  cases h with
  | stop hnext hdone hstores =>
    rw [Machine.consume_cons_done _ hdone, MonitorParser.storesInside_of_append hstores]
    exact and_iff_right hin
  | go separated hnext hdone hstores h => cases hnext

theorem DataStep.go_iff {p : MonitorParser} {s s' : Statics × MonitorParser} {c : Byte}
    {l : List Store} (h : DataStep t k total p s' l (some sep)) (hs : monitorMachine.feed s c = s')
    (hin : p.StoresInside) (data : List Byte) {fits : Prop}
    (ih : Reading t sep (k + 1) total s'.2 → s'.2.StoresInside → (∀ x ∈ l, x.Inside) →
      ((monitorMachine.consume s' data).1.2.StoresInside ↔ fits)) :
    (monitorMachine.consume s (c :: data)).1.2.StoresInside ↔ (∀ x ∈ l, x.Inside) ∧ fits := by
  subst hs
  cases h with
  | stop hnext hdone hstores => cases hnext
  | go separated hnext hdone hstores h =>
    cases hnext
    rw [Machine.consume_cons_more _ hdone]
    have hiff := MonitorParser.storesInside_of_append hstores
    constructor
    · intro hc
      have hl := (hiff.mp (consume_storesInside hc)).2
      exact ⟨hl, (ih h (hiff.mpr ⟨hin, hl⟩) hl).mp hc⟩
    · rintro ⟨hl, hf⟩
      exact (ih h (hiff.mpr ⟨hin, hl⟩) hl).mpr hf

theorem consume_secret {storeSecret : MonitorParser → Nat → Byte → MonitorParser}
    (ha : Adding t userField secretField storeSecret) (data : List Byte) {st : Statics}
    {p : MonitorParser} (h : Reading t true k total p) (hin : p.StoresInside)
    (hu : st.usernameLenWithNull ≤ k) (hk : 0 < k)
    (hsize : k - st.usernameLenWithNull ≤ secretField.size) :
    (monitorMachine.consume (st, p) data).1.2.StoresInside ↔
      k - st.usernameLenWithNull + ((data.take (total - k)).takeWhile isAlnum).length
        ≤ secretField.size ∧
      (k + ((data.take (total - k)).takeWhile isAlnum).length = total →
        total < secretField.size) := by
  induction data generalizing p k with
  | nil =>
    have := h.lt
    simp only [Machine.consume_nil, List.take_nil, List.takeWhile_nil, List.length_nil,
      Nat.add_zero]
    exact ⟨fun _ => ⟨hsize, fun he => by omega⟩, fun _ => hin⟩
  | cons c data ih =>
    obtain ⟨hst, hstep⟩ := feed_secret ha h hu hk c
    generalize hfeed : monitorMachine.feed (st, p) c = s' at hst hstep
    obtain ⟨st', p'⟩ := s'
    obtain rfl : st' = st := hst
    have hlt := h.lt
    rw [h.take_cons]
    by_cases hc : isAlnum c = true
    · simp only [hc, ↓reduceIte, true_and] at hstep
      rw [List.takeWhile_cons_of_pos hc, List.length_cons]
      by_cases ht : k + 1 = total
      · subst ht
        simp only [↓reduceIte, ne_eq, not_true_eq_false] at hstep
        rw [hstep.stop_iff hfeed hin]
        simp only [Nat.sub_self, List.take_zero, List.takeWhile_nil, List.mem_cons,
          List.not_mem_nil, or_false, forall_eq_or_imp, forall_eq, Store.Inside, List.length_nil,
          Nat.zero_add, forall_const]
        omega
      · simp only [ht, ↓reduceIte, ne_eq, not_false_eq_true] at hstep
        rw [hstep.go_iff hfeed hin data fun hr hin' hl => ih hr hin' (by omega) (by omega) (by
          have := hl _ (List.mem_singleton.mpr rfl)
          simp only [Store.Inside] at this
          omega)]
        simp only [List.mem_singleton, forall_eq, Store.Inside]
        omega
    · simp only [hc, Bool.false_eq_true, ↓reduceIte, false_and] at hstep
      rw [hstep.stop_iff hfeed hin, List.takeWhile_cons_of_neg hc]
      simp only [List.length_nil, List.not_mem_nil, false_implies, implies_true, true_iff]
      omega

theorem addFits_user (size : Nat) {c : Byte} (hc : isAlnum c = true) (data : List Byte) {k : Nat}
    (hk : k < total) :
    addFits size k total (c :: data) ↔ addFits size (k + 1) total data := by
  have hnum : total - k = total - (k + 1) + 1 := by omega
  simp only [addFits, hnum, List.take_succ_cons, hc, List.takeWhile_cons_of_pos,
    List.dropWhile_cons_of_pos, List.length_cons]
  generalize (List.takeWhile isAlnum _).length = n
  rw [show k + (n + 1) = k + 1 + n by omega]

theorem addFits_end (size : Nat) {c : Byte} (hc : isAlnum c = false) (data : List Byte) {k : Nat}
    (hk : k < total) :
    addFits size k total (c :: data) ↔ if 0 < k ∧ c = 0 then
      k + 1 ≤ usernameSize ∧ ((data.take (total - (k + 1))).takeWhile isAlnum).length ≤ size ∧
        (k + 1 + ((data.take (total - (k + 1))).takeWhile isAlnum).length = total → total < size)
      else k ≤ usernameSize := by
  have hnum : total - k = total - (k + 1) + 1 := by omega
  have hne : k ≠ total := by omega
  simp [addFits, hnum, hc, hne]

theorem consume_user {storeSecret : MonitorParser → Nat → Byte → MonitorParser}
    (ha : Adding t userField secretField storeSecret) (data : List Byte) {st : Statics}
    {p : MonitorParser} (h : Reading t false k total p) (hin : p.StoresInside)
    (hk : k ≤ usernameSize) :
    (monitorMachine.consume (st, p) data).1.2.StoresInside ↔
      addFits secretField.size k total data := by
  induction data generalizing st p k with
  | nil =>
    have := h.lt
    simp only [Machine.consume_nil, addFits, List.take_nil, List.takeWhile_nil, List.dropWhile_nil,
      List.length_nil, List.head?_nil, Nat.add_zero, reduceCtorEq, and_false, ↓reduceIte]
    exact ⟨fun _ => ⟨hk, fun he => by omega⟩, fun _ => hin⟩
  | cons c data ih =>
    obtain ⟨hu, hstep⟩ := feed_user ha st h c
    generalize hfeed : monitorMachine.feed (st, p) c = s' at hu hstep
    obtain ⟨st', p'⟩ := s'
    have hlt := h.lt
    cases hc : isAlnum c with
    | true =>
      rw [addFits_user _ hc _ hlt]
      simp only [hc, ↓reduceIte, true_or, true_and, Bool.not_true] at hstep
      by_cases ht : k + 1 = total
      · subst ht
        simp only [↓reduceIte, ne_eq, not_true_eq_false] at hstep
        rw [hstep.stop_iff hfeed hin]
        simp only [addFits, Nat.sub_self, List.take_zero, List.takeWhile_nil, List.dropWhile_nil,
          List.head?_nil, reduceCtorEq, and_false, ↓reduceIte, List.length_nil, List.mem_cons,
          List.not_mem_nil, or_false, forall_eq_or_imp, forall_eq, Store.Inside, ha.size,
          Nat.add_zero, forall_const]
        omega
      · simp only [ht, ↓reduceIte, ne_eq, not_false_eq_true] at hstep
        rw [hstep.go_iff hfeed hin data fun hr hin' hl => ih hr hin' (by
          have := hl _ (List.mem_singleton.mpr rfl)
          simp only [Store.Inside, ha.size] at this
          omega)]
        simp only [List.mem_singleton, forall_eq, Store.Inside, ha.size]
        refine and_iff_right_of_imp fun hf => ?_
        simp only [addFits] at hf
        split at hf <;> omega
    | false =>
      rw [addFits_end _ hc _ hlt]
      simp only [hc, Bool.false_eq_true, false_or, Bool.not_false] at hstep
      by_cases h0 : 0 < k ∧ c = 0
      · simp only [h0, and_self, ↓reduceIte, true_and] at hstep ⊢
        have hu : st'.usernameLenWithNull = k + 1 := by
          have := hu h0.2
          rwa [if_neg (by omega)] at this
        by_cases ht : k + 1 = total
        · subst ht
          simp only [↓reduceIte, ne_eq, not_true_eq_false] at hstep
          rw [← h0.2, hstep.stop_iff hfeed hin]
          simp only [Nat.sub_self, List.take_zero, List.takeWhile_nil, List.length_nil,
            List.mem_cons, List.not_mem_nil, or_false, forall_eq_or_imp, forall_eq, Store.Inside,
            ha.size, Nat.add_zero, forall_const]
          omega
        · simp only [ht, ↓reduceIte, ne_eq, not_false_eq_true] at hstep
          rw [← h0.2, hstep.go_iff hfeed hin data fun hr hin' hl =>
            consume_secret ha data hr hin' (by omega) (by omega) (by omega)]
          simp only [List.mem_singleton, forall_eq, Store.Inside, ha.size, hu]
          omega
      · simp only [h0, ↓reduceIte, false_and] at hstep ⊢
        rw [hstep.stop_iff hfeed hin]
        simpa using hk

theorem consume_delete (hd : Deleting t) (data : List Byte) {st : Statics} {p : MonitorParser}
    (h : Reading t false k total p) (hin : p.StoresInside) (hk : k ≤ usernameSize) :
    (monitorMachine.consume (st, p) data).1.2.StoresInside ↔ deleteFits k total data := by
  simp only [deleteFits]
  induction data generalizing st p k with
  | nil =>
    have := h.lt
    simp only [Machine.consume_nil, List.take_nil, List.takeWhile_nil, List.length_nil,
      Nat.add_zero]
    exact ⟨fun _ => ⟨hk, fun he => by omega⟩, fun _ => hin⟩
  | cons c data ih =>
    have hstep := feed_delete hd st h c
    generalize hfeed : monitorMachine.feed (st, p) c = s' at hstep
    obtain ⟨st', p'⟩ := s'
    have hlt := h.lt
    rw [h.take_cons]
    by_cases hc : isAlnum c = true
    · simp only [hc, ↓reduceIte, true_and] at hstep
      rw [List.takeWhile_cons_of_pos hc, List.length_cons]
      by_cases ht : k + 1 = total
      · subst ht
        simp only [↓reduceIte, ne_eq, not_true_eq_false] at hstep
        rw [hstep.stop_iff hfeed hin]
        simp only [Nat.sub_self, List.take_zero, List.takeWhile_nil, List.mem_cons,
          List.not_mem_nil, or_false, forall_eq_or_imp, forall_eq, Store.Inside, List.length_nil,
          Field.size, Nat.zero_add, forall_const]
        omega
      · simp only [ht, ↓reduceIte, ne_eq, not_false_eq_true] at hstep
        rw [hstep.go_iff hfeed hin data fun hr hin' hl => ih hr hin' (by
          have := hl _ (List.mem_singleton.mpr rfl)
          simp only [Store.Inside, Field.size] at this
          omega)]
        simp only [List.mem_singleton, forall_eq, Store.Inside, Field.size]
        omega
    · simp only [hc, Bool.false_eq_true, ↓reduceIte, false_and] at hstep
      rw [hstep.stop_iff hfeed hin, List.takeWhile_cons_of_neg hc]
      simp only [List.length_nil, List.not_mem_nil, false_implies, implies_true, true_iff]
      omega

-- ---------------------------------------------------------------------------
-- The whole request
-- ---------------------------------------------------------------------------

theorem consume_ends {s : Statics × MonitorParser} {c : Byte}
    (hdone : monitorMachine.done (monitorMachine.feed s c) = true)
    (hstores : (monitorMachine.feed s c).2.stores = s.2.stores) (hin : s.2.StoresInside)
    (data : List Byte) : (monitorMachine.consume s (c :: data)).1.2.StoresInside := by
  rw [Machine.consume_cons_done _ hdone]
  simpa only [MonitorParser.StoresInside, hstores] using hin

theorem consume_data (st : Statics) {p : MonitorParser} (dlen : UInt16) (hs : p.state = .data)
    (hsep : p.separated = false) (hin : p.StoresInside)
    (hread : p.monitor.target ≠ monitorTargetConfigPop3disector → p.i = 0 ∧ p.len = dlen)
    (data : List Byte) :
    (monitorMachine.consume (st, p) data).1.2.StoresInside ↔
      dataFits p.monitor.target dlen data := by
  by_cases hpop : p.monitor.target = monitorTargetConfigPop3disector
  · -- the state of the disector is one byte, no array
    simp only [dataFits, hpop, monitorTargetConfigPop3disector, monitorTargetConfigAddProxyuser,
      monitorTargetConfigAddAdmin, monitorTargetConfigDeleteProxyuser,
      monitorTargetConfigDeleteAdmin]
    cases data with
    | nil => simpa using hin
    | cons c data =>
      have hfeed := feed_data st hs c
      simp only [Monitor.dataState, hpop, ↓reduceIte] at hfeed
      have hends := consume_ends (s := (st, p)) (c := c) (by rw [hfeed]; rfl)
        (by rw [hfeed]; rfl) hin data
      simpa using hends
  obtain ⟨hi, hl⟩ := hread hpop
  have hreading : Reading p.monitor.target false 0 (max 1 dlen.toNat) p :=
    ⟨hs, rfl, hsep, by rw [hi]; rfl, by rw [hl], by omega⟩
  unfold dataFits
  dsimp only
  split
  · rename_i ht
    rw [ht] at hreading
    exact consume_user addProxyuser_adding data hreading hin (Nat.zero_le _)
  · split
    · rename_i ht
      rw [ht] at hreading
      exact consume_user addAdmin_adding data hreading hin (Nat.zero_le _)
    · split
      · rename_i ht
        exact consume_delete ht data hreading hin (Nat.zero_le _)
      · rename_i hadd hadmin hdel
        simp only [iff_true]
        cases data with
        | nil => exact hin
        | cons c data =>
          rw [not_or] at hdel
          have hfeed := feed_data st hs c
          simp only [Monitor.dataState, hpop, hadd, hadmin, hdel.1, hdel.2, ↓reduceIte] at hfeed
          exact consume_ends (by rw [hfeed]; rfl) (by rw [hfeed]) hin data

def ConfigTarget (t : Byte) : Prop :=
  t = monitorTargetConfigPop3disector ∨ t = monitorTargetConfigAddProxyuser
    ∨ t = monitorTargetConfigDeleteProxyuser ∨ t = monitorTargetConfigAddAdmin
    ∨ t = monitorTargetConfigDeleteAdmin

def MonitorParser.dlenHigh (p : MonitorParser) : MonitorParser :=
  { p with i := 1, stores := p.stores ++ [⟨.combinedlen, 0⟩] }

def MonitorParser.dlenLow (p : MonitorParser) (dlen : UInt16) : MonitorParser :=
  { p with
    state := .data
    monitor := { p.monitor with dlen }
    i := if p.monitor.target = monitorTargetConfigPop3disector then 2 else 0
    len := if p.monitor.target = monitorTargetConfigPop3disector then 2 else dlen
    stores := p.stores ++ [⟨.combinedlen, 1⟩] }

theorem feed_dlenHigh (st : Statics) {p : MonitorParser} (hs : p.state = .dlen) (hi : p.i = 0)
    (hl : p.len = 2) (high : Byte) : monitorMachine.feed (st, p) high =
      ({ st with combinedlen := (high, st.combinedlen.2) }, p.dlenHigh) := by
  simp [monitorMachine, monitorParserFeed_eq, monitorParserNext, hs, Monitor.dlenState, hi, hl,
    MonitorParser.storing, MonitorParser.next, MonitorParser.remainingIsDone,
    MonitorParser.dlenHigh]

theorem feed_dlenLow (st : Statics) {p : MonitorParser} (hs : p.state = .dlen) (hl : p.len = 2)
    (ht : ConfigTarget p.monitor.target) (high low : Byte) :
    monitorMachine.feed ({ st with combinedlen := (high, st.combinedlen.2) }, p.dlenHigh) low =
      ({ st with combinedlen := (high, low) },
        p.dlenHigh.dlenLow (Monitor.networkLen (high, low))) := by
  unfold ConfigTarget at ht
  by_cases hpop : p.monitor.target = monitorTargetConfigPop3disector
  · simp [monitorMachine, monitorParserFeed_eq, monitorParserNext, hs, Monitor.dlenState, hl,
      MonitorParser.storing, MonitorParser.next, MonitorParser.remainingIsDone, hpop,
      MonitorParser.dlenHigh, MonitorParser.dlenLow]
  · rw [or_iff_right hpop] at ht
    simp [monitorMachine, monitorParserFeed_eq, monitorParserNext, hs, Monitor.dlenState, hl,
      MonitorParser.storing, MonitorParser.next, MonitorParser.remainingIsDone,
      MonitorParser.remainingSet, hpop, ht, MonitorParser.dlenHigh, MonitorParser.dlenLow]

theorem consume_dlen (st : Statics) {p : MonitorParser} (hs : p.state = .dlen) (hi : p.i = 0)
    (hl : p.len = 2) (hsep : p.separated = false) (hin : p.StoresInside)
    (ht : ConfigTarget p.monitor.target) (stream : List Byte) :
    (monitorMachine.consume (st, p) stream).1.2.StoresInside ↔
      ∀ high low data, stream = high :: low :: data →
        dataFits p.monitor.target (Monitor.networkLen (high, low)) data := by
  cases stream with
  | nil => simpa using hin
  | cons high stream =>
    have h₁ := feed_dlenHigh st hs hi hl high
    have hin₁ : p.dlenHigh.StoresInside :=
      (MonitorParser.storesInside_of_append rfl).mpr ⟨hin, by simp [Store.Inside, Field.size]⟩
    rw [Machine.consume_cons_more _ (by
      rw [h₁]; simp [monitorMachine, MonitorParser.dlenHigh, hs]; rfl), h₁]
    cases stream with
    | nil => simpa using hin₁
    | cons low data =>
      have h₂ := feed_dlenLow st hs hl ht high low
      have hin₂ : (p.dlenHigh.dlenLow (Monitor.networkLen (high, low))).StoresInside :=
        (MonitorParser.storesInside_of_append rfl).mpr ⟨hin₁, by simp [Store.Inside, Field.size]⟩
      rw [Machine.consume_cons_more _ (by rw [h₂]; rfl), h₂]
      have hdata := consume_data { st with combinedlen := (high, low) }
        (Monitor.networkLen (high, low)) (p := p.dlenHigh.dlenLow (Monitor.networkLen (high, low)))
        rfl hsep hin₂ (fun hpop => ⟨if_neg hpop, if_neg hpop⟩) data
      rw [hdata]
      constructor
      · rintro hfits _ _ _ ⟨⟩
        exact hfits
      · intro hfits
        exact hfits high low data rfl

theorem methodFits_of_not_config {method : Byte} (h : method ≠ monitorMethodConfig)
    (stream : List Byte) : methodFits (method :: stream) := by
  unfold methodFits
  split
  · rename_i heq
    cases heq
    exact fun hm => absurd hm h
  · trivial

theorem dataFits_of_not_target {t : Byte} (h : ¬ ConfigTarget t) (dlen : UInt16)
    (data : List Byte) : dataFits t dlen data := by
  simp only [ConfigTarget, not_or] at h
  simp [dataFits, h]

theorem feed_target (st : Statics) {p : MonitorParser} {target : Byte} (hs : p.state = .target)
    (hm : p.monitor.method = monitorMethodConfig) (ht : ConfigTarget target) :
    monitorMachine.feed (st, p) target = (st, { p with
      state := .dlen, monitor := { p.monitor with target }, i := 0, len := 2 }) := by
  have hget : monitorMethodConfig ≠ monitorMethodGet := by decide
  unfold ConfigTarget at ht
  simp [monitorMachine, monitorParserFeed_eq, monitorParserNext, hs, Monitor.targetState, hm, hget,
    ht, MonitorParser.remainingSet]

theorem consume_target {st : Statics} {p : MonitorParser} (hs : p.state = .target)
    (hsep : p.separated = false) (hin : p.StoresInside)
    (hm : p.monitor.method = monitorMethodGet ∨ p.monitor.method = monitorMethodConfig)
    (stream : List Byte) :
    (monitorMachine.consume (st, p) stream).1.2.StoresInside ↔
      methodFits (p.monitor.method :: stream) := by
  cases stream with
  | nil => simpa [methodFits] using hin
  | cons target stream =>
    rcases hm with hm | hm
    · -- a GET ends here, whatever the target
      refine iff_of_true ?_ (methodFits_of_not_config (by rw [hm]; decide) _)
      refine consume_ends ?_ ?_ hin stream
      · simp only [monitorMachine, monitorParserFeed_eq, monitorParserNext, hs, Monitor.targetState,
          hm, ↓reduceIte]
        split <;> rfl
      · simp only [monitorMachine, monitorParserFeed_eq, monitorParserNext, hs, targetState_stores]
    · have hget : monitorMethodConfig ≠ monitorMethodGet := by decide
      by_cases ht : ConfigTarget target
      · have h₁ := feed_target st hs hm ht
        rw [Machine.consume_cons_more _ (by rw [h₁]; rfl), h₁]
        have hdlen := consume_dlen st (p := { p with
          state := .dlen, monitor := { p.monitor with target }, i := 0, len := 2 }) rfl rfl rfl hsep
          hin ht stream
        rw [hdlen]
        unfold methodFits
        split
        · rename_i heq
          cases heq
          constructor
          · intro hfits _
            exact hfits _ _ _ rfl
          · rintro hfits _ _ _ ⟨⟩
            exact hfits hm
        · rename_i hno
          refine iff_of_true ?_ trivial
          rintro high low data rfl
          exact absurd rfl (hno _ _ _ _ _)
      · refine iff_of_true ?_ ?_
        · refine consume_ends ?_ ?_ hin stream
          · have ht' := ht
            unfold ConfigTarget at ht'
            simp only [monitorMachine, monitorParserFeed_eq, monitorParserNext, hs,
              Monitor.targetState, hm, hget, ht', ↓reduceIte]
            rfl
          · simp only [monitorMachine, monitorParserFeed_eq, monitorParserNext, hs,
              targetState_stores]
        · unfold methodFits
          split
          · rename_i heq
            cases heq
            exact fun _ => dataFits_of_not_target ht _ _
          · trivial

theorem feed_method (st : Statics) {p : MonitorParser} (hs : p.state = .method) (method : Byte) :
    monitorMachine.feed (st, p) method = (st, { p with
      monitor := { p.monitor with method }
      state := if method = monitorMethodGet ∨ method = monitorMethodConfig then .target
        else .errorUnsupportedMethod }) := by
  simp only [monitorMachine, monitorParserFeed_eq, monitorParserNext, hs, Monitor.methodState]

theorem consume_method {st : Statics} {p : MonitorParser} (hs : p.state = .method)
    (hsep : p.separated = false) (hin : p.StoresInside) (stream : List Byte) :
    (monitorMachine.consume (st, p) stream).1.2.StoresInside ↔ methodFits stream := by
  cases stream with
  | nil => simpa [methodFits] using hin
  | cons method stream =>
    have h₁ := feed_method st hs method
    by_cases hm : method = monitorMethodGet ∨ method = monitorMethodConfig
    · rw [if_pos hm] at h₁
      rw [Machine.consume_cons_more _ (by rw [h₁]; rfl), h₁]
      exact consume_target (p := { p with monitor := { p.monitor with method }, state := .target })
        rfl hsep hin hm stream
    · rw [if_neg hm] at h₁
      rw [not_or] at hm
      exact iff_of_true (consume_ends (by rw [h₁]; rfl) (by rw [h₁]) hin stream)
        (methodFits_of_not_config hm.2 stream)

def MonitorParser.tokenByte (p : MonitorParser) (c : Byte) : MonitorParser :=
  ({ p with monitor := { p.monitor with
    token := p.monitor.token.set p.i.toNat c } }.storing .token p.i.toNat).next

theorem tokenByte_i {p : MonitorParser} {k : Nat} (hi : p.i.toNat = k) (hk : k < 16) (c : Byte) :
    (p.tokenByte c).i.toNat = k + 1 := by
  have hnext : (p.tokenByte c).i = p.i + 1 := rfl
  rw [hnext, UInt16.toNat_add, hi]
  simp only [UInt16.toNat_one]
  omega

theorem feed_token (st : Statics) {p : MonitorParser} {k : Nat} (hs : p.state = .token)
    (hi : p.i.toNat = k) (hl : p.len = 16) (hk : k < 16) (c : Byte) :
    monitorMachine.feed (st, p) c =
      (st, { p.tokenByte c with state := if 15 ≤ k then .method else .token }) := by
  have hdone : (p.tokenByte c).remainingIsDone = decide (15 ≤ k) := by
    have hl₁ : (p.tokenByte c).len = 16 := hl
    have hlen : (16 : UInt16).toNat = 16 := rfl
    simp only [MonitorParser.remainingIsDone, ge_iff_le, UInt16.le_iff_toNat_le,
      tokenByte_i hi hk, hl₁, hlen, decide_eq_decide]
    omega
  have hnext : Monitor.tokenState c p =
      (p.tokenByte c, if (p.tokenByte c).remainingIsDone then .method else .token) := rfl
  simp only [monitorMachine, monitorParserFeed_eq, monitorParserNext, hs, hnext, hdone,
    decide_eq_true_eq]

/-- The bytes of the token from byte `k` on: too few of them store inside, and
enough of them lead to METHOD. -/
theorem consume_token {st : Statics} {p : MonitorParser} {k : Nat} (hs : p.state = .token)
    (hi : p.i.toNat = k) (hl : p.len = 16) (hk : k < 16) (hsep : p.separated = false)
    (hin : p.StoresInside) (stream : List Byte) :
    (monitorMachine.consume (st, p) stream).1.2.StoresInside ↔ methodFits (stream.drop (16 - k)) := by
  induction stream generalizing p k with
  | nil => simpa [methodFits] using hin
  | cons c stream ih =>
    have hin₁ : (p.tokenByte c).StoresInside :=
      (MonitorParser.storesInside_of_append rfl).mpr ⟨hin, by
        simp only [List.mem_singleton, forall_eq, Store.Inside, Field.size, tokenSize, hi]
        exact hk⟩
    have h₁ := feed_token st hs hi hl hk c
    by_cases h15 : 15 ≤ k
    · rw [if_pos h15] at h₁
      rw [Machine.consume_cons_more _ (by rw [h₁]; rfl), h₁, show 16 - k = 1 by omega]
      exact consume_method (p := { p.tokenByte c with state := .method }) rfl hsep hin₁ stream
    · rw [if_neg h15] at h₁
      rw [Machine.consume_cons_more _ (by rw [h₁]; rfl), h₁,
        show 16 - k = 16 - (k + 1) + 1 by omega]
      exact ih (p := { p.tokenByte c with state := .token }) rfl (tokenByte_i hi hk c) hl (by omega)
        hsep hin₁

theorem consume_fresh (st : Statics) (stream : List Byte) :
    (monitorMachine.consume (st, monitorParserInit) stream).1.2.StoresInside ↔
      requestFits stream := by
  have hin : monitorParserInit.StoresInside := fun s hs => absurd hs (List.not_mem_nil)
  cases stream with
  | nil => simpa [requestFits] using hin
  | cons version stream =>
    simp only [requestFits]
    by_cases hv : version = 0x01
    · let p₁ : MonitorParser := { monitorParserInit with state := .token, len := 16 }
      have h₁ : monitorMachine.feed (st, monitorParserInit) version = (st, p₁) := by
        rw [hv]
        rfl
      rw [Machine.consume_cons_more _ (by rw [h₁]; rfl), h₁]
      simp only [hv, forall_const]
      exact consume_token (p := p₁) (k := 0) rfl rfl rfl (by decide) rfl hin stream
    · simp only [hv, false_implies, iff_true]
      have hnext : Monitor.versionState version monitorParserInit =
          (monitorParserInit, .errorUnsupportedVersion) := if_neg hv
      have h₁ : monitorMachine.feed (st, monitorParserInit) version =
          (st, { monitorParserInit with state := .errorUnsupportedVersion }) :=
        congrArg (fun r : MonitorParser × MonitorState => (st, { r.1 with state := r.2 })) hnext
      exact consume_ends (by rw [h₁]; rfl) (by rw [h₁]) hin stream

-- ---------------------------------------------------------------------------
-- The request in buffers
-- ---------------------------------------------------------------------------

theorem monitorMachine_absorbing : monitorMachine.Absorbing := by
  rintro ⟨st, ⟨monitor, state, len, i, separated, stores⟩⟩ c hdone
  simp only [monitorMachine, monitorIsDone] at hdone
  simp only [monitorMachine, monitorParserFeed_eq, monitorParserNext]
  cases state <;> simp_all [MonitorState.toNat]

/-- `monitor_consume` called with one buffer after another. -/
def monitorConsumeAll (st : Statics) (p : MonitorParser) (buffers : List Buffer) :
    Statics × MonitorParser :=
  buffers.foldl (fun s b => ((monitorConsume s.1 b s.2).1, (monitorConsume s.1 b s.2).2.2)) (st, p)

theorem monitorConsumeAll_eq (st : Statics) (p : MonitorParser) (buffers : List Buffer) :
    monitorConsumeAll st p buffers =
      (monitorMachine.consume (st, p) (buffers.map Buffer.content).flatten).1 := by
  rw [← monitorMachine_absorbing.consumeChunks_eq]
  unfold monitorConsumeAll Machine.consumeChunks
  rw [List.foldl_map]
  congr 1
  funext s b
  exact (consumeBuffer_spec monitorMachine b s).1

/-- Every store of a fresh parser is inside its field exactly when the request
in the bytes it is fed fits, however these are cut into buffers. -/
theorem monitorConsume_storesInside (st : Statics) (buffers : List Buffer) :
    (monitorConsumeAll st monitorParserInit buffers).2.StoresInside ↔
      requestFits (buffers.map Buffer.content).flatten := by
  rw [monitorConsumeAll_eq]
  exact consume_fresh st _

def addAdminRequest : List Byte :=
  [0x01] ++ List.replicate 16 0x41 ++ [0x01, 0x03, 0x00, 0x12] ++ [0x61, 0x00] ++
    List.replicate 16 0x41

theorem addAdminRequest_storesOutside :
    (monitorConsumeAll {} monitorParserInit
      [⟨addAdminRequest, 0, addAdminRequest.length, by decide, by decide⟩]).2.stores.getLast? =
        some ⟨.adminToken, 18⟩ ∧
    ¬ (monitorConsumeAll {} monitorParserInit
      [⟨addAdminRequest, 0, addAdminRequest.length, by decide, by decide⟩]).2.StoresInside := by
  refine ⟨by decide, fun hin => ?_⟩
  have hlast := hin ⟨.adminToken, 18⟩ (by decide)
  revert hlast
  decide

end Socks5d
