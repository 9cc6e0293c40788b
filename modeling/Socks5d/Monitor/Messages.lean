import Socks5d.Monitor.Process
import Socks5d.Monitor.Stores

/-!
# What the parser keeps of a well-formed message

The message of a CONFIG request is read to its last byte. The arrays of `union
data` start out all 0, so what the parser stored of a string is the string with
zeros behind it (`filled`), and the terminator that it stores at the end changes
nothing.
-/

namespace Socks5d

open Lib (Machine)

-- ---------------------------------------------------------------------------
-- The fields in front of the data
-- ---------------------------------------------------------------------------

theorem networkLen_htons (n : UInt16) :
    Monitor.networkLen ((n >>> 8).toUInt8, n.toUInt8) = n := by
  rw [Monitor.networkLen, ← UInt16.toNat_inj]
  have hn := n.toNat_lt
  simp only [UInt16.toNat_add, UInt16.toNat_mul, UInt8.toNat_toUInt16, UInt16.toNat_toUInt8,
    UInt16.toNat_shiftRight, Nat.shiftRight_eq_div_pow]
  simp
  omega

theorem reads_token (st : Statics) {p : MonitorParser} {k : Nat} (hs : p.state = .token)
    (hi : p.i.toNat = k) (hl : p.len = 16) (hk : k < 16) {token : List Byte}
    (ht : token.length = 16 - k) :
    ∃ q, monitorMachine.Reads (st, p) token (st, q) ∧ q.state = .method ∧
      q.monitor.data = p.monitor.data ∧ q.separated = p.separated := by
  induction token generalizing p k with
  | nil =>
    rw [List.length_nil] at ht
    omega
  | cons c token ih =>
    rw [List.length_cons] at ht
    have hfeed := feed_token st hs hi hl hk c
    by_cases h15 : 15 ≤ k
    · obtain rfl : token = [] := List.eq_nil_of_length_eq_zero (by omega)
      rw [if_pos h15] at hfeed
      exact ⟨_, .single hfeed rfl, rfl, rfl, rfl⟩
    · rw [if_neg h15] at hfeed
      obtain ⟨q, hq, hstate, hdata, hsep⟩ := ih (p := { p.tokenByte c with state := .token }) rfl
        (tokenByte_i hi hk c) hl (by omega) (by omega)
      exact ⟨q, (Machine.Reads.single hfeed rfl).append hq, hstate, hdata, hsep⟩

theorem reads_header (st : Statics) {token : List Byte} (ht : token.length = tokenSize) :
    ∃ q, monitorMachine.Reads (st, monitorParserInit) (1 :: token) (st, q) ∧ q.state = .method ∧
      q.monitor.data = {} ∧ q.separated = false := by
  have hversion : monitorMachine.Reads (st, monitorParserInit) [1]
      (st, { monitorParserInit with state := .token, len := 16 }) :=
    .single rfl rfl
  obtain ⟨q, hq, hstate, hdata, hsep⟩ := reads_token st (k := 0)
    (p := { monitorParserInit with state := .token, len := 16 }) rfl rfl rfl (by decide) ht
  exact ⟨q, hversion.append hq, hstate, hdata, hsep⟩

theorem reads_method (st : Statics) {token : List Byte} (ht : token.length = tokenSize)
    {method : Byte} (hm : method = monitorMethodGet ∨ method = monitorMethodConfig) :
    ∃ q, monitorMachine.Reads (st, monitorParserInit) (1 :: (token ++ [method])) (st, q) ∧
      q.state = .target ∧ q.monitor.method = method ∧ q.monitor.data = {} ∧ q.separated = false := by
  obtain ⟨p, hp, hstate, hdata, hsep⟩ := reads_header st ht
  have hfeed := feed_method st hstate method
  rw [if_pos hm] at hfeed
  exact ⟨_, hp.append (.single hfeed rfl), rfl, rfl, hdata, hsep⟩

structure Expects (t : Byte) (dlen : UInt16) (p : MonitorParser) : Prop where
  state : p.state = .data
  target : p.monitor.target = t
  data : p.monitor.data = {}
  separated : p.separated = false
  remaining : t ≠ monitorTargetConfigPop3disector → p.i = 0 ∧ p.len = dlen

theorem reads_htons (st : Statics) {p : MonitorParser} (hs : p.state = .dlen) (hi : p.i = 0)
    (hl : p.len = 2) (ht : ConfigTarget p.monitor.target) (hdata : p.monitor.data = {})
    (hsep : p.separated = false) (dlen : UInt16) :
    ∃ st' q, monitorMachine.Reads (st, p) (htons dlen) (st', q) ∧ Expects p.monitor.target dlen q := by
  have hhigh := feed_dlenHigh st hs hi hl (dlen >>> 8).toUInt8
  have hlow := feed_dlenLow st hs hl ht (dlen >>> 8).toUInt8 dlen.toUInt8
  rw [networkLen_htons] at hlow
  have hgoing : monitorIsDone p.dlenHigh.state = false := by
    show monitorIsDone p.state = false
    rw [hs]
    rfl
  exact ⟨_, _, (Machine.Reads.single hhigh hgoing).append (.single hlow rfl), rfl, rfl, hdata, hsep,
    fun hpop => ⟨if_neg hpop, if_neg hpop⟩⟩

theorem reads_dlen (st : Statics) {token : List Byte} (ht : token.length = tokenSize)
    {target : Byte} (htarget : ConfigTarget target) (dlen : UInt16) :
    ∃ st' q, monitorMachine.Reads (st, monitorParserInit)
        (1 :: (token ++ monitorMethodConfig :: target :: htons dlen)) (st', q) ∧
      Expects target dlen q := by
  obtain ⟨p, hp, hstate, hmethod, hdata, hsep⟩ := reads_method st ht (.inr rfl)
  have hfeed := feed_target st hstate hmethod htarget
  obtain ⟨st', q, hq, hexpects⟩ := reads_htons st (p := { p with
    state := .dlen, monitor := { p.monitor with target }, i := 0, len := 2 }) rfl rfl rfl htarget hdata
    hsep dlen
  refine ⟨st', q, ?_, hexpects⟩
  have hall := (hp.append (.single hfeed rfl)).append hq
  simpa using hall

-- ---------------------------------------------------------------------------
-- Strings in arrays of zeros
-- ---------------------------------------------------------------------------

def filled (n : Nat) (bytes : List Byte) : List Byte :=
  bytes ++ List.replicate (n - bytes.length) 0

theorem filled_set {n : Nat} {bytes : List Byte} (h : bytes.length < n) (c : Byte) :
    (filled n bytes).set bytes.length c = filled n (bytes ++ [c]) := by
  obtain ⟨k, hk⟩ : ∃ k, n - bytes.length = k + 1 := ⟨n - bytes.length - 1, by omega⟩
  have hk' : n - (bytes ++ [c]).length = k := by
    rw [List.length_append, List.length_singleton]
    omega
  rw [filled, filled, hk, hk', List.set_append_right _ _ (Nat.le_refl _), Nat.sub_self,
    List.replicate_succ, List.set_cons_zero, List.append_assoc, List.singleton_append]

/-- A terminator behind the bytes changes nothing, inside of the array or not. -/
theorem filled_set_zero (n : Nat) {bytes : List Byte} {i : Nat} (h : bytes.length ≤ i) :
    (filled n bytes).set i 0 = filled n bytes := by
  rw [filled, List.set_append_right _ _ h, List.set_replicate_self]

theorem cstr_filled {n : Nat} {bytes : List Byte} (h : (0 : Byte) ∉ bytes) :
    cstr (filled n bytes) = bytes := by
  rw [filled, cstr_append h, cstr_zeros, List.append_nil]

theorem cstr_filled_append {n : Nat} {bytes : List Byte} (h : (0 : Byte) ∉ bytes)
    (hlen : bytes.length < n) (r : List Byte) : cstr (filled n bytes ++ r) = bytes := by
  obtain ⟨k, hk⟩ : ∃ k, n - bytes.length = k + 1 := ⟨n - bytes.length - 1, by omega⟩
  rw [filled, hk, List.append_assoc, cstr_append h, List.replicate_succ, List.cons_append, cstr_zero,
    List.append_nil]

-- ---------------------------------------------------------------------------
-- A name and a secret
-- ---------------------------------------------------------------------------

structure KeepsSecret (storeSecret : MonitorParser → Nat → Byte → MonitorParser)
    (read : MonitorData → List Byte) : Prop where
  user : ∀ p n c, (storeSecret p n c).monitor.data.user = p.monitor.data.user
  secret : ∀ p n c, read (storeSecret p n c).monitor.data = (read p.monitor.data).set n c
  name : ∀ data user, read { data with user } = read data

theorem storePass_keeps : KeepsSecret MonitorParser.storePass MonitorData.pass :=
  ⟨fun _ _ _ => rfl, fun _ _ _ => rfl, fun _ _ => rfl⟩

theorem storeToken_keeps : KeepsSecret MonitorParser.storeToken MonitorData.token :=
  ⟨fun _ _ _ => rfl, fun _ _ _ => rfl, fun _ _ => rfl⟩

section
variable {t : Byte} {k total size : Nat} {userField secretField : Field}
  {storeSecret : MonitorParser → Nat → Byte → MonitorParser} {read : MonitorData → List Byte}
  {st : Statics} {p : MonitorParser}

structure Kept (read : MonitorData → List Byte) (size : Nat) (p : MonitorParser)
    (u s : List Byte) : Prop where
  user : p.monitor.data.user = filled usernameSize u
  secret : read p.monitor.data = filled size s

theorem Reading.going {sep : Bool} (h : Reading t sep k total p) :
    monitorMachine.done (st, p) = false := by
  show monitorIsDone p.state = false
  rw [h.state]
  rfl

theorem feed_name (st : Statics) (ha : Adding t userField secretField storeSecret)
    (h : Reading t false k total p) {c : Byte} (hc : isAlnum c = true) (hk : k + 1 < total) :
    monitorMachine.feed (st, p) c =
      (st, { (p.storeUser userField p.i.toNat c).next with state := .data }) := by
  have hc0 : c ≠ 0 := by
    rintro rfl
    exact absurd hc (by decide)
  have hdone : (p.storeUser userField p.i.toNat c).next.remainingIsDone = false := by
    have hlast := h.remainingIsDone (q := (p.storeUser userField p.i.toNat c).next) rfl rfl
    rwa [decide_eq_false (Nat.ne_of_lt hk)] at hlast
  rw [feed_data st h.state, ha.data st p c h.target]
  simp only [Monitor.addState, hc0, and_false, ↓reduceIte, hc, h.separated, hdone,
    Bool.false_eq_true]

theorem reads_name (st : Statics) (ha : Adding t userField secretField storeSecret)
    (hkeep : KeepsSecret storeSecret read) (h : Reading t false k total p) {name u s : List Byte}
    (hname : ∀ c ∈ name, isAlnum c = true) (hu : u.length = k) (hkept : Kept read size p u s)
    (hlt : k + name.length < total) (hfits : k + name.length ≤ usernameSize) :
    ∃ q, monitorMachine.Reads (st, p) name (st, q) ∧ Reading t false (k + name.length) total q ∧
      Kept read size q (u ++ name) s := by
  induction name generalizing p k u with
  | nil =>
    exact ⟨p, .nil h.going, h, by rwa [List.append_nil]⟩
  | cons c name ih =>
    rw [List.length_cons] at hlt hfits
    have hc := hname c List.mem_cons_self
    have hfeed := feed_name st ha h hc (by omega)
    have hreading : Reading t false (k + 1) total
        { (p.storeUser userField p.i.toNat c).next with state := .data } :=
      ⟨rfl, h.target, h.separated, h.next_i rfl, h.len, by omega⟩
    have hkept' : Kept read size
        { (p.storeUser userField p.i.toNat c).next with state := .data } (u ++ [c]) s := by
      refine ⟨?_, (hkeep.name _ _).trans hkept.secret⟩
      show p.monitor.data.user.set p.i.toNat c = _
      rw [hkept.user, h.i, ← hu, filled_set (by omega)]
    obtain ⟨q, hq, hqr, hqk⟩ := ih hreading (fun b hb => hname b (List.mem_cons_of_mem c hb))
      (by rw [List.length_append, hu]; rfl) hkept' (by omega) (by omega)
    refine ⟨q, (Machine.Reads.single hfeed rfl).append hq, ?_, ?_⟩
    · rwa [List.length_cons, Nat.add_comm name.length 1, ← Nat.add_assoc]
    · rwa [List.append_assoc] at hqk

def Statics.separatorAt (st : Statics) (p : MonitorParser) : Statics :=
  { st with usernameLenWithNull := (p.i + 1).toNat }

theorem feed_separator (st : Statics) (ha : Adding t userField secretField storeSecret)
    (h : Reading t false k total p) (hk : 0 < k) :
    monitorMachine.feed (st, p) 0 = (st.separatorAt p,
      if k + 1 = total then
        { storeSecret { (p.storeUser userField p.i.toNat 0).next with separated := true }
            (p.i + 1).toNat 0 with separated := false, state := .done }
      else { (p.storeUser userField p.i.toNat 0).next with separated := true, state := .data }) := by
  have hi0 : p.i ≠ 0 := by
    rw [Ne, h.i_eq_zero]
    omega
  have hdone : MonitorParser.remainingIsDone
      { (p.storeUser userField p.i.toNat 0).next with separated := true } = decide (k + 1 = total) :=
    h.remainingIsDone rfl rfl
  rw [feed_data st h.state, ha.data st p 0 h.target]
  simp only [Monitor.addState, hi0, false_and, ↓reduceIte, isAlnum_zero, h.separated, and_self, hdone,
    decide_eq_true_eq, Bool.false_eq_true]
  split
  · rfl
  · rfl

theorem feed_secretByte (st : Statics) (ha : Adding t userField secretField storeSecret)
    (h : Reading t true k total p) (hk : st.usernameLenWithNull ≤ k) (hpos : 0 < k) {c : Byte}
    (hc : isAlnum c = true) :
    monitorMachine.feed (st, p) c = (st,
      if k + 1 = total then
        { storeSecret (storeSecret p (k - st.usernameLenWithNull) c).next total 0 with
          separated := false, state := .done }
      else { (storeSecret p (k - st.usernameLenWithNull) c).next with state := .data }) := by
  have hi0 : p.i ≠ 0 := by
    rw [Ne, h.i_eq_zero]
    omega
  have hi : (storeSecret p (k - st.usernameLenWithNull) c).next.i = p.i + 1 := by
    rw [MonitorParser.next, ha.secret.i]
  have hlen : (storeSecret p (k - st.usernameLenWithNull) c).next.len = p.len := by
    rw [MonitorParser.next, ha.secret.len]
  rw [feed_data st h.state, ha.data st p c h.target]
  simp only [Monitor.addState, hi0, false_and, ↓reduceIte, hc, h.separated, Bool.true_eq_false,
    secretIndex_eq h hk, h.remainingIsDone hi hlen, decide_eq_true_eq, h.next_i hi]
  split
  · rename_i ht
    rw [ht]
  · rfl

theorem Kept.secretByte (hkeep : KeepsSecret storeSecret read) {u s : List Byte}
    (h : Kept read size p u s) (hs : s.length < size) (c : Byte) :
    Kept read size (storeSecret p s.length c) u (s ++ [c]) := by
  refine ⟨(hkeep.user ..).trans h.user, ?_⟩
  rw [hkeep.secret, h.secret, filled_set hs]

theorem Kept.terminator (hkeep : KeepsSecret storeSecret read) {u s : List Byte}
    (h : Kept read size p u s) {i : Nat} (hi : s.length ≤ i) :
    Kept read size (storeSecret p i 0) u s := by
  refine ⟨(hkeep.user ..).trans h.user, ?_⟩
  rw [hkeep.secret, h.secret, filled_set_zero size hi]

theorem ends_secret (st : Statics) (ha : Adding t userField secretField storeSecret)
    (hkeep : KeepsSecret storeSecret read) (h : Reading t true k total p) {bytes u s : List Byte}
    (hbytes : ∀ c ∈ bytes, isAlnum c = true) (hne : bytes ≠ [])
    (hk : k = st.usernameLenWithNull + s.length) (hpos : 0 < st.usernameLenWithNull)
    (hkept : Kept read size p u s) (htotal : k + bytes.length = total)
    (hfits : s.length + bytes.length ≤ size) :
    ∃ q, monitorMachine.Ends (st, p) bytes (st, q) ∧ q.state = .done ∧
      Kept read size q u (s ++ bytes) := by
  induction bytes generalizing p k s with
  | nil => exact absurd rfl hne
  | cons c bytes ih =>
    rw [List.length_cons] at htotal hfits
    have hfeed := feed_secretByte st ha h (by omega) (by omega) (hbytes c List.mem_cons_self)
    have hindex : k - st.usernameLenWithNull = s.length := by omega
    rw [hindex] at hfeed
    have hkept' := hkept.secretByte hkeep (by omega) c
    by_cases hlast : bytes = []
    · subst hlast
      rw [List.length_nil] at htotal
      rw [if_pos htotal] at hfeed
      have hend := Kept.terminator (p := (storeSecret p s.length c).next) (i := total) hkeep
        ⟨hkept'.user, hkept'.secret⟩ (by rw [List.length_append, List.length_singleton]; omega)
      exact ⟨_, (Machine.Reads.nil h.going).ends hfeed rfl, rfl, hend.user, hend.secret⟩
    · have hlen : 0 < bytes.length := List.length_pos_of_ne_nil hlast
      rw [if_neg (by omega)] at hfeed
      have hreading : Reading t true (k + 1) total
          { (storeSecret p s.length c).next with state := .data } := by
        refine ⟨rfl, ?_, ?_, ?_, ?_, by omega⟩
        · exact (ha.secret.target ..).trans h.target
        · exact (ha.secret.separated ..).trans h.separated
        · exact h.next_i (by rw [MonitorParser.next, ha.secret.i])
        · show max 1 (storeSecret p s.length c).len.toNat = total
          rw [ha.secret.len]
          exact h.len
      obtain ⟨q, hq, hdone, hqk⟩ := ih (s := s ++ [c]) hreading
        (fun b hb => hbytes b (List.mem_cons_of_mem c hb)) hlast
        (by rw [List.length_append, List.length_singleton]; omega)
        ⟨hkept'.user, hkept'.secret⟩ (by omega)
        (by rw [List.length_append, List.length_singleton]; omega)
      refine ⟨q, (Machine.Reads.single hfeed rfl).append_ends hq, hdone, ?_⟩
      rwa [List.append_assoc] at hqk

theorem ends_add (st : Statics) (ha : Adding t userField secretField storeSecret)
    (hkeep : KeepsSecret storeSecret read) (h : Reading t false 0 total p) {name bytes : List Byte}
    (hname : ∀ c ∈ name, isAlnum c = true) (hne : name ≠ []) (hlen : name.length < usernameSize)
    (hbytes : ∀ c ∈ bytes, isAlnum c = true) (hfits : bytes.length ≤ size)
    (htotal : (name ++ 0 :: bytes).length = total) (hkept : Kept read size p [] []) :
    ∃ st' q, monitorMachine.Ends (st, p) (name ++ 0 :: bytes) (st', q) ∧ q.state = .done ∧
      Kept read size q name bytes := by
  rw [List.length_append, List.length_cons] at htotal
  obtain ⟨p₁, hreads, hreading, hkept₁⟩ := reads_name st ha hkeep h hname rfl hkept
    (by omega) (by omega)
  rw [Nat.zero_add] at hreading
  rw [List.nil_append] at hkept₁
  have hpos : 0 < name.length := List.length_pos_of_ne_nil hne
  have hfeed := feed_separator st ha hreading hpos
  have hi : (p₁.i + 1).toNat = name.length + 1 :=
    hreading.next_i (q := (p₁.storeUser userField p₁.i.toNat 0).next) rfl
  have hkept₂ : Kept read size (p₁.storeUser userField p₁.i.toNat 0) name [] := by
    refine ⟨?_, (hkeep.name _ _).trans hkept₁.secret⟩
    show p₁.monitor.data.user.set p₁.i.toNat 0 = _
    rw [hkept₁.user, hreading.i, filled_set_zero _ (Nat.le_refl _)]
  by_cases hlast : bytes = []
  · subst hlast
    rw [List.length_nil] at htotal
    rw [if_pos (by omega)] at hfeed
    have hend := Kept.terminator (i := (p₁.i + 1).toNat)
      (p := { (p₁.storeUser userField p₁.i.toNat 0).next with separated := true }) hkeep
      ⟨hkept₂.user, hkept₂.secret⟩ (Nat.zero_le _)
    exact ⟨_, _, hreads.ends hfeed rfl, rfl, hend.user, hend.secret⟩
  · have hlen' : 0 < bytes.length := List.length_pos_of_ne_nil hlast
    rw [if_neg (by omega)] at hfeed
    have hreading' : Reading t true (name.length + 1) total
        { (p₁.storeUser userField p₁.i.toNat 0).next with separated := true, state := .data } :=
      ⟨rfl, hreading.target, rfl, hi, hreading.len, by omega⟩
    obtain ⟨q, hq, hdone, hqk⟩ := ends_secret (st.separatorAt p₁) (s := []) ha hkeep hreading'
      hbytes hlast (by rw [Statics.separatorAt, hi]; rfl)
      (by rw [Statics.separatorAt, hi]; exact Nat.succ_pos _)
      ⟨hkept₂.user, hkept₂.secret⟩ (by omega) (by rw [List.length_nil]; omega)
    refine ⟨st.separatorAt p₁, q, ?_, hdone, hqk⟩
    have hall := (hreads.append (.single hfeed rfl)).append_ends hq
    rwa [List.append_assoc] at hall

theorem feed_deleteByte (st : Statics) (hd : Deleting t) (h : Reading t false k total p) {c : Byte}
    (hc : isAlnum c = true) :
    monitorMachine.feed (st, p) c = (st,
      if k + 1 = total then
        { (p.storeUser .dataUser k c).next.storeUser .dataUser total 0 with state := .done }
      else { (p.storeUser .dataUser k c).next with state := .data }) := by
  have hlast := h.remainingIsDone (q := (p.storeUser .dataUser k c).next) rfl rfl
  have hi := h.next_i (q := (p.storeUser .dataUser k c).next) rfl
  rw [feed_data st h.state, hd.data h.target]
  simp only [Monitor.deleteState, hc, ↓reduceIte, h.i, hlast, hi, decide_eq_true_eq]
  split
  · rename_i ht
    rw [ht]
  · rfl

theorem ends_delete (st : Statics) (hd : Deleting t) (h : Reading t false k total p) {name u : List Byte}
    (hname : ∀ c ∈ name, isAlnum c = true) (hne : name ≠ []) (hu : u.length = k)
    (hkept : p.monitor.data.user = filled usernameSize u) (htotal : k + name.length = total)
    (hfits : k + name.length ≤ usernameSize) :
    ∃ q, monitorMachine.Ends (st, p) name (st, q) ∧ q.state = .done ∧
      q.monitor.data.user = filled usernameSize (u ++ name) := by
  induction name generalizing p k u with
  | nil => exact absurd rfl hne
  | cons c name ih =>
    rw [List.length_cons] at htotal hfits
    have hfeed := feed_deleteByte st hd h (hname c List.mem_cons_self)
    have hkept' : (p.storeUser .dataUser k c).monitor.data.user = filled usernameSize (u ++ [c]) := by
      show p.monitor.data.user.set k c = _
      rw [hkept, ← hu, filled_set (by omega)]
    by_cases hlast : name = []
    · subst hlast
      rw [List.length_nil] at htotal
      rw [if_pos htotal] at hfeed
      refine ⟨_, (Machine.Reads.nil h.going).ends hfeed rfl, rfl, ?_⟩
      show (p.storeUser .dataUser k c).monitor.data.user.set total 0 = _
      rw [hkept', filled_set_zero _ (by rw [List.length_append, List.length_singleton]; omega)]
    · have hlen : 0 < name.length := List.length_pos_of_ne_nil hlast
      rw [if_neg (by omega)] at hfeed
      have hreading : Reading t false (k + 1) total
          { (p.storeUser .dataUser k c).next with state := .data } :=
        ⟨rfl, h.target, h.separated, h.next_i rfl, h.len, by omega⟩
      obtain ⟨q, hq, hdone, hqk⟩ := ih (u := u ++ [c]) hreading
        (fun b hb => hname b (List.mem_cons_of_mem c hb)) hlast
        (by rw [List.length_append, List.length_singleton]; omega) hkept' (by omega) (by omega)
      refine ⟨q, (Machine.Reads.single hfeed rfl).append_ends hq, hdone, ?_⟩
      rwa [List.append_assoc] at hqk

end

theorem Expects.reading {t : Byte} {dlen : UInt16} {p : MonitorParser} (h : Expects t dlen p)
    (ht : t ≠ monitorTargetConfigPop3disector) (hpos : 0 < dlen.toNat) :
    Reading t false 0 dlen.toNat p := by
  obtain ⟨hi, hlen⟩ := h.remaining ht
  refine ⟨h.state, h.target, h.separated, by rw [hi]; rfl, ?_, hpos⟩
  rw [hlen, Nat.max_eq_right hpos]

end Socks5d
