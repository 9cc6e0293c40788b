import Socks5d.Monitor.Tables
import Socks5d.Monitor.Stores

/-!
# Monitor requests are authorised and atomic

A request is followed from the bytes of its connection to the response. The
parser keeps the token, the method and the target that it read (`Header`), only
the token of an administrator gets past `monitor_is_admin`, an operation that
fails changes nothing, and every answer is one that `monitor_marshall` can frame.
-/

namespace Socks5d

open Lib (Machine)

-- ---------------------------------------------------------------------------
-- What the parser keeps of the bytes
-- ---------------------------------------------------------------------------

structure HeaderRead (read : List Byte) (m : Monitor) : Prop where
  bytes : ∃ rest, read = 1 :: (m.token ++ m.method :: m.target :: rest)
  length : m.token.length = tokenSize
  method : m.method = monitorMethodGet ∨ m.method = monitorMethodConfig ∧ ConfigTarget m.target

def Header (read : List Byte) (p : MonitorParser) : Prop :=
  match p.state with
  | .version => read = [] ∧ p.monitor.token.length = tokenSize
  | .token => ∃ t, read = 1 :: t ∧ p.i.toNat = t.length ∧ t.length < tokenSize ∧ p.len = 16 ∧
      p.monitor.token.take t.length = t ∧ p.monitor.token.length = tokenSize
  | .method => read = 1 :: p.monitor.token ∧ p.monitor.token.length = tokenSize
  | .target => read = 1 :: (p.monitor.token ++ [p.monitor.method]) ∧
      p.monitor.token.length = tokenSize
  | .dlen | .data | .done => HeaderRead read p.monitor
  | _ => True

theorem Header.init : Header [] monitorParserInit := ⟨rfl, rfl⟩

theorem Header.of_read {read : List Byte} {p : MonitorParser} (h : HeaderRead read p.monitor)
    (hst : MonitorState.dlen.toNat ≤ p.state.toNat) : Header read p := by
  unfold Header
  cases hs : p.state with
  | version | token | method | target => simp [hs, MonitorState.toNat] at hst
  | dlen | data | done => exact h
  | _ => trivial

structure SameHeader (m m' : Monitor) : Prop where
  token : m'.token = m.token
  method : m'.method = m.method
  target : m'.target = m.target

theorem SameHeader.refl (m : Monitor) : SameHeader m m := ⟨rfl, rfl, rfl⟩

theorem SameHeader.trans {m m' m'' : Monitor} (h : SameHeader m m') (h' : SameHeader m' m'') :
    SameHeader m m'' :=
  ⟨h'.token.trans h.token, h'.method.trans h.method, h'.target.trans h.target⟩

theorem HeaderRead.next {read : List Byte} {m m' : Monitor} (h : HeaderRead read m)
    (hsame : SameHeader m m') (c : Byte) : HeaderRead (read ++ [c]) m' := by
  obtain ⟨rest, rfl⟩ := h.bytes
  refine ⟨⟨rest ++ [c], ?_⟩, ?_, ?_⟩
  · rw [hsame.token, hsame.method, hsame.target]
    simp
  · rw [hsame.token]
    exact h.length
  · rw [hsame.method, hsame.target]
    exact h.method

theorem storeUser_header (p : MonitorParser) (field : Field) (n : Nat) (c : Byte) :
    SameHeader p.monitor (p.storeUser field n c).monitor := ⟨rfl, rfl, rfl⟩

theorem storePass_header (p : MonitorParser) (n : Nat) (c : Byte) :
    SameHeader p.monitor (p.storePass n c).monitor := ⟨rfl, rfl, rfl⟩

theorem storeToken_header (p : MonitorParser) (n : Nat) (c : Byte) :
    SameHeader p.monitor (p.storeToken n c).monitor := ⟨rfl, rfl, rfl⟩

structure KeepsHeader (p : MonitorParser) (r : Statics × MonitorParser × MonitorState) : Prop where
  header : SameHeader p.monitor r.2.1.monitor
  state : MonitorState.dlen.toNat ≤ r.2.2.toNat

theorem dlenState_header (c : Byte) (st : Statics) (p : MonitorParser) :
    KeepsHeader p (Monitor.dlenState c st p) := by
  have hstate : MonitorState.dlen.toNat ≤ (Monitor.dlenState c st p).2.2.toNat := by
    unfold Monitor.dlenState
    dsimp only
    split_ifs <;> simp [MonitorState.toNat]
  refine ⟨?_, hstate⟩
  unfold Monitor.dlenState
  dsimp only
  split_ifs <;> exact ⟨rfl, rfl, rfl⟩

theorem addState_header {storeSecret : MonitorParser → Nat → Byte → MonitorParser}
    (hsec : ∀ p n c, SameHeader p.monitor (storeSecret p n c).monitor) (userField : Field) (c : Byte)
    (st : Statics) (p : MonitorParser) :
    KeepsHeader p (Monitor.addState userField storeSecret c st p) := by
  have hstate : MonitorState.dlen.toNat ≤
      (Monitor.addState userField storeSecret c st p).2.2.toNat := by
    unfold Monitor.addState
    dsimp only
    split_ifs <;> simp [MonitorState.toNat]
  have huser := storeUser_header p userField p.i.toNat c
  refine ⟨?_, hstate⟩
  unfold Monitor.addState
  dsimp only
  split_ifs
  · exact .refl _
  · exact huser.trans (hsec (p.storeUser userField p.i.toNat c).next _ 0)
  · exact huser
  · exact (hsec p _ c).trans (hsec (storeSecret p _ c).next _ 0)
  · exact hsec p _ c
  · exact huser.trans
      (hsec { (p.storeUser userField p.i.toNat c).next with separated := true } _ 0)
  · exact huser
  · exact .refl _

theorem deleteState_header (c : Byte) (st : Statics) (p : MonitorParser) :
    KeepsHeader p (st, Monitor.deleteState c p) := by
  have hstate : MonitorState.dlen.toNat ≤ (Monitor.deleteState c p).2.toNat := by
    unfold Monitor.deleteState
    dsimp only
    split_ifs <;> simp [MonitorState.toNat]
  have huser := storeUser_header p .dataUser p.i.toNat c
  refine ⟨?_, hstate⟩
  unfold Monitor.deleteState
  dsimp only
  split_ifs
  · exact huser.trans (storeUser_header (p.storeUser .dataUser p.i.toNat c).next .dataUser _ 0)
  · exact huser
  · exact .refl _

theorem dataState_header (c : Byte) (st : Statics) (p : MonitorParser) :
    KeepsHeader p (Monitor.dataState c st p) := by
  unfold Monitor.dataState
  split
  · exact ⟨⟨rfl, rfl, rfl⟩, by simp [MonitorState.toNat]⟩
  split
  · exact addState_header storePass_header .proxyUser c st p
  split
  · exact deleteState_header c st p
  split
  · exact addState_header storeToken_header .adminUser c st p
  split
  · exact deleteState_header c st p
  · exact ⟨.refl _, by simp [MonitorState.toNat]⟩

theorem Header.token_step {read : List Byte} {p : MonitorParser} (hs : p.state = .token)
    (h : Header read p) (c : Byte) (st : Statics) :
    Header (read ++ [c]) (monitorParserFeed st p c).2 := by
  rw [Header, hs] at h
  obtain ⟨t, rfl, hi, hlt, hlen, htake, htoken⟩ := h
  have hsucc : (p.i + 1).toNat = t.length + 1 := by
    rw [UInt16.toNat_add, hi, UInt16.toNat_one]
    simp only [tokenSize] at hlt
    omega
  have hset : (p.monitor.token.set p.i.toNat c).take (t.length + 1) = t ++ [c] := by
    rw [hi, List.take_add_one, List.take_set_of_le (Nat.le_refl _), htake]
    simp [htoken, hlt]
  have hlength : (p.monitor.token.set p.i.toNat c).length = tokenSize := by
    rw [List.length_set, htoken]
  have hdone : ((p.i + 1 ≥ p.len) : Bool) = decide (tokenSize ≤ t.length + 1) := by
    rw [hlen]
    simp only [ge_iff_le, UInt16.le_iff_toNat_le, hsucc, tokenSize]
    rfl
  simp only [monitorParserFeed_eq, monitorParserNext, hs, Monitor.tokenState,
    MonitorParser.remainingIsDone, MonitorParser.next, MonitorParser.storing, hdone]
  by_cases hfull : tokenSize ≤ t.length + 1
  · simp only [hfull, decide_true, ↓reduceIte, Header]
    rw [List.take_of_length_le (hlength ▸ hfull)] at hset
    exact ⟨by rw [hset]; rfl, hlength⟩
  · simp only [hfull, decide_false, Bool.false_eq_true, ↓reduceIte, Header]
    exact ⟨t ++ [c], rfl, by simpa using hsucc, by simpa using hfull, hlen, by simpa using hset,
      hlength⟩

theorem Header.target_step {read : List Byte} {p : MonitorParser} (hs : p.state = .target)
    (h : Header read p) (c : Byte) (st : Statics) :
    Header (read ++ [c]) (monitorParserFeed st p c).2 := by
  rw [Header, hs] at h
  obtain ⟨rfl, hlen⟩ := h
  have hbytes : ∃ rest, 1 :: (p.monitor.token ++ [p.monitor.method]) ++ [c] =
      1 :: (p.monitor.token ++ p.monitor.method :: c :: rest) := ⟨[], by simp⟩
  simp only [monitorParserFeed_eq, monitorParserNext, hs, Monitor.targetState]
  split_ifs with hget _ hconfig htarget
  · exact ⟨hbytes, hlen, .inl hget⟩
  · trivial
  · exact ⟨hbytes, hlen, .inr ⟨hconfig, htarget⟩⟩
  · trivial
  · trivial

theorem Header.step (read : List Byte) (s : Statics × MonitorParser) (c : Byte)
    (hd : monitorMachine.done s = false) (h : Header read s.2) :
    Header (read ++ [c]) (monitorMachine.feed s c).2 := by
  obtain ⟨st, p⟩ := s
  show Header _ (monitorParserFeed st p c).2
  cases hs : p.state with
  | version =>
    rw [Header, hs] at h
    obtain ⟨rfl, hlen⟩ := h
    simp only [monitorParserFeed_eq, monitorParserNext, hs, Monitor.versionState]
    split_ifs with hc
    · subst hc
      exact ⟨[], rfl, rfl, by decide, rfl, rfl, hlen⟩
    · trivial
  | token => exact Header.token_step hs h c st
  | method =>
    rw [Header, hs] at h
    obtain ⟨rfl, hlen⟩ := h
    simp only [monitorParserFeed_eq, monitorParserNext, hs, Monitor.methodState]
    split_ifs
    · exact ⟨by simp, hlen⟩
    · trivial
  | target => exact Header.target_step hs h c st
  | dlen =>
    rw [Header, hs] at h
    obtain ⟨hsame, hst⟩ := dlenState_header c st p
    simp only [monitorParserFeed_eq, monitorParserNext, hs]
    exact .of_read (h.next hsame c) hst
  | data =>
    rw [Header, hs] at h
    obtain ⟨hsame, hst⟩ := dataState_header c st p
    simp only [monitorParserFeed_eq, monitorParserNext, hs]
    exact .of_read (h.next hsame c) hst
  | _ => simp [monitorMachine, hs, monitorIsDone, MonitorState.toNat] at hd

-- ---------------------------------------------------------------------------
-- The responses
-- ---------------------------------------------------------------------------

theorem bufferWriteAll_spec (bytes : List Byte) {b : Buffer} (h : bytes.length ≤ b.space) :
    (bufferWriteAll b bytes).content = b.content ++ bytes ∧
      (bufferWriteAll b bytes).space = b.space - bytes.length := by
  induction bytes generalizing b with
  | nil => exact ⟨(List.append_nil _).symm, rfl⟩
  | cons c bytes ih =>
    rw [List.length_cons] at h
    obtain ⟨hcontent, hspace, -⟩ := Buffer.bufferWrite_spec c (b := b) (by omega)
    obtain ⟨hc, hs⟩ := ih (b := bufferWrite b c) (by omega)
    refine ⟨?_, ?_⟩
    · show (bufferWriteAll (bufferWrite b c) bytes).content = _
      rw [hc, hcontent, List.append_assoc, List.singleton_append]
    · show (bufferWriteAll (bufferWrite b c) bytes).space = _
      rw [hs, hspace, List.length_cons]
      omega

namespace Answer

def bytes (a : Answer) : List Byte :=
  match a.numericData, a.data with
  | true, some word => htonl word
  | _, none => [0]
  | false, some bytes => bytes.take a.dlen.toNat

structure Framed (a : Answer) : Prop where
  room : a.dlen.toNat + 3 ≤ 0xffff
  length : a.bytes.length = a.dlen.toNat
  number : a.numericData = true → ∃ word, a.data = some word ∧ 4 ≤ word.length
  data : a.numericData = false → ∀ bytes, a.data = some bytes → a.dlen.toNat ≤ bytes.length

theorem framed_status (status : MonitorStatus) (errorResponse : Int) :
    Framed { status, errorResponse } :=
  ⟨(by decide : (1 : UInt16).toNat + 3 ≤ 0xffff), rfl, nofun, nofun⟩

theorem framed_number (n : UInt32) : (number n).Framed :=
  ⟨(by decide : (4 : UInt16).toNat + 3 ≤ 0xffff), rfl, fun _ => ⟨_, rfl, Nat.le_refl 4⟩, nofun⟩

theorem framed_names {names : UInt16 × List Byte}
    (h : names.1.toNat ≤ names.2.length ∧ names.1.toNat + 3 ≤ 0xffff) :
    (Answer.names names).Framed := by
  have hlen : (names.2.take names.1.toNat).length = names.1.toNat := List.length_take_of_le h.1
  refine ⟨h.2, ?_, nofun, ?_⟩
  · show ((names.2.take names.1.toNat).take names.1.toNat).length = _
    rw [List.take_take, Nat.min_self, hlen]
    rfl
  · rintro - _ ⟨⟩
    exact Nat.le_of_eq hlen.symm

end Answer

theorem monitorMarshall_framed {a : Answer} (ha : a.Framed) (status : MonitorStatus) {b : Buffer}
    (hb : b.space = 0xffff) :
    ∃ b', monitorMarshall b status a.dlen a.data a.numericData = .ok (some b') ∧
      b'.content = b.content ++ (status.toByte :: (htons a.dlen ++ a.bytes)) := by
  have hroom := ha.room
  have hhead : ([status.toByte] ++ htons a.dlen).length = 3 := rfl
  obtain ⟨hc, hs⟩ := bufferWriteAll_spec (b := b) ([status.toByte] ++ htons a.dlen)
    (by rw [hhead]; omega)
  have hdata (bytes : List Byte) (hbytes : bytes = a.bytes) :
      (bufferWriteAll (bufferWriteAll b ([status.toByte] ++ htons a.dlen)) bytes).content =
        b.content ++ (status.toByte :: (htons a.dlen ++ a.bytes)) := by
    subst hbytes
    rw [(bufferWriteAll_spec _ (by rw [hs, hhead, ha.length]; omega)).1, hc]
    simp
  have hspace : ¬ bufferWritePtr b < a.dlen.toNat + 3 := by
    rw [bufferWritePtr, hb]
    omega
  unfold monitorMarshall
  rw [if_neg hspace]
  cases hn : a.numericData with
  | true =>
    obtain ⟨word, hword, hlen⟩ := ha.number hn
    simp only [hword, Nat.not_lt.mpr hlen, ↓reduceIte]
    exact ⟨_, rfl, hdata _ (by simp only [Answer.bytes, hn, hword])⟩
  | false =>
    cases hd : a.data with
    | none =>
      refine ⟨bufferWriteAll (bufferWriteAll b ([status.toByte] ++ htons a.dlen)) [0], rfl, ?_⟩
      exact hdata [0] (by simp only [Answer.bytes, hd])
    | some bytes =>
      simp only [Nat.not_lt.mpr (ha.data hn bytes hd), ↓reduceIte]
      exact ⟨_, rfl, hdata _ (by simp only [Answer.bytes, hn, hd])⟩

theorem monitorErrorMarshall_spec {b : Buffer} (hb : b.space = 0xffff) (p : MonitorParser) :
    ∃ b', monitorErrorMarshall b p = some b' ∧
      b'.content = b.content ++ ((errorStatus p.state).toByte :: (htons 1 ++ [0])) := by
  have hspace : ¬ bufferWritePtr b < 4 := by
    rw [bufferWritePtr, hb]
    decide
  refine ⟨_, if_neg hspace, ?_⟩
  rw [(bufferWriteAll_spec _ (by rw [hb]; simp [htons])).1]
  simp

-- ---------------------------------------------------------------------------
-- The operations
-- ---------------------------------------------------------------------------

inductive Operation
  | toggleDisector (value : Bool)
  | registerUser (uname passwd : CStr)
  | unregisterUser (uname : CStr)
  | registerAdmin (uname token : CStr)
  | unregisterAdmin (uname : CStr)

def Operation.run (s : Shared) : Operation → Shared × Int
  | toggleDisector value => (s.setDisector value, 0)
  | registerUser uname passwd =>
    let r := socksv5RegisterUser s.globals.users uname passwd
    (s.setUsers r.1, r.2)
  | unregisterUser uname =>
    let r := socksv5UnregisterUser s.globals.users uname
    (s.setUsers r.1, r.2)
  | registerAdmin uname token =>
    let r := monitorRegisterAdmin s.admins uname token
    ({ s with admins := r.1 }, r.2)
  | unregisterAdmin uname =>
    let r := monitorUnregisterAdmin s.admins uname
    ({ s with admins := r.1 }, r.2)

def Monitor.operation (m : Monitor) : Option Operation :=
  if m.target = monitorTargetConfigPop3disector then
    some (.toggleDisector (m.data.disectorDataParams = 0x01))
  else if m.target = monitorTargetConfigAddProxyuser then
    some (.registerUser m.proxyUser m.proxyPass)
  else if m.target = monitorTargetConfigDeleteProxyuser then some (.unregisterUser m.user)
  else if m.target = monitorTargetConfigAddAdmin then
    some (.registerAdmin m.adminUser m.adminToken)
  else if m.target = monitorTargetConfigDeleteAdmin then some (.unregisterAdmin m.user)
  else none

/-- What the declarations and the operations make sure of. -/
structure Shared.Valid (s : Shared) : Prop where
  users : s.globals.users.Whole
  admins : s.admins.Valid

theorem Operation.run_failed {s : Shared} {op : Operation} (h : (op.run s).2 ≠ 0) :
    (op.run s).1 = s := by
  cases op with
  | toggleDisector value => exact absurd rfl h
  | registerUser uname passwd =>
    exact congrArg s.setUsers (socksv5RegisterUser_failed h)
  | unregisterUser uname => exact congrArg s.setUsers (socksv5UnregisterUser_failed h)
  | registerAdmin uname token =>
    exact congrArg (fun admins => { s with admins }) (monitorRegisterAdmin_failed h)
  | unregisterAdmin uname =>
    exact congrArg (fun admins => { s with admins }) (monitorUnregisterAdmin_failed h)

theorem Operation.run_valid {s : Shared} (hs : s.Valid) (op : Operation) : (op.run s).1.Valid := by
  cases op with
  | toggleDisector value => exact ⟨hs.users, hs.admins⟩
  | registerUser uname passwd => exact ⟨hs.users.register uname passwd, hs.admins⟩
  | unregisterUser uname => exact ⟨hs.users.unregister uname, hs.admins⟩
  | registerAdmin uname token => exact ⟨hs.users, hs.admins.register uname token⟩
  | unregisterAdmin uname => exact ⟨hs.users, hs.admins.unregister uname⟩

theorem monitorConfig_eq (s : Shared) {m : Monitor} (ht : ConfigTarget m.target) :
    ∃ op, m.operation = some op ∧
      monitorConfig s m = ((op.run s).1, { status := .succeeded, errorResponse := (op.run s).2 }) := by
  unfold Monitor.operation monitorConfig
  split
  · exact ⟨_, rfl, rfl⟩
  split
  · exact ⟨_, rfl, rfl⟩
  split
  · exact ⟨_, rfl, rfl⟩
  split
  · exact ⟨_, rfl, rfl⟩
  split
  · exact ⟨_, rfl, rfl⟩
  · rename_i h0 h1 h2 h3 h4
    rcases ht with h | h | h | h | h
    · exact absurd h h0
    · exact absurd h h1
    · exact absurd h h2
    · exact absurd h h3
    · exact absurd h h4

theorem Operation.run_statics (s : Shared) (statics : Statics) (op : Operation) :
    op.run { s with statics } = ({ (op.run s).1 with statics }, (op.run s).2) := by
  cases op <;> rfl

theorem monitorGet_framed {s : Shared} (hs : s.Valid) (target : Byte) :
    (monitorGet s target).Framed := by
  unfold monitorGet
  split
  · exact Answer.framed_number _
  split
  · exact Answer.framed_number _
  split
  · exact Answer.framed_number _
  split
  · exact Answer.framed_names (listNames_le hs.users.names_fit)
  split
  · exact Answer.framed_names (listNames_le hs.admins.names_fit)
  · exact Answer.framed_status _ _

theorem MonitorStatus.toByte_eq_zero {status : MonitorStatus} :
    status.toByte = 0 ↔ status = .succeeded := by
  cases status <;> decide

theorem errorStatus_ne_zero (st : MonitorState) : (errorStatus st).toByte ≠ 0 := by
  cases st <;> decide

-- ---------------------------------------------------------------------------
-- One request
-- ---------------------------------------------------------------------------

structure Shared.Same (s s' : Shared) : Prop where
  globals : s'.globals = s.globals
  admins : s'.admins = s.admins

def tokenOf (stream : List Byte) : List Byte := (stream.drop 1).take tokenSize

/-- The response with `status` and `data` to the request in the stream, which the
parser `p` has read, and what it did to the state. -/
structure Responds (s s' : Shared) (stream : List Byte) (p : MonitorParser) (status : Byte)
    (data : List Byte) : Prop where
  valid : s'.Valid
  header : p.state = .done → p.monitor.token = tokenOf stream ∧
    ∃ rest, stream = 1 :: (p.monitor.token ++ p.monitor.method :: p.monitor.target :: rest)
  malformed : p.state ≠ .done → status ≠ 0 ∧ data = [0]
  unauthorised : ¬ s.admins.Registered (tokenOf stream) → status ≠ 0 ∧ data = [0]
  get : p.state = .done → p.monitor.method = monitorMethodGet → s.Same s'
  config : p.state = .done → p.monitor.method = monitorMethodConfig →
    s.admins.Registered (tokenOf stream) →
    ∃ op, p.monitor.operation = some op ∧ (status = 0 ↔ (op.run s).2 = 0) ∧
      (status = 0 → (op.run s).1.Same s')
  failed : status ≠ 0 → s.Same s'

theorem HeaderRead.tokenOf_eq {read : List Byte} {m : Monitor} (h : HeaderRead read m)
    (more : List Byte) : tokenOf (read ++ more) = m.token := by
  obtain ⟨rest, rfl⟩ := h.bytes
  show List.take tokenSize (m.token ++ _ ++ more) = m.token
  rw [List.append_assoc, ← h.length, List.take_left]

theorem Operation.responds (op : Operation) {s : Shared} {a : Answer}
    (ha : a = { status := .succeeded, errorResponse := (op.run s).2 }) :
    (a.final.toByte = 0 ↔ (op.run s).2 = 0) := by
  subst ha
  rw [MonitorStatus.toByte_eq_zero, Answer.final]
  by_cases hr : (op.run s).2 = 0
  · simp [hr]
  · simp [hr]

theorem monitorAnswer_responds {s : Shared} (hs : s.Valid) {p : MonitorParser} {read : List Byte}
    (hd : p.state = .done) (h : HeaderRead read p.monitor) (more : List Byte) (statics : Statics) :
    (monitorAnswer { s with statics } p.monitor).2.Framed ∧
      Responds s (monitorAnswer { s with statics } p.monitor).1 (read ++ more) p
        (monitorAnswer { s with statics } p.monitor).2.final.toByte
        (monitorAnswer { s with statics } p.monitor).2.bytes := by
  have htoken := h.tokenOf_eq more
  have hadmin := hs.admins.isAdmin_iff h.length
  obtain ⟨rest, hbytes⟩ := h.bytes
  have hheader : p.state = .done → p.monitor.token = tokenOf (read ++ more) ∧ ∃ rest, read ++ more =
      1 :: (p.monitor.token ++ p.monitor.method :: p.monitor.target :: rest) :=
    fun _ => ⟨htoken.symm, rest ++ more, by rw [hbytes]; simp⟩
  have hsame : s.Same { s with statics } := ⟨rfl, rfl⟩
  have hvalid : Shared.Valid { s with statics } := ⟨hs.users, hs.admins⟩
  have hnotDone : p.state ≠ .done → False := fun hn => hn hd
  unfold monitorAnswer
  show Answer.Framed (if monitorIsAdmin s.admins p.monitor.token = false then _ else _ : _ × _).2 ∧ _
  by_cases hreg : s.admins.Registered p.monitor.token
  · rw [hadmin.mpr hreg, if_neg (by decide)]
    rcases h.method with hget | ⟨hconfig, htarget⟩
    · rw [if_pos hget]
      refine ⟨monitorGet_framed hvalid _, hvalid, hheader, fun hn => (hnotDone hn).elim,
        fun hno => absurd (htoken ▸ hreg) hno, fun _ _ => hsame, fun _ hc => ?_, fun _ => hsame⟩
      exact absurd (hget.symm.trans hc) (by decide)
    · have hne : p.monitor.method ≠ monitorMethodGet := by
        rw [hconfig]
        decide
      rw [if_neg hne, if_pos hconfig]
      obtain ⟨op, hop, heq⟩ := monitorConfig_eq { s with statics } htarget
      rw [Operation.run_statics] at heq
      rw [heq]
      have hzero := Operation.responds op (s := s) rfl
      refine ⟨Answer.framed_status _ _, ⟨(op.run_valid hs).users, (op.run_valid hs).admins⟩, hheader,
        fun hn => (hnotDone hn).elim, fun hno => absurd (htoken ▸ hreg) hno,
        fun _ hg => absurd hg hne, fun _ _ _ => ⟨op, hop, hzero, fun _ => ⟨rfl, rfl⟩⟩, fun hne => ?_⟩
      have hrun : (op.run s).1 = s := Operation.run_failed (mt hzero.mpr hne)
      have hglobals : (op.run s).1.globals = s.globals := congrArg Shared.globals hrun
      have hadmins : (op.run s).1.admins = s.admins := congrArg Shared.admins hrun
      exact ⟨hglobals, hadmins⟩
  · rw [Bool.eq_false_iff.mpr (mt hadmin.mp hreg), if_pos rfl]
    have hne : MonitorStatus.errorAuth.toByte ≠ 0 := by decide
    refine ⟨Answer.framed_status _ _, hvalid, hheader, fun hn => (hnotDone hn).elim,
      fun _ => ⟨hne, rfl⟩, fun _ _ => hsame, fun _ _ hr => ?_, fun _ => hsame⟩
    exact absurd (htoken ▸ hr) hreg

-- ---------------------------------------------------------------------------
-- What the parser has of the bytes
-- ---------------------------------------------------------------------------

inductive Parsed : List Byte → MonitorParser → Prop
  | start : Parsed [] monitorParserInit
  | feed {read : List Byte} {p : MonitorParser} (h : Parsed read p)
      (hd : monitorIsDone p.state = false) (st : Statics) (c : Byte) :
      Parsed (read ++ [c]) (monitorParserFeed st p c).2
  | rest {read : List Byte} {p : MonitorParser} (h : Parsed read p)
      (hd : monitorIsDone p.state = true) (more : List Byte) : Parsed (read ++ more) p

theorem Parsed.read {read : List Byte} {s : Statics × MonitorParser} (h : Parsed read s.2)
    (hd : monitorMachine.done s = false) (chunk : List Byte) :
    Parsed (read ++ chunk) (monitorMachine.consume s chunk).1.2 := by
  obtain ⟨more, hmore, hparsed⟩ := monitorMachine.consume_history
    (I := fun read s => Parsed read s.2) (fun _ s c hd h => h.feed hd s.1 c) hd h chunk
  cases hend : monitorMachine.done (monitorMachine.consume s chunk).1 with
  | true =>
    have hrest := hparsed.rest hend (monitorMachine.consume s chunk).2
    rwa [List.append_assoc, ← hmore] at hrest
  | false =>
    rw [monitorMachine.consume_rest hend, List.append_nil] at hmore
    subst hmore
    exact hparsed

theorem addState_next (userField : Field)
    (storeSecret : MonitorParser → Nat → Byte → MonitorParser) (c : Byte) (st : Statics)
    (p : MonitorParser) :
    (Monitor.addState userField storeSecret c st p).2.2 ≠ .errorInvalidToken := by
  simp only [Monitor.addState]
  split_ifs <;> simp

theorem deleteState_next (c : Byte) (p : MonitorParser) :
    (Monitor.deleteState c p).2 ≠ .errorInvalidToken := by
  simp only [Monitor.deleteState]
  split_ifs <;> simp

/-- No byte of a token is refused: `monitor_error_invalid_token` is never reached. -/
theorem Parsed.token {read : List Byte} {p : MonitorParser} (h : Parsed read p) :
    p.state ≠ .errorInvalidToken := by
  induction h with
  | start => decide
  | rest _ _ _ ih => exact ih
  | @feed read p _ hd st c _ =>
    rw [monitorParserFeed_eq]
    dsimp only
    cases hs : p.state with
    | version =>
      simp only [monitorParserNext, hs, Monitor.versionState]
      split_ifs <;> simp
    | token =>
      simp only [monitorParserNext, hs, Monitor.tokenState]
      split_ifs <;> simp
    | method =>
      simp only [monitorParserNext, hs, Monitor.methodState]
      split_ifs <;> simp
    | target =>
      simp only [monitorParserNext, hs, Monitor.targetState]
      split_ifs <;> simp
    | dlen =>
      simp only [monitorParserNext, hs, Monitor.dlenState]
      split_ifs <;> simp
    | data =>
      simp only [monitorParserNext, hs, Monitor.dataState]
      split_ifs
      · simp
      · exact addState_next _ _ c st p
      · exact deleteState_next c p
      · exact addState_next _ _ c st p
      · exact deleteState_next c p
      · simp
    | _ =>
      rw [hs] at hd
      cases hd

-- ---------------------------------------------------------------------------
-- A connection
-- ---------------------------------------------------------------------------

structure MonitorConnection.Waits (k : MonitorConnection) (read : List Byte) : Prop where
  ready : k.reading.Ready
  parsing : monitorIsDone k.reading.parser.state = false
  header : Header read k.reading.parser
  parsed : Parsed read k.reading.parser
  empty : k.writeBuffer.content = []
  space : k.writeBuffer.space = 0xffff
  interest : k.interest = opRead

theorem MonitorConnection.waits_new : MonitorConnection.Waits {} [] where
  ready := monitorConnNew_ready
  parsing := rfl
  header := Header.init
  parsed := .start
  empty := Buffer.content_bufferInit _
  space := (Buffer.space_bufferInit _).trans List.length_replicate
  interest := rfl

/-- What is in the write buffer: STATUS, DLEN in network order and DLEN bytes. -/
def Buffer.HoldsResponse (b : Buffer) (status : Byte) (data : List Byte) : Prop :=
  ∃ dlen : UInt16, dlen.toNat = data.length ∧ b.content = status :: (htons dlen ++ data)

def MonitorConnection.Answered (k : MonitorConnection) (s s' : Shared) (stream : List Byte) : Prop :=
  ∃ status data, k.writeBuffer.HoldsResponse status data ∧
    Responds s s' stream k.reading.parser status data

theorem monitorProcess_eq {s : Shared} {k : MonitorConnection} {b : Buffer}
    (h : monitorMarshall k.writeBuffer (monitorAnswer s k.reading.parser.monitor).2.final
      (monitorAnswer s k.reading.parser.monitor).2.dlen
      (monitorAnswer s k.reading.parser.monitor).2.data
      (monitorAnswer s k.reading.parser.monitor).2.numericData = .ok (some b)) :
    monitorProcess s k = .ok ((monitorAnswer s k.reading.parser.monitor).1, { k with
      status := (monitorAnswer s k.reading.parser.monitor).2.final
      writeBuffer := b }) := by
  unfold monitorProcess
  generalize monitorAnswer s k.reading.parser.monitor = r at h ⊢
  obtain ⟨s', a⟩ := r
  dsimp only at h ⊢
  rw [h]
  rfl

theorem MonitorConnection.responds {s : Shared} (hs : s.Valid) (statics : Statics)
    {k : MonitorConnection} {read : List Byte} (hd : monitorIsDone k.reading.parser.state = true)
    (hheader : Header read k.reading.parser) (hempty : k.writeBuffer.content = [])
    (hspace : k.writeBuffer.space = 0xffff) :
    ∃ s' k', monitorRespond { s with statics } k = .ok (s', k') ∧
      k'.reading = k.reading ∧ ∀ more, k'.Answered s s' (read ++ more) := by
  unfold monitorRespond
  by_cases hdone : k.reading.parser.state = .done
  · rw [Header, hdone] at hheader
    obtain ⟨hframed, -⟩ := monitorAnswer_responds hs hdone hheader [] statics
    obtain ⟨b, hb, hcontent⟩ := monitorMarshall_framed hframed
      (monitorAnswer { s with statics } k.reading.parser.monitor).2.final hspace
    rw [hdone, if_neg (by decide), monitorProcess_eq hb]
    refine ⟨_, _, rfl, rfl, fun more => ⟨_, _, ⟨_, hframed.length.symm, hcontent.trans ?_⟩,
      (monitorAnswer_responds hs hdone hheader more statics).2⟩⟩
    rw [hempty, List.nil_append]
  · have herror : k.reading.parser.state.toNat ≥ MonitorState.error.toNat := by
      revert hd hdone
      cases k.reading.parser.state <;> decide
    obtain ⟨b, hb, hcontent⟩ := monitorErrorMarshall_spec hspace k.reading.parser
    rw [if_pos herror, hb]
    have hsame : s.Same { s with statics } := ⟨rfl, rfl⟩
    have hne := errorStatus_ne_zero k.reading.parser.state
    refine ⟨_, _, rfl, rfl, fun more => ⟨_, [0], ⟨1, rfl, hcontent.trans ?_⟩, ⟨hs.users, hs.admins⟩,
      fun h => absurd h hdone, fun _ => ⟨hne, rfl⟩, fun _ => ⟨hne, rfl⟩, fun h => absurd h hdone,
      fun h => absurd h hdone, fun _ => hsame⟩⟩
    rw [hempty, List.nil_append]

theorem MonitorConnection.Waits.read_eq (s : Shared) (statics : Statics) {k : MonitorConnection}
    {read chunk : List Byte} (h : k.Waits read) (hc : chunk ≠ []) (hl : chunk.length ≤ 0xffff) :
    ∃ k₁ : MonitorConn, k₁.parser = (monitorMachine.consume (statics, k.reading.parser) chunk).1.2 ∧
      ((monitorMachine.consume (statics, k.reading.parser) chunk).2 = [] → k₁.Ready) ∧
      monitorRead chunk { s with statics } k =
        if monitorIsDone k₁.parser.state then do
          let (s, k) ← monitorRespond
            { s with statics := (monitorMachine.consume (statics, k.reading.parser) chunk).1.1 }
            { k with reading := k₁ }
          return (s, { k with interest := opWrite })
        else .ok ({ s with statics := (monitorMachine.consume (statics, k.reading.parser) chunk).1.1 },
          { k with reading := k₁ }) := by
  have hroom : k.reading.readBuffer.space = 0xffff :=
    (h.ready.rewound.space_of_empty h.ready.empty).trans h.ready.limit
  have htake : chunk.take (bufferWritePtr k.reading.readBuffer) = chunk :=
    List.take_of_length_le (by simpa [bufferWritePtr, hroom] using hl)
  obtain ⟨k₁, hk₁, hp, hready⟩ := receive_consume statics h.ready hc hl
  refine ⟨k₁, hp, hready, ?_⟩
  unfold monitorRead
  rw [htake, if_neg hc, hk₁]
  rfl

theorem MonitorConnection.Waits.next {k : MonitorConnection} {read : List Byte} (h : k.Waits read)
    {statics : Statics} {chunk : List Byte} {k₁ : MonitorConn}
    (hp : k₁.parser = (monitorMachine.consume (statics, k.reading.parser) chunk).1.2)
    (hready : (monitorMachine.consume (statics, k.reading.parser) chunk).2 = [] → k₁.Ready)
    (hd : monitorIsDone k₁.parser.state = false) :
    MonitorConnection.Waits { k with reading := k₁ } (read ++ chunk) := by
  obtain ⟨bytes, hbytes, hheader⟩ := monitorMachine.consume_history Header.step h.parsing h.header chunk
    (s := (statics, k.reading.parser))
  have hgoing : monitorMachine.done
      (monitorMachine.consume (statics, k.reading.parser) chunk).1 = false := by
    rw [hp] at hd
    exact hd
  have hrest := monitorMachine.consume_rest hgoing
  have hparsed := h.parsed.read (s := (statics, k.reading.parser)) h.parsing chunk
  rw [hrest, List.append_nil] at hbytes
  subst hbytes
  rw [← hp] at hheader hparsed
  exact ⟨hready hrest, hd, hheader, hparsed, h.empty, h.space, h.interest⟩

theorem MonitorConnection.Waits.read {s : Shared} (hs : s.Valid) (statics : Statics)
    {k : MonitorConnection} {read chunk : List Byte} (h : k.Waits read) (hc : chunk ≠ [])
    (hl : chunk.length ≤ 0xffff) :
    (∃ statics' k', monitorRead chunk { s with statics } k = .ok ({ s with statics := statics' }, k') ∧
      k'.Waits (read ++ chunk)) ∨
    ∃ s' k', monitorRead chunk { s with statics } k = .ok (s', k') ∧
      monitorIsDone k'.reading.parser.state = true ∧ k'.interest = opWrite ∧
      ∀ more, k'.Answered s s' (read ++ chunk ++ more) := by
  obtain ⟨k₁, hp, hready, hrun⟩ := h.read_eq s statics hc hl
  rw [hrun]
  cases hd : monitorIsDone k₁.parser.state with
  | false => exact .inl ⟨_, _, rfl, h.next hp hready hd⟩
  | true =>
    obtain ⟨bytes, hbytes, hheader⟩ := monitorMachine.consume_history Header.step h.parsing h.header
      chunk (s := (statics, k.reading.parser))
    rw [← hp] at hheader
    obtain ⟨s', k', hrun, hreading, hanswered⟩ := MonitorConnection.responds hs
      (monitorMachine.consume (statics, k.reading.parser) chunk).1.1
      (k := { k with reading := k₁ }) hd hheader h.empty h.space
    refine .inr ⟨s', { k' with interest := opWrite }, ?_, by rw [hreading]; exact hd, rfl, fun more => ?_⟩
    · rw [if_pos rfl, hrun]
      rfl
    · have hmore := hanswered
        ((monitorMachine.consume (statics, k.reading.parser) chunk).2 ++ more)
      rw [List.append_assoc, ← List.append_assoc bytes, ← hbytes, ← List.append_assoc] at hmore
      exact hmore

structure Served (s s' : Shared) (stream : List Byte) (k : MonitorConnection) : Prop where
  waiting : monitorIsDone k.reading.parser.state = false → s.Same s' ∧ k.writeBuffer.content = []
  answered : monitorIsDone k.reading.parser.state = true → k.Answered s s' stream

theorem MonitorConnection.Waits.served {s : Shared} {statics : Statics} {k : MonitorConnection}
    {read stream : List Byte} (h : k.Waits read) : Served s { s with statics } stream k :=
  ⟨fun _ => ⟨⟨rfl, rfl⟩, h.empty⟩, fun hd => absurd (h.parsing.symm.trans hd) Bool.false_ne_true⟩

theorem monitorReads_closed {s : Shared} {k : MonitorConnection}
    (h : ¬ (k.finished = false ∧ k.interest.read)) (chunks : List (List Byte)) :
    monitorReads s k chunks = .ok (s, k) := by
  cases chunks with
  | nil => rfl
  | cons chunk chunks => rw [monitorReads, if_neg h]

theorem MonitorConnection.Waits.reads {s : Shared} (hs : s.Valid) {chunks : List (List Byte)}
    (hl : ∀ chunk ∈ chunks, chunk.length ≤ 0xffff) (statics : Statics) {k : MonitorConnection}
    {read : List Byte} (h : k.Waits read) :
    ∃ s' k', monitorReads { s with statics } k chunks = .ok (s', k') ∧
      Served s s' (read ++ chunks.flatten) k' := by
  -- the bytes read so far grow with the chunks, the state stays until the answer
  induction chunks generalizing statics k read with
  | nil => exact ⟨_, k, rfl, h.served⟩
  | cons chunk chunks ih =>
    have hl' : ∀ chunk ∈ chunks, chunk.length ≤ 0xffff :=
      fun c hc => hl c (List.mem_cons_of_mem _ hc)
    rw [monitorReads]
    by_cases hopen : k.finished = false ∧ k.interest.read
    · rw [if_pos hopen]
      by_cases hc : chunk = []
      · -- the end of the stream
        subst hc
        have hend : monitorRead [] { s with statics } k =
            .ok ({ s with statics }, { k with finished := true }) := by
          rw [monitorRead, List.take_nil, if_pos rfl]
          rfl
        refine ⟨{ s with statics }, { k with finished := true }, ?_, ?_⟩
        · rw [hend]
          exact monitorReads_closed (by simp) chunks
        · exact ⟨fun _ => ⟨⟨rfl, rfl⟩, h.empty⟩,
            fun hd => absurd (h.parsing.symm.trans hd) Bool.false_ne_true⟩
      · rcases h.read hs statics hc (hl chunk List.mem_cons_self) with
          ⟨statics', k', hrun, hwaits⟩ | ⟨s', k', hrun, hd, hi, hanswered⟩
        · obtain ⟨s'', k'', hrun', hserved⟩ := ih hl' statics' hwaits
          refine ⟨s'', k'', ?_, ?_⟩
          · rw [hrun]
            exact hrun'
          · rwa [List.flatten_cons, ← List.append_assoc]
        · refine ⟨s', k', ?_, fun hno => ?_, fun _ => ?_⟩
          · rw [hrun]
            exact monitorReads_closed (by rw [hi]; simp [opWrite]) chunks
          · exact absurd (hno.symm.trans hd) Bool.false_ne_true
          · rw [List.flatten_cons, ← List.append_assoc]
            exact hanswered chunks.flatten
    · rw [if_neg hopen]
      exact ⟨_, k, rfl, h.served⟩

def rootToken : CStr := ⟨List.replicate tokenSize 0x41, by decide⟩

def rootShared : Shared := { admins := (monitorRegisterAdmin {} defaultAdminUname rootToken).1 }

theorem rootShared_valid : rootShared.Valid :=
  ⟨Users.Whole.empty, Admins.Valid.empty.register defaultAdminUname rootToken⟩

end Socks5d
