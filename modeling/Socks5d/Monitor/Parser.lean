import Mathlib.Algebra.Group.Nat.Defs
import Socks5d.Consume

/-!
# monitor.c: the parser of the monitoring protocol

The parser keeps one part of its progress in the `monitor_parser` of the
connection and another part in two file-level variables, `combinedlen` and
`username_len_with_null`, shared by every connection (`Statics`).

`stores` is not in the source: it lists every array store the parser makes, as
the field and the index used. A store outside the field has no other effect
here.
-/

namespace Socks5d

def tokenSize : Nat := 16
def usernameSize : Nat := 256
def passwordSize : Nat := 256

/-- `IS_ALNUM`. -/
def isAlnum (x : Byte) : Bool :=
  (x ≥ 0x61 && x ≤ 0x7a) || (x ≥ 0x41 && x ≤ 0x5a) || (x ≥ 0x30 && x ≤ 0x39)

inductive MonitorState
  | version | token | method | target | dlen | data
  | done
  | error | errorUnsupportedVersion | errorInvalidToken | errorUnsupportedMethod
  | errorUnsupportedTarget | errorInvalidData
  deriving DecidableEq, Repr

/-- The position in `enum monitor_state`. -/
def MonitorState.toNat : MonitorState → Nat
  | .version => 0 | .token => 1 | .method => 2 | .target => 3 | .dlen => 4 | .data => 5
  | .done => 6
  | .error => 7 | .errorUnsupportedVersion => 8 | .errorInvalidToken => 9
  | .errorUnsupportedMethod => 10 | .errorUnsupportedTarget => 11 | .errorInvalidData => 12

def monitorMethodGet : Byte := 0x00
def monitorMethodConfig : Byte := 0x01

def monitorTargetGetHistoric : Byte := 0x00
def monitorTargetGetConcurrent : Byte := 0x01
def monitorTargetGetTransfered : Byte := 0x02
def monitorTargetGetProxyusers : Byte := 0x03
def monitorTargetGetAdminusers : Byte := 0x04

def monitorTargetConfigPop3disector : Byte := 0x00
def monitorTargetConfigAddProxyuser : Byte := 0x01
def monitorTargetConfigDeleteProxyuser : Byte := 0x02
def monitorTargetConfigAddAdmin : Byte := 0x03
def monitorTargetConfigDeleteAdmin : Byte := 0x04

inductive Field
  | token | combinedlen | dataUser | proxyUser | proxyPass | adminUser | adminToken
  deriving DecidableEq, Repr

def Field.size : Field → Nat
  | .token => tokenSize
  | .combinedlen => 2
  | .dataUser | .proxyUser | .adminUser => usernameSize
  | .proxyPass => passwordSize
  | .adminToken => tokenSize

structure Store where
  field : Field
  index : Nat
  deriving DecidableEq, Repr

def Store.Inside (s : Store) : Prop := s.index < s.field.size

instance (s : Store) : Decidable s.Inside := inferInstanceAs (Decidable (_ < _))

/-- `union data`. The three `user` arrays lie at the same place; a message
uses only the members of its own target. -/
structure MonitorData where
  user : List Byte := List.replicate usernameSize 0
  pass : List Byte := List.replicate passwordSize 0
  token : List Byte := List.replicate tokenSize 0
  disectorDataParams : Byte := 0
  deriving DecidableEq, Repr

structure Monitor where
  token : List Byte := List.replicate tokenSize 0
  method : Byte := 0
  target : Byte := 0
  dlen : UInt16 := 0
  data : MonitorData := {}
  deriving DecidableEq, Repr

structure MonitorParser where
  monitor : Monitor := {}
  state : MonitorState := .version
  len : UInt16 := 0
  i : UInt16 := 0
  separated : Bool := false
  stores : List Store := []
  deriving DecidableEq, Repr

/-- The file-level variables of monitor.c. -/
structure Statics where
  combinedlen : Byte × Byte := (0, 0)
  usernameLenWithNull : Nat := 0
  deriving DecidableEq, Repr

namespace MonitorParser

def remainingSet (p : MonitorParser) (len : UInt16) : MonitorParser :=
  { p with i := 0, len }

def remainingIsDone (p : MonitorParser) : Bool := p.i ≥ p.len

def storing (p : MonitorParser) (field : Field) (index : Nat) : MonitorParser :=
  { p with stores := p.stores ++ [⟨field, index⟩] }

def setData (p : MonitorParser) (data : MonitorData) : MonitorParser :=
  { p with monitor := { p.monitor with data } }

/-- `....user[index] = c`, for the member of the union that `field` names. -/
def storeUser (p : MonitorParser) (field : Field) (index : Nat) (c : Byte) : MonitorParser :=
  (p.setData { p.monitor.data with user := p.monitor.data.user.set index c }).storing field index

/-- `add_proxy_user_param.pass[index] = c`. -/
def storePass (p : MonitorParser) (index : Nat) (c : Byte) : MonitorParser :=
  (p.setData { p.monitor.data with pass := p.monitor.data.pass.set index c }).storing .proxyPass index

/-- `add_admin_user_param.token[index] = c`. -/
def storeToken (p : MonitorParser) (index : Nat) (c : Byte) : MonitorParser :=
  (p.setData { p.monitor.data with token := p.monitor.data.token.set index c }).storing .adminToken
    index

def next (p : MonitorParser) : MonitorParser := { p with i := p.i + 1 }

end MonitorParser

/-- A fresh parser: `connection_new` clears the struct, `monitor_init` calls this. -/
def monitorParserInit : MonitorParser := {}

namespace Monitor

def versionState (c : Byte) (p : MonitorParser) : MonitorParser × MonitorState :=
  if c = 0x01 then (p.remainingSet tokenSize.toUInt16, .token)
  else (p, .errorUnsupportedVersion)

def tokenState (c : Byte) (p : MonitorParser) : MonitorParser × MonitorState :=
  let p := ({ p with monitor := { p.monitor with
    token := p.monitor.token.set p.i.toNat c } }.storing .token p.i.toNat).next
  (p, if p.remainingIsDone then .method else .token)

def methodState (c : Byte) (p : MonitorParser) : MonitorParser × MonitorState :=
  let p := { p with monitor := { p.monitor with method := c } }
  (p, if c = monitorMethodGet ∨ c = monitorMethodConfig then .target else .errorUnsupportedMethod)

def targetState (c : Byte) (p : MonitorParser) : MonitorParser × MonitorState :=
  if p.monitor.method = monitorMethodGet then
    if c = monitorTargetGetHistoric ∨ c = monitorTargetGetConcurrent
      ∨ c = monitorTargetGetTransfered ∨ c = monitorTargetGetProxyusers
      ∨ c = monitorTargetGetAdminusers then
      ({ p with monitor := { p.monitor with target := c } }, .done)
    else (p, .errorUnsupportedTarget)
  else if p.monitor.method = monitorMethodConfig then
    if c = monitorTargetConfigPop3disector ∨ c = monitorTargetConfigAddProxyuser
      ∨ c = monitorTargetConfigDeleteProxyuser ∨ c = monitorTargetConfigAddAdmin
      ∨ c = monitorTargetConfigDeleteAdmin then
      -- two bytes of DLEN follow
      ({ p with monitor := { p.monitor with target := c } }.remainingSet 2, .dlen)
    else (p, .errorUnsupportedTarget)
  else
    -- `next` is not assigned here; the method was checked one byte before
    (p, .error)

/-- `ntohs(*(uint16_t*)combinedlen)`. -/
def networkLen (combinedlen : Byte × Byte) : UInt16 :=
  combinedlen.1.toUInt16 * 256 + combinedlen.2.toUInt16

def dlenState (c : Byte) (st : Statics) (p : MonitorParser) :
    Statics × MonitorParser × MonitorState :=
  let st := { st with combinedlen :=
    if p.i = 0 then (c, st.combinedlen.2)
    else if p.i = 1 then (st.combinedlen.1, c) else st.combinedlen }
  let p := (p.storing .combinedlen p.i.toNat).next
  if p.remainingIsDone then
    let p := { p with monitor := { p.monitor with dlen := networkLen st.combinedlen } }
    if p.monitor.target = monitorTargetConfigPop3disector then (st, p, .data)
    else if p.monitor.target = monitorTargetConfigAddProxyuser
      ∨ p.monitor.target = monitorTargetConfigDeleteProxyuser
      ∨ p.monitor.target = monitorTargetConfigAddAdmin
      ∨ p.monitor.target = monitorTargetConfigDeleteAdmin then
      (st, p.remainingSet p.monitor.dlen, .data)
    else (st, p, .error)
  else (st, p, .dlen)

/-- `p->i - username_len_with_null`, computed in `size_t`. -/
def secretIndex (st : Statics) (p : MonitorParser) : Nat :=
  (p.i.toNat + 2 ^ 64 - st.usernameLenWithNull % 2 ^ 64) % 2 ^ 64

/-- The two targets that carry `user 0 secret`: `storeSecret` stores one byte
of the secret, in `pass` or in `token`. -/
def addState (userField : Field)
    (storeSecret : MonitorParser → Nat → Byte → MonitorParser)
    (c : Byte) (st : Statics) (p : MonitorParser) : Statics × MonitorParser × MonitorState :=
  if p.i = 0 ∧ c = 0 then (st, p, .errorInvalidData)
  else if isAlnum c then
    let p := (if p.separated = false then p.storeUser userField p.i.toNat c
      else storeSecret p (secretIndex st p) c).next
    if p.remainingIsDone then
      (st, { storeSecret p p.i.toNat 0 with separated := false }, .done)
    else (st, p, .data)
  else if c = 0 ∧ p.separated = false then
    -- the first separator also ends the user name
    let p := { (p.storeUser userField p.i.toNat c).next with separated := true }
    let st := { st with usernameLenWithNull := p.i.toNat }
    if p.remainingIsDone then
      (st, { storeSecret p p.i.toNat 0 with separated := false }, .done)
    else (st, p, .data)
  else (st, p, .errorInvalidData)

def deleteState (c : Byte) (p : MonitorParser) : MonitorParser × MonitorState :=
  if isAlnum c then
    let p := (p.storeUser .dataUser p.i.toNat c).next
    if p.remainingIsDone then (p.storeUser .dataUser p.i.toNat 0, .done) else (p, .data)
  else (p, .errorInvalidData)

def dataState (c : Byte) (st : Statics) (p : MonitorParser) :
    Statics × MonitorParser × MonitorState :=
  if p.monitor.target = monitorTargetConfigPop3disector then
    (st, p.setData { p.monitor.data with disectorDataParams := c }, .done)
  else if p.monitor.target = monitorTargetConfigAddProxyuser then
    addState .proxyUser MonitorParser.storePass c st p
  else if p.monitor.target = monitorTargetConfigDeleteProxyuser then (st, deleteState c p)
  else if p.monitor.target = monitorTargetConfigAddAdmin then
    addState .adminUser MonitorParser.storeToken c st p
  else if p.monitor.target = monitorTargetConfigDeleteAdmin then (st, deleteState c p)
  else
    -- `next` is not assigned here; the target was checked before
    (st, p, .error)

end Monitor

def monitorIsDone (st : MonitorState) : Bool := st.toNat ≥ MonitorState.done.toNat

/-- The `switch` of `monitor_parser_feed`: what the state does with a byte, and
the next state. -/
def monitorParserNext (st : Statics) (p : MonitorParser) (c : Byte) :
    Statics × MonitorParser × MonitorState :=
  match p.state with
  | .version => (st, Monitor.versionState c p)
  | .token => (st, Monitor.tokenState c p)
  | .method => (st, Monitor.methodState c p)
  | .target => (st, Monitor.targetState c p)
  | .dlen => Monitor.dlenState c st p
  | .data => Monitor.dataState c st p
  | .done | .error | .errorUnsupportedVersion | .errorInvalidToken | .errorUnsupportedMethod
  | .errorUnsupportedTarget | .errorInvalidData => (st, p, p.state)

def monitorParserFeed (st : Statics) (p : MonitorParser) (c : Byte) : Statics × MonitorParser :=
  let (st, p, next) := monitorParserNext st p c
  (st, { p with state := next })

theorem monitorParserFeed_eq (st : Statics) (p : MonitorParser) (c : Byte) :
    monitorParserFeed st p c = ((monitorParserNext st p c).1,
      { (monitorParserNext st p c).2.1 with state := (monitorParserNext st p c).2.2 }) := rfl

def monitorMachine : Lib.Machine (Statics × MonitorParser) Byte where
  feed s c := monitorParserFeed s.1 s.2 c
  done s := monitorIsDone s.2.state

def monitorConsume (st : Statics) (b : Buffer) (p : MonitorParser) :
    Statics × Buffer × MonitorParser :=
  let (b, st, p) := consumeBuffer monitorMachine b (st, p)
  (st, b, p)

end Socks5d
