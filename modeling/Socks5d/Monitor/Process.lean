import Socks5d.Monitor.Interleaving
import Socks5d.Socks5nio.State

/-!
# monitornio.c: the requests of the administrators

A connection of the monitor is read until its request is parsed, the request is
processed, and the response is left in the write buffer. `Shared` is what a
request can change: the administrators, the users, the disector and the
statistics, with the statics of the parser.

Two things are assumed here that the code does not see to: `malloc` always gives
memory, and what the names of the users take fits into the array that they are
listed in. Ten long names do not fit (`listing_iff`).
-/

namespace Socks5d

-- ---------------------------------------------------------------------------
-- The administrators
-- ---------------------------------------------------------------------------

def maxAdmins : Nat := 3

structure Admin where
  uname : List Byte := List.replicate 0xff 0
  token : List Byte := List.replicate 0x11 0
  deriving DecidableEq

/-- `admins` and `registered_admins`. -/
structure Admins where
  slots : List Admin := List.replicate maxAdmins {}
  registered : Nat := 0
  deriving DecidableEq

def defaultAdminUname : CStr := ⟨[0x72, 0x6f, 0x6f, 0x74], by decide⟩

def Admins.memory (t : Admins) (i : Nat) : List Byte :=
  (t.slots.drop i).flatMap fun a => a.uname ++ a.token

/-- `strcmp(uname, admins[i].uname) == 0`. -/
def Admins.sameName (t : Admins) (uname : CStr) (i : Nat) : Bool := uname.val = cstr (t.memory i)

def monitorRegisterAdmin (t : Admins) (uname token : CStr) : Admins × Int :=
  if t.registered ≥ maxAdmins then (t, 1)
  else if token.val.length ≠ 0x10 then (t, -1)
  else if (List.range t.registered).any (t.sameName uname) then (t, -1)
  else
    ({ slots := t.slots.set t.registered
        { uname := strncpy (if t.registered = 0 then defaultAdminUname else uname) 0xff
          token := strncpy token 0x11 }
       registered := t.registered + 1 }, 0)

def monitorUnregisterAdmin (t : Admins) (uname : CStr) : Admins × Int :=
  if defaultAdminUname = uname then (t, -1)
  else
    match ((List.range t.registered).drop 1).find? (t.sameName uname) with
    | some i =>
      ({ slots := t.slots.take i ++ (t.slots.drop (i + 1)).take (t.registered - (i + 1)) ++
          t.slots.drop (t.registered - 1)
         registered := t.registered - 1 }, 0)
    | none => (t, -1)

/-- The comparison of `monitor_is_admin` with slot `i`. -/
def Admins.accepts (t : Admins) (token : List Byte) (i : Nat) : Bool :=
  match t.slots[i]? with
  | some a => strncmpEq token a.token 0x10
  | none => false

def monitorIsAdmin (t : Admins) (token : List Byte) : Bool :=
  (List.range t.registered).any (t.accepts token)

def listNames (names : List (List Byte)) : UInt16 × List Byte :=
  let unames := names.flatMap (· ++ [0])
  let dlen := unames.length.toUInt16
  (if dlen > 1 then dlen - 1 else 0, unames)

def socksv5GetUsers (t : Users) : UInt16 × List Byte :=
  listNames ((List.range t.registered).map fun i => cstr (t.memory i))

def monitorGetAdmins (t : Admins) : UInt16 × List Byte :=
  listNames ((List.range t.registered).map fun i => cstr (t.memory i))

-- ---------------------------------------------------------------------------
-- The responses
-- ---------------------------------------------------------------------------

inductive MonitorStatus
  | succeeded | invalidVersion | invalidMethod | invalidTarget | invalidData | errorAuth | serverError
  deriving DecidableEq, Repr

def MonitorStatus.toByte : MonitorStatus → Byte
  | .succeeded => 0x00
  | .invalidVersion => 0x01
  | .invalidMethod => 0x02
  | .invalidTarget => 0x03
  | .invalidData => 0x04
  | .errorAuth => 0x05
  | .serverError => 0x06

def htons (n : UInt16) : List Byte := [(n >>> 8).toUInt8, n.toUInt8]

/-- A `uint32_t` in the memory of the host, which is little-endian. -/
def hostBytes (n : UInt32) : List Byte :=
  [n.toUInt8, (n >>> 8).toUInt8, (n >>> 16).toUInt8, (n >>> 24).toUInt8]

/-- The four bytes of `htonl(*((uint32_t*)data))` in memory. -/
def htonl (data : List Byte) : List Byte := (data.take 4).reverse

def bufferWriteAll (b : Buffer) (bytes : List Byte) : Buffer := bytes.foldl bufferWrite b

/-- The STATUS of `monitor_error_marshall`. -/
def errorStatus : MonitorState → MonitorStatus
  | .errorUnsupportedVersion => .invalidVersion
  | .errorInvalidToken => .errorAuth
  | .errorUnsupportedMethod => .invalidMethod
  | .errorUnsupportedTarget => .invalidTarget
  | .errorInvalidData => .invalidData
  | _ => .serverError

def monitorErrorMarshall (b : Buffer) (p : MonitorParser) : Option Buffer :=
  if bufferWritePtr b < 4 then none
  else some (bufferWriteAll b ([(errorStatus p.state).toByte] ++ htons 1 ++ [0]))

def monitorMarshall (b : Buffer) (status : MonitorStatus) (dlen : UInt16) (data : Option (List Byte))
    (numericData : Bool) : Except Fault (Option Buffer) :=
  if bufferWritePtr b < dlen.toNat + 3 then .ok none
  else
    let b := bufferWriteAll b ([status.toByte] ++ htons dlen)
    match numericData, data with
    | true, none => .error .nullPointer
    | true, some word =>
      if word.length < 4 then .error .outOfBounds else .ok (some (bufferWriteAll b (htonl word)))
    | false, none => .ok (some (bufferWrite b 0))
    | false, some bytes =>
      if bytes.length < dlen.toNat then .error .outOfBounds
      else .ok (some (bufferWriteAll b (bytes.take dlen.toNat)))

-- ---------------------------------------------------------------------------
-- The requests
-- ---------------------------------------------------------------------------

structure Shared where
  statics : Statics := {}
  globals : Globals := {}
  admins : Admins := {}

theorem zero_not_mem_cstr (memory : List Byte) : (0 : Byte) ∉ cstr memory := by
  intro h
  have hall := List.all_takeWhile (p := (· ≠ (0 : Byte))) (l := memory)
  simpa using List.all_eq_true.mp hall 0 h

def cstrAt (memory : List Byte) : CStr := ⟨cstr memory, zero_not_mem_cstr memory⟩

namespace Monitor

/-- The strings of `union data`. The array of a name is followed by that of the
password or of the token, and this one by the rest of the union, which is 0. -/
def proxyUser (m : Monitor) : CStr := cstrAt (m.data.user ++ m.data.pass)
def proxyPass (m : Monitor) : CStr := cstrAt m.data.pass
def adminUser (m : Monitor) : CStr := cstrAt (m.data.user ++ m.data.token)
def adminToken (m : Monitor) : CStr := cstrAt m.data.token
def user (m : Monitor) : CStr := cstrAt m.data.user

end Monitor

/-- The variables of `monitor_process`. -/
structure Answer where
  status : MonitorStatus
  dlen : UInt16 := 1
  data : Option (List Byte) := none
  numericData : Bool := false
  errorResponse : Int := 0

def Answer.number (n : UInt32) : Answer where
  status := .succeeded
  dlen := 4
  data := some (hostBytes n)
  numericData := true

/-- The two lists of names; `memcpy` takes `dlen` bytes. -/
def Answer.names (names : UInt16 × List Byte) : Answer where
  status := .succeeded
  dlen := names.1
  data := some (names.2.take names.1.toNat)

def monitorGet (s : Shared) (target : Byte) : Answer :=
  if target = monitorTargetGetConcurrent then .number s.globals.currentConnections
  else if target = monitorTargetGetHistoric then .number s.globals.historicConnections
  else if target = monitorTargetGetTransfered then .number s.globals.bytesTransferred
  else if target = monitorTargetGetProxyusers then .names (socksv5GetUsers s.globals.users)
  else if target = monitorTargetGetAdminusers then .names (monitorGetAdmins s.admins)
  else { status := .invalidTarget }

def Shared.setUsers (s : Shared) (users : Users) : Shared :=
  { s with globals := { s.globals with users } }

def Shared.setDisector (s : Shared) (value : Bool) : Shared :=
  { s with globals := { s.globals with isDisectorOn := value } }

def monitorConfig (s : Shared) (m : Monitor) : Shared × Answer :=
  if m.target = monitorTargetConfigPop3disector then
    (s.setDisector (m.data.disectorDataParams = 0x01), { status := .succeeded })
  else if m.target = monitorTargetConfigAddProxyuser then
    let r := socksv5RegisterUser s.globals.users m.proxyUser m.proxyPass
    (s.setUsers r.1, { status := .succeeded, errorResponse := r.2 })
  else if m.target = monitorTargetConfigDeleteProxyuser then
    let r := socksv5UnregisterUser s.globals.users m.user
    (s.setUsers r.1, { status := .succeeded, errorResponse := r.2 })
  else if m.target = monitorTargetConfigAddAdmin then
    let r := monitorRegisterAdmin s.admins m.adminUser m.adminToken
    ({ s with admins := r.1 }, { status := .succeeded, errorResponse := r.2 })
  else if m.target = monitorTargetConfigDeleteAdmin then
    let r := monitorUnregisterAdmin s.admins m.user
    ({ s with admins := r.1 }, { status := .succeeded, errorResponse := r.2 })
  else (s, { status := .invalidTarget })

/-- The part of `monitor_process` before `finally`. -/
def monitorAnswer (s : Shared) (m : Monitor) : Shared × Answer :=
  if monitorIsAdmin s.admins m.token = false then (s, { status := .errorAuth })
  else if m.method = monitorMethodGet then (s, monitorGet s m.target)
  else if m.method = monitorMethodConfig then monitorConfig s m
  else (s, { status := .invalidMethod })

/-- The status with the error of the operation. -/
def Answer.final (a : Answer) : MonitorStatus := if a.errorResponse ≠ 0 then .invalidData else a.status

structure MonitorConnection where
  reading : MonitorConn := monitorConnNew
  status : MonitorStatus := .serverError
  writeBuffer : Buffer := bufferInit (List.replicate 0xffff 0)
  interest : Interest := opRead
  /-- `monitor_finish` was called. -/
  finished : Bool := false

def monitorProcess (s : Shared) (k : MonitorConnection) : Except Fault (Shared × MonitorConnection) := do
  let (s, a) := monitorAnswer s k.reading.parser.monitor
  match ← monitorMarshall k.writeBuffer a.final a.dlen a.data a.numericData with
  | none => throw .abort
  | some writeBuffer => return (s, { k with status := a.final, writeBuffer })

/-- What `monitor_read` does once the parser is done. -/
def monitorRespond (s : Shared) (k : MonitorConnection) :
    Except Fault (Shared × MonitorConnection) :=
  if k.reading.parser.state.toNat ≥ MonitorState.error.toNat then
    match monitorErrorMarshall k.writeBuffer k.reading.parser with
    | none => throw .abort
    | some writeBuffer => return (s, { k with writeBuffer })
  else monitorProcess s k

/-- `monitor_read`, when `recv` finds `chunk` waiting; an empty one is the end of
the stream. -/
def monitorRead (chunk : List Byte) (s : Shared) (k : MonitorConnection) :
    Except Fault (Shared × MonitorConnection) := do
  if chunk.take (bufferWritePtr k.reading.readBuffer) = [] then return (s, { k with finished := true })
  else
    let (statics, reading) := monitorReceive s.statics k.reading chunk
    let s := { s with statics }
    let k := { k with reading }
    if monitorIsDone reading.parser.state then
      let (s, k) ← monitorRespond s k
      return (s, { k with interest := opWrite })
    else return (s, k)

/-- Chunks delivered while the connection waits for them. -/
def monitorReads (s : Shared) (k : MonitorConnection) :
    List (List Byte) → Except Fault (Shared × MonitorConnection)
  | [] => .ok (s, k)
  | chunk :: chunks =>
    if k.finished = false ∧ k.interest.read then do
      let (s, k) ← monitorRead chunk s k
      monitorReads s k chunks
    else .ok (s, k)

/-- `monitor_write`, when `send` returns `n` (`none` is -1), and the bytes sent. -/
def monitorWrite (n : Option Nat) (k : MonitorConnection) :
    Except Fault (MonitorConnection × List Byte) :=
  match n with
  | none => .ok ({ k with finished := true }, [])
  | some n =>
    match bufferReadAdv k.writeBuffer n with
    | none => .error .assertion
    | some writeBuffer =>
      .ok ({ k with writeBuffer, finished := !bufferCanRead writeBuffer },
        (bufferReadPtr k.writeBuffer).take n)

/-- The calls of `monitor_write` until the connection ends. -/
def monitorWrites (k : MonitorConnection) :
    List (Option Nat) → Except Fault (MonitorConnection × List Byte)
  | [] => .ok (k, [])
  | n :: ns =>
    if k.finished = false then do
      let (k, bytes) ← monitorWrite n k
      let (k, rest) ← monitorWrites k ns
      return (k, bytes ++ rest)
    else .ok (k, [])

end Socks5d
