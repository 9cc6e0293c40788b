import Socks5d.Monitor.Process

/-!
# clientargs.c and clientrequest.c: the requests of the monitoring client

An option of the command line fills a `client_request_args`, and
`serialize_request` writes it behind the token of the administrator. `union data`
is one block of memory, all 0 before its option is parsed: a name lies at its
start, and what follows the separator lies behind the separator. The texts that
the client prints before it exits are the constructors of `Exit`; the address and
the port of the server are left out.
-/

namespace Socks5d.Client

def usernameSize : Nat := 0xff
def passwordSize : Nat := 0xff
def maxClientRequests : Nat := 20
def maxBytesData : Nat := 65535

inductive Method
  | get | config
  deriving DecidableEq, Repr

def Method.toByte : Method → Byte
  | get => 0
  | config => 1

inductive GetTarget
  | historicConnections | concurrentConnections | transferredBytes | proxyUsersList | adminUsersList
  deriving DecidableEq, Repr

def GetTarget.toByte : GetTarget → Byte
  | historicConnections => 0
  | concurrentConnections => 1
  | transferredBytes => 2
  | proxyUsersList => 3
  | adminUsersList => 4

inductive ConfigTarget
  | toggleDisector | addProxyUser | delProxyUser | addAdminUser | delAdminUser
  deriving DecidableEq, Repr

def ConfigTarget.toByte : ConfigTarget → Byte
  | toggleDisector => 0
  | addProxyUser => 1
  | delProxyUser => 2
  | addAdminUser => 3
  | delAdminUser => 4

/-- `sizeof(union data)`: a user, the separator, a password and a byte of padding. -/
def dataSize : Nat := 512

def userIndex : Nat := 0
def separatorIndex : Nat := usernameSize
def secretIndex : Nat := usernameSize + 1

/-- `client_request_args`. The two enumerations of `union target` share their bytes. -/
structure RequestArgs where
  method : Method := .get
  target : Byte := 0
  dlen : UInt16 := 0
  data : List Byte := List.replicate dataSize 0

/-- `memcpy(memory + index, bytes, ...)`. -/
def memcpy (memory : List Byte) (index : Nat) (bytes : List Byte) : List Byte :=
  memory.take index ++ bytes ++ memory.drop (index + bytes.length)

inductive Exit
  | invalidTokenLength (length : Nat)
  /-- The text for a password that is too long is the same. -/
  | invalidUsernameLength (length max : Nat)
  | missingPassword (user : List Byte)
  | missingUsername (password : List Byte)
  | missingToken (user : List Byte)
  | missingClientToken
  | usage
  | version
  | missingValue (option : Byte)
  | invalidOption (option : Byte)
  /-- Not an exit: the null pointer of `strtok` is followed. -/
  | nullPointer
  deriving DecidableEq, Repr

def colon : Byte := 0x3a

/-- `strchr(src, ':')`, as an index. -/
def strchr (src : List Byte) : Option Nat := src.findIdx? (· = colon)

/-- `strtok(src, ":")`: the first run of other bytes, and the memory with a NUL
behind it. -/
def strtok (src : List Byte) : Option (List Byte × List Byte) :=
  let start := (src.takeWhile (· = colon)).length
  if start = src.length then none
  else
    let token := (src.drop start).takeWhile (· ≠ colon)
    some (token, src.set (start + token.length) 0)

def tokenCheck (src : List Byte) (memory : List Byte) (dest : Nat) : Except Exit (List Byte × Nat) :=
  if src.length ≠ tokenSize then .error (.invalidTokenLength src.length)
  else .ok (memcpy memory dest (src.take tokenSize), tokenSize)

def stringCheck (src : List Byte) (memory : List Byte) (dest maxLen : Nat) :
    Except Exit (List Byte × Nat) :=
  if src.length > maxLen then .error (.invalidUsernameLength src.length maxLen)
  else .ok (memcpy memory dest src, src.length)

def usernameWithPassword (src : CStr) (data : List Byte) : Except Exit (List Byte × Nat) :=
  match strchr src.val with
  | none => .error (.missingPassword src.val)
  | some separator =>
    if src.val.head? = some colon then .error (.missingUsername (src.val.drop (separator + 1)))
    else match strtok src.val with
      | none => .error .nullPointer
      | some (username, memory) => do
        let password := cstr (memory.drop (separator + 1))
        let (data, length) ← stringCheck username data userIndex usernameSize
        let data := memcpy data separatorIndex [0]
        let (data, length') ← stringCheck password data secretIndex passwordSize
        return (data, length + 1 + length')

def usernameWithToken (src : CStr) (data : List Byte) : Except Exit (List Byte × Nat) :=
  match strchr src.val with
  | none => .error (.missingToken src.val)
  | some separator =>
    match strtok src.val with
    | none => .error .nullPointer
    | some (username, memory) => do
      let token := cstr (memory.drop (separator + 1))
      let (data, length) ← stringCheck username data userIndex usernameSize
      let data := memcpy data separatorIndex [0]
      let (data, length') ← tokenCheck token data secretIndex
      return (data, length + 1 + length')

/-- What `getopt` returns. -/
inductive Opt
  /-- -c, -C, -b, -a and -A. -/
  | get (target : GetTarget)
  /-- -n and -N. -/
  | disector (on : Bool)
  /-- -u. -/
  | addProxyUser (optarg : CStr)
  /-- -U. -/
  | addAdminUser (optarg : CStr)
  /-- -d. -/
  | delProxyUser (optarg : CStr)
  /-- -D. -/
  | delAdminUser (optarg : CStr)
  | help
  | version
  | missingValue (option : Byte)
  | unknown (option : Byte)

def setGetData (args : RequestArgs) : RequestArgs :=
  { args with method := .get, dlen := 1, data := memcpy args.data userIndex [0] }

/-- An `enum` in the memory of the host. -/
def enumBytes (value : Byte) : List Byte := [value, 0, 0, 0]

/-- The `switch` of `parse_args`. -/
def parseOption (args : RequestArgs) : Opt → Except Exit RequestArgs
  | .get target => .ok { setGetData args with target := target.toByte }
  | .disector on => .ok { args with
      method := .config
      target := ConfigTarget.toggleDisector.toByte
      dlen := 1
      data := memcpy args.data userIndex (enumBytes (if on then 1 else 0)) }
  | .addProxyUser optarg => do
    let (data, length) ← usernameWithPassword optarg args.data
    return { method := .config, target := ConfigTarget.addProxyUser.toByte, dlen := length.toUInt16, data }
  | .addAdminUser optarg => do
    let (data, length) ← usernameWithToken optarg args.data
    return { method := .config, target := ConfigTarget.addAdminUser.toByte, dlen := length.toUInt16, data }
  | .delProxyUser optarg => do
    let (data, length) ← stringCheck optarg.val args.data userIndex usernameSize
    return { method := .config, target := ConfigTarget.delProxyUser.toByte, dlen := length.toUInt16, data }
  | .delAdminUser optarg => do
    let (data, length) ← stringCheck optarg.val args.data userIndex usernameSize
    return { method := .config, target := ConfigTarget.delAdminUser.toByte, dlen := length.toUInt16, data }
  | .help => .error .usage
  | .version => .error .version
  | .missingValue option => .error (.missingValue option)
  | .unknown option => .error (.invalidOption option)

/-- `options` are the results of `getopt`, `token` is the first argument behind them. -/
def parseArgs (options : List Opt) (token : Option CStr) :
    Except Exit (List RequestArgs × List Byte) := do
  let args ← (options.take maxClientRequests).mapM (parseOption {})
  match token with
  | none => .error .missingClientToken
  | some token =>
    let (token, _) ← tokenCheck token.val (List.replicate tokenSize 0) 0
    return (args, token)

-- ---------------------------------------------------------------------------
-- clientrequest.c
-- ---------------------------------------------------------------------------

def programVersion : Byte := 1
def baseRequestData : Nat := 21

def fieldVersionIndex : Nat := 0
def fieldTokenIndex : Nat := 1
def fieldMethodIndex : Nat := 17
def fieldTargetIndex : Nat := 18
def fieldDlenIndex : Nat := 19
def fieldDataIndex : Nat := 21

/-- A user, the separator and a password or a token, each as long as `strlen` says. -/
def serializeUser (args : RequestArgs) (buffer : List Byte) : List Byte :=
  let username := cstr (args.data.drop userIndex)
  let buffer := memcpy buffer fieldDataIndex username
  let buffer := memcpy buffer (fieldDataIndex + username.length) [args.data.getD separatorIndex 0]
  memcpy buffer (fieldDataIndex + username.length + 1) (cstr (args.data.drop secretIndex))

def serializeConfigData (args : RequestArgs) (buffer : List Byte) : List Byte :=
  if args.target = ConfigTarget.toggleDisector.toByte then
    memcpy buffer fieldDataIndex (args.data.take 1)
  else if args.target = ConfigTarget.addProxyUser.toByte then serializeUser args buffer
  else if args.target = ConfigTarget.addAdminUser.toByte then serializeUser args buffer
  else if args.target = ConfigTarget.delProxyUser.toByte
      ∨ args.target = ConfigTarget.delAdminUser.toByte then
    memcpy buffer fieldDataIndex (args.data.take args.dlen.toNat)
  else buffer

/-- The `switch` over METHOD, but for TARGET, which both cases copy first. -/
def serializeData (args : RequestArgs) (buffer : List Byte) : List Byte :=
  match args.method with
  | .get => memcpy buffer fieldDataIndex (args.data.take 1)
  | .config => serializeConfigData args buffer

def serializeRequest (args : RequestArgs) (token buffer : List Byte) : List Byte :=
  let buffer := memcpy buffer fieldVersionIndex [programVersion]
  let buffer := memcpy buffer fieldTokenIndex (token.take tokenSize)
  let buffer := memcpy buffer fieldMethodIndex [args.method.toByte]
  let buffer := memcpy buffer fieldDlenIndex (htons args.dlen)
  let buffer := memcpy buffer fieldTargetIndex [args.target]
  serializeData args buffer

end Socks5d.Client
