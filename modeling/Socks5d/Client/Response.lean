import Socks5d.Client.Args

/-!
# client.c and clientresponse.c: the responses

Every `recv` of the client stores at the start of `buf`. At the end of the stream
`process_response` prints what it finds there; a `Report` is what it prints, with
the status and the values that it decoded.
-/

namespace Socks5d.Client

def baseResponseData : Nat := 3
def bufSize : Nat := baseResponseData + maxBytesData

/-- The loop of `main`; `pieces` are the results of `recv` before the 0. -/
def recvLoop (buf : List Byte) (pieces : List (List Byte)) : List Byte :=
  pieces.foldl (fun buf piece => memcpy buf 0 piece) buf

/-- The output of `process_response`; `%u` and `%s` are arguments of their own. -/
inductive Report
  /-- "The amount of <what> is: <n>". -/
  | number (what : String) (n : UInt32)
  /-- "Printing <whose> user list: ", and what follows that line. -/
  | names (whose : String) (printed : List Byte)
  /-- The loop over the names goes on for ever. -/
  | endless
  | disector (on : Bool)
  /-- "The <what>: '<name>' <outcome>". -/
  | user (what : String) (name : List Byte) (outcome : String)
  | error (status : Byte) (text : Option String)
  | nothing
  deriving DecidableEq

def monitorRespStatusOk : Byte := 0x00
def monitorRespStatusInvalidVersion : Byte := 0x01
def monitorRespStatusInvalidMethod : Byte := 0x02
def monitorRespStatusInvalidTarget : Byte := 0x03
def monitorRespStatusInvalidData : Byte := 0x04
def monitorRespStatusErrorAuth : Byte := 0x05
def monitorRespStatusServerError : Byte := 0x06

def newline : Byte := 0x0a

def shown (c : Byte) : Byte := if c = 0 then newline else c

/-- `ntohl(*(uint32_t*)numeric_data_array)`. -/
def ntohl (b₀ b₁ b₂ b₃ : Byte) : UInt32 :=
  b₀.toUInt32 * 0x1000000 + b₁.toUInt32 * 0x10000 + b₂.toUInt32 * 0x100 + b₃.toUInt32

def byteAt (buf : List Byte) (j : Nat) : Byte := buf.getD j 0

/-- A number: DLEN is not looked at. -/
def handleNumber (what : String) (buf : List Byte) : Report :=
  .number what (ntohl (byteAt buf 3) (byteAt buf 4) (byteAt buf 5) (byteAt buf 6))

/-- A list. The index is an `uint16_t`, and `dlen + 3` is an `int` that it may
never reach. -/
def handleNames (whose : String) (buf : List Byte) : Report :=
  let dlen := Monitor.networkLen (byteAt buf 1, byteAt buf 2)
  if dlen.toNat + 3 > 0xffff then .endless
  else .names whose (((buf.drop 3).take dlen.toNat).map shown ++ [newline])

def handleGetOkStatus (args : RequestArgs) (buf : List Byte) : Report :=
  if args.target = GetTarget.historicConnections.toByte then handleNumber "historic connections" buf
  else if args.target = GetTarget.concurrentConnections.toByte then
    handleNumber "concurrent connections" buf
  else if args.target = GetTarget.transferredBytes.toByte then handleNumber "transferred bytes" buf
  else if args.target = GetTarget.proxyUsersList.toByte then handleNames "proxy" buf
  else if args.target = GetTarget.adminUsersList.toByte then handleNames "admin" buf
  else .nothing

/-- All four names are read through `add_proxy_user_params`. -/
def handleConfigOkStatus (args : RequestArgs) : Report :=
  let name := cstr (args.data.drop userIndex)
  if args.target = ConfigTarget.toggleDisector.toByte then
    .disector (args.data.take 4 ≠ enumBytes 0)
  else if args.target = ConfigTarget.addProxyUser.toByte then
    .user "proxy user" name "is now added to the server"
  else if args.target = ConfigTarget.delProxyUser.toByte then
    .user "proxy user" name "is now deleted in the server"
  else if args.target = ConfigTarget.addAdminUser.toByte then
    .user "admin" name "is now added in the server"
  else if args.target = ConfigTarget.delAdminUser.toByte then
    .user "admin" name "is now deleted in the server"
  else .nothing

def invalidDataText (target : Byte) : String :=
  if target = ConfigTarget.toggleDisector.toByte then
    "Error configuring the pop3 disector on/off, data must be 0 or 1!"
  else if target = ConfigTarget.addProxyUser.toByte then
    "Error adding the proxy user, user and password should be alphanumeric or user already exist!"
  else if target = ConfigTarget.delProxyUser.toByte then
    "Error deleting the proxy user, user name should be alphanumeric or user does not exist"
  else if target = ConfigTarget.addAdminUser.toByte then
    "Error adding the admin, admin and token should be alphanumeric or admin already exist!"
  else if target = ConfigTarget.delAdminUser.toByte then
    "Error deleting the admin, admin name should be alphanumeric, admin does not exist or is default admin!"
  else "The data of the request you have sent is incorrect!"

def errorText (args : RequestArgs) (status : Byte) : Option String :=
  if status = monitorRespStatusInvalidVersion then
    some "The version of the request you have sent is incorrect!"
  else if status = monitorRespStatusInvalidMethod then
    some "The method of the request you have sent is incorrect!"
  else if status = monitorRespStatusInvalidTarget then
    some "The target of the request you have sent is incorrect!"
  else if status = monitorRespStatusInvalidData then some (invalidDataText args.target)
  else if status = monitorRespStatusErrorAuth then
    some "The token of the request you have sent is incorrect!"
  else if status = monitorRespStatusServerError then
    some "The server could not resolve your request!"
  else none

def handleErrorResponse (args : RequestArgs) (status : Byte) : Report :=
  .error status (errorText args status)

def processResponse (status : Byte) (args : RequestArgs) (buf : List Byte) : Report :=
  if status = monitorRespStatusOk then
    match args.method with
    | .get => handleGetOkStatus args buf
    | .config => handleConfigOkStatus args
  else handleErrorResponse args status

/-- From the first `recv` to the output. -/
def report (args : RequestArgs) (buf : List Byte) (pieces : List (List Byte)) : Report :=
  processResponse (byteAt (recvLoop buf pieces) 0) args (recvLoop buf pieces)

end Socks5d.Client
