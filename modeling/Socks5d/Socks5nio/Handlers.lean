import Socks5d.Socks5nio.State
import Socks5d.Stm

/-!
# socks5nio.c: the handlers of a connection

One definition for each function of the source, in its order, down to the
handlers that the selector calls.
-/

namespace Socks5d.Handler

-- ---------------------------------------------------------------------------
-- HELLO
-- ---------------------------------------------------------------------------

def onHelloMethod (isAuthOn : Bool) (selected : Byte) (method : Byte) : Byte :=
  if (!isAuthOn && method == socksHelloNoAuthenticationRequired)
    || (isAuthOn && method == socksHelloUsernamePassword) then method
  else selected

def helloReadInit (_key : Key) : Handler Unit := do
  update fun s => { s with hello := helloParserInit socksHelloNoAcceptableMethods }
  let g ← globals
  note (.helloInit g.users.registered)
  if g.users.registered = 0 then
    setGlobals fun g => { g with isAuthOn := false }

def helloProcess : Handler SocksState := do
  let s ← attachment
  match helloMarshall s.writeBuffer s.hello.data with
  | none => return .error
  | some wb =>
    update fun s => { s with writeBuffer := wb }
    return .helloWrite

def helloRead (key : Key) : Handler SocksState := do
  let s ← attachment
  let bytes := (← recv key.fd (bufferWritePtr s.readBuffer)).getD []
  if bytes.length > 0 then
    let rb ← check (bufferWriteAdv (s.readBuffer.fill bytes) bytes.length)
    let g ← globals
    let (rb, parser, errored) := helloConsume (onHelloMethod g.isAuthOn) rb s.hello
    update fun s => { s with readBuffer := rb, hello := parser }
    let ret ←
      if helloIsDone parser.state then do
        if (← selectorSetInterestKey key opWrite) = .success then helloProcess
        else pure .error
      else pure .helloRead
    return if errored then .error else ret
  else return .error

def helloReadClose (_key : Key) : Handler Unit := return

def helloWrite (key : Key) : Handler SocksState := do
  let s ← attachment
  match ← send key.fd (bufferReadPtr s.writeBuffer) with
  | none => return .error
  | some n =>
    let wb ← check (bufferReadAdv s.writeBuffer n)
    update fun s => { s with writeBuffer := wb }
    if bufferCanRead wb then return .helloWrite
    else if (← selectorSetInterestKey key opRead) = .success then
      let g ← globals
      return if g.isAuthOn then .authRead else .requestRead
    else return .error

-- ---------------------------------------------------------------------------
-- AUTH
-- ---------------------------------------------------------------------------

def authInit (_key : Key) : Handler Unit :=
  update fun s => { s with auth := { parser := authParserInit, status := .failure } }

def authProcess (_key : Key) : Handler SocksState := do
  let s ← attachment
  let g ← globals
  let found := g.users.authenticate s.auth.parser.auth
  let status := if found.isSome then AuthStatus.succeeded else .failure
  note (.authProcess g.users s.auth.parser.auth status)
  update fun s => { s with
    clientUname := found <|> s.clientUname
    auth := { s.auth with status } }
  match authMarshall s.writeBuffer status with
  | none => abort
  | some wb =>
    update fun s => { s with writeBuffer := wb }
    return .authWrite

def authRead (key : Key) : Handler SocksState := do
  let s ← attachment
  let bytes := (← recv key.fd (bufferWritePtr s.readBuffer)).getD []
  if bytes.length > 0 then
    let rb ← check (bufferWriteAdv (s.readBuffer.fill bytes) bytes.length)
    let (rb, parser, errored) := authConsume rb s.auth.parser
    update fun s => { s with readBuffer := rb, auth := { s.auth with parser } }
    let ret ←
      if authIsDone parser.state then do
        if (← selectorSetInterestKey key opWrite) = .success then authProcess key
        else pure .error
      else pure .authRead
    return if errored then .error else ret
  else return .error

def authWrite (key : Key) : Handler SocksState := do
  let s ← attachment
  match ← send key.fd (bufferReadPtr s.writeBuffer) with
  | none => return .error
  | some n =>
    let wb ← check (bufferReadAdv s.writeBuffer n)
    update fun s => { s with writeBuffer := wb }
    if bufferCanRead wb then return .authWrite
    else if s.auth.status = .succeeded then
      if (← selectorSetInterestKey key opRead) = .success then return .requestRead
      else return .error
    else
      let _ ← selectorSetInterestKey key opNoop
      return .error

-- ---------------------------------------------------------------------------
-- REQUEST
-- ---------------------------------------------------------------------------

def requestInit (_key : Key) : Handler Unit :=
  update fun s => { s with
    request := { parser := requestParserInit, status := .generalSocksServerFailure } }

/-- The call of `request_marshall` with the status of the request, and the
`abort` that follows when there is no room. -/
def marshallReply : Handler Unit := do
  let s ← attachment
  match requestMarshall s.writeBuffer s.request.status with
  | none => abort
  | some wb =>
    note (.marshall s.request.status)
    update fun s => { s with writeBuffer := wb }

def requestErrorWrite (status : SocksStatus) : Handler SocksState := do
  update fun s => { s with request := { s.request with status } }
  marshallReply
  let s ← attachment
  if (← selectorSetInterest s.clientFd opWrite) = .success then return .requestWrite
  else return .error

/-- The part of `request_connect` under the label `finally`, with `error` set. -/
def requestConnectFailed (status : SocksStatus) : Handler SocksState := do
  let s ← attachment
  if s.originFd ≠ -1 then
    close s.originFd
    update fun s => { s with originFd := -1 }
  requestErrorWrite status

def requestConnect (_key : Key) : Handler SocksState := do
  let s ← attachment
  let status := s.request.status
  if s.stm = some .requestConnecting then
    -- a retry: the socket of the last attempt is replaced
    let _ ← selectorUnregisterFd s.originFd
    close s.originFd
  let fd ← socket
  update fun s => { s with originFd := fd }
  if fd = -1 then requestConnectFailed .generalSocksServerFailure
  else if (← selectorFdSetNio fd) = false then return .requestConnecting
  else
    match ← connect fd s.originAddr with
    | none => abort
    | some errno =>
      if errno = einprogress then
        if (← selectorSetInterest s.clientFd opNoop) ≠ .success then requestConnectFailed status
        else if (← selectorRegister fd opWrite) ≠ .success then requestConnectFailed status
        else
          update fun s => { s with references := s.references + 1 }
          return .requestConnecting
      else requestConnectFailed (errnoToSocks errno)

/-- `AF_INET` and `AF_INET6` destinations differ in the member of the union. -/
def requestProcessAddress (family : Nat) (addr : Request → SockAddr)
    (setAddr : SockAddr → SocksAddr → SocksAddr) (key : Key) : Handler SocksState := do
  let s ← attachment
  let request := s.request.parser.request
  let origin := { addr request with port := request.destPort }
  update fun s => { s with
    originDomain := family
    originAddr := origin
    request := { s.request with parser := { s.request.parser with request := { request with
      destAddr := setAddr origin request.destAddr } } } }
  requestConnect key

def requestProcessDomain (key : Key) : Handler SocksState := do
  let io ← answers
  if io.malloc = false then requestErrorWrite .generalSocksServerFailure
  else if io.thread = false then requestErrorWrite .generalSocksServerFailure
  else
    spawn key
    let _ ← selectorSetInterestKey key opNoop
    return .requestResolv

def requestProcess (key : Key) : Handler SocksState := do
  let s ← attachment
  let request := s.request.parser.request
  note (.requestProcess request)
  if request.cmd = socksReqCmdConnect then
    if request.destAddrType = socksReqAddrtypeIpv4 then
      requestProcessAddress afInet (·.destAddr.ipv4) (fun a d => { d with ipv4 := a }) key
    else if request.destAddrType = socksReqAddrtypeIpv6 then
      requestProcessAddress afInet6 (·.destAddr.ipv6) (fun a d => { d with ipv6 := a }) key
    else if request.destAddrType = socksReqAddrtypeDomain then requestProcessDomain key
    else requestErrorWrite .addressTypeNotSupported
  else requestErrorWrite .commandNotSupported

def requestRead (key : Key) : Handler SocksState := do
  let s ← attachment
  let bytes := (← recv key.fd (bufferWritePtr s.readBuffer)).getD []
  if bytes.length > 0 then
    let rb ← check (bufferWriteAdv (s.readBuffer.fill bytes) bytes.length)
    let (rb, parser, errored) := requestConsume rb s.request.parser
    update fun s => { s with readBuffer := rb, request := { s.request with parser } }
    if errored then return .error
    else if requestIsDone parser.state then requestProcess key
    else return .requestRead
  else return .error

def requestReadClose (_key : Key) : Handler Unit := return

/-- The thread that resolves a name, up to its notification; `answer` is what
`getaddrinfo` gives, an error or a list. -/
def requestResolvBlocking (answer : Option (List AddrInfo)) : Handler Unit := do
  note (.resolved (answer.getD []))
  match answer with
  | none =>
    update fun s => { s with
      originResolution := []
      request := { s.request with status := .generalSocksServerFailure } }
  | some list => update fun s => { s with originResolution := list }

def setOrigin (current : List AddrInfo) (a : AddrInfo) : Handler Unit :=
  update fun s => { s with
    originResolutionCurrent := current
    originDomain := a.family
    originAddr := a.addr }

def requestResolvDone (key : Key) : Handler SocksState := do
  let s ← attachment
  match s.originResolution with
  | [] => requestErrorWrite .hostUnreachable
  | a :: rest =>
    setOrigin (a :: rest) a
    requestConnect key

-- ---------------------------------------------------------------------------
-- REQUEST CONNECTING
-- ---------------------------------------------------------------------------

def requestConnectingInit (_key : Key) : Handler Unit := return

/-- The part of `request_connecting` that follows the last attempt. -/
def requestConnectingEnd (key : Key) : Handler SocksState := do
  let s ← attachment
  if s.request.parser.request.destAddrType = socksReqAddrtypeDomain then
    note (.freeaddrinfo s.originResolution)
    update fun s => { s with originResolution := [], originResolutionCurrent := [] }
  marshallReply
  let s ← attachment
  let client ← selectorSetInterest s.clientFd opWrite
  let own ← selectorSetInterestKey key opNoop
  return if client = .success ∧ own = .success then .requestWrite else .error

def requestConnecting (key : Key) : Handler SocksState := do
  let setStatus (status : SocksStatus) : Handler Unit :=
    update fun s => { s with request := { s.request with status } }
  match ← getsockoptError key.fd with
  | none =>
    setStatus .generalSocksServerFailure
    requestConnectingEnd key
  | some error =>
    if error = 0 then
      setStatus .succeeded
      update fun s => { s with originFd := key.fd }
      requestConnectingEnd key
    else
      let s ← attachment
      if s.request.parser.request.destAddrType = socksReqAddrtypeDomain then
        match s.originResolutionCurrent with
        | [] => fail .nullPointer
        | [_] =>
          setStatus (errnoToSocks error)
          requestConnectingEnd key
        | _ :: a :: rest =>
          setOrigin (a :: rest) a
          -- the state that `request_connect` returns is dropped
          let _ ← requestConnect key
          return .requestConnecting
      else
        setStatus (errnoToSocks error)
        requestConnectingEnd key

/-- The name that `log_request` and `log_credentials` print. -/
def loggedName (g : Globals) (uname : Option Nat) : LoggedName :=
  if g.isAuthOn then
    match uname with
    | some i => .name (cstr (g.users.memory i))
    | none => .null
  else .anonymous

def requestWrite (key : Key) : Handler SocksState := do
  let s ← attachment
  match ← send key.fd (bufferReadPtr s.writeBuffer) with
  | none => return .error
  | some n =>
    let wb ← check (bufferReadAdv s.writeBuffer n)
    update fun s => { s with writeBuffer := wb }
    if bufferCanRead wb then return .requestWrite
    else
      let ret ←
        if s.request.status = .succeeded then do
          let _ ← selectorSetInterest s.clientFd opRead
          let _ ← selectorSetInterest s.originFd opRead
          update fun s => { s with
            destAddr := s.request.parser.request.destAddr
            destAddrType := s.request.parser.request.destAddrType }
          setGlobals fun g => { g with
            historicConnections := g.historicConnections + 1
            currentConnections := g.currentConnections + 1 }
          pure SocksState.copy
        else do
          let _ ← selectorSetInterest s.clientFd opNoop
          if s.originFd ≠ -1 then
            let _ ← selectorSetInterest s.originFd opNoop
          pure .error
      let g ← globals
      note (.logRequest s.request.status (loggedName g s.clientUname) s.request.parser.request
        s.clientAddr s.originAddr)
      return ret

-- ---------------------------------------------------------------------------
-- COPY
-- ---------------------------------------------------------------------------

def copyInit (_key : Key) : Handler Unit :=
  update fun s => { s with
    clientDuplex := ⟨true, true⟩
    origDuplex := ⟨true, true⟩
    dp := disectorParserInit }

def copyComputeInterests (d : Side) : Handler Unit := do
  let s ← attachment
  if (← selectorSetInterest (s.fd d) (s.copyInterest d)) ≠ .success then abort

/-- `copy_ptr`, and the assertion of its callers. -/
def copyPtr (key : Key) : Handler Side := do
  let s ← attachment
  let d := if s.clientFd = key.fd then Side.client else .origin
  if s.fd d ≠ key.fd then fail .assertion
  return d

/-- A direction is closed: `d` gives up one of its bits, the other side the
opposite one. `write` tells which. -/
def copyShutdown (d : Side) (write : Bool) : Handler Unit := do
  let s ← attachment
  note (.shutdown (s.fd d) write)
  update fun s => s.setDuplex d
    (if write then { s.duplex d with write := false } else { s.duplex d with read := false })
  if s.fd d.other ≠ -1 then
    note (.shutdown (s.fd d.other) (!write))
    update fun s => s.setDuplex d.other
      (if write then { s.duplex d.other with read := false }
       else { s.duplex d.other with write := false })

/-- The end of `copy_r` and of `copy_w`. -/
def copyEnd (d : Side) : Handler SocksState := do
  copyComputeInterests d
  copyComputeInterests d.other
  let s ← attachment
  if s.duplex d = opNoop then
    setGlobals fun g => { g with currentConnections := g.currentConnections - 1 }
    return .done
  else return .copy

def copyR (key : Key) : Handler SocksState := do
  let d ← copyPtr key
  let s ← attachment
  let bytes := (← recv key.fd (bufferWritePtr (s.rb d))).getD []
  if bytes.length > 0 then
    let b ← check (bufferWriteAdv ((s.rb d).fill bytes) bytes.length)
    update fun s => s.setRb d b
  else copyShutdown d false
  copyEnd d

/-- Whether `copy_w` shows the bytes it sent to the disector. -/
def disectorListens (g : Globals) (s : Socks5) (fd : Int) : Bool :=
  let st := s.dp.state.toNat
  g.isDisectorOn && s.dp.state ≠ .incompatible
    && ((st < DisectorState.response.toNat && st ≥ DisectorState.user.toNat && fd = s.originFd)
      || ((s.dp.state = .response || s.dp.state = .waitPop) && fd = s.clientFd))

def copyDisect (key : Key) (bytes : List Byte) : Handler Unit := do
  let s ← attachment
  let g ← globals
  if disectorListens g s key.fd then
    let (dp, st) := disectorConsume s.dp bytes
    if st = .done then
      note (.logCredentials (cstr (dp.user ++ dp.pass)) (cstr dp.pass) (loggedName g s.clientUname)
        s.destAddrType s.destAddr s.originAddr)
      update fun s => { s with dp := disectorParserReset dp }
    else update fun s => { s with dp }

def copyW (key : Key) : Handler SocksState := do
  let d ← copyPtr key
  let s ← attachment
  let bytes := bufferReadPtr (s.wb d)
  match ← send key.fd bytes with
  | none => copyShutdown d true
  | some n =>
    copyDisect key (bytes.take n)
    let b ← check (bufferReadAdv (s.wb d) n)
    update fun s => s.setRb d.other b
    setGlobals fun g => { g with bytesTransferred := g.bytesTransferred + n.toUInt32 }
  copyEnd d

-- ---------------------------------------------------------------------------
-- The state machine of a connection
-- ---------------------------------------------------------------------------

def clientStatbl : SocksState → StateDefinition Handler SocksState Key
  | .helloRead =>
    { onArrival := some helloReadInit, onDeparture := some helloReadClose
      onReadReady := some helloRead }
  | .helloWrite => { onWriteReady := some helloWrite }
  | .authRead => { onArrival := some authInit, onReadReady := some authRead }
  | .authWrite => { onWriteReady := some authWrite }
  | .requestRead =>
    { onArrival := some requestInit, onDeparture := some requestReadClose
      onReadReady := some requestRead }
  | .requestResolv => { onBlockReady := some requestResolvDone }
  | .requestConnecting =>
    { onArrival := some requestConnectingInit, onWriteReady := some requestConnecting }
  | .requestWrite => { onWriteReady := some requestWrite }
  | .copy =>
    { onArrival := some copyInit, onReadReady := some copyR, onWriteReady := some copyW }
  | .done => {}
  | .error => {}

def stm : StateMachine Handler SocksState Key where
  initial := .helloRead
  states := clientStatbl
  current := return (← attachment).stm
  setCurrent next := update fun s => { s with
    stm := some next, log := s.log ++ [.enter s.stm next] }
  abort := abort

/-- The body of the loop of `socksv5_done`. -/
def socksv5DoneFd (fd : Int) : Handler Unit := do
  if fd ≠ -1 then
    if (← selectorUnregisterFd fd) ≠ .success then abort
    close fd

def socksv5Done (_key : Key) : Handler Unit := do
  let s ← attachment
  let clientFd := s.clientFd
  let originFd := s.originFd
  socksv5DoneFd clientFd
  socksv5DoneFd originFd

def finish (st : SocksState) (key : Key) : Handler Unit := do
  if st = .error ∨ st = .done then socksv5Done key

def socksv5Read (key : Key) : Handler Unit := do
  finish (← stm.handlerRead key) key

def socksv5Write (key : Key) : Handler Unit := do
  finish (← stm.handlerWrite key) key

def socksv5Block (key : Key) : Handler Unit := do
  finish (← stm.handlerBlock key) key

end Socks5d.Handler
