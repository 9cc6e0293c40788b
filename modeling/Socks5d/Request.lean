import Socks5d.Consume

/-!
# request.c: the parser of the SOCKS request

`stores` is not in the source: it lists the indices of the stores into
`dest_addr.fqdn`. A store outside the array has no other effect here.
-/

namespace Socks5d

def socksReqCmdConnect : Byte := 0x01

def socksReqAddrtypeIpv4 : Byte := 0x01
def socksReqAddrtypeDomain : Byte := 0x03
def socksReqAddrtypeIpv6 : Byte := 0x04

def afInet : Nat := 2
def afInet6 : Nat := 10

/-- What the program uses of a `struct sockaddr_storage`: the family, the
address and the port, the latter two in network order. -/
structure SockAddr where
  family : Nat := 0
  addr : List Byte := []
  port : List Byte := [0, 0]
  deriving DecidableEq, Repr

def fqdnSize : Nat := 0xff

/-- `union socks_addr`; a request uses only the member of its own type. -/
structure SocksAddr where
  fqdn : List Byte := List.replicate fqdnSize 0
  ipv4 : SockAddr := {}
  ipv6 : SockAddr := {}
  deriving DecidableEq, Repr

structure Request where
  cmd : Byte := 0
  destAddrType : Byte := 0
  destAddr : SocksAddr := {}
  /-- The two bytes of the port, in network order. -/
  destPort : List Byte := [0, 0]
  deriving DecidableEq, Repr

inductive RequestState
  | version | cmd | rsv | atyp | dstaddrFqdn | dstaddr | dstport
  | done
  | error | errorUnsupportedVersion | errorUnsupportedAtyp
  deriving DecidableEq, Repr

/-- The position in `enum request_state`. -/
def RequestState.toNat : RequestState → Nat
  | .version => 0 | .cmd => 1 | .rsv => 2 | .atyp => 3 | .dstaddrFqdn => 4 | .dstaddr => 5
  | .dstport => 6
  | .done => 7
  | .error => 8 | .errorUnsupportedVersion => 9 | .errorUnsupportedAtyp => 10

structure RequestParser where
  request : Request := {}
  state : RequestState := .version
  n : UInt8 := 0
  i : UInt8 := 0
  stores : List Int := []
  deriving DecidableEq, Repr

namespace RequestParser

def remainingSet (p : RequestParser) (n : UInt8) : RequestParser := { p with i := 0, n }

def remainingIsDone (p : RequestParser) : Bool := p.i ≥ p.n

def setAddr (p : RequestParser) (destAddr : SocksAddr) : RequestParser :=
  { p with request := { p.request with destAddr } }

/-- `p->request->dest_addr.fqdn[index] = c`. -/
def storeFqdn (p : RequestParser) (index : Int) (c : Byte) : RequestParser :=
  let fqdn := if 0 ≤ index then p.request.destAddr.fqdn.set index.toNat c else p.request.destAddr.fqdn
  { p.setAddr { p.request.destAddr with fqdn } with stores := p.stores ++ [index] }

def next (p : RequestParser) : RequestParser := { p with i := p.i + 1 }

end RequestParser

/-- `request_init` leaves `n` and `i` as they are; both are set before they are read. -/
def requestParserInit : RequestParser := {}

namespace Request

def atypState (c : Byte) (p : RequestParser) : RequestParser × RequestState :=
  let p := { p with request := { p.request with destAddrType := c } }
  if c = socksReqAddrtypeIpv4 then
    ((p.remainingSet 4).setAddr { p.request.destAddr with
      ipv4 := { family := afInet, addr := List.replicate 4 0 } }, .dstaddr)
  else if c = socksReqAddrtypeIpv6 then
    ((p.remainingSet 16).setAddr { p.request.destAddr with
      ipv6 := { family := afInet6, addr := List.replicate 16 0 } }, .dstaddr)
  else if c = socksReqAddrtypeDomain then (p, .dstaddrFqdn)
  else (p, .errorUnsupportedAtyp)

def dstaddrFqdnState (c : Byte) (p : RequestParser) : RequestParser × RequestState :=
  let p := p.remainingSet c
  (p.storeFqdn ((p.n.toNat : Int) - 1) 0, .dstaddr)

def dstaddrState (c : Byte) (p : RequestParser) : RequestParser × RequestState :=
  let a := p.request.destAddr
  let p :=
    if p.request.destAddrType = socksReqAddrtypeIpv4 then
      (p.setAddr { a with ipv4 := { a.ipv4 with addr := a.ipv4.addr.set p.i.toNat c } }).next
    else if p.request.destAddrType = socksReqAddrtypeIpv6 then
      (p.setAddr { a with ipv6 := { a.ipv6 with addr := a.ipv6.addr.set p.i.toNat c } }).next
    else if p.request.destAddrType = socksReqAddrtypeDomain then (p.storeFqdn p.i.toNat c).next
    else p
  if p.remainingIsDone then
    ({ p.remainingSet 2 with request := { p.request with destPort := [0, 0] } }, .dstport)
  else (p, .dstaddr)

def dstportState (c : Byte) (p : RequestParser) : RequestParser × RequestState :=
  let p := { p with
    request := { p.request with destPort := p.request.destPort.set p.i.toNat c }
    i := p.i + 1 }
  (p, if p.i ≥ p.n then .done else .dstport)

end Request

/-- The `switch` of `request_parser_feed`. -/
def requestParserNext (p : RequestParser) (c : Byte) : RequestParser × RequestState :=
  match p.state with
  | .version => (p, if c = 0x05 then .cmd else .errorUnsupportedVersion)
  | .cmd => ({ p with request := { p.request with cmd := c } }, .rsv)
  | .rsv => (p, .atyp)
  | .atyp => Request.atypState c p
  | .dstaddrFqdn => Request.dstaddrFqdnState c p
  | .dstaddr => Request.dstaddrState c p
  | .dstport => Request.dstportState c p
  | .done | .error | .errorUnsupportedVersion | .errorUnsupportedAtyp => (p, p.state)

def requestParserFeed (p : RequestParser) (c : Byte) : RequestParser :=
  let (p, next) := requestParserNext p c
  { p with state := next }

def requestIsError (st : RequestState) : Bool := st.toNat ≥ RequestState.error.toNat

def requestIsDone (st : RequestState) : Bool := st.toNat ≥ RequestState.done.toNat

theorem requestIsError_of_not_done {st : RequestState} (h : requestIsDone st = false) :
    requestIsError st = false := by
  cases st <;> first | rfl | cases h

def requestMachine : Lib.Machine RequestParser Byte where
  feed := requestParserFeed
  done p := requestIsDone p.state

def requestConsume (b : Buffer) (p : RequestParser) : Buffer × RequestParser × Bool :=
  let (b', p) := consumeBuffer requestMachine b p
  (b', p, bufferCanRead b && requestIsError p.state)

-- ---------------------------------------------------------------------------
-- The reply
-- ---------------------------------------------------------------------------

inductive SocksStatus
  | succeeded | generalSocksServerFailure | connectionNotAllowedByRuleset | networkUnreachable
  | hostUnreachable | connectionRefused | ttlExpired | commandNotSupported | addressTypeNotSupported
  deriving DecidableEq, Repr

def SocksStatus.toByte : SocksStatus → Byte
  | .succeeded => 0x00
  | .generalSocksServerFailure => 0x01
  | .connectionNotAllowedByRuleset => 0x02
  | .networkUnreachable => 0x03
  | .hostUnreachable => 0x04
  | .connectionRefused => 0x05
  | .ttlExpired => 0x06
  | .commandNotSupported => 0x07
  | .addressTypeNotSupported => 0x08

def requestReply (status : SocksStatus) : List Byte :=
  [0x05, status.toByte, 0x00, socksReqAddrtypeIpv4, 0x00, 0x00, 0x00, 0x00, 0x00, 0x00]

@[simp] theorem length_requestReply (status : SocksStatus) : (requestReply status).length = 10 := rfl

def requestMarshall (b : Buffer) (status : SocksStatus) : Option Buffer :=
  bufferMarshall b (requestReply status)

def einprogress : Nat := 115
def econnrefused : Nat := 111
def ehostunreach : Nat := 113
def enetunreach : Nat := 101
def etimedout : Nat := 110

def errnoToSocks (e : Nat) : SocksStatus :=
  if e = 0 then .succeeded
  else if e = econnrefused then .connectionRefused
  else if e = ehostunreach then .hostUnreachable
  else if e = enetunreach then .networkUnreachable
  else if e = etimedout then .ttlExpired
  else .generalSocksServerFailure

theorem errnoToSocks_ne_succeeded {e : Nat} (h : e ≠ 0) : errnoToSocks e ≠ .succeeded := by
  unfold errnoToSocks
  rw [if_neg h]
  split
  · simp
  · split
    · simp
    · split
      · simp
      · split <;> simp

end Socks5d
