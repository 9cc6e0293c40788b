import Socks5d.Disector
import Socks5d.Hello
import Socks5d.Lib.Prog
import Socks5d.Request
import Socks5d.Selector
import Socks5d.Users

/-!
# socks5nio.c: the struct of a connection and the calls its handlers make

The handlers are programs of calls: they read and write the struct they are
attached to, the process-wide variables, and ask the selector and the kernel.
What a call does is left to the interpretation of the programs. The members of
the two unions are separate fields; every state initialises its own before it
reads them.

`log` is not in the source: it records what the connection did, in order.
-/

namespace Socks5d

inductive SocksState
  | helloRead | helloWrite | authRead | authWrite | requestRead | requestResolv
  | requestConnecting | requestWrite | copy
  | done | error
  deriving DecidableEq, Repr

/-- The numbers of the `struct socks5`s, in the order of their allocation. -/
abbrev ConnId := Nat

/-- `struct selector_key`; there is one selector. -/
structure Key where
  fd : Int
  conn : ConnId
  deriving DecidableEq, Repr

/-- What the program uses of a `struct addrinfo`; a list of them stands for the
linked list, the empty one for NULL. -/
structure AddrInfo where
  family : Nat
  addr : SockAddr
  deriving DecidableEq, Repr

/-- The user name in a line of the log. -/
inductive LoggedName
  | anonymous
  | null
  | name (bytes : List Byte)
  deriving DecidableEq, Repr

inductive Action
  | helloInit (registeredUsers : Nat)
  | enter (old : Option SocksState) (new : SocksState)
  | recv (fd : Int) (answer : Option (List Byte))
  | send (fd : Int) (bytes : List Byte)
  | sendFailed (fd : Int)
  | shutdown (fd : Int) (write : Bool)
  | authProcess (users : Users) (auth : Auth) (status : AuthStatus)
  | requestProcess (request : Request)
  | resolved (list : List AddrInfo)
  | socket (fd : Int)
  | connect (fd : Int) (addr : SockAddr) (answer : Option Nat)
  | sockError (fd : Int) (answer : Option Nat)
  | marshall (status : SocksStatus)
  | freeaddrinfo (list : List AddrInfo)
  | logRequest (status : SocksStatus) (uname : LoggedName) (request : Request)
      (client origin : SockAddr)
  | logCredentials (user pass : List Byte) (uname : LoggedName) (destAddrType : Byte)
      (destAddr : SocksAddr) (origin : SockAddr)
  deriving DecidableEq, Repr

/-- `RAW_BUFFER_SIZE`. -/
def rawBufferSize : Nat := 1024

/-- `struct auth_st`. -/
structure AuthSt where
  parser : AuthParser := {}
  status : AuthStatus := .succeeded
  deriving DecidableEq

/-- `struct request_st`. -/
structure RequestSt where
  parser : RequestParser := {}
  status : SocksStatus := .succeeded
  deriving DecidableEq

structure Socks5 where
  clientFd : Int
  clientAddr : SockAddr := {}
  /-- The slot of the table of users whose name this points to. -/
  clientUname : Option Nat := none
  originResolution : List AddrInfo := []
  originResolutionCurrent : List AddrInfo := []
  originFd : Int := -1
  originAddr : SockAddr := {}
  originDomain : Nat := 0
  destAddrType : Byte := 0
  destAddr : SocksAddr := {}
  stm : Option SocksState := none
  hello : HelloParser Byte := { data := 0 }
  auth : AuthSt := {}
  request : RequestSt := {}
  clientDuplex : Interest := opNoop
  origDuplex : Interest := opNoop
  dp : DisectorParser := {}
  readBuffer : Buffer := bufferInit (List.replicate rawBufferSize 0)
  writeBuffer : Buffer := bufferInit (List.replicate rawBufferSize 0)
  references : Nat := 1
  log : List Action := []

/-- The two `struct copy`s of a connection. -/
inductive Side
  | client | origin
  deriving DecidableEq, Repr

def Side.other : Side → Side
  | .client => .origin
  | .origin => .client

namespace Socks5

def fd (s : Socks5) : Side → Int
  | .client => s.clientFd
  | .origin => s.originFd

/-- `d->rb`: what is read from the side goes here. -/
def rb (s : Socks5) : Side → Buffer
  | .client => s.readBuffer
  | .origin => s.writeBuffer

/-- `d->wb`: what is written to the side comes from here. -/
def wb (s : Socks5) (d : Side) : Buffer := s.rb d.other

def duplex (s : Socks5) : Side → Interest
  | .client => s.clientDuplex
  | .origin => s.origDuplex

def setRb (s : Socks5) (d : Side) (b : Buffer) : Socks5 :=
  match d with
  | .client => { s with readBuffer := b }
  | .origin => { s with writeBuffer := b }

def setDuplex (s : Socks5) (d : Side) (i : Interest) : Socks5 :=
  match d with
  | .client => { s with clientDuplex := i }
  | .origin => { s with origDuplex := i }

def copyInterest (s : Socks5) (d : Side) : Interest where
  read := (s.duplex d).read && bufferCanWrite (s.rb d)
  write := (s.duplex d).write && bufferCanRead (s.wb d)

end Socks5

/-- The process-wide variables. -/
structure Globals where
  isAuthOn : Bool := true
  users : Users := {}
  historicConnections : UInt32 := 0
  currentConnections : UInt32 := 0
  bytesTransferred : UInt32 := 0
  isDisectorOn : Bool := true

/-- The answers of the system calls that one event can make. An event makes
each of them at most once. -/
structure Io where
  /-- `recv`: -1, or the bytes that are there; 0 is the empty list. -/
  recv : Option (List Byte) := none
  /-- `send`: -1, or how many bytes the socket takes. -/
  send : Option Nat := none
  /-- `getsockopt` of `SO_ERROR`: -1, or the error. -/
  sockError : Option Nat := none
  /-- `socket`: -1, or the descriptor. -/
  socket : Option Nat := none
  /-- Whether `fcntl` succeeds. -/
  nio : Bool := true
  /-- `connect`: 0, or -1 with this `errno`. -/
  connect : Option Nat := none
  /-- Whether the `malloc` of the copied key succeeds. -/
  malloc : Bool := true
  /-- Whether `pthread_create` makes the thread; if not it returns the -1 that it is
  tested for. Its error numbers, after which there is no thread, are left out. -/
  thread : Bool := true

-- ---------------------------------------------------------------------------
-- The calls
-- ---------------------------------------------------------------------------

inductive Call
  | attachment
  | update (f : Socks5 → Socks5)
  | globals
  | setGlobals (f : Globals → Globals)
  | answers
  | socket
  | close (fd : Int)
  | register (fd : Int) (interest : Interest)
  | unregister (fd : Int)
  | setInterest (fd : Int) (interest : Interest)
  | spawn (key : Key)
  | fail (f : Fault)

abbrev Call.Answer : Call → Type
  | .attachment => Socks5
  | .update _ => Unit
  | .globals => Globals
  | .setGlobals _ => Unit
  | .answers => Io
  | .socket => Int
  | .close _ => Unit
  | .register _ _ => SelectorStatus
  | .unregister _ => SelectorStatus
  | .setInterest _ _ => SelectorStatus
  | .spawn _ => Unit
  | .fail _ => Empty

abbrev calls : Lib.Signature := ⟨Call, Call.Answer⟩

abbrev Handler := Lib.Prog calls

namespace Handler

def call (o : Call) : Handler o.Answer := Lib.Prog.perform (S := calls) o

def attachment : Handler Socks5 := call .attachment

def update (f : Socks5 → Socks5) : Handler Unit := call (.update f)

def note (a : Action) : Handler Unit := update fun s => { s with log := s.log ++ [a] }

def globals : Handler Globals := call .globals

def setGlobals (f : Globals → Globals) : Handler Unit := call (.setGlobals f)

def answers : Handler Io := call .answers

/-- A new thread that runs `request_resolv_blocking`. -/
def spawn (key : Key) : Handler Unit := call (.spawn key)

def fail (f : Fault) : Handler α := do
  nomatch ← call (.fail f)

def abort : Handler α := fail .abort

/-- `assert(3)` inside an operation. -/
def check : Option α → Handler α
  | some a => pure a
  | none => fail .assertion

/-- At most `count` of the bytes that are there. -/
def recv (fd : Int) (count : Nat) : Handler (Option (List Byte)) := do
  let io ← answers
  let r := io.recv.map (·.take count)
  note (.recv fd r)
  return r

/-- At most as many bytes as there are. -/
def send (fd : Int) (bytes : List Byte) : Handler (Option Nat) := do
  let io ← answers
  match io.send with
  | none =>
    note (.sendFailed fd)
    return none
  | some n =>
    let n := min n bytes.length
    note (.send fd (bytes.take n))
    return some n

def getsockoptError (fd : Int) : Handler (Option Nat) := do
  let io ← answers
  note (.sockError fd io.sockError)
  return io.sockError

def socket : Handler Int := do
  let fd ← call .socket
  note (.socket fd)
  return fd

def selectorFdSetNio (_fd : Int) : Handler Bool := do
  let io ← answers
  return io.nio

/-- A `connect` that fails sets `errno`. -/
def connect (fd : Int) (addr : SockAddr) : Handler (Option Nat) := do
  let io ← answers
  note (.connect fd addr io.connect)
  if io.connect = some 0 then fail .kernel
  return io.connect

def close (fd : Int) : Handler Unit := call (.close fd)

def selectorRegister (fd : Int) (interest : Interest) : Handler SelectorStatus :=
  call (.register fd interest)

def selectorUnregisterFd (fd : Int) : Handler SelectorStatus := call (.unregister fd)

def selectorSetInterest (fd : Int) (interest : Interest) : Handler SelectorStatus :=
  call (.setInterest fd interest)

def selectorSetInterestKey (key : Key) (interest : Interest) : Handler SelectorStatus :=
  selectorSetInterest key.fd interest

end Handler

end Socks5d
