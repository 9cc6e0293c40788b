import Socks5d.Lib.Runs
import Socks5d.Monitor.Tables
import Socks5d.Selector.Table

/-!
# monitornio.c: the service

The monitor with its connections: the selector, the structs, the pool and the
descriptors of the process. An event is a ready descriptor, a new connection,
or a call of the proxy, which shares the selector, the descriptors and the
process-wide variables (`ProxyCall`).

`received` and `sent` of a connection are not in the source: they are the bytes
of its socket. A released struct is kept, marked as not live.
-/

namespace Socks5d

abbrev MonitorId := Nat

/-- The `fd_handler`s: `monitor_handler`, that of the passive sockets of the
monitor, and those of the proxy. -/
inductive MonitorHandler
  | monitor | passive | proxy
  deriving DecidableEq, Repr

inductive MonitorOwner
  | others
  | connection (c : MonitorId)
  deriving DecidableEq, Repr

/-- A `struct connection`, and whether it is in use. -/
structure MonitorSession where
  clientFd : Int
  conn : MonitorConnection := {}
  live : Bool := true
  received : List Byte := []
  sent : List Byte := []

structure MonitorKey where
  fd : Int
  conn : MonitorId

/-- What `accept` gives: -1, or a descriptor; then whether `fcntl` and `malloc`
succeed. -/
structure MonitorAccept where
  answer : Option Nat := none
  nio : Bool := true
  malloc : Bool := true

structure Service where
  shared : Shared := {}
  sel : Selector MonitorHandler MonitorId
  /-- The structs allocated so far. -/
  sessions : MonitorId → Option MonitorSession := fun _ => none
  allocated : Nat := 0
  pool : List MonitorId := []
  poolSize : Nat := 0
  files : Nat → Option MonitorOwner := fun _ => none

inductive ProxyCall
  | register (fd : Int) (interest : Interest)
  | unregister (fd : Int)
  | setInterest (fd : Int) (interest : Interest)
  | openFile (n : Nat)
  | close (n : Nat)
  | globals (isAuthOn : Bool) (historic current transferred : UInt32)

namespace Service

-- ---------------------------------------------------------------------------
-- Memory and descriptors
-- ---------------------------------------------------------------------------

def deref (w : Service) (c : MonitorId) : Except Fault MonitorSession :=
  match w.sessions c with
  | some s => if s.live then .ok s else .error .useAfterFree
  | none => .error .useAfterFree

def setSession (w : Service) (c : MonitorId) (s : MonitorSession) : Service :=
  { w with sessions := Function.update w.sessions c (some s) }

def close (w : Service) (fd : Int) : Service :=
  if fd < 0 then w else { w with files := Function.update w.files fd.toNat none }

def openFile (w : Service) (n : Nat) (owner : MonitorOwner) : Except Fault Service :=
  match w.files n with
  | none => .ok { w with files := Function.update w.files n (some owner) }
  | some _ => .error .kernel

/-- `max_pool`. -/
def maxPool : Nat := 5

def connectionDestroy (w : Service) (c : MonitorId) : Except Fault Service := do
  let s ← w.deref c
  let w := w.setSession c { s with live := false }
  return if w.poolSize < maxPool then { w with pool := c :: w.pool, poolSize := w.poolSize + 1 }
    else w

/-- `malloc` is called when the pool is empty. The struct is cleared, so nothing
of its last use is left. -/
def connectionNew (w : Service) (malloc : Bool) (clientFd : Nat) : Option (Service × MonitorId) :=
  if w.pool = [] ∧ malloc = false then none
  else
    let c := w.allocated
    some ({ w with
      pool := w.pool.tail
      allocated := c + 1
      sessions := Function.update w.sessions c (some { clientFd }) }, c)

-- ---------------------------------------------------------------------------
-- The handlers
-- ---------------------------------------------------------------------------

/-- `handle_close` of an item; `monitor_close` of a connection. -/
def handleClose (w : Service) (item : Item MonitorHandler MonitorId) : Except Fault Service :=
  match item.handler, item.data with
  | some .monitor, some c => w.connectionDestroy c
  | some .monitor, none => .ok w
  | some .passive, _ => .ok w
  | some .proxy, _ => .ok w
  | none, _ => .error .nullPointer

def unregister (w : Service) (fd : Int) : Except Fault (Service × SelectorStatus) := do
  match ← w.sel.registered fd with
  | none => return (w, .iargs)
  | some item =>
    let w ← w.handleClose item
    return ({ w with sel := w.sel.release fd item }, .success)

def monitorFinish (w : Service) (c : MonitorId) : Except Fault Service := do
  let s ← w.deref c
  if s.clientFd ≠ -1 then
    let (w, st) ← w.unregister s.clientFd
    if st ≠ .success then throw .abort
    return w.close s.clientFd
  else return w

/-- `monitor_read`. -/
def handleRead (io : Io) (key : MonitorKey) (w : Service) : Except Fault Service := do
  let s ← w.deref key.conn
  match io.recv with
  | none => w.monitorFinish key.conn
  | some chunk =>
    let bytes := chunk.take (bufferWritePtr s.conn.reading.readBuffer)
    let (shared, conn) ← monitorRead chunk w.shared s.conn
    let w := { w with shared }
    let w := w.setSession key.conn { s with conn, received := s.received ++ bytes }
    if conn.finished then w.monitorFinish key.conn
    else if monitorIsDone conn.reading.parser.state then
      -- the status of `selector_set_interest_key` is not looked at
      let (sel, _) ← selectorSetInterest w.sel key.fd opWrite
      return { w with sel }
    else return w

/-- `monitor_write`. -/
def handleWrite (io : Io) (key : MonitorKey) (w : Service) : Except Fault Service := do
  let s ← w.deref key.conn
  let n := io.send.map (min (bufferReadPtr s.conn.writeBuffer).length)
  let (conn, bytes) ← monitorWrite n s.conn
  let w := w.setSession key.conn { s with conn, sent := s.sent ++ bytes }
  if conn.finished then w.monitorFinish key.conn else return w

/-- `monitor_passive_accept`. `monitor_init` is part of the new struct. -/
def monitorPassiveAccept (a : MonitorAccept) (w : Service) : Except Fault Service := do
  match a.answer with
  | none => return w
  | some client =>
    let w ← w.openFile client (.connection w.allocated)
    if a.nio = false then return w.close client
    match w.connectionNew a.malloc client with
    | none => return w.close client
    | some (w, c) =>
      let (sel, st) ← selectorRegister true w.sel client MonitorHandler.monitor opRead (some c)
      let w := { w with sel }
      if st = .success then return w
      else (w.close client).connectionDestroy c

-- ---------------------------------------------------------------------------
-- The proxy
-- ---------------------------------------------------------------------------

def proxy (w : Service) : ProxyCall → Except Fault Service
  | .register fd interest => do
    let (sel, _) ← selectorRegister true w.sel fd MonitorHandler.proxy interest none
    return { w with sel }
  | .unregister fd => do return (← w.unregister fd).1
  | .setInterest fd interest => do
    let (sel, _) ← selectorSetInterest w.sel fd interest
    return { w with sel }
  | .openFile n => w.openFile n .others
  | .close n => .ok (w.close n)
  | .globals isAuthOn historicConnections currentConnections bytesTransferred =>
    .ok { w with shared := { w.shared with globals := { w.shared.globals with
      isAuthOn, historicConnections, currentConnections, bytesTransferred } } }

def ProxyItem (w : Service) (fd : Int) : Prop :=
  ∀ item ∈ w.sel.fds[fd.toNat]?, item.used → item.handler = some .proxy

def OwnCall (w : Service) : ProxyCall → Prop
  | .unregister fd => w.ProxyItem fd
  | .setInterest fd _ => w.ProxyItem fd
  | .close n => w.files n = some .others
  | _ => True

-- ---------------------------------------------------------------------------
-- Events
-- ---------------------------------------------------------------------------

inductive Event
  /-- The item of a descriptor is ready for reading, or for writing. -/
  | ready (fd : Nat) (write : Bool) (io : Io)
  | accept (fd : Nat) (a : MonitorAccept)
  | proxy (call : ProxyCall)

/-- The item that an event of the selector is delivered to: it is registered
and has the interest. -/
def target (w : Service) (fd : Nat) (write : Bool) : Option (Item MonitorHandler MonitorId) := do
  let item ← w.sel.fds[fd]?
  if item.used ∧ (if write then item.interest.write else item.interest.read) then some item
  else none

/-- One event; `none` when the selector does not deliver it. -/
def step (w : Service) : Event → Option (Except Fault Service)
  | .ready fd write io => do
    let item ← w.target fd write
    match item.handler, item.data with
    | some .monitor, some c =>
      let key : MonitorKey := ⟨item.fd, c⟩
      some (if write then w.handleWrite io key else w.handleRead io key)
    | _, _ => none
  | .accept fd a => do
    let item ← w.target fd false
    match item.handler with
    | some .passive => some (w.monitorPassiveAccept a)
    | _ => none
  | .proxy call => some (w.proxy call)

def Allowed (w : Service) : Event → Prop
  | .proxy call => w.OwnCall call
  | _ => True

instance (w : Service) (fd : Int) : Decidable (w.ProxyItem fd) := by
  unfold ProxyItem
  infer_instance

instance (w : Service) (call : ProxyCall) : Decidable (w.OwnCall call) := by
  cases call <;> unfold OwnCall <;> infer_instance

instance (w : Service) (e : Event) : Decidable (Allowed w e) := by
  cases e <;> unfold Allowed <;> infer_instance

/-- After start-up: nothing was accepted yet. -/
structure Initial (w : Service) : Prop where
  size : w.sel.fds.length = fdSetSize + 1
  sel : w.sel.Ok
  items : ∀ {n item}, w.sel.entry n = some item →
    item.handler = some .passive ∨ item.handler = some .proxy
  sessions : ∀ c, w.sessions c = none
  allocated : w.allocated = 0
  pool : w.pool = [] ∧ w.poolSize = 0
  files : ∀ n c, w.files n ≠ some (.connection c)
  users : w.shared.globals.users.Whole
  admins : w.shared.admins.Valid

def Reachable : Service → Service → Prop := Lib.Reaches step Allowed

end Service

end Socks5d
