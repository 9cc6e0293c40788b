import Socks5d.Selector.Table
import Socks5d.Socks5nio.Handlers

/-!
# The server

The whole process: the selector, the connections, the process-wide variables
and the kernel's table of open descriptors. The programs of the handlers run
over it (`World.exec`), and `World.step` is one event: an accepted connection,
a ready descriptor, a resolved name, or a change of the users or of the
disector. `selectorDestroy` ends the process.

A released `struct socks5` is kept, marked as not live, so that a use after the
release is a fault and what the connection did stays visible. The thread that
resolves a name stores its answer and has its notification delivered in one
event; the connection has no interests in between.
-/

namespace Socks5d

/-- The `fd_handler`s: of a connection and of a passive socket. -/
inductive FdHandler
  | socks5 | passive
  deriving DecidableEq, Repr

inductive Owner
  | system
  | conn (c : ConnId)
  deriving DecidableEq, Repr

/-- A `struct socks5`, and whether it is in use. -/
structure Conn where
  s : Socks5
  live : Bool

structure World where
  globals : Globals := {}
  sel : Selector FdHandler ConnId
  /-- The structs allocated so far. -/
  conns : ConnId → Option Conn := fun _ => none
  allocated : Nat := 0
  pool : List ConnId := []
  poolSize : Nat := 0
  files : Nat → Option Owner := fun _ => none
  /-- The resolver threads, as the keys they were given. -/
  threads : List Key := []
  /-- The lists that `socks5_destroy_` gave to `freeaddrinfo`, with their structs. -/
  freed : List (ConnId × List AddrInfo) := []

namespace World

/-- The world after start-up: the selector has the passive sockets, and nothing
was accepted yet. -/
structure Initial (w : World) : Prop where
  size : w.sel.fds.length = fdSetSize + 1
  sel : w.sel.Ok
  passive : ∀ {n item}, w.sel.entry n = some item →
    item.handler = some .passive ∧ item.data = none ∧ w.files n = some .system
  conns : ∀ c, w.conns c = none
  allocated : w.allocated = 0
  pool : w.pool = [] ∧ w.poolSize = 0
  files : ∀ n c, w.files n ≠ some (.conn c)
  threads : w.threads = []
  freed : w.freed = []
  isAuthOn : w.globals.isAuthOn = true
  statistics : w.globals.historicConnections = 0 ∧ w.globals.currentConnections = 0 ∧
    w.globals.bytesTransferred = 0
  users : w.globals.users.registered ≤ maxUsers

-- ---------------------------------------------------------------------------
-- Memory and descriptors
-- ---------------------------------------------------------------------------

def deref (w : World) (c : ConnId) : Except Fault Socks5 :=
  match w.conns c with
  | some ⟨s, true⟩ => .ok s
  | _ => .error .useAfterFree

def setConn (w : World) (c : ConnId) (conn : Conn) : World :=
  { w with conns := Function.update w.conns c (some conn) }

def close (w : World) (fd : Int) : World :=
  if fd < 0 then w else { w with files := Function.update w.files fd.toNat none }

def openFile (w : World) (n : Nat) (owner : Owner) : Except Fault World :=
  match w.files n with
  | none => .ok { w with files := Function.update w.files n (some owner) }
  | some _ => .error .kernel

/-- `max_pool`. -/
def maxPool : Nat := 50

/-- `socks5_destroy_`, without the `free`. -/
def socks5Destroy_ (w : World) (c : ConnId) (s : Socks5) : World :=
  if s.originResolution ≠ [] then { w with freed := w.freed ++ [(c, s.originResolution)] } else w

theorem destroyed_eq (w : World) (c : ConnId) (s : Socks5) :
    ∃ freed, w.socks5Destroy_ c s = { w with freed } := by
  unfold socks5Destroy_
  split
  · exact ⟨_, rfl⟩
  · exact ⟨w.freed, rfl⟩

def socks5Destroy (w : World) (c : ConnId) : Except Fault World := do
  let s ← w.deref c
  if s.references = 1 then
    let w := w.setConn c ⟨s, false⟩
    return if w.poolSize < maxPool then { w with pool := c :: w.pool, poolSize := w.poolSize + 1 }
      else w.socks5Destroy_ c s
  else return w.setConn c ⟨{ s with references := s.references - 1 }, true⟩

/-- `malloc` is called when the pool is empty. The struct is cleared, so nothing
of its last use is left. -/
def socks5New (w : World) (malloc : Bool) (clientFd : Nat) (clientAddr : SockAddr) :
    Option (World × ConnId) :=
  if w.pool = [] ∧ malloc = false then none
  else
    let c := w.allocated
    some ({ w with
      pool := w.pool.tail
      allocated := c + 1
      conns := Function.update w.conns c (some ⟨{ clientFd, clientAddr }, true⟩) }, c)

-- ---------------------------------------------------------------------------
-- The selector with its handlers
-- ---------------------------------------------------------------------------

/-- `handle_close` of an item. -/
def handleClose (w : World) (item : Item FdHandler ConnId) : Except Fault World :=
  match item.handler, item.data with
  | some .socks5, some c => w.socks5Destroy c
  | some .socks5, none => .ok w
  | some .passive, _ => .ok w
  | none, _ => .error .nullPointer

def unregister (w : World) (fd : Int) : Except Fault (World × SelectorStatus) := do
  match ← w.sel.registered fd with
  | none => return (w, .iargs)
  | some item =>
    let w ← w.handleClose item
    return ({ w with sel := w.sel.release fd item }, .success)

def exec (io : Io) (c : ConnId) : Lib.Interp calls World Fault
  | .attachment, w => do return (w, ← w.deref c)
  | .update f, w => do return (w.setConn c ⟨f (← w.deref c), true⟩, ())
  | .globals, w => return (w, w.globals)
  | .setGlobals f, w => return ({ w with globals := f w.globals }, ())
  | .answers, w => return (w, io)
  | .socket, w =>
    match io.socket with
    | none => return (w, -1)
    | some n => do return (← w.openFile n (.conn c), (n : Int))
  | .close fd, w => return (w.close fd, ())
  | .register fd interest, w => do
    let (sel, st) ← selectorRegister true w.sel fd FdHandler.socks5 interest (some c)
    return ({ w with sel }, st)
  | .unregister fd, w => w.unregister fd
  | .setInterest fd interest, w => do
    let (sel, st) ← selectorSetInterest w.sel fd interest
    return ({ w with sel }, st)
  | .spawn key, w => return ({ w with threads := w.threads ++ [key] }, ())
  | .fail f, _ => .error f

def handle (io : Io) (c : ConnId) (p : Handler Unit) (w : World) : Except Fault World :=
  match p.run (exec io c) w with
  | .ok (w, _) => .ok w
  | .error f => .error f

-- ---------------------------------------------------------------------------
-- Events
-- ---------------------------------------------------------------------------

/-- What `accept` gives: -1, or a descriptor and the address of the client. -/
structure Accept where
  answer : Option (Nat × SockAddr) := none
  nio : Bool := true
  malloc : Bool := true

/-- `socksv5_passive_accept`. -/
def passiveAccept (a : Accept) (w : World) : Except Fault World := do
  match a.answer with
  | none => return w
  | some (client, addr) =>
    let c := w.allocated
    let w ← w.openFile client (.conn c)
    if a.nio = false then return w.close client
    match w.socks5New a.malloc client addr with
    | none => return w.close client
    | some (w, c) =>
      let (sel, st) ← selectorRegister true w.sel client FdHandler.socks5 opRead (some c)
      let w := { w with sel }
      if st = .success then return w
      else (w.close client).socks5Destroy c

inductive Event
  /-- The item of a descriptor is ready for reading, or for writing. -/
  | ready (fd : Nat) (write : Bool) (io : Io)
  | accept (fd : Nat) (a : Accept)
  /-- A resolver thread ends and its notification is delivered. -/
  | resolved (key : Key) (answer : Option (List AddrInfo)) (io : Io)
  | registerUser (uname passwd : CStr)
  | unregisterUser (uname : CStr)
  | toggleDisector (value : Bool)

/-- The item that an event of the selector is delivered to: it is registered
and has the interest. -/
def target (w : World) (fd : Nat) (write : Bool) : Option (Item FdHandler ConnId) := do
  let item ← w.sel.fds[fd]?
  if item.used ∧ (if write then item.interest.write else item.interest.read) then some item
  else none

/-- One event; `none` when the selector does not deliver it. -/
def step (w : World) : Event → Option (Except Fault World)
  | .ready fd write io => do
    let item ← w.target fd write
    match item.handler, item.data with
    | some .socks5, some c =>
      let key : Key := ⟨item.fd, c⟩
      some (w.handle io c (if write then Handler.socksv5Write key else Handler.socksv5Read key))
    | _, _ => none
  | .accept fd a => do
    let item ← w.target fd false
    match item.handler with
    | some .passive => some (w.passiveAccept a)
    | _ => none
  | .resolved key answer io =>
    if key ∈ w.threads then
      some do
        let w := { w with threads := w.threads.erase key }
        let w ← w.handle io key.conn (Handler.requestResolvBlocking answer)
        -- `handle_block_notifications`
        match ← w.sel.registered key.fd with
        | none => return w
        | some item =>
          match item.handler, item.data with
          | some .socks5, some c => w.handle io c (Handler.socksv5Block ⟨item.fd, c⟩)
          | _, _ => throw .nullPointer
    else none
  | .registerUser uname passwd =>
    some (.ok { w with globals := { w.globals with
      users := (socksv5RegisterUser w.globals.users uname passwd).1 } })
  | .unregisterUser uname =>
    some (.ok { w with globals := { w.globals with
      users := (socksv5UnregisterUser w.globals.users uname).1 } })
  | .toggleDisector value =>
    some (.ok { w with globals := { w.globals with isDisectorOn := value } })

-- ---------------------------------------------------------------------------
-- The end of the process
-- ---------------------------------------------------------------------------

/-- The body of the loop of `selector_destroy`. -/
def destroyItem (w : World) (i : Nat) : Except Fault World := do
  let item ← w.sel.item i
  if item.used then return (← w.unregister i).1
  else return w

def selectorDestroy (w : World) : Except Fault World :=
  (List.range w.sel.fds.length).foldlM destroyItem w

end World

end Socks5d
