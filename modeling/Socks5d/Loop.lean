import Socks5d.Runs
import Socks5d.Selector.Descriptors

/-!
# The main loop and the resolver threads

`selector_select` step by step, as the main thread takes it, with the steps of
the threads of `request_resolv_blocking` in between: `Process.step` is one step
of one of them. A handler runs without being interrupted; what is left out of
an iteration is what the handlers of the monitor do, as far as it is not a
change of the users or of the disector.

The signal of a notification is blocked outside `pselect`, so it stays pending
until the main thread is there.

When a `handle_read` unregisters its own item the loop still asks for
`FD_ISSET(-1)`, an access outside of the `fd_set`. Here the answer is false.
-/

namespace Socks5d

/-- The `struct selector_key` that `handle_iteration` fills. -/
structure SelectorKey where
  fd : Int
  data : Option ConnId

/-- What `pselect` answers: the ready descriptors, or -1 with `EAGAIN` or
`EINTR`, or with another error. -/
inductive Poll
  | ready (readyR readyW : List Nat)
  | interrupted
  | failed

/-- Where `handle_iteration` is. -/
structure Scan where
  /-- `max_fd` when the loop began. -/
  n : Nat
  i : Nat := 0
  slaveR : FdSet
  slaveW : FdSet
  /-- The key of the item, once the block for reading is behind. -/
  key : Option SelectorKey := none

inductive Phase
  | idle
  | polling
  | scanning (scan : Scan)
  | scanned
  /-- In `handle_block_notifications`, with the jobs still to come. -/
  | draining (rest : List Int)
  | stopped

/-- Whether the thread is in `pselect`. -/
def Phase.isPolling : Phase → Bool
  | .polling => true
  | _ => false

def Scan.next (scan : Scan) : Phase :=
  if scan.i < scan.n then .scanning { scan with i := scan.i + 1, key := none } else .scanned

structure Process where
  world : World
  phase : Phase := .idle
  /-- Whether `selector_thread` was set. -/
  selectorThread : Bool := false
  /-- Whether the signal is pending. -/
  signal : Bool := false
  /-- The descriptors of `resolution_jobs`, in the order of the list. -/
  resolutionJobs : List Int := []
  /-- The threads that call `selector_notify_block` next. Those in front of
  them, in `getaddrinfo`, are the threads of the world. -/
  notifying : List Key := []
  /-- The threads that call `pthread_kill` next. -/
  signalling : List Key := []
  /-- The threads that found no memory for their job. -/
  lost : List Key := []

namespace World

/-- `handle_read` of an item. -/
def handleRead (w : World) (item : Item FdHandler ConnId) (key : SelectorKey) (io : Io) (a : Accept) :
    Except Fault World :=
  match item.handler, key.data with
  | some .socks5, some c => w.handle io c (Handler.socksv5Read ⟨key.fd, c⟩)
  | some .socks5, none => .error .nullPointer
  | some .passive, _ => w.passiveAccept a
  | none, _ => .error .nullPointer

/-- `handle_write` of an item. A passive socket has none. -/
def handleWrite (w : World) (item : Item FdHandler ConnId) (key : SelectorKey) (io : Io) :
    Except Fault World :=
  match item.handler, key.data with
  | some .socks5, some c => w.handle io c (Handler.socksv5Write ⟨key.fd, c⟩)
  | some .socks5, none => .error .nullPointer
  | some .passive, _ => .error .assertion
  | none, _ => .error .nullPointer

/-- The body of the loop of `handle_block_notifications`. A passive socket has
no `handle_block`. -/
def handleBlock (w : World) (fd : Int) (io : Io) : Except Fault World := do
  if fd < 0 then throw .outOfBounds
  let item ← w.sel.item fd.toNat
  if item.used then
    match item.handler, item.data with
    | some .socks5, some c => w.handle io c (Handler.socksv5Block ⟨item.fd, c⟩)
    | _, _ => throw .nullPointer
  else return w

def Event.isAdmin : Event → Bool
  | .registerUser .. | .unregisterUser .. | .toggleDisector .. => true
  | _ => false

end World

inductive Act
  /-- `selector_select`, up to `pselect`. -/
  | poll
  /-- `pselect` returns. -/
  | wake (p : Poll)
  /-- One of the two blocks of the loop of `handle_iteration`. -/
  | visit (io : Io) (a : World.Accept)
  | admin (e : World.Event)
  /-- `handle_block_notifications` takes the mutex. -/
  | lock
  | notify (io : Io)
  | unlock
  /-- `request_resolv_blocking`, up to the return of `getaddrinfo`. -/
  | resolve (key : Key) (answer : Option (List AddrInfo))
  /-- `selector_notify_block`, up to the release of the mutex. -/
  | push (key : Key) (malloc : Bool)
  /-- `pthread_kill`, and the end of the thread. -/
  | kill (key : Key)

namespace Process

/-- One block of `handle_iteration`. -/
def visitItem (p : Process) (scan : Scan) (io : Io) (a : World.Accept) : Except Fault Process := do
  let item ← p.world.sel.item scan.i
  match scan.key with
  | none =>
    if item.used then
      let key : SelectorKey := ⟨item.fd, item.data⟩
      let world ←
        if fdIsset item.fd scan.slaveR && item.interest.read then p.world.handleRead item key io a
        else pure p.world
      return { p with world, phase := .scanning { scan with key := some key } }
    else return { p with phase := scan.next }
  | some key =>
    let world ←
      if fdIsset item.fd scan.slaveW && item.interest.write then p.world.handleWrite item key io
      else pure p.world
    return { p with world, phase := scan.next }

/-- What `pselect` may answer: only watched descriptors are ready, and only a
signal interrupts it. -/
def Answers (p : Process) : Poll → Prop
  | .ready readyR readyW =>
    (∀ n ∈ readyR, p.world.sel.masterR n = true) ∧ ∀ n ∈ readyW, p.world.sel.masterW n = true
  | .interrupted => p.signal = true
  | .failed => True

/-- The return of `pselect`. -/
def woken (p : Process) : Poll → Process
  | .ready readyR readyW =>
    { p with phase := .scanning {
        n := p.world.sel.maxFd
        slaveR := fun n => decide (n ∈ readyR)
        slaveW := fun n => decide (n ∈ readyW) } }
  | .interrupted => { p with signal := false, phase := .scanned }
  | .failed => { p with phase := .stopped }

/-- One step; `none` when its thread is not there, or waits for the mutex. -/
def step (p : Process) : Act → Option (Except Fault Process)
  | .poll =>
    match p.phase with
    | .idle => some (.ok { p with phase := .polling, selectorThread := true })
    | _ => none
  | .wake answer =>
    match p.phase with
    | .polling => some (.ok (p.woken answer))
    | _ => none
  | .visit io a =>
    match p.phase with
    | .scanning scan => some (p.visitItem scan io a)
    | _ => none
  | .admin e =>
    match p.phase with
    | .scanning _ =>
      if e.isAdmin then (p.world.step e).map fun r => do return { p with world := ← r } else none
    | _ => none
  | .lock =>
    match p.phase with
    | .scanned => some (.ok { p with phase := .draining p.resolutionJobs })
    | _ => none
  | .notify io =>
    match p.phase with
    | .draining (fd :: rest) => some do
      return { p with world := ← p.world.handleBlock fd io, phase := .draining rest }
    | _ => none
  | .unlock =>
    match p.phase with
    | .draining [] => some (.ok { p with resolutionJobs := [], phase := .idle })
    | _ => none
  | .resolve key answer =>
    if key ∈ p.world.threads then some do
      let world ← p.world.handle {} key.conn (Handler.requestResolvBlocking answer)
      return { p with
        world := { world with threads := world.threads.erase key }
        notifying := key :: p.notifying }
    else none
  | .push key malloc =>
    match p.phase with
    | .draining _ => none
    | _ =>
      if key ∈ p.notifying then
        if malloc then some (.ok { p with
          notifying := p.notifying.erase key
          resolutionJobs := key.fd :: p.resolutionJobs
          signalling := key :: p.signalling })
        else some (.ok { p with
          notifying := p.notifying.erase key
          lost := key :: p.lost })
      else none
  | .kill key =>
    if key ∈ p.signalling then
      if p.selectorThread then
        some (.ok { p with signalling := p.signalling.erase key, signal := true })
      else some (.error .nullPointer)
    else none

/-- What the kernel is trusted with: the answers of `pselect`. -/
def Allowed (p : Process) : Act → Prop
  | .wake answer => p.Answers answer
  | _ => True

instance (p : Process) (a : Act) : Decidable (p.Allowed a) :=
  match a with
  | .wake (.ready readyR readyW) =>
    inferInstanceAs (Decidable ((∀ n ∈ readyR, p.world.sel.masterR n = true) ∧
      ∀ n ∈ readyW, p.world.sel.masterW n = true))
  | .wake .interrupted => inferInstanceAs (Decidable (p.signal = true))
  | .wake .failed | .poll | .visit .. | .admin .. | .lock | .notify .. | .unlock | .resolve ..
  | .push .. | .kill .. => inferInstanceAs (Decidable True)

/-- The process at the first call of `selector_select`: the passive sockets
wait for connections. -/
structure Initial (p : Process) : Prop where
  world : p.world.Initial
  bounded : p.world.sel.Bounded
  passive : ∀ {n item}, p.world.sel.entry n = some item → item.interest = opRead
  phase : p.phase = .idle
  selectorThread : p.selectorThread = false
  signal : p.signal = false
  resolutionJobs : p.resolutionJobs = []
  notifying : p.notifying = []
  signalling : p.signalling = []
  lost : p.lost = []

abbrev Reachable (p₀ p : Process) : Prop := Lib.Reaches step Allowed p₀ p

/-- The jobs that no thread was told of. -/
def waiting (p : Process) : List Int :=
  match p.phase with
  | .draining rest => rest
  | _ => p.resolutionJobs

end Process

end Socks5d
