import Mathlib.Algebra.Group.Nat.Defs
import Socks5d.Basic

/-!
# selector.c: the table of descriptors

A selector is a table indexed by descriptor together with the sets given to
`pselect`. The table is generic in the handlers and in the attachments, the
`void *data` of the source.

`serial` is not in the source: it numbers the successful registrations, so
that two registrations of one descriptor can be told apart.
-/

namespace Socks5d

/-- `fd_interest`, the disjunction of `OP_READ` and `OP_WRITE`. -/
structure Interest where
  read : Bool
  write : Bool
  deriving DecidableEq, Repr

def opNoop : Interest := ⟨false, false⟩
def opRead : Interest := ⟨true, false⟩
def opWrite : Interest := ⟨false, true⟩

inductive SelectorStatus
  | success | enomem | maxfd | iargs | fdinuse | io
  deriving DecidableEq, Repr

/-- `FD_UNUSED`. -/
def fdUnused : Int := -1

structure Item (η δ : Type) where
  fd : Int := fdUnused
  interest : Interest := opNoop
  handler : Option η := none
  data : Option δ := none
  serial : Nat := 0
  deriving DecidableEq

/-- `ITEM_USED`. -/
def Item.used (item : Item η δ) : Bool := item.fd ≠ fdUnused

/-- `fd_set`. -/
abbrev FdSet := Nat → Bool

def fdIsset (fd : Int) (set : FdSet) : Bool := 0 ≤ fd && set fd.toNat

def fdSetTo (fd : Int) (value : Bool) (set : FdSet) : FdSet := Function.update set fd.toNat value

structure Selector (η δ : Type) where
  fds : List (Item η δ) := []
  maxFd : Nat := 0
  masterR : FdSet := fun _ => false
  masterW : FdSet := fun _ => false
  slaveR : FdSet := fun _ => false
  slaveW : FdSet := fun _ => false
  serial : Nat := 0

/-- `INVALID_FD`. -/
def invalidFd (fd : Int) : Bool := fd < 0 || fd ≥ fdSetSize

-- ---------------------------------------------------------------------------
-- The size of the table
-- ---------------------------------------------------------------------------

def itemsMaxSize : Nat := fdSetSize

/-- The loop of `next_capacity`: the number of shifts until `tmp` is zero. -/
def shiftCount (tmp : Nat) : Nat := if tmp = 0 then 0 else shiftCount (tmp / 2) + 1

def nextCapacity (n : Nat) : Nat :=
  let tmp := 2 ^ shiftCount n
  (if tmp > itemsMaxSize then itemsMaxSize else tmp) + 1

/-- `alloc` tells whether `calloc` or `realloc` succeeds. -/
def ensureCapacity (alloc : Bool) (s : Selector η δ) (n : Nat) : Selector η δ × SelectorStatus :=
  if n < s.fds.length then (s, .success)
  else if n > itemsMaxSize then (s, .maxfd)
  else if alloc then
    -- the first allocation and the growth differ only in what they copy
    ({ s with fds := s.fds ++ List.replicate (nextCapacity n - s.fds.length) {} }, .success)
  else (s, .enomem)

def selectorNew (alloc : Bool) (initialElements : Nat) : Option (Selector η δ) :=
  match ensureCapacity alloc {} initialElements with
  | (s, .success) => some s
  | _ => none

-- ---------------------------------------------------------------------------
-- Registration and interests
-- ---------------------------------------------------------------------------

namespace Selector

variable {η δ : Type}

def item (s : Selector η δ) (n : Nat) : Except Fault (Item η δ) :=
  match s.fds[n]? with
  | some item => .ok item
  | none => .error .outOfBounds

def setItem (s : Selector η δ) (n : Nat) (item : Item η δ) : Selector η δ :=
  { s with fds := s.fds.set n item }

end Selector

/-- One turn of the loop of `items_max_fd`. -/
def maxFdStep (max : Nat) (item : Item η δ) : Nat :=
  if item.used && item.fd > (max : Int) then item.fd.toNat else max

def itemsMaxFd (s : Selector η δ) : Nat := (s.fds.take (s.maxFd + 1)).foldl maxFdStep 0

def itemsUpdateFdsetForFd (s : Selector η δ) (item : Item η δ) : Selector η δ :=
  { s with
    masterR := fdSetTo item.fd (item.used && item.interest.read) s.masterR
    masterW := fdSetTo item.fd (item.used && item.interest.write) s.masterW }

def selectorRegister (alloc : Bool) (s : Selector η δ) (fd : Int) (handler : η)
    (interest : Interest) (data : Option δ) : Except Fault (Selector η δ × SelectorStatus) := do
  if invalidFd fd then return (s, .iargs)
  let (s, ret) := if fd.toNat ≥ s.fds.length then ensureCapacity alloc s fd.toNat else (s, .success)
  if ret ≠ .success then return (s, ret)
  let item ← s.item fd.toNat
  if item.used then return (s, .fdinuse)
  let item := { fd, interest, handler := some handler, data, serial := s.serial }
  let s := { s.setItem fd.toNat item with maxFd := max s.maxFd fd.toNat, serial := s.serial + 1 }
  return (itemsUpdateFdsetForFd s item, .success)

/-- The item of a registered descriptor; the checks that `selector_unregister_fd`
and `selector_set_interest` start with. -/
def Selector.registered (s : Selector η δ) (fd : Int) : Except Fault (Option (Item η δ)) := do
  if invalidFd fd then return none
  let item ← s.item fd.toNat
  return if item.used then some item else none

/-- What `selector_unregister_fd` does after `handle_close` has returned. -/
def Selector.release (s : Selector η δ) (fd : Int) (item : Item η δ) : Selector η δ :=
  let s := itemsUpdateFdsetForFd s { item with interest := opNoop }
  let s := s.setItem fd.toNat {}
  { s with maxFd := itemsMaxFd s }

/-- With a `handle_close` that leaves the selector alone. -/
def selectorUnregisterFd (s : Selector η δ) (fd : Int) :
    Except Fault (Selector η δ × SelectorStatus) := do
  match ← s.registered fd with
  | none => return (s, .iargs)
  | some item => return (s.release fd item, .success)

def selectorSetInterest (s : Selector η δ) (fd : Int) (i : Interest) :
    Except Fault (Selector η δ × SelectorStatus) := do
  match ← s.registered fd with
  | none => return (s, .iargs)
  | some item =>
    let item := { item with interest := i }
    return (itemsUpdateFdsetForFd (s.setItem fd.toNat item) item, .success)

end Socks5d
