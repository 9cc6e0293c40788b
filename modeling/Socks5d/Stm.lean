import Mathlib.Tactic.Common

/-!
# stm.c: the engine of the state machines

The states are an enumeration `σ`, so a next state is never above `max_state`
and the table has one entry per state. The engine runs in the monad of its
hooks; `current` and `setCurrent` access `stm->current`, which is null before
the first event, and `abort` ends the process.
-/

namespace Socks5d

/-- `struct state_definition`; a null hook is `none`. -/
structure StateDefinition (m : Type → Type) (σ κ : Type) where
  onArrival : Option (κ → m Unit) := none
  onDeparture : Option (κ → m Unit) := none
  onReadReady : Option (κ → m σ) := none
  onWriteReady : Option (κ → m σ) := none
  onBlockReady : Option (κ → m σ) := none

structure StateMachine (m : Type → Type) (σ κ : Type) where
  initial : σ
  states : σ → StateDefinition m σ κ
  current : m (Option σ)
  setCurrent : σ → m Unit
  abort : ∀ {α : Type}, m α

namespace StateMachine

variable {m : Type → Type} [Monad m] {σ κ : Type} [DecidableEq σ]

def hook (h : Option (κ → m Unit)) (key : κ) : m Unit :=
  match h with
  | some h => h key
  | none => pure ()

def handleFirst (stm : StateMachine m σ κ) (key : κ) : m σ := do
  match ← stm.current with
  | some current => return current
  | none =>
    stm.setCurrent stm.initial
    hook (stm.states stm.initial).onArrival key
    return stm.initial

def jump (stm : StateMachine m σ κ) (next : σ) (key : κ) : m Unit := do
  let current ← stm.current
  if current ≠ some next then
    match current with
    | some current => hook (stm.states current).onDeparture key
    | none => pure ()
    stm.setCurrent next
    hook (stm.states next).onArrival key

/-- `stm_handler_read`, `stm_handler_write` and `stm_handler_block` differ in
the hook they call. -/
def handler (stm : StateMachine m σ κ) (ready : StateDefinition m σ κ → Option (κ → m σ))
    (key : κ) : m σ := do
  let current ← stm.handleFirst key
  match ready (stm.states current) with
  | none => stm.abort
  | some h =>
    let ret ← h key
    stm.jump ret key
    return ret

def handlerRead (stm : StateMachine m σ κ) (key : κ) : m σ := stm.handler (·.onReadReady) key

def handlerWrite (stm : StateMachine m σ κ) (key : κ) : m σ := stm.handler (·.onWriteReady) key

def handlerBlock (stm : StateMachine m σ κ) (key : κ) : m σ := stm.handler (·.onBlockReady) key

end StateMachine

end Socks5d
