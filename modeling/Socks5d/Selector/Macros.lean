import Socks5d.Selector.Descriptors

/-!
# selector.c: what the fd_set macros are given

`FD_ISSET`, `FD_SET` and `FD_CLR` must get a descriptor below `FD_SETSIZE`. The
iteration is run here with everything that decides what they get: the loop reads
`item->fd` again after a `handle_read`, `selector_unregister_fd` does after a
`handle_close`, a callback may unregister that very item, and a table that grows
may move away from under the pointer. `macros_valid_iff` says in which iterations
every macro gets a valid descriptor, `follows_selectorSelect` that these go as
the plain iteration does.
-/

namespace Socks5d

variable {η δ : Type}

inductive Growth
  | fails | stays | moves
  deriving DecidableEq

/-- What a handler asks of the selector; an unregistration with what the
`handle_close` of the item asks in turn. -/
inductive HandlerCall (η δ : Type)
  | register (growth : Growth) (fd : Int) (handler : η) (interest : Interest) (data : Option δ)
  | unregister (fd : Int) (close : List (HandlerCall η δ))
  | setInterest (fd : Int) (interest : Interest)

structure Tracked (η δ : Type) where
  sel : Selector η δ
  moves : Nat := 0
  given : List Int := []
  deliveries : List Delivery := []
  fault : Option Fault := none

def ValidFd (fd : Int) : Prop := 0 ≤ fd ∧ fd < fdSetSize

instance (fd : Int) : Decidable (ValidFd fd) := inferInstanceAs (Decidable (_ ∧ _))

/-- The arguments of the macros in `items_update_fdset_for_fd`. -/
def Item.macroFds (item : Item η δ) : List Int :=
  [item.fd, item.fd] ++
    if item.used then
      (if item.interest.read then [item.fd] else []) ++ (if item.interest.write then [item.fd] else [])
    else []

namespace Tracked

def fail (m : Tracked η δ) (f : Fault) : Tracked η δ := { m with fault := some f }

def andThen (m : Tracked η δ) (next : Tracked η δ → Tracked η δ) : Tracked η δ :=
  match m.fault with
  | some _ => m
  | none => next m

/-- A macro; an invalid descriptor is an access outside of the set. -/
def give (m : Tracked η δ) (fd : Int) : Tracked η δ :=
  m.andThen fun m =>
    if ValidFd fd then { m with given := m.given ++ [fd] }
    else ({ m with given := m.given ++ [fd] } : Tracked η δ).fail .outOfBounds

def gives (m : Tracked η δ) (fds : List Int) : Tracked η δ := fds.foldl give m

-- ---------------------------------------------------------------------------
-- The operations
-- ---------------------------------------------------------------------------

/-- The table has become that of `sel`; if it had to grow, it may have moved. -/
def grow (m : Tracked η δ) (growth : Growth) (sel : Selector η δ) : Tracked η δ :=
  if growth = .moves ∧ sel.fds.length ≠ m.sel.fds.length then { m with moves := m.moves + 1 } else m

def register (m : Tracked η δ) (growth : Growth) (fd : Int) (handler : η) (interest : Interest)
    (data : Option δ) : Tracked η δ :=
  match selectorRegister (growth ≠ .fails) m.sel fd handler interest data with
  | .error f => m.fail f
  | .ok (sel, st) =>
    let m := m.grow growth sel
    let item : Item η δ := { fd, interest, handler := some handler, data, serial := m.sel.serial }
    (if st = .success then m.gives item.macroFds else m).andThen fun m => { m with sel }

def setInterest (m : Tracked η δ) (fd : Int) (interest : Interest) : Tracked η δ :=
  match m.sel.registered fd, selectorSetInterest m.sel fd interest with
  | .error f, _ | _, .error f => m.fail f
  | .ok none, .ok (sel, _) => { m with sel }
  | .ok (some item), .ok (sel, _) =>
    (m.gives { item with interest }.macroFds).andThen fun m => { m with sel }

/-- `selector_unregister_fd`; `close` is the call of `handle_close`. The item is
the one at its place in the table, as the callback has left it. -/
def unregister (close : Tracked η δ → Tracked η δ) (m : Tracked η δ) (fd : Int) : Tracked η δ :=
  match m.sel.registered fd with
  | .error f => m.fail f
  | .ok none => m
  | .ok (some _) =>
    (close m).andThen fun m' =>
      if m'.moves ≠ m.moves then m'.fail .useAfterFree
      else match m'.sel.fds[fd.toNat]? with
        | none => m'.fail .outOfBounds
        | some item =>
          (m'.gives { item with interest := opNoop }.macroFds).andThen fun m' =>
            { m' with sel := m'.sel.release fd item }

end Tracked

mutual

def HandlerCall.exec (m : Tracked η δ) : HandlerCall η δ → Tracked η δ
  | .register growth fd handler interest data =>
    m.andThen fun m => m.register growth fd handler interest data
  | .unregister fd close => m.andThen fun m => m.unregister (fun m => HandlerCall.execs m close) fd
  | .setInterest fd interest => m.andThen fun m => m.setInterest fd interest

def HandlerCall.execs (m : Tracked η δ) : List (HandlerCall η δ) → Tracked η δ
  | [] => m
  | call :: calls => HandlerCall.execs (call.exec m) calls

end

namespace Tracked

abbrev Handlers (η δ : Type) := List Delivery → List (HandlerCall η δ)

def begin (m : Tracked η δ) (fd : Int) (d : Delivery) : Tracked η δ :=
  { m with given := m.given ++ [fd], deliveries := m.deliveries ++ [d] }

def ready (write : Bool) (m : Tracked η δ) (item : Item η δ) : Bool :=
  ({ sel := m.sel } : Iteration η δ).ready write item

/-- One of the two `FD_ISSET` blocks of the loop body. -/
def visit (h : Handlers η δ) (callbacks : Callbacks η) (i : Nat) (write : Bool)
    (m : Tracked η δ) : Tracked η δ :=
  match m.sel.fds[i]? with
  | none => m.fail .outOfBounds
  | some item =>
    (m.give item.fd).andThen fun m' =>
      if m.ready write item then
        if item.handler.any (callbacks.has write) then
          let d : Delivery := ⟨i, write, item.serial⟩
          HandlerCall.execs (m.begin item.fd d) (h (m.deliveries ++ [d]))
        else m'.fail .assertion
      else m'

/-- The body of the loop; `item` is a pointer into the table of before. -/
def body (h : Handlers η δ) (callbacks : Callbacks η) (m : Tracked η δ) (i : Nat) : Tracked η δ :=
  m.andThen fun m =>
    match m.sel.fds[i]? with
    | none => m.fail .outOfBounds
    | some item =>
      if item.used then
        (m.visit h callbacks i false).andThen fun m' =>
          if m'.moves ≠ m.moves then m'.fail .useAfterFree else m'.visit h callbacks i true
      else m

def turns (h : Handlers η δ) (callbacks : Callbacks η) (s : Selector η δ) (n : Nat) : Tracked η δ :=
  (List.range n).foldl (body h callbacks) { sel := s }

/-- `handle_iteration`, when `pselect` has left the sets `readyR` and `readyW`. -/
def handleIteration (h : Handlers η δ) (callbacks : Callbacks η) (readyR readyW : FdSet)
    (s : Selector η δ) : Tracked η δ :=
  turns h callbacks { s with slaveR := readyR, slaveW := readyW } (s.maxFd + 1)

theorem turns_succ (h : Handlers η δ) (callbacks : Callbacks η) (s : Selector η δ) (n : Nat) :
    turns h callbacks s (n + 1) = (turns h callbacks s n).body h callbacks n := by
  rw [turns, List.range_succ, List.foldl_append]
  rfl

end Tracked

-- ---------------------------------------------------------------------------
-- The plain iteration
-- ---------------------------------------------------------------------------

/-- A call of a handler whose item has no `handle_close`, and a table that grows
in its place. -/
def SelectorCall.tracked : SelectorCall η δ → HandlerCall η δ
  | .register fd handler interest data => .register .stays fd handler interest data
  | .unregister fd => .unregister fd []
  | .setInterest fd interest => .setInterest fd interest

namespace Tracked

def Follows (m : Tracked η δ) (it : Iteration η δ) : Prop :=
  m.fault = none → it.fault = none ∧ it.sel = m.sel ∧ it.deliveries = m.deliveries

variable {m m' : Tracked η δ} {it : Iteration η δ}

theorem fault_of_andThen {next : Tracked η δ → Tracked η δ} (h : (m.andThen next).fault = none) :
    m.fault = none ∧ m.andThen next = next m := by
  unfold andThen at h ⊢
  cases hm : m.fault with
  | some f =>
    rw [hm] at h
    simp only at h
    rw [hm] at h
    cases h
  | none => exact ⟨rfl, rfl⟩

theorem give_follows {fd : Int} (h : Follows m it) : Follows (m.give fd) it := by
  intro hf
  obtain ⟨hm, heq⟩ := fault_of_andThen hf
  have hgive : m.give fd = { m with given := m.given ++ [fd] } := by
    rw [give, heq]
    rw [give, heq] at hf
    split
    · rfl
    · rw [if_neg ‹_›] at hf
      cases hf
  rw [hgive]
  exact h hm

theorem gives_follows (h : Follows m it) (fds : List Int) : Follows (m.gives fds) it := by
  induction fds generalizing m with
  | nil => exact h
  | cons fd fds ih => exact ih (give_follows h)

theorem follows_andThen {next : Tracked η δ → Tracked η δ}
    (h : m.fault = none → Follows (next m) it) : Follows (m.andThen next) it := by
  intro hf
  obtain ⟨hm, heq⟩ := fault_of_andThen hf
  rw [heq] at hf ⊢
  exact h hm hf

theorem follows_fail (m : Tracked η δ) (f : Fault) : Follows (m.fail f) it :=
  fun hf => absurd hf (Option.some_ne_none f)

theorem Follows.setSel (h : Follows m it) (sel : Selector η δ) :
    Follows { m with sel } { sel, deliveries := it.deliveries } :=
  fun hf => ⟨rfl, rfl, (h hf).2.2⟩

theorem follows_register (h : Follows m it) (hm : m.fault = none) (fd : Int) (handler : η)
    (interest : Interest) (data : Option δ) :
    Follows (m.register .stays fd handler interest data)
      (it.exec (.register fd handler interest data)) := by
  obtain ⟨hit, hsel, -⟩ := h hm
  unfold Tracked.register Iteration.exec
  simp only [hit, SelectorCall.exec, hsel]
  have halloc : decide (Growth.stays ≠ Growth.fails) = true := by decide
  rw [halloc]
  cases selectorRegister true m.sel fd handler interest data with
  | error f => exact follows_fail m f
  | ok r =>
    obtain ⟨sel, st⟩ := r
    have hgrow : m.grow .stays sel = m := if_neg (by simp)
    simp only [hgrow]
    refine follows_andThen fun _ => ?_
    split
    · exact (gives_follows h _).setSel sel
    · exact h.setSel sel

theorem follows_setInterest (h : Follows m it) (hm : m.fault = none) (fd : Int)
    (interest : Interest) :
    Follows (m.setInterest fd interest) (it.exec (.setInterest fd interest)) := by
  obtain ⟨hit, hsel, -⟩ := h hm
  unfold Tracked.setInterest Iteration.exec
  simp only [hit, SelectorCall.exec, hsel]
  cases hreg : m.sel.registered fd with
  | error f => exact follows_fail m f
  | ok item =>
    cases selectorSetInterest m.sel fd interest with
    | error f => cases item <;> exact follows_fail m f
    | ok r =>
      cases item with
      | none => exact h.setSel r.1
      | some item => exact follows_andThen fun _ => (gives_follows h _).setSel r.1

theorem follows_unregister (h : Follows m it) (hm : m.fault = none) (fd : Int) :
    Follows (m.unregister (fun m => m) fd) (it.exec (.unregister fd)) := by
  obtain ⟨hit, hsel, -⟩ := h hm
  unfold Tracked.unregister Iteration.exec
  simp only [hit, SelectorCall.exec, hsel, selectorUnregisterFd]
  cases hreg : m.sel.registered fd with
  | error f => exact follows_fail m f
  | ok item =>
    cases item with
    | none => exact h.setSel m.sel
    | some item =>
      obtain ⟨n, item', rfl, hitem, he⟩ := (Selector.registered_cases hreg).resolve_left (by simp)
      obtain rfl : item = item' := Option.some.inj hitem
      have hget : m.sel.fds[(n : Int).toNat]? = some item := Selector.getElem?_of_entry he
      refine follows_andThen fun _ => ?_
      rw [if_neg (by simp)]
      show Follows (match m.sel.fds[(n : Int).toNat]? with
        | none => _
        | some item => _) _
      rw [hget]
      refine follows_andThen fun hgiven => ?_
      have hgives := gives_follows h (Item.macroFds { item with interest := opNoop })
      rw [← (hgives hgiven).2.1, hsel]
      exact hgives.setSel (m.sel.release n item)

theorem Follows.exec (h : Follows m it) (call : SelectorCall η δ) :
    Follows (call.tracked.exec m) (it.exec call) := by
  cases call with
  | register fd handler interest data =>
    exact follows_andThen fun hm => follows_register h hm fd handler interest data
  | unregister fd => exact follows_andThen fun hm => follows_unregister h hm fd
  | setInterest fd interest => exact follows_andThen fun hm => follows_setInterest h hm fd interest

theorem Follows.execs (h : Follows m it) (calls : List (SelectorCall η δ)) :
    Follows (HandlerCall.execs m (calls.map SelectorCall.tracked)) (calls.foldl Iteration.exec it) := by
  induction calls generalizing m it with
  | nil => exact h
  | cons call calls ih => exact ih (h.exec call)

theorem Follows.visit (h : Follows m it) (hm : m.fault = none) (b : Behaviour η δ)
    (callbacks : Callbacks η) (i : Nat) (write : Bool) :
    Follows (m.visit (fun ds => (b ds).map SelectorCall.tracked) callbacks i write)
      (it.visit b callbacks i write) := by
  obtain ⟨hit, hsel, hdeliveries⟩ := h hm
  unfold Tracked.visit Iteration.visit
  rw [hit, hsel]
  cases m.sel.fds[i]? with
  | none => exact follows_fail m _
  | some item =>
    refine follows_andThen fun hgiven => ?_
    have hready : m.ready write item = it.ready write item := by
      unfold Tracked.ready Iteration.ready
      rw [hsel]
    simp only [hready]
    split
    · split
      · have hbegun : Follows (m.begin item.fd ⟨i, write, item.serial⟩)
            { it with deliveries := m.deliveries ++ [⟨i, write, item.serial⟩] } :=
          fun _ => ⟨hit, hsel, rfl⟩
        simp only [Iteration.deliver, hdeliveries]
        exact hbegun.execs _
      · exact follows_fail _ _
    · exact give_follows h

theorem Follows.body (h : Follows m it) (b : Behaviour η δ) (callbacks : Callbacks η) (i : Nat) :
    Follows (m.body (fun ds => (b ds).map SelectorCall.tracked) callbacks i)
      (it.body b callbacks i) := by
  refine follows_andThen fun hm => ?_
  obtain ⟨hit, hsel, -⟩ := h hm
  unfold Iteration.body
  rw [hit, hsel]
  cases m.sel.fds[i]? with
  | none => exact follows_fail m _
  | some item =>
    simp only
    split
    · refine follows_andThen fun hvisited => ?_
      split
      · exact follows_fail _ _
      · exact (h.visit hm b callbacks i false).visit hvisited b callbacks i true
    · exact h

theorem follows_turns (b : Behaviour η δ) (callbacks : Callbacks η) (s : Selector η δ) (n : Nat) :
    Follows (turns (fun ds => (b ds).map SelectorCall.tracked) callbacks s n)
      ((List.range n).foldl (Iteration.body b callbacks) { sel := s }) := by
  induction n with
  | zero => exact fun _ => ⟨rfl, rfl, rfl⟩
  | succ n ih =>
    rw [turns_succ, List.range_succ, List.foldl_append]
    exact ih.body b callbacks n

/-- As long as the macros get valid descriptors and no assertion fails, the run
leaves the selector that the plain iteration leaves, after the same deliveries. -/
theorem follows_selectorSelect (b : Behaviour η δ) (callbacks : Callbacks η)
    (readyR readyW : FdSet) (s : Selector η δ) :
    Follows (handleIteration (fun ds => (b ds).map SelectorCall.tracked) callbacks readyR readyW s)
      (selectorSelect b callbacks readyR readyW s) :=
  follows_turns b callbacks _ _

end Tracked

-- ---------------------------------------------------------------------------
-- Handlers that take care
-- ---------------------------------------------------------------------------

/-- The descriptor is refused by `INVALID_FD` or has an item. -/
def Selector.InTable (s : Selector η δ) (fd : Int) : Prop :=
  fd < 0 ∨ fd ≥ fdSetSize ∨ fd < s.fds.length

def Tracked.Keeps (m m' : Tracked η δ) (fd : Int) : Prop :=
  m'.moves = m.moves ∧ m'.sel.IsRegistered fd

mutual

/-- The call names a descriptor of the table, and a `handle_close` leaves the
item that is being unregistered alone. -/
def HandlerCall.Careful (m : Tracked η δ) : HandlerCall η δ → Prop
  | .register .. => True
  | .unregister fd close => m.sel.InTable fd ∧ (m.sel.IsRegistered fd →
      HandlerCall.AllCareful m close ∧ m.Keeps (HandlerCall.execs m close) fd)
  | .setInterest fd _ => m.sel.InTable fd

def HandlerCall.AllCareful (m : Tracked η δ) : List (HandlerCall η δ) → Prop
  | [] => True
  | call :: calls => call.Careful m ∧ HandlerCall.AllCareful (call.exec m) calls

end

namespace Tracked

structure Sound (m : Tracked η δ) : Prop where
  fault : m.fault = none
  bounded : m.sel.Bounded
  given : ∀ fd ∈ m.given, ValidFd fd

def Wild (m : Tracked η δ) : Prop := m.fault = some .outOfBounds ∨ m.fault = some .useAfterFree

structure Decides (m m' : Tracked η δ) (careful : Prop) : Prop where
  sound : careful → m'.Sound
  grows : careful → m.sel.fds.length ≤ m'.sel.fds.length
  wild : ¬ careful → m'.Wild

variable {m m' : Tracked η δ}

theorem andThen_of_none (h : m.fault = none) (next : Tracked η δ → Tracked η δ) :
    m.andThen next = next m := by
  simp only [andThen, h]

theorem andThen_of_wild (h : m.Wild) (next : Tracked η δ → Tracked η δ) : m.andThen next = m := by
  unfold andThen
  rcases h with h | h <;> simp only [h]

theorem give_valid (h : m.fault = none) {fd : Int} (hfd : ValidFd fd) :
    m.give fd = { m with given := m.given ++ [fd] } := by
  rw [give, andThen_of_none h, if_pos hfd]

theorem give_invalid (h : m.fault = none) {fd : Int} (hfd : ¬ ValidFd fd) : (m.give fd).Wild := by
  rw [give, andThen_of_none h, if_neg hfd]
  exact .inl rfl

theorem gives_valid (h : m.fault = none) {fds : List Int} (hfds : ∀ fd ∈ fds, ValidFd fd) :
    m.gives fds = { m with given := m.given ++ fds } := by
  induction fds generalizing m with
  | nil => simp [gives]
  | cons fd fds ih =>
    have hrest := ih (m := { m with given := m.given ++ [fd] }) h
      fun fd' hfd' => hfds fd' (List.mem_cons_of_mem _ hfd')
    rw [gives, List.foldl_cons, give_valid h (hfds fd List.mem_cons_self)]
    rw [gives] at hrest
    rw [hrest, List.append_assoc, List.singleton_append]

theorem gives_wild (h : m.Wild) (fds : List Int) : m.gives fds = m := by
  induction fds with
  | nil => rfl
  | cons fd fds ih =>
    rw [gives, List.foldl_cons, give, andThen_of_wild h]
    exact ih

theorem mem_macroFds {item : Item η δ} {fd : Int} (h : fd ∈ item.macroFds) : fd = item.fd := by
  simp only [Item.macroFds, List.mem_append, List.mem_cons, List.not_mem_nil, or_false, or_self] at h
  rcases h with h | h
  · exact h
  · split at h
    · rcases List.mem_append.mp h with h | h
      · split at h
        · exact List.mem_singleton.mp h
        · cases h
      · split at h
        · exact List.mem_singleton.mp h
        · cases h
    · cases h

theorem Sound.macroFds (h : m.Sound) (item : Item η δ) :
    (ValidFd item.fd → m.gives item.macroFds = { m with given := m.given ++ item.macroFds } ∧
      (∀ fd ∈ m.given ++ item.macroFds, ValidFd fd)) ∧
    (¬ ValidFd item.fd → (m.gives item.macroFds).Wild) := by
  refine ⟨fun hvalid => ?_, fun hinvalid => ?_⟩
  · have hall : ∀ fd ∈ item.macroFds, ValidFd fd := fun fd hfd => mem_macroFds hfd ▸ hvalid
    refine ⟨gives_valid h.fault hall, fun fd hfd => ?_⟩
    rcases List.mem_append.mp hfd with hfd | hfd
    · exact h.given fd hfd
    · exact hall fd hfd
  · have hwild := give_invalid h.fault hinvalid
    have hgives : m.gives item.macroFds = m.give item.fd := gives_wild hwild _
    rw [hgives]
    exact hwild

end Tracked

namespace Selector

theorem registered_outside {s : Selector η δ} {n : Nat} (hn : n < fdSetSize)
    (hsize : s.fds.length ≤ n) : s.registered n = .error .outOfBounds := by
  have hvalid : invalidFd (n : Int) = false := by
    rw [invalidFd_natCast, decide_eq_false_iff_not]
    omega
  have hitem : s.item n = .error .outOfBounds := by
    simp only [item, List.getElem?_eq_none hsize]
  simp only [registered, hvalid, Bool.false_eq_true, ↓reduceIte, Int.toNat_natCast, hitem]
  rfl

theorem Bounded.validFd {s : Selector η δ} (hs : s.Bounded) {i : Nat} {item : Item η δ}
    (he : s.entry i = some item) : ValidFd item.fd := by
  have hfd := hs.ok.fd_eq he
  have hlt := hs.ok.lt he
  exact ⟨by omega, by omega⟩

theorem not_validFd {s : Selector η δ} {i : Nat} (hi : i < s.fds.length) (he : s.entry i = none) :
    ¬ ValidFd s.fds[i].fd := by
  have hunused : s.fds[i].used = false := by
    simpa [entry, List.getElem?_eq_getElem hi, Option.filter] using he
  have hfd : s.fds[i].fd = fdUnused := by simpa [Item.used] using hunused
  rw [hfd]
  decide

theorem isRegistered_natCast {s : Selector η δ} {n : Nat} :
    s.IsRegistered n ↔ (s.entry n).isSome = true := by
  constructor
  · rintro ⟨k, hk, hsome⟩
    obtain rfl : n = k := by omega
    exact hsome
  · exact fun hsome => ⟨n, rfl, hsome⟩

theorem Bounded.lookup {s : Selector η δ} (hs : s.Bounded) (fd : Int) :
    (¬ s.InTable fd ∧ s.registered fd = .error .outOfBounds) ∨
    (s.InTable fd ∧ ¬ s.IsRegistered fd ∧ s.registered fd = .ok none) ∨
    ∃ (n : Nat) (item : Item η δ), fd = n ∧ s.InTable fd ∧ s.entry n = some item ∧
      s.registered fd = .ok (some item) ∧ ValidFd item.fd := by
  rcases fd_cases fd with hinvalid | ⟨n, rfl, hn⟩
  · have hcond : fd < 0 ∨ fd ≥ fdSetSize := by simpa [invalidFd] using hinvalid
    refine .inr (.inl ⟨hcond.imp id .inl, ?_, registered_invalid s hinvalid⟩)
    rintro ⟨n, rfl, hsome⟩
    obtain ⟨item, hitem⟩ := Option.isSome_iff_exists.mp hsome
    have := hs.ok.lt hitem
    omega
  · by_cases hsize : n < s.fds.length
    · have hin : s.InTable n := .inr (.inr (by omega))
      have hreg := registered_eq s hn hsize
      cases he : s.entry n with
      | none =>
        refine .inr (.inl ⟨hin, ?_, hreg.trans (by rw [he])⟩)
        rw [isRegistered_natCast, he]
        exact Bool.false_ne_true
      | some item =>
        exact .inr (.inr ⟨n, item, rfl, hin, he, hreg.trans (by rw [he]), hs.validFd he⟩)
    · refine .inl ⟨?_, registered_outside hn (Nat.not_lt.mp hsize)⟩
      rintro (hneg | hlarge | hlt) <;> omega

theorem Bounded.register_fitting_ok {s : Selector η δ} (hs : s.Bounded) {n : Nat} (hn : n < fdSetSize)
    (hsize : n < s.fds.length) (alloc : Bool) (handler : η) (i : Interest) (data : Option δ) :
    ∃ s' st, selectorRegister alloc s n handler i data = .ok (s', st) ∧
      s'.fds.length = s.fds.length := by
  cases he : s.entry n with
  | some item => exact ⟨s, .fdinuse, register_inUse hs.ok he alloc handler i data, rfl⟩
  | none =>
    obtain ⟨s', hs', -, hlength, -⟩ := register_spec hs.ok hn hsize he alloc handler i data
    exact ⟨s', .success, hs', hlength⟩

theorem Bounded.register_ok {s : Selector η δ} (hs : s.Bounded) (alloc : Bool) (fd : Int) (handler : η)
    (i : Interest) (data : Option δ) :
    ∃ s' st, selectorRegister alloc s fd handler i data = .ok (s', st) ∧
      s.fds.length ≤ s'.fds.length ∧ (st = .success → ValidFd fd) := by
  rcases fd_cases fd with hinvalid | ⟨n, rfl, hn⟩
  · exact ⟨s, .iargs, register_invalid s hinvalid alloc handler i data, Nat.le_refl _,
      fun h => SelectorStatus.noConfusion h⟩
  have hvalid : ValidFd n := ⟨by omega, by omega⟩
  by_cases hsize : n < s.fds.length
  · obtain ⟨s', st, hs', hlength⟩ := hs.register_fitting_ok hn hsize alloc handler i data
    exact ⟨s', st, hs', Nat.le_of_eq hlength.symm, fun _ => hvalid⟩
  rcases ensureCapacity_cases alloc (s := s) hn with heq | ⟨hsuccess, hgrown, hle, -⟩
  · have hfd : invalidFd (n : Int) = false := by
      rw [invalidFd_natCast, decide_eq_false_iff_not]
      omega
    refine ⟨s, .enomem, ?_, Nat.le_refl _, fun _ => hvalid⟩
    simp only [selectorRegister, hfd, Bool.false_eq_true, ↓reduceIte, Int.toNat_natCast, ge_iff_le,
      Nat.not_lt.mp hsize, heq]
    rfl
  · obtain ⟨s', st, hs', hlength⟩ :=
      (hs.ensureCapacity alloc hn).register_fitting_ok hn hgrown alloc handler i data
    refine ⟨s', st, ?_, hlength.symm ▸ hle, fun _ => hvalid⟩
    rw [register_grown alloc handler i data hn hsize hsuccess hgrown]
    exact hs'

end Selector

-- ---------------------------------------------------------------------------
-- One call
-- ---------------------------------------------------------------------------

namespace Tracked

open Selector

variable {m m' : Tracked η δ}

theorem Decides.always (hsound : m'.Sound) (hle : m.sel.fds.length ≤ m'.sel.fds.length) :
    m.Decides m' True :=
  ⟨fun _ => hsound, fun _ => hle, fun h => absurd trivial h⟩

theorem Sound.grow (h : m.Sound) (growth : Growth) (sel : Selector η δ) :
    (m.grow growth sel).Sound ∧ (m.grow growth sel).sel = m.sel := by
  unfold Tracked.grow
  split
  · exact ⟨⟨h.fault, h.bounded, h.given⟩, rfl⟩
  · exact ⟨h, rfl⟩

theorem Sound.register (h : m.Sound) (growth : Growth) (fd : Int) (handler : η) (i : Interest)
    (data : Option δ) : m.Decides (m.register growth fd handler i data) True := by
  obtain ⟨s', st, hs', hle, hfd⟩ := h.bounded.register_ok (growth ≠ .fails) fd handler i data
  have hbounded := h.bounded.register hs'
  obtain ⟨hgrown, -⟩ := h.grow growth s'
  unfold Tracked.register
  rw [hs']
  by_cases hst : st = .success
  · have hmacros := (hgrown.macroFds
      ⟨fd, i, some handler, data, (m.grow growth s').sel.serial⟩).1 (hfd hst)
    simp only [hst, ↓reduceIte, hmacros.1]
    rw [andThen_of_none (by exact hgrown.fault)]
    exact .always ⟨hgrown.fault, hbounded, hmacros.2⟩ hle
  · simp only [hst, ↓reduceIte]
    rw [andThen_of_none hgrown.fault]
    exact .always ⟨hgrown.fault, hbounded, hgrown.given⟩ hle

theorem Sound.setInterest (h : m.Sound) (fd : Int) (i : Interest) :
    m.Decides (m.setInterest fd i) (m.sel.InTable fd) := by
  rcases h.bounded.lookup fd with ⟨hout, hreg⟩ | ⟨hin, -, hreg⟩ |
    ⟨n, item, rfl, hin, he, hreg, hvalid⟩
  · refine ⟨fun hin => absurd hin hout, fun hin => absurd hin hout, fun _ => ?_⟩
    simp only [Tracked.setInterest, hreg]
    exact .inl rfl
  · have hset := setInterest_unregistered hreg i
    have heq : m.setInterest fd i = m := by
      simp only [Tracked.setInterest, hreg, hset]
    rw [heq]
    exact ⟨fun _ => h, fun _ => Nat.le_refl _, fun hno => absurd hin hno⟩
  · obtain ⟨s', hs', hok, hlength, -⟩ := setInterest_spec h.bounded.ok he i
    have hbounded := h.bounded.setInterest hs'
    have hmacros := (h.macroFds { item with interest := i }).1 hvalid
    have heq : m.setInterest n i =
        { m with sel := s', given := m.given ++ { item with interest := i }.macroFds } := by
      simp only [Tracked.setInterest, hreg, hs', hmacros.1]
      exact andThen_of_none (by exact h.fault) _
    rw [heq]
    exact ⟨fun _ => ⟨h.fault, hbounded, hmacros.2⟩, fun _ => Nat.le_of_eq hlength.symm,
      fun hno => absurd hin hno⟩

theorem Sound.release (h' : m'.Sound) {n : Nat} (hgrew : n < m'.sel.fds.length)
    (hmoves : m'.moves = m.moves) {close : Tracked η δ → Tracked η δ} (hclose : close m = m')
    {item₀ : Item η δ} (hreg : m.sel.registered n = .ok (some item₀)) :
    (∀ item, m'.sel.entry n = some item → m.unregister close n =
      { m' with
        sel := m'.sel.release n item
        given := m'.given ++ { item with interest := opNoop }.macroFds }) ∧
    (m'.sel.entry n = none → (m.unregister close n).Wild) := by
  have hmoved : ¬ m'.moves ≠ m.moves := not_not.mpr hmoves
  refine ⟨fun item he => ?_, fun he => ?_⟩
  · have hvalid : ValidFd item.fd := h'.bounded.validFd he
    have hmacros := (h'.macroFds { item with interest := opNoop }).1 hvalid
    have hget : m'.sel.fds[(n : Int).toNat]? = some item := getElem?_of_entry he
    simp only [Tracked.unregister, hreg, hclose, andThen_of_none h'.fault, hmoved, ↓reduceIte, hget,
      hmacros.1]
    exact andThen_of_none (by exact h'.fault) _
  · -- the item is there, but nobody's any more
    have hget : m'.sel.fds[(n : Int).toNat]? = some m'.sel.fds[n] := List.getElem?_eq_getElem hgrew
    have hwild := (h'.macroFds { m'.sel.fds[n] with interest := opNoop }).2 (not_validFd hgrew he)
    simp only [Tracked.unregister, hreg, hclose, andThen_of_none h'.fault, hmoved, ↓reduceIte, hget]
    rw [andThen_of_wild hwild]
    exact hwild

theorem Sound.unregister (h : m.Sound) (fd : Int) {close : Tracked η δ → Tracked η δ} {careful : Prop}
    (hclose : m.Decides (close m) careful) :
    m.Decides (m.unregister close fd) (m.sel.InTable fd ∧
      (m.sel.IsRegistered fd → careful ∧ m.Keeps (close m) fd)) := by
  rcases h.bounded.lookup fd with ⟨hout, hreg⟩ | ⟨hin, hno, hreg⟩ |
    ⟨n, item₀, rfl, hin, he₀, hreg, -⟩
  · refine ⟨fun hc => absurd hc.1 hout, fun hc => absurd hc.1 hout, fun _ => ?_⟩
    simp only [Tracked.unregister, hreg]
    exact .inl rfl
  · have heq : m.unregister close fd = m := by simp only [Tracked.unregister, hreg]
    rw [heq]
    exact ⟨fun _ => h, fun _ => Nat.le_refl _, fun hc => absurd ⟨hin, fun hyes => absurd hyes hno⟩ hc⟩
  · have hregistered : m.sel.IsRegistered n := isRegistered_natCast.mpr (by rw [he₀]; rfl)
    by_cases hcareful : careful
    · have h' := hclose.sound hcareful
      have hle := hclose.grows hcareful
      have hsize : n < m.sel.fds.length := (List.getElem?_eq_some_iff.mp (getElem?_of_entry he₀)).1
      by_cases hmoves : (close m).moves = m.moves
      · have hrelease := h'.release (Nat.lt_of_lt_of_le hsize hle) hmoves rfl hreg
        cases he : (close m).sel.entry n with
        | none =>
          have hlost : ¬ m.Keeps (close m) n := by
            rintro ⟨-, hstill⟩
            rw [isRegistered_natCast, he] at hstill
            cases hstill
          exact ⟨fun hc => absurd (hc.2 hregistered).2 hlost,
            fun hc => absurd (hc.2 hregistered).2 hlost, fun _ => hrelease.2 he⟩
        | some item =>
          have hvalid : ValidFd item.fd := h'.bounded.validFd he
          have hmacros := (h'.macroFds { item with interest := opNoop }).1 hvalid
          have hlength := (release_spec h'.bounded.ok he).2.1
          rw [hrelease.1 item he]
          refine ⟨fun _ => ⟨h'.fault, h'.bounded.release he, hmacros.2⟩, fun _ => ?_, fun hc => ?_⟩
          · exact hlength.symm ▸ hle
          · exact absurd ⟨hin, fun _ => ⟨hcareful, hmoves,
              isRegistered_natCast.mpr (by rw [he]; rfl)⟩⟩ hc
      · have hmoved : (close m).moves ≠ m.moves := hmoves
        refine ⟨fun hc => absurd (hc.2 hregistered).2.1 hmoves,
          fun hc => absurd (hc.2 hregistered).2.1 hmoves, fun _ => ?_⟩
        simp only [Tracked.unregister, hreg, andThen_of_none h'.fault, hmoved, ne_eq,
          not_false_eq_true, ↓reduceIte]
        exact .inr rfl
    · have hwild := hclose.wild hcareful
      refine ⟨fun hc => absurd (hc.2 hregistered).1 hcareful,
        fun hc => absurd (hc.2 hregistered).1 hcareful, fun _ => ?_⟩
      simp only [Tracked.unregister, hreg]
      rw [andThen_of_wild hwild]
      exact hwild

theorem exec_of_wild (h : m.Wild) (call : HandlerCall η δ) : call.exec m = m := by
  cases call with
  | register | unregister | setInterest =>
    rw [HandlerCall.exec]
    exact andThen_of_wild h _

theorem execs_of_wild (h : m.Wild) (calls : List (HandlerCall η δ)) :
    HandlerCall.execs m calls = m := by
  induction calls with
  | nil => rfl
  | cons call calls ih =>
    rw [HandlerCall.execs, exec_of_wild h]
    exact ih

end Tracked

open Tracked

mutual

/-- One call goes well exactly when it is a careful one; the induction is over
the calls that the callbacks make in turn. -/
theorem HandlerCall.exec_decides {m : Tracked η δ} (h : m.Sound) :
    ∀ call : HandlerCall η δ, m.Decides (call.exec m) (call.Careful m)
  | .register growth fd handler interest data => by
    have hregister := h.register growth fd handler interest data
    rw [HandlerCall.exec, andThen_of_none h.fault, HandlerCall.Careful]
    exact hregister
  | .unregister fd close => by
    have hclose := HandlerCall.execs_decides h close
    rw [HandlerCall.exec, andThen_of_none h.fault, HandlerCall.Careful]
    exact h.unregister fd hclose
  | .setInterest fd interest => by
    rw [HandlerCall.exec, andThen_of_none h.fault, HandlerCall.Careful]
    exact h.setInterest fd interest

theorem HandlerCall.execs_decides {m : Tracked η δ} (h : m.Sound) :
    ∀ calls : List (HandlerCall η δ), m.Decides (HandlerCall.execs m calls)
      (HandlerCall.AllCareful m calls)
  | [] => by
    rw [HandlerCall.execs, HandlerCall.AllCareful]
    exact .always h (Nat.le_refl _)
  | call :: calls => by
    have hcall := HandlerCall.exec_decides h call
    rw [HandlerCall.execs, HandlerCall.AllCareful]
    by_cases hcareful : call.Careful m
    · have hrest := HandlerCall.execs_decides (hcall.sound hcareful) calls
      exact ⟨fun hc => hrest.sound hc.2,
        fun hc => Nat.le_trans (hcall.grows hcareful) (hrest.grows hc.2),
        fun hc => hrest.wild fun hall => hc ⟨hcareful, hall⟩⟩
    · have hwild := hcall.wild hcareful
      rw [execs_of_wild hwild]
      exact ⟨fun hc => absurd hc.1 hcareful, fun hc => absurd hc.1 hcareful, fun _ => hwild⟩

end

-- ---------------------------------------------------------------------------
-- One turn of the loop
-- ---------------------------------------------------------------------------

namespace Tracked

open Selector

variable {h : Handlers η δ} {callbacks : Callbacks η} {m m' : Tracked η δ}

/-- A handler that this `FD_ISSET` block calls takes care. -/
def VisitCareful (h : Handlers η δ) (callbacks : Callbacks η) (i : Nat) (write : Bool)
    (m : Tracked η δ) : Prop :=
  ∀ item, m.sel.fds[i]? = some item → m.ready write item = true →
    item.handler.any (callbacks.has write) = true →
      HandlerCall.AllCareful (m.begin item.fd ⟨i, write, item.serial⟩)
        (h (m.deliveries ++ [⟨i, write, item.serial⟩]))

def TurnCareful (h : Handlers η δ) (callbacks : Callbacks η) (m : Tracked η δ) (i : Nat) : Prop :=
  m.fault = none → m.sel.IsRegistered i →
    VisitCareful h callbacks i false m ∧
    ((m.visit h callbacks i false).fault = none →
      m.Keeps (m.visit h callbacks i false) i ∧
        VisitCareful h callbacks i true (m.visit h callbacks i false))

structure Fine (m : Tracked η δ) : Prop where
  ended : m.fault = none → m.sel.Bounded
  fault : m.fault = none ∨ m.fault = some .assertion
  given : ∀ fd ∈ m.given, ValidFd fd

theorem Sound.fine (hm : m.Sound) : m.Fine := ⟨fun _ => hm.bounded, .inl hm.fault, hm.given⟩

theorem Fine.sound (hm : m.Fine) (hf : m.fault = none) : m.Sound := ⟨hf, hm.ended hf, hm.given⟩

theorem Fine.not_wild (hm : m.Fine) : ¬ m.Wild := by
  rintro (hw | hw) <;> rcases hm.fault with hf | hf <;> rw [hf] at hw <;> cases hw

theorem Sound.visit (hm : m.Sound) (h : Handlers η δ) (callbacks : Callbacks η) {i : Nat}
    (write : Bool) (hreg : m.sel.IsRegistered i) :
    (VisitCareful h callbacks i write m → (m.visit h callbacks i write).Fine ∧
      m.sel.fds.length ≤ (m.visit h callbacks i write).sel.fds.length) ∧
    (¬ VisitCareful h callbacks i write m → (m.visit h callbacks i write).Wild) := by
  obtain ⟨item, he⟩ := Option.isSome_iff_exists.mp (isRegistered_natCast.mp hreg)
  have hget := getElem?_of_entry he
  have hvalid := hm.bounded.validFd he
  have hgive := give_valid hm.fault hvalid
  have hgiven : ∀ fd ∈ m.given ++ [item.fd], ValidFd fd := by
    intro fd hfd
    rcases List.mem_append.mp hfd with hfd | hfd
    · exact hm.given fd hfd
    · exact List.mem_singleton.mp hfd ▸ hvalid
  unfold Tracked.visit
  rw [hget]
  simp only [hgive]
  rw [andThen_of_none (by exact hm.fault)]
  by_cases hready : m.ready write item = true
  · rw [if_pos hready]
    by_cases hcallback : item.handler.any (callbacks.has write) = true
    · rw [if_pos hcallback]
      have hbegin : (m.begin item.fd ⟨i, write, item.serial⟩).Sound := ⟨hm.fault, hm.bounded, hgiven⟩
      have hdecides := HandlerCall.execs_decides hbegin
        (h (m.deliveries ++ [⟨i, write, item.serial⟩]))
      refine ⟨fun hc => ⟨(hdecides.sound (hc item hget hready hcallback)).fine,
        hdecides.grows (hc item hget hready hcallback)⟩, fun hc => hdecides.wild fun hall => hc ?_⟩
      intro item' hget' _ _
      obtain rfl : item = item' := Option.some.inj (hget.symm.trans hget')
      exact hall
    · rw [if_neg hcallback]
      refine ⟨fun _ => ?_, fun hc => ?_⟩
      · exact ⟨⟨fun hf => absurd hf (Option.some_ne_none _), .inr rfl, hgiven⟩, Nat.le_refl _⟩
      refine absurd (fun item' hget' _ hcallback' => ?_) hc
      obtain rfl : item = item' := Option.some.inj (hget.symm.trans hget')
      exact absurd hcallback' hcallback
  · rw [if_neg hready]
    refine ⟨fun _ => ⟨⟨fun _ => hm.bounded, .inl hm.fault, hgiven⟩, Nat.le_refl _⟩, fun hc => ?_⟩
    refine absurd (fun item' hget' hready' => ?_) hc
    obtain rfl : item = item' := Option.some.inj (hget.symm.trans hget')
    exact absurd hready' hready

theorem Sound.visit_lost (hm : m.Sound) (h : Handlers η δ) (callbacks : Callbacks η) {i : Nat}
    (write : Bool) (hi : i < m.sel.fds.length) (hreg : ¬ m.sel.IsRegistered i) :
    (m.visit h callbacks i write).Wild := by
  have he : m.sel.entry i = none := by
    rw [isRegistered_natCast, Option.not_isSome_iff_eq_none] at hreg
    exact hreg
  have hwild := give_invalid hm.fault (not_validFd hi he)
  unfold Tracked.visit
  rw [List.getElem?_eq_getElem hi]
  simp only
  rw [andThen_of_wild hwild]
  exact hwild

theorem Sound.second (hm' : m'.Sound) (h : Handlers η δ) (callbacks : Callbacks η) {i : Nat}
    (hi : i < m'.sel.fds.length) :
    ((m'.sel.IsRegistered i ∧ VisitCareful h callbacks i true m') →
      (m'.visit h callbacks i true).Fine ∧
        m'.sel.fds.length ≤ (m'.visit h callbacks i true).sel.fds.length) ∧
    (¬ (m'.sel.IsRegistered i ∧ VisitCareful h callbacks i true m') →
      (m'.visit h callbacks i true).Wild) := by
  by_cases hreg : m'.sel.IsRegistered i
  · have hvisit := hm'.visit h callbacks true hreg
    exact ⟨fun hc => hvisit.1 hc.2, fun hc => hvisit.2 fun hcareful => hc ⟨hreg, hcareful⟩⟩
  · exact ⟨fun hc => absurd hc.1 hreg, fun _ => hm'.visit_lost h callbacks true hi hreg⟩

theorem Sound.body (hm : m.Sound) (h : Handlers η δ) (callbacks : Callbacks η) {i : Nat}
    (hi : i < m.sel.fds.length) :
    (TurnCareful h callbacks m i → (m.body h callbacks i).Fine ∧
      m.sel.fds.length ≤ (m.body h callbacks i).sel.fds.length) ∧
    (¬ TurnCareful h callbacks m i → (m.body h callbacks i).Wild) := by
  unfold Tracked.body
  rw [andThen_of_none hm.fault, List.getElem?_eq_getElem hi]
  simp only
  by_cases hused : m.sel.fds[i].used = true
  · have hreg : m.sel.IsRegistered i := by
      rw [isRegistered_natCast]
      simp [entry, List.getElem?_eq_getElem hi, hused]
    rw [if_pos hused]
    have hvisit := hm.visit h callbacks false hreg
    by_cases hfirst : VisitCareful h callbacks i false m
    · obtain ⟨hfine, hle⟩ := hvisit.1 hfirst
      generalize hm' : m.visit h callbacks i false = m' at hfine hle
      have hturn : TurnCareful h callbacks m i ↔
          (m'.fault = none → m.Keeps m' i ∧ VisitCareful h callbacks i true m') := by
        rw [TurnCareful, hm']
        exact ⟨fun hc => (hc hm.fault hreg).2, fun hc _ _ => ⟨hfirst, hc⟩⟩
      rw [hturn]
      rcases hfine.fault with hf | hf
      · have hm'' := hfine.sound hf
        rw [andThen_of_none hf]
        by_cases hmoves : m'.moves = m.moves
        · have hsecond := hm''.second h callbacks (Nat.lt_of_lt_of_le hi hle)
          rw [if_neg (not_not.mpr hmoves)]
          refine ⟨fun hc => ?_, fun hc => hsecond.2 fun hboth => hc fun _ =>
            ⟨⟨hmoves, hboth.1⟩, hboth.2⟩⟩
          have hdone := hsecond.1 ⟨(hc hf).1.2, (hc hf).2⟩
          exact ⟨hdone.1, Nat.le_trans hle hdone.2⟩
        · rw [if_pos hmoves]
          exact ⟨fun hc => absurd (hc hf).1.1 hmoves, fun _ => .inr rfl⟩
      · have hstop : ∀ next, m'.andThen next = m' := fun next => by
          simp only [andThen, hf]
        rw [hstop]
        exact ⟨fun _ => ⟨hfine, hle⟩, fun hc => absurd (fun hnone => by cases hf.symm.trans hnone) hc⟩
    · have hwild := hvisit.2 hfirst
      rw [andThen_of_wild hwild]
      exact ⟨fun hc => absurd (hc hm.fault hreg).1 hfirst, fun _ => hwild⟩
  · have hreg : ¬ m.sel.IsRegistered i := by
      rw [isRegistered_natCast]
      simp [entry, List.getElem?_eq_getElem hi, hused]
    rw [if_neg hused]
    exact ⟨fun _ => ⟨hm.fine, Nat.le_refl _⟩, fun hc => absurd (fun _ hyes => absurd hyes hreg) hc⟩

-- ---------------------------------------------------------------------------
-- The iteration
-- ---------------------------------------------------------------------------

theorem body_of_ended (hf : m.fault ≠ none) (i : Nat) : m.body h callbacks i = m := by
  unfold Tracked.body andThen
  cases hfault : m.fault with
  | none => exact absurd hfault hf
  | some f => rfl

/-- Every handler called in the first `n` turns takes care. -/
def CarefulUpTo (h : Handlers η δ) (callbacks : Callbacks η) (s : Selector η δ) (n : Nat) : Prop :=
  ∀ i < n, TurnCareful h callbacks (turns h callbacks s i) i

theorem turns_decides (h : Handlers η δ) (callbacks : Callbacks η) {s : Selector η δ}
    (hs : s.Bounded) {n : Nat} (hn : n ≤ s.fds.length) :
    (CarefulUpTo h callbacks s n → (turns h callbacks s n).Fine ∧
      s.fds.length ≤ (turns h callbacks s n).sel.fds.length) ∧
    (¬ CarefulUpTo h callbacks s n → (turns h callbacks s n).Wild) := by
  induction n with
  | zero =>
    refine ⟨fun _ => ⟨⟨fun _ => hs, .inl rfl, fun _ hfd => absurd hfd List.not_mem_nil⟩,
      Nat.le_refl _⟩, fun hc => absurd (fun i hi => absurd hi (Nat.not_lt_zero i)) hc⟩
  | succ n ih =>
    have hpast := ih (Nat.le_of_succ_le hn)
    rw [turns_succ]
    by_cases hcareful : CarefulUpTo h callbacks s n
    · obtain ⟨hfine, hle⟩ := hpast.1 hcareful
      have hsplit : CarefulUpTo h callbacks s (n + 1) ↔
          TurnCareful h callbacks (turns h callbacks s n) n := by
        refine ⟨fun hc => hc n (Nat.lt_succ_self n), fun hc i hi => ?_⟩
        rcases Nat.lt_succ_iff_lt_or_eq.mp hi with hi | rfl
        · exact hcareful i hi
        · exact hc
      rw [hsplit]
      by_cases hf : (turns h callbacks s n).fault = none
      · have hbody := (hfine.sound hf).body h callbacks (Nat.lt_of_lt_of_le hn hle)
        exact ⟨fun hc => ⟨(hbody.1 hc).1, Nat.le_trans hle (hbody.1 hc).2⟩, hbody.2⟩
      · rw [body_of_ended hf]
        exact ⟨fun _ => ⟨hfine, hle⟩, fun hc => absurd (fun hnone => absurd hnone hf) hc⟩
    · have hwild := hpast.2 hcareful
      have hf : (turns h callbacks s n).fault ≠ none := by
        rcases hwild with hf | hf <;> rw [hf] <;> exact Option.some_ne_none _
      rw [body_of_ended hf]
      refine ⟨fun hc => absurd (fun i hi => hc i (Nat.lt_succ_of_lt hi)) hcareful, fun _ => hwild⟩

/-- Every macro got a descriptor below `FD_SETSIZE`, none of them read outside of
the table or from a table that is gone. -/
structure MacrosValid (m : Tracked η δ) : Prop where
  given : ∀ fd ∈ m.given, ValidFd fd
  table : ¬ m.Wild

/-- The macros get valid descriptors in exactly the iterations whose handlers
take care: no `handle_read` returns with its own item unregistered. -/
theorem macros_valid_iff {s : Selector η δ} (hs : s.Bounded) (readyR readyW : FdSet)
    (h : Handlers η δ) (callbacks : Callbacks η) :
    (handleIteration h callbacks readyR readyW s).MacrosValid ↔
      CarefulUpTo h callbacks { s with slaveR := readyR, slaveW := readyW } (s.maxFd + 1) := by
  have hs' : ({ s with slaveR := readyR, slaveW := readyW } : Selector η δ).Bounded :=
    ⟨⟨hs.ok.fd_eq, hs.ok.lt, hs.ok.le_maxFd, hs.ok.masterR, hs.ok.masterW, hs.ok.serial_lt⟩, hs.maxFd⟩
  have hdecides := turns_decides h callbacks hs' hs.maxFd
  constructor
  · intro hvalid
    by_contra hno
    exact hvalid.table (hdecides.2 hno)
  · intro hcareful
    have hfine := (hdecides.1 hcareful).1
    exact ⟨hfine.given, hfine.not_wild⟩

theorem threeDescriptors_bounded : threeDescriptors.Bounded := ⟨threeDescriptors_ok, by decide⟩

def endOther : Handlers Unit Unit
  | [_] => [.unregister 5 [], .setInterest 3 opNoop]
  | _ => []

theorem macros_valid_iff_three :
    CarefulUpTo endOther allCallbacks
      { threeDescriptors with slaveR := fun n => n == 3, slaveW := fun n => n == 5 } 6 :=
  (macros_valid_iff threeDescriptors_bounded (fun n => n == 3) (fun n => n == 5) endOther
    allCallbacks).mp ⟨by decide, by rintro (h | h) <;> cases h⟩

/-- What `socksv5_done` does for the client on 3 and the origin on 5. -/
def endBoth : Handlers Unit Unit
  | [_] => [.unregister 3 [], .unregister 5 []]
  | _ => []

/-- A client that hangs up: `FD_ISSET` gets the -1 of the item that is gone. -/
theorem endBoth_wild :
    threeDescriptors.Bounded ∧
    (-1) ∈ (handleIteration endBoth allCallbacks (fun n => n == 3) (fun _ => false)
      threeDescriptors).given ∧
    ¬ (handleIteration endBoth allCallbacks (fun n => n == 3) (fun _ => false)
      threeDescriptors).MacrosValid := by
  have hlost : (-1) ∈ (handleIteration endBoth allCallbacks (fun n => n == 3) (fun _ => false)
      threeDescriptors).given := by decide
  exact ⟨threeDescriptors_bounded, hlost, fun hvalid => absurd (hvalid.given _ hlost) (by decide)⟩

end Tracked

end Socks5d
