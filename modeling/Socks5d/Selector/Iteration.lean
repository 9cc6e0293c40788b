import Socks5d.Selector.Table

/-!
# selector.c: one iteration of the selector

`selector_select` copies the master sets, lets `pselect` reduce the copies to
the ready descriptors and calls the handlers of these in the order of the
table. A handler may register and unregister any descriptor before the loop
goes on; what it does is a parameter of the model, given the calls made so far.

A registration made during the iteration inherits the ready bits of the old
one. `handleIteration_fresh` says that this is the only way in which a handler
is called for a registration that was not there when the sets were copied.

`FD_ISSET(-1)`, which the loop asks for after a `handle_read` that unregistered its
own item, is false here.
-/

namespace Socks5d

variable {η δ : Type}

inductive SelectorCall (η δ : Type)
  | register (fd : Int) (handler : η) (interest : Interest) (data : Option δ)
  | unregister (fd : Int)
  | setInterest (fd : Int) (interest : Interest)

def SelectorCall.exec (s : Selector η δ) :
    SelectorCall η δ → Except Fault (Selector η δ × SelectorStatus)
  | .register fd handler interest data => selectorRegister true s fd handler interest data
  | .unregister fd => selectorUnregisterFd s fd
  | .setInterest fd interest => selectorSetInterest s fd interest

/-- A call of `handle_read` or `handle_write`, and the registration it is for. -/
structure Delivery where
  fd : Nat
  write : Bool
  serial : Nat
  deriving DecidableEq

structure Iteration (η δ : Type) where
  sel : Selector η δ
  deliveries : List Delivery := []
  fault : Option Fault := none

/-- What the handlers do: the calls made by the last one of the deliveries. -/
abbrev Behaviour (η δ : Type) := List Delivery → List (SelectorCall η δ)

structure Callbacks (η : Type) where
  read : η → Bool
  write : η → Bool

def Callbacks.has (callbacks : Callbacks η) (write : Bool) : η → Bool :=
  if write then callbacks.write else callbacks.read

namespace Iteration

def exec (it : Iteration η δ) (call : SelectorCall η δ) : Iteration η δ :=
  match it.fault with
  | some _ => it
  | none =>
    match call.exec it.sel with
    | .ok (sel, _) => { it with sel }
    | .error f => { it with fault := some f }

def deliver (h : Behaviour η δ) (it : Iteration η δ) (d : Delivery) : Iteration η δ :=
  let it := { it with deliveries := it.deliveries ++ [d] }
  (h it.deliveries).foldl exec it

/-- The item of the loop, `s->fds + i`, when it is ready for reading (or
writing) and has the interest. -/
def ready (write : Bool) (it : Iteration η δ) (item : Item η δ) : Bool :=
  if write then fdIsset item.fd it.sel.slaveW && item.interest.write
  else fdIsset item.fd it.sel.slaveR && item.interest.read

/-- One of the two `FD_ISSET` blocks of the loop body. -/
def visit (h : Behaviour η δ) (callbacks : Callbacks η) (i : Nat) (write : Bool)
    (it : Iteration η δ) : Iteration η δ :=
  match it.fault, it.sel.fds[i]? with
  | some _, _ => it
  | none, none => { it with fault := some .outOfBounds }
  | none, some item =>
    if it.ready write item then
      if item.handler.any (callbacks.has write) then
        it.deliver h ⟨i, write, item.serial⟩
      else { it with fault := some .assertion }
    else it

/-- The body of the loop. `ITEM_USED` is tested once; the second block looks at
the item as the first handler left it. -/
def body (h : Behaviour η δ) (callbacks : Callbacks η) (it : Iteration η δ) (i : Nat) :
    Iteration η δ :=
  match it.fault, it.sel.fds[i]? with
  | some _, _ => it
  | none, none => { it with fault := some .outOfBounds }
  | none, some item =>
    if item.used then (it.visit h callbacks i false).visit h callbacks i true else it

end Iteration

def handleIteration (h : Behaviour η δ) (callbacks : Callbacks η) (s : Selector η δ) :
    Iteration η δ :=
  (List.range (s.maxFd + 1)).foldl (Iteration.body h callbacks) { sel := s }

/-- `selector_select` up to the end of the iteration, when `pselect` leaves the
sets `readyR` and `readyW`. -/
def selectorSelect (h : Behaviour η δ) (callbacks : Callbacks η) (readyR readyW : FdSet)
    (s : Selector η δ) : Iteration η δ :=
  handleIteration h callbacks { s with slaveR := readyR, slaveW := readyW }

-- ---------------------------------------------------------------------------
-- What a call changes
-- ---------------------------------------------------------------------------

/-- The selector after a call: a registration is an old one, or the call made it. -/
structure SelectorCall.Effect (call : SelectorCall η δ) (s s' : Selector η δ) : Prop where
  ok : s'.Ok
  slaveR : s'.slaveR = s.slaveR
  slaveW : s'.slaveW = s.slaveW
  entry : ∀ {j item'}, s'.entry j = some item' →
    (∃ item, s.entry j = some item ∧ item.serial = item'.serial) ∨
      ∃ handler interest data, call = .register j handler interest data

theorem SelectorCall.Effect.same {call : SelectorCall η δ} {s s' : Selector η δ} (hs : s'.Ok)
    (hslave : s'.slaveR = s.slaveR ∧ s'.slaveW = s.slaveW) (h : ∀ j, s'.entry j = s.entry j) :
    call.Effect s s' :=
  ⟨hs, hslave.1, hslave.2, fun {j item'} hj => .inl ⟨item', h j ▸ hj, rfl⟩⟩

namespace Selector

theorem slaves_ensureCapacity (alloc : Bool) (s : Selector η δ) (k : Nat) :
    (ensureCapacity alloc s k).1.slaveR = s.slaveR ∧
      (ensureCapacity alloc s k).1.slaveW = s.slaveW := by
  unfold ensureCapacity
  split
  · exact ⟨rfl, rfl⟩
  · split
    · exact ⟨rfl, rfl⟩
    · split <;> exact ⟨rfl, rfl⟩

theorem registered_cases {s : Selector η δ} {fd : Int} {r : Option (Item η δ)}
    (h : s.registered fd = .ok r) :
    r = none ∨ ∃ n item, fd = Int.ofNat n ∧ r = some item ∧ s.entry n = some item := by
  unfold registered at h
  by_cases hvalid : invalidFd fd = true
  · simp only [hvalid, ↓reduceIte] at h
    cases h
    exact .inl rfl
  · have hfd : fd = Int.ofNat fd.toNat := by
      simp only [invalidFd, ge_iff_le, Bool.or_eq_true, decide_eq_true_eq, not_or] at hvalid
      have := Int.toNat_of_nonneg (Int.not_lt.mp hvalid.1)
      exact this.symm
    simp only [hvalid, Bool.false_eq_true, ↓reduceIte, item] at h
    cases hget : s.fds[fd.toNat]? with
    | none =>
      rw [hget] at h
      cases h
    | some it =>
      rw [hget] at h
      simp only [Bind.bind, Except.bind] at h
      cases hused : it.used with
      | true =>
        simp only [hused, ↓reduceIte] at h
        cases h
        refine .inr ⟨fd.toNat, it, hfd, rfl, ?_⟩
        simp [entry, hget, hused]
      | false =>
        simp only [hused, Bool.false_eq_true, ↓reduceIte] at h
        cases h
        exact .inl rfl

theorem register_grown {s : Selector η δ} {n : Nat} (alloc : Bool) (handler : η) (i : Interest)
    (data : Option δ) (hn : n < fdSetSize) (hsize : ¬ n < s.fds.length)
    (hret : (ensureCapacity alloc s n).2 = .success)
    (hgrown : n < (ensureCapacity alloc s n).1.fds.length) :
    selectorRegister alloc s n handler i data =
      selectorRegister alloc (ensureCapacity alloc s n).1 n handler i data := by
  have hvalid : invalidFd (n : Int) = false := by
    rw [invalidFd_natCast, decide_eq_false_iff_not]
    omega
  simp only [selectorRegister, hvalid, Bool.false_eq_true, ↓reduceIte, Int.toNat_natCast, ge_iff_le,
    Nat.not_lt.mp hsize, Nat.not_le.mpr hgrown, hret]

end Selector

open Selector

theorem SelectorCall.register_effect {s s' : Selector η δ} {fd : Int} {handler : η} {i : Interest}
    {data : Option δ} {st : SelectorStatus} (hs : s.Ok)
    (h : selectorRegister true s fd handler i data = .ok (s', st)) :
    (SelectorCall.register fd handler i data).Effect s s' := by
  rcases fd_cases fd with hinvalid | ⟨n, rfl, hn⟩
  · rw [register_invalid s hinvalid] at h
    cases h
    exact .same hs ⟨rfl, rfl⟩ fun _ => rfl
  have hvalid : invalidFd (n : Int) = false := by
    rw [invalidFd_natCast, decide_eq_false_iff_not]
    omega
  -- once the table is large enough the entry decides
  have hlarge : ∀ s₁ : Selector η δ, s₁.Ok → n < s₁.fds.length →
      (∀ j, s₁.entry j = s.entry j) →
      (s₁.slaveR = s.slaveR ∧ s₁.slaveW = s.slaveW) →
      selectorRegister true s₁ n handler i data = .ok (s', st) →
      (SelectorCall.register n handler i data).Effect s s' := by
    intro s₁ hs₁ hsize hsame hslave h
    cases he : s₁.entry n with
    | some item =>
      rw [register_inUse hs₁ he] at h
      cases h
      exact .same hs₁ hslave hsame
    | none =>
      obtain ⟨s₂, hs₂, hok, -, -, ⟨hr, hw⟩, hself, hother⟩ :=
        register_spec hs₁ hn hsize he true handler i data
      rw [hs₂] at h
      cases h
      refine ⟨hok, hr.trans hslave.1, hw.trans hslave.2, fun {j item'} hj => ?_⟩
      by_cases hne : j = n
      · exact .inr ⟨handler, i, data, by rw [hne]⟩
      · exact .inl ⟨item', by rw [← hsame, ← hother j hne, hj], rfl⟩
  by_cases hsize : n < s.fds.length
  · exact hlarge s hs hsize (fun _ => rfl) ⟨rfl, rfl⟩ h
  · have hgrow := entry_ensureCapacity true s n
    have hok := ok_ensureCapacity hs true n
    have hslave := slaves_ensureCapacity true s n
    by_cases hret : (ensureCapacity true s n).2 = .success
    · by_cases hgrown : n < (ensureCapacity true s n).1.fds.length
      · rw [register_grown true handler i data hn hsize hret hgrown] at h
        exact hlarge _ hok hgrown hgrow hslave h
      · have hitem : (ensureCapacity true s n).1.item n = .error .outOfBounds := by
          simp only [Selector.item, List.getElem?_eq_none (Nat.not_lt.mp hgrown)]
        simp only [selectorRegister, hvalid, Bool.false_eq_true, ↓reduceIte, Int.toNat_natCast,
          ge_iff_le, Nat.not_lt.mp hsize, hret, hitem] at h
        cases h
    · simp only [selectorRegister, hvalid, Bool.false_eq_true, ↓reduceIte, Int.toNat_natCast,
        ge_iff_le, Nat.not_lt.mp hsize, ne_eq, hret, not_false_eq_true] at h
      cases h
      exact .same hok hslave hgrow

theorem SelectorCall.exec_effect {s s' : Selector η δ} {call : SelectorCall η δ}
    {st : SelectorStatus} (hs : s.Ok) (h : call.exec s = .ok (s', st)) : call.Effect s s' := by
  cases call with
  | register fd handler interest data => exact register_effect hs h
  | unregister fd =>
    simp only [exec, selectorUnregisterFd] at h
    cases hr : s.registered fd with
    | error f =>
      rw [hr] at h
      cases h
    | ok r =>
      rw [hr] at h
      obtain rfl | ⟨n, item, rfl, rfl, he⟩ := registered_cases hr
      · cases h
        exact .same hs ⟨rfl, rfl⟩ fun _ => rfl
      · cases h
        obtain ⟨hok, -, -, ⟨hr, hw⟩, hself, hother⟩ := release_spec hs he
        refine ⟨hok, hr, hw, fun {j item'} hj => .inl ⟨item', ?_, rfl⟩⟩
        have hne : j ≠ n := by
          rintro rfl
          exact absurd (hself.symm.trans hj) (by simp)
        exact (hother j hne).symm.trans hj
  | setInterest fd interest =>
    simp only [exec] at h
    cases hr : s.registered fd with
    | error f =>
      simp only [selectorSetInterest, hr] at h
      cases h
    | ok r =>
      obtain rfl | ⟨n, item, rfl, rfl, he⟩ := registered_cases hr
      · rw [setInterest_unregistered hr] at h
        cases h
        exact .same hs ⟨rfl, rfl⟩ fun _ => rfl
      · obtain ⟨s₁, hs₁, hok, -, -, -, ⟨hr, hw⟩, hself, hother⟩ := setInterest_spec hs he interest
        rw [Int.ofNat_eq_natCast, hs₁] at h
        cases h
        refine ⟨hok, hr, hw, fun {j item'} hj => .inl ?_⟩
        by_cases hne : j = n
        · subst hne
          rw [hself] at hj
          cases hj
          exact ⟨item, he, rfl⟩
        · exact ⟨item', (hother j hne).symm.trans hj, rfl⟩

-- ---------------------------------------------------------------------------
-- The iteration
-- ---------------------------------------------------------------------------

def Keeps (s₀ : Selector η δ) (pending : Nat → Prop) (s : Selector η δ) : Prop :=
  ∀ j item, pending j → s.entry j = some item → ∃ item₀, s₀.entry j = some item₀ ∧
    item₀.serial = item.serial

def Pending (readyR readyW : FdSet) (d : Delivery) (j : Nat) : Prop :=
  (d.fd < j ∧ (readyR j = true ∨ readyW j = true)) ∨ (d.fd = j ∧ d.write = false ∧ readyW j = true)

/-- The delivery is for a registration of `s₀` that had the interest. -/
def Delivery.Fresh (s₀ : Selector η δ) (d : Delivery) : Prop :=
  ∃ item, s₀.entry d.fd = some item ∧ item.serial = d.serial ∧
    (if d.write then item.interest.write else item.interest.read) = true

/-- No handler called in the iteration registers a descriptor whose turn is
still to come with a ready bit set. -/
def NoPendingRegistration (h : Behaviour η δ) (readyR readyW : FdSet) (ds : List Delivery) :
    Prop :=
  ∀ before d, before ++ [d] <+: ds → ∀ j handler interest data,
    SelectorCall.register (Int.ofNat j) handler interest data ∈ h (before ++ [d]) →
      ¬ Pending readyR readyW d j

theorem NoPendingRegistration.of_prefix {h : Behaviour η δ} {readyR readyW : FdSet}
    {ds ds' : List Delivery} (hno : NoPendingRegistration h readyR readyW ds') (hpre : ds <+: ds') :
    NoPendingRegistration h readyR readyW ds :=
  fun before d hb => hno before d (hb.trans hpre)

structure Iteration.Inv (s₀ : Selector η δ) (readyR readyW : FdSet) (pending : Nat → Prop)
    (it : Iteration η δ) : Prop where
  ok : it.sel.Ok
  slaveR : it.sel.slaveR = readyR
  slaveW : it.sel.slaveW = readyW
  keeps : Keeps s₀ pending it.sel
  fresh : ∀ d ∈ it.deliveries, d.Fresh s₀

namespace Iteration

variable {s₀ : Selector η δ} {readyR readyW : FdSet} {pending : Nat → Prop} {it : Iteration η δ}

theorem deliveries_exec (it : Iteration η δ) (call : SelectorCall η δ) :
    (it.exec call).deliveries = it.deliveries := by
  unfold exec
  split
  · rfl
  · split <;> rfl

theorem deliveries_execs (it : Iteration η δ) (calls : List (SelectorCall η δ)) :
    (calls.foldl exec it).deliveries = it.deliveries := by
  induction calls generalizing it with
  | nil => rfl
  | cons call calls ih => exact (ih _).trans (deliveries_exec it call)

theorem Inv.exec (hi : it.Inv s₀ readyR readyW pending) {call : SelectorCall η δ}
    (hcall : ∀ j handler interest data, call = .register (Int.ofNat j) handler interest data →
      ¬ pending j) : (it.exec call).Inv s₀ readyR readyW pending := by
  unfold Iteration.exec
  cases hf : it.fault with
  | some f => exact hi
  | none =>
    cases hr : call.exec it.sel with
    | error f => exact ⟨hi.ok, hi.slaveR, hi.slaveW, hi.keeps, hi.fresh⟩
    | ok r =>
      obtain ⟨sel, st⟩ := r
      have heff := SelectorCall.exec_effect hi.ok hr
      refine ⟨heff.ok, heff.slaveR.trans hi.slaveR, heff.slaveW.trans hi.slaveW, ?_, hi.fresh⟩
      intro j item' hj he
      rcases heff.entry he with ⟨item, hold, hser⟩ | ⟨handler, interest, data, rfl⟩
      · obtain ⟨item₀, h₀, hser₀⟩ := hi.keeps j item hj hold
        exact ⟨item₀, h₀, hser₀.trans hser⟩
      · exact absurd hj (hcall j handler interest data rfl)

theorem Inv.execs (hi : it.Inv s₀ readyR readyW pending) {calls : List (SelectorCall η δ)}
    (hcalls : ∀ j handler interest data,
      SelectorCall.register (Int.ofNat j) handler interest data ∈ calls → ¬ pending j) :
    (calls.foldl Iteration.exec it).Inv s₀ readyR readyW pending := by
  induction calls generalizing it with
  | nil => exact hi
  | cons call calls ih =>
    refine ih (hi.exec fun j handler interest data hc => ?_) fun j handler interest data hc => ?_
    · exact hcalls j handler interest data (hc ▸ List.mem_cons_self)
    · exact hcalls j handler interest data (List.mem_cons_of_mem _ hc)

theorem deliveries_visit (h : Behaviour η δ) (callbacks : Callbacks η) (i : Nat) (write : Bool)
    (it : Iteration η δ) :
    it.deliveries <+: (it.visit h callbacks i write).deliveries := by
  unfold visit
  split
  · exact List.prefix_rfl
  · exact List.prefix_rfl
  · split
    · split
      · simp only [deliver, deliveries_execs]
        exact List.prefix_append _ _
      · exact List.prefix_rfl
    · exact List.prefix_rfl

theorem deliveries_body (h : Behaviour η δ) (callbacks : Callbacks η) (it : Iteration η δ)
    (i : Nat) : it.deliveries <+: (it.body h callbacks i).deliveries := by
  unfold body
  split
  · exact List.prefix_rfl
  · exact List.prefix_rfl
  · split
    · exact (deliveries_visit h callbacks i false it).trans (deliveries_visit h callbacks i true _)
    · exact List.prefix_rfl

theorem entry_of_ready (hi : it.Inv s₀ readyR readyW pending) {i : Nat} {item : Item η δ}
    {write : Bool} (hget : it.sel.fds[i]? = some item) (hready : it.ready write item = true) :
    it.sel.entry i = some item ∧ (if write then readyW else readyR) i = true := by
  have hnonneg : 0 ≤ item.fd := by
    unfold ready fdIsset at hready
    split at hready <;> simp only [Bool.and_eq_true, decide_eq_true_eq] at hready <;>
      exact hready.1.1
  have hentry : it.sel.entry i = some item := by
    simp only [entry, hget, Option.filter_eq_some_iff, true_and]
    exact used_of_fd (Int.toNat_of_nonneg hnonneg).symm
  have hfd := hi.ok.fd_eq hentry
  refine ⟨hentry, ?_⟩
  cases write with
  | true =>
    simp only [ready, fdIsset, hfd, Int.toNat_natCast, hi.slaveW, ↓reduceIte, Bool.and_eq_true]
      at hready
    exact hready.1.2
  | false =>
    simp only [ready, fdIsset, hfd, Int.toNat_natCast, hi.slaveR, Bool.false_eq_true, ↓reduceIte,
      Bool.and_eq_true] at hready
    exact hready.1.2

variable {h : Behaviour η δ} {callbacks : Callbacks η}

/-- One block of the loop: what it delivers is fresh, and what comes later
keeps its registrations. -/
theorem Inv.visit (hs₀ : s₀.Ok) (hsubR : ∀ n, readyR n = true → s₀.masterR n = true)
    (hsubW : ∀ n, readyW n = true → s₀.masterW n = true)
    (hi : it.Inv s₀ readyR readyW pending) (i : Nat) (write : Bool) (later : Nat → Prop)
    (hnow : (if write then readyW else readyR) i = true → pending i)
    (hlater : ∀ j, later j → pending j ∧ ∀ serial, Pending readyR readyW ⟨i, write, serial⟩ j)
    (hno : NoPendingRegistration h readyR readyW (it.visit h callbacks i write).deliveries) :
    (it.visit h callbacks i write).Inv s₀ readyR readyW later := by
  have hweak : it.Inv s₀ readyR readyW later :=
    ⟨hi.ok, hi.slaveR, hi.slaveW, fun j item hj => hi.keeps j item (hlater j hj).1, hi.fresh⟩
  unfold Iteration.visit at hno ⊢
  split
  · exact hweak
  · exact ⟨hweak.ok, hweak.slaveR, hweak.slaveW, hweak.keeps, hweak.fresh⟩
  · rename_i item hf hget
    simp only [hf, hget] at hno
    split
    · rename_i hready
      split
      · rename_i hcallback
        rw [if_pos hready, if_pos hcallback] at hno
        obtain ⟨hentry, hbit⟩ := entry_of_ready hi hget hready
        obtain ⟨item₀, h₀, hser⟩ := hi.keeps i item (hnow hbit) hentry
        have hinterest : (if write then item₀.interest.write else item₀.interest.read) = true := by
          cases write with
          | true =>
            have := hsubW i hbit
            rw [hs₀.masterW, h₀] at this
            exact this
          | false =>
            have := hsubR i hbit
            rw [hs₀.masterR, h₀] at this
            exact this
        simp only [deliver, deliveries_execs] at hno
        have hnew : ({ it with deliveries := it.deliveries ++ [⟨i, write, item.serial⟩] } :
            Iteration η δ).Inv s₀ readyR readyW later := by
          refine ⟨hweak.ok, hweak.slaveR, hweak.slaveW, hweak.keeps, fun d hd => ?_⟩
          rcases List.mem_append.mp hd with hd | hd
          · exact hi.fresh d hd
          · rw [List.mem_singleton.mp hd]
            exact ⟨item₀, h₀, hser, hinterest⟩
        refine hnew.execs fun j handler interest data hmem hj => ?_
        exact hno _ _ List.prefix_rfl j handler interest data hmem ((hlater j hj).2 _)
      · exact ⟨hweak.ok, hweak.slaveR, hweak.slaveW, hweak.keeps, hweak.fresh⟩
    · exact hweak

def From (readyR readyW : FdSet) (i j : Nat) : Prop := i ≤ j ∧ (readyR j = true ∨ readyW j = true)

theorem Inv.body (hs₀ : s₀.Ok) (hsubR : ∀ n, readyR n = true → s₀.masterR n = true)
    (hsubW : ∀ n, readyW n = true → s₀.masterW n = true) {i : Nat}
    (hi : it.Inv s₀ readyR readyW (From readyR readyW i))
    (hno : NoPendingRegistration h readyR readyW (it.body h callbacks i).deliveries) :
    (it.body h callbacks i).Inv s₀ readyR readyW (From readyR readyW (i + 1)) := by
  have hlater : ∀ j, From readyR readyW (i + 1) j → From readyR readyW i j :=
    fun j hj => ⟨Nat.le_of_succ_le hj.1, hj.2⟩
  have hweak : it.Inv s₀ readyR readyW (From readyR readyW (i + 1)) :=
    ⟨hi.ok, hi.slaveR, hi.slaveW, fun j item hj => hi.keeps j item (hlater j hj), hi.fresh⟩
  unfold Iteration.body at hno ⊢
  split
  · exact hweak
  · exact ⟨hweak.ok, hweak.slaveR, hweak.slaveW, hweak.keeps, hweak.fresh⟩
  · rename_i item hf hget
    simp only [hf, hget] at hno
    split
    · rename_i hused
      rw [if_pos hused] at hno
      -- after the first block, the descriptor itself may still be ready for writing
      have hread := Inv.visit hs₀ hsubR hsubW hi i false
        (fun j => From readyR readyW i j ∧ (i = j → readyW j = true))
        (fun hb => ⟨Nat.le_refl i, .inl hb⟩)
        (fun j hj => ⟨hj.1, fun serial => ?_⟩) (hno.of_prefix (deliveries_visit h callbacks i true _))
      · refine Inv.visit hs₀ hsubR hsubW hread i true _
          (fun hb => ⟨⟨Nat.le_refl i, .inr hb⟩, fun _ => hb⟩)
          (fun j hj => ⟨⟨hlater j hj, fun he => ?_⟩, fun serial => .inl ⟨hj.1, hj.2⟩⟩) hno
        exact absurd hj.1 (by omega)
      · obtain ⟨⟨hle, hbits⟩, heq⟩ := hj
        rcases Nat.lt_or_eq_of_le hle with hlt | he
        · exact .inl ⟨hlt, hbits⟩
        · exact .inr ⟨he, rfl, heq he⟩
    · exact hweak

end Iteration

/-- Every call of a handler is for a registration that was there, with the
interest, when the sets were copied; in every iteration in which no handler
registers a descriptor that is ready and still to be visited. -/
theorem handleIteration_fresh {s : Selector η δ} (hs : s.Ok) (readyR readyW : FdSet)
    (hsubR : ∀ n, readyR n = true → s.masterR n = true)
    (hsubW : ∀ n, readyW n = true → s.masterW n = true) (h : Behaviour η δ)
    (callbacks : Callbacks η)
    (hno : NoPendingRegistration h readyR readyW
      (selectorSelect h callbacks readyR readyW s).deliveries) :
    ∀ d ∈ (selectorSelect h callbacks readyR readyW s).deliveries, d.Fresh s := by
  let start : Iteration η δ := { sel := { s with slaveR := readyR, slaveW := readyW } }
  have hstart : start.Inv s readyR readyW (Iteration.From readyR readyW 0) :=
    ⟨⟨hs.fd_eq, hs.lt, hs.le_maxFd, hs.masterR, hs.masterW, hs.serial_lt⟩, rfl, rfl,
      fun j item _ he => ⟨item, he, rfl⟩, fun d hd => absurd hd List.not_mem_nil⟩
  have hloop : ∀ n, NoPendingRegistration h readyR readyW
      ((List.range n).foldl (Iteration.body h callbacks) start).deliveries →
      ((List.range n).foldl (Iteration.body h callbacks) start).Inv s readyR readyW
        (Iteration.From readyR readyW n) := by
    intro n
    induction n with
    | zero => exact fun _ => hstart
    | succ n ih =>
      intro hno
      simp only [List.range_succ, List.foldl_append, List.foldl_cons, List.foldl_nil] at hno ⊢
      exact Iteration.Inv.body hs hsubR hsubW
        (ih (hno.of_prefix (Iteration.deliveries_body h callbacks _ n))) hno
  exact (hloop _ hno).fresh

-- ---------------------------------------------------------------------------
-- Reachable selectors and runs at fixed inputs
-- ---------------------------------------------------------------------------

/-- The selector after a sequence of calls made outside an iteration. -/
def Selector.after (s : Selector η δ) (calls : List (SelectorCall η δ)) : Selector η δ :=
  (calls.foldl Iteration.exec { sel := s }).sel

/-- Every selector that `selector_new` and any calls make satisfies the
invariant. -/
theorem Selector.ok_after {s : Selector η δ} (hs : s.Ok) (calls : List (SelectorCall η δ)) :
    (s.after calls).Ok := by
  have hinv : ({ sel := s } : Iteration η δ).Inv s s.slaveR s.slaveW fun _ => False :=
    ⟨hs, rfl, rfl, fun _ _ h => h.elim, fun d hd => absurd hd List.not_mem_nil⟩
  exact (hinv.execs fun _ _ _ _ _ => id).ok

def threeDescriptors : Selector Unit Unit :=
  Selector.after { fds := List.replicate 9 {} }
    [.register 3 () opRead none, .register 4 () opRead none, .register 5 () ⟨true, true⟩ none]

theorem threeDescriptors_ok : threeDescriptors.Ok := Selector.ok_after (Selector.ok_empty 9) _

def allCallbacks : Callbacks Unit := ⟨fun _ => true, fun _ => true⟩

/-- The first connection ends and releases 5; the second one opens its origin
socket and gets that number. -/
def reuseFive : Behaviour Unit Unit
  | [_] => [.unregister 3, .unregister 5]
  | [_, _] => [.setInterest 4 opNoop, .register 5 () opWrite none]
  | _ => []

/-- The new socket on 5 is told that it is writable because the old one was. -/
theorem reuseFive_stale :
    (selectorSelect reuseFive allCallbacks (fun n => n == 3 || n == 4) (fun n => n == 5)
      threeDescriptors).deliveries = [⟨3, false, 0⟩, ⟨4, false, 1⟩, ⟨5, true, 3⟩] ∧
    ¬ (⟨5, true, 3⟩ : Delivery).Fresh threeDescriptors := by
  refine ⟨by decide, ?_⟩
  rintro ⟨item, hentry, hserial, -⟩
  have hitem : threeDescriptors.entry 5 = some ⟨5, ⟨true, true⟩, some (), none, 2⟩ := by decide
  rw [hitem] at hentry
  cases hentry
  cases hserial

/-- The first connection ends; the second one opens no socket. -/
def endFirst : Behaviour Unit Unit
  | [_] => [.unregister 3, .unregister 5]
  | _ => []

theorem endFirst_fresh : (⟨4, false, 1⟩ : Delivery).Fresh threeDescriptors := by
  refine handleIteration_fresh threeDescriptors_ok (fun n => n == 3 || n == 4) (fun n => n == 5)
    ?_ ?_ endFirst allCallbacks ?_ ⟨4, false, 1⟩ (by decide)
  · intro n hn
    simp only [Bool.or_eq_true, beq_iff_eq] at hn
    rcases hn with rfl | rfl <;> decide
  · intro n hn
    simp only [beq_iff_eq] at hn
    subst hn
    decide
  · intro before d _ j handler interest data hmem
    unfold endFirst at hmem
    split at hmem <;> simp at hmem

end Socks5d
