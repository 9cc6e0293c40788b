import Socks5d.Lib.History
import Socks5d.Server

/-!
# The pools of released structs

`socks5nio.c` and `monitornio.c` keep released structs in a list linked through
their `next` fields and count them in `pool_size`. `socks5_new` and
`connection_new` take a struct out of the list and leave the count alone, so
the two drift apart with the first struct that is used again:
`pool_accounts_iff` says that the accounts are right in exactly those runs in
which that never happens.
-/

namespace Socks5d

abbrev Addr := Nat

/-- `pool`, `pool_size` and what is in memory of the structs. `used` and
`allocated` are not in the source: the structs handed out and not yet released,
and the memory that `malloc` gave and `free` has not taken back. -/
structure Pool where
  pool : Option Addr := none
  poolSize : Nat := 0
  next : Addr → Option Addr := fun _ => none
  references : Addr → Nat := fun _ => 0
  used : List Addr := []
  allocated : List Addr := []

inductive PoolKind
  | socks5 | connection
  deriving DecidableEq

/-- `max_pool` of the two files. -/
def PoolKind.max : PoolKind → Nat
  | .socks5 => World.maxPool
  | .connection => 5

namespace Pool

/-- What the two functions `_new` begin with: a struct of the pool or of `malloc`. -/
def take (p : Pool) (malloc : Option Addr) : Option Addr × Pool :=
  match p.pool with
  | none => (malloc, { p with allocated := malloc.toList ++ p.allocated })
  | some a => (some a, { p with pool := p.next a, next := Function.update p.next a none })

/-- `memset` of the struct handed out. -/
def hand (p : Pool) (a : Addr) : Pool :=
  { p with
    next := Function.update p.next a none
    references := Function.update p.references a 0
    used := a :: p.used }

def socks5New (p : Pool) (malloc : Option Addr) : Option Addr × Pool :=
  match p.take malloc with
  | (none, p) => (none, p)
  | (some a, p) =>
    let p := p.hand a
    (some a, { p with references := Function.update p.references a 1 })

def connectionNew (p : Pool) (malloc : Option Addr) : Option Addr × Pool :=
  match p.take malloc with
  | (none, p) => (none, p)
  | (some a, p) => (some a, p.hand a)

/-- What the two functions `_destroy` end with: the struct goes into the pool or
is freed. -/
def give (max : Nat) (p : Pool) (a : Addr) : Pool :=
  if p.poolSize < max then
    { p with
      next := Function.update p.next a p.pool
      pool := some a
      poolSize := p.poolSize + 1
      used := p.used.erase a }
  else { p with used := p.used.erase a, allocated := p.allocated.erase a }

def socks5Destroy (p : Pool) : Option Addr → Pool
  | none => p
  | some a =>
    if p.references a = 1 then p.give PoolKind.socks5.max a
    else { p with references := Function.update p.references a (p.references a - 1) }

def connectionDestroy (p : Pool) : Option Addr → Pool
  | none => p
  | some a => p.give PoolKind.connection.max a

end Pool

/-- The calls; `share` is the `references += 1` of a second registration. -/
inductive PoolCall
  | new (malloc : Option Addr)
  | share (a : Addr)
  | destroy (s : Option Addr)

namespace PoolCall

def exec (kind : PoolKind) (p : Pool) : PoolCall → Pool
  | new malloc =>
    match kind with
    | .socks5 => (p.socks5New malloc).2
    | .connection => (p.connectionNew malloc).2
  | share a => { p with references := Function.update p.references a (p.references a + 1) }
  | destroy s =>
    match kind with
    | .socks5 => p.socks5Destroy s
    | .connection => p.connectionDestroy s

/-- `malloc` fails or gives memory that is free, and the callers release what
they have. -/
def Enabled (p : Pool) : PoolCall → Prop
  | new malloc => ∀ a ∈ malloc, a ∉ p.allocated
  | share a => a ∈ p.used
  | destroy s => ∀ a ∈ s, a ∈ p.used

def Fresh (p : Pool) : PoolCall → Prop
  | new _ => p.pool = none
  | _ => True

instance (p : Pool) (call : PoolCall) : Decidable (call.Enabled p) := by
  cases call <;> unfold Enabled <;> infer_instance

instance (p : Pool) (call : PoolCall) : Decidable (call.Fresh p) := by
  cases call <;> unfold Fresh <;> infer_instance

end PoolCall

-- ---------------------------------------------------------------------------
-- The list
-- ---------------------------------------------------------------------------

def Chain (next : Addr → Option Addr) : Option Addr → List Addr → Prop
  | head, [] => head = none
  | head, a :: rest => head = some a ∧ Chain next (next a) rest

namespace Chain

variable {next : Addr → Option Addr} {head : Option Addr} {l l' : List Addr}

theorem unique (h : Chain next head l) (h' : Chain next head l') : l = l' := by
  induction l generalizing head l' with
  | nil =>
    cases l' with
    | nil => rfl
    | cons a rest => cases h.symm.trans h'.1
  | cons a rest ih =>
    cases l' with
    | nil => cases h.1.symm.trans h'
    | cons b rest' =>
      obtain rfl : a = b := Option.some.inj (h.1.symm.trans h'.1)
      rw [ih h.2 h'.2]

theorem update (h : Chain next head l) {a : Addr} (ha : a ∉ l) (value : Option Addr) :
    Chain (Function.update next a value) head l := by
  induction l generalizing head with
  | nil => exact h
  | cons b rest ih =>
    obtain ⟨hb, hrest⟩ := not_or.mp (List.mem_cons.not.mp ha)
    refine ⟨h.1, ?_⟩
    rw [Function.update_of_ne (Ne.symm hb)]
    exact ih h.2 hrest

end Chain

namespace Pool

/-- The accounts: the count is the length of the list, no struct is in the list
twice or while it is used. -/
def Accounts (max : Nat) (p : Pool) : Prop :=
  ∃ linked, Chain p.next p.pool linked ∧ p.poolSize = linked.length ∧ linked.length ≤ max ∧
    linked.Nodup ∧ ∀ a ∈ linked, a ∉ p.used

def FreesFull (kind : PoolKind) (p : Pool) (call : PoolCall) : Prop :=
  ∀ a ∈ p.allocated, a ∉ (call.exec kind p).allocated →
    ∃ linked, Chain p.next p.pool linked ∧ linked.length = kind.max

-- ---------------------------------------------------------------------------
-- What holds in every run
-- ---------------------------------------------------------------------------

/-- The structs in use and those in the list are different and in memory; the
count is never too small. -/
structure Sound (max : Nat) (linked : List Addr) (p : Pool) : Prop where
  chain : Chain p.next p.pool linked
  nodup : (linked ++ p.used).Nodup
  allocated : ∀ a ∈ linked ++ p.used, a ∈ p.allocated
  once : p.allocated.Nodup
  length_le : linked.length ≤ p.poolSize
  poolSize_le : p.poolSize ≤ max

variable {kind : PoolKind} {max : Nat} {linked : List Addr} {p : Pool}

theorem sound_empty (max : Nat) : Sound max [] {} :=
  ⟨rfl, List.nodup_nil, fun _ h => absurd h List.not_mem_nil, List.nodup_nil, Nat.le_refl 0,
    Nat.zero_le max⟩

theorem exec_cases (kind : PoolKind) (p : Pool) (call : PoolCall) :
    (call.Fresh p ∧ ∃ references, call.exec kind p = { p with references }) ∨
    (∃ a references, call = .new (some a) ∧ p.pool = none ∧ call.exec kind p =
      { p with
        next := Function.update p.next a none
        references
        used := a :: p.used
        allocated := a :: p.allocated }) ∨
    (∃ malloc a references, call = .new malloc ∧ p.pool = some a ∧ call.exec kind p =
      { p with
        pool := p.next a
        next := Function.update p.next a none
        references
        used := a :: p.used }) ∨
    ∃ a, call = .destroy (some a) ∧ call.exec kind p = p.give kind.max a := by
  cases call with
  | new malloc =>
    cases hpool : p.pool with
    | none =>
      cases malloc with
      | none =>
        refine .inl ⟨hpool, p.references, ?_⟩
        cases kind <;>
          simp [PoolCall.exec, socks5New, connectionNew, take, hpool]
      | some a =>
        right
        left
        cases kind with
        | socks5 =>
          refine ⟨a, Function.update (Function.update p.references a 0) a 1, rfl, rfl, ?_⟩
          simp only [PoolCall.exec, socks5New, take, hpool, hand]
          rfl
        | connection =>
          refine ⟨a, Function.update p.references a 0, rfl, rfl, ?_⟩
          simp only [PoolCall.exec, connectionNew, take, hpool, hand]
          rfl
    | some a =>
      have hnext : Function.update (Function.update p.next a none) a none =
          Function.update p.next a none := Function.update_idem ..
      right
      right
      left
      cases kind with
      | socks5 =>
        refine ⟨malloc, a, Function.update (Function.update p.references a 0) a 1, rfl, rfl, ?_⟩
        simp only [PoolCall.exec, socks5New, take, hpool, hand, hnext]
      | connection =>
        refine ⟨malloc, a, Function.update p.references a 0, rfl, rfl, ?_⟩
        simp only [PoolCall.exec, connectionNew, take, hpool, hand, hnext]
  | share a => exact .inl ⟨trivial, _, rfl⟩
  | destroy s =>
    cases s with
    | none =>
      refine .inl ⟨trivial, p.references, ?_⟩
      cases kind <;> rfl
    | some a =>
      cases kind with
      | connection => exact .inr (.inr (.inr ⟨a, rfl, rfl⟩))
      | socks5 =>
        by_cases href : p.references a = 1
        · exact .inr (.inr (.inr ⟨a, rfl, if_pos href⟩))
        · exact .inl ⟨trivial, _, if_neg href⟩

theorem Sound.taken {a : Addr} (h : Sound max (a :: linked) p) (references : Addr → Nat) :
    Sound max linked { p with
      pool := p.next a
      next := Function.update p.next a none
      references
      used := a :: p.used } := by
  have hnodup := h.nodup
  rw [List.cons_append, List.nodup_cons, List.mem_append, not_or] at hnodup
  obtain ⟨⟨hlinked, hused⟩, hrest⟩ := hnodup
  refine ⟨h.chain.2.update hlinked none, ?_, fun b hb => h.allocated b ?_, h.once,
    Nat.le_of_succ_le h.length_le, h.poolSize_le⟩
  · exact (List.perm_middle.nodup_iff).mpr (List.nodup_cons.mpr
      ⟨fun hmem => (List.mem_append.mp hmem).elim hlinked hused, hrest⟩)
  · exact List.perm_middle.mem_iff.mp hb

theorem Sound.allocate {a : Addr} (h : Sound max linked p) (ha : a ∉ p.allocated)
    (references : Addr → Nat) :
    Sound max linked { p with
      next := Function.update p.next a none
      references
      used := a :: p.used
      allocated := a :: p.allocated } := by
  have hnew : a ∉ linked ++ p.used := fun hmem => ha (h.allocated a hmem)
  refine ⟨h.chain.update (fun hmem => hnew (List.mem_append_left _ hmem)) none, ?_, ?_,
    List.nodup_cons.mpr ⟨ha, h.once⟩, h.length_le, h.poolSize_le⟩
  · exact List.perm_middle.nodup_iff.mpr (List.nodup_cons.mpr ⟨hnew, h.nodup⟩)
  · intro b hb
    rcases List.mem_cons.mp (List.perm_middle.mem_iff.mp hb) with rfl | hb
    · exact List.mem_cons_self
    · exact List.mem_cons_of_mem _ (h.allocated b hb)

theorem perm_erase {a : Addr} (ha : a ∈ p.used) (linked : List Addr) :
    (linked ++ p.used).Perm (a :: (linked ++ p.used.erase a)) :=
  ((List.perm_cons_erase ha).append_left linked).trans List.perm_middle

theorem Sound.given {a : Addr} (h : Sound max linked p) (ha : a ∈ p.used) (hsize : p.poolSize < max) :
    Sound max (a :: linked) (p.give max a) := by
  have hperm := perm_erase ha linked
  have hnodup := hperm.nodup_iff.mp h.nodup
  have hnew : a ∉ linked := fun hmem =>
    (List.nodup_cons.mp hnodup).1 (List.mem_append_left _ hmem)
  rw [give, if_pos hsize]
  refine ⟨⟨rfl, ?_⟩, hnodup, fun b hb => h.allocated b (hperm.mem_iff.mpr hb), h.once,
    Nat.succ_le_succ h.length_le, hsize⟩
  show Chain _ (Function.update p.next a p.pool a) linked
  rw [Function.update_self]
  exact h.chain.update hnew p.pool

theorem Sound.freed {a : Addr} (h : Sound max linked p) (ha : a ∈ p.used) (hsize : ¬ p.poolSize < max) :
    Sound max linked (p.give max a) := by
  have hperm := perm_erase ha linked
  have hnodup := List.nodup_cons.mp (hperm.nodup_iff.mp h.nodup)
  rw [give, if_neg hsize]
  refine ⟨h.chain, hnodup.2, fun b hb => ?_, h.once.erase a, h.length_le, h.poolSize_le⟩
  have hne : b ≠ a := fun heq => hnodup.1 (heq ▸ hb)
  exact (List.mem_erase_of_ne hne).mpr (h.allocated b (hperm.mem_iff.mpr (List.mem_cons_of_mem a hb)))

theorem Sound.counts (h : Sound max linked p) (references : Addr → Nat) :
    Sound max linked { p with references } :=
  ⟨h.chain, h.nodup, h.allocated, h.once, h.length_le, h.poolSize_le⟩

/-- Every call keeps the list sound, and the count right unless the struct it
hands out comes from the list. -/
theorem Sound.exec {call : PoolCall} (h : Sound kind.max linked p) (hc : call.Enabled p) :
    ∃ linked', Sound kind.max linked' (call.exec kind p) ∧
      (p.poolSize = linked.length →
        ((call.exec kind p).poolSize = linked'.length ↔ call.Fresh p)) := by
  rcases exec_cases kind p call with ⟨hfresh, references, heq⟩ | ⟨a, references, rfl, hpool, heq⟩ |
    ⟨malloc, a, references, rfl, hpool, heq⟩ | ⟨a, rfl, heq⟩
  · rw [heq]
    exact ⟨linked, h.counts references, fun hexact => iff_of_true hexact hfresh⟩
  · rw [heq]
    exact ⟨linked, h.allocate (hc a rfl) references,
      fun hexact => iff_of_true hexact hpool⟩
  · rw [heq]
    cases linked with
    | nil => cases hpool.symm.trans h.chain
    | cons b linked =>
      obtain rfl : a = b := Option.some.inj (hpool.symm.trans h.chain.1)
      refine ⟨linked, h.taken references, fun hexact => iff_of_false ?_ fun hnone => ?_⟩
      · rw [List.length_cons] at hexact
        show p.poolSize ≠ _
        omega
      · cases hpool.symm.trans hnone
  · rw [heq]
    have ha : a ∈ p.used := hc a rfl
    by_cases hsize : p.poolSize < kind.max
    · refine ⟨a :: linked, h.given ha hsize, fun hexact => iff_of_true ?_ trivial⟩
      rw [give, if_pos hsize]
      exact congrArg (· + 1) hexact
    · refine ⟨linked, h.freed ha hsize, fun hexact => iff_of_true ?_ trivial⟩
      rw [give, if_neg hsize]
      exact hexact

theorem Sound.accounts_iff (h : Sound max linked p) :
    p.Accounts max ↔ p.poolSize = linked.length := by
  constructor
  · rintro ⟨linked', hchain, hsize, -⟩
    rw [hsize, hchain.unique h.chain]
  · intro hsize
    have hnodup := List.nodup_append.mp h.nodup
    exact ⟨linked, h.chain, hsize, hsize ▸ h.poolSize_le, hnodup.1,
      fun a ha hused => hnodup.2.2 a ha a hused rfl⟩

theorem Sound.freesFull {call : PoolCall} (h : Sound kind.max linked p)
    (hexact : p.poolSize = linked.length) : FreesFull kind p call := by
  intro a ha hfreed
  rcases exec_cases kind p call with ⟨-, references, heq⟩ | ⟨b, references, -, -, heq⟩ |
    ⟨malloc, b, references, -, -, heq⟩ | ⟨b, -, heq⟩
  · rw [heq] at hfreed
    exact absurd ha hfreed
  · rw [heq] at hfreed
    exact absurd (List.mem_cons_of_mem b ha) hfreed
  · rw [heq] at hfreed
    exact absurd ha hfreed
  · rw [heq, give] at hfreed
    by_cases hsize : p.poolSize < kind.max
    · rw [if_pos hsize] at hfreed
      exact absurd ha hfreed
    · exact ⟨linked, h.chain, Nat.le_antisymm (hexact ▸ h.poolSize_le) (hexact ▸ Nat.not_lt.mp hsize)⟩

-- ---------------------------------------------------------------------------
-- Runs
-- ---------------------------------------------------------------------------

def after (kind : PoolKind) (calls : List PoolCall) : Pool := calls.foldl (PoolCall.exec kind) {}

theorem after_concat (kind : PoolKind) (calls : List PoolCall) (call : PoolCall) :
    after kind (calls ++ [call]) = call.exec kind (after kind calls) := by
  rw [after, List.foldl_append]
  rfl

/-- Calls that can be made one after the other. -/
def Possible (kind : PoolKind) : List PoolCall → Prop :=
  Lib.Justified fun past call => call.Enabled (after kind past)

/-- Whatever is called, the links are sound and the count is at most `max_pool`. -/
theorem sound_after {calls : List PoolCall} (h : Possible kind calls) :
    ∃ linked, Sound kind.max linked (after kind calls) := by
  induction calls using List.reverseRecOn with
  | nil => exact ⟨[], sound_empty _⟩
  | append_singleton calls call ih =>
    obtain ⟨hpast, hcall⟩ := Lib.justified_concat_iff.mp h
    obtain ⟨linked, hsound⟩ := ih hpast
    obtain ⟨linked', hsound', -⟩ := hsound.exec hcall
    exact ⟨linked', (after_concat kind calls call).symm ▸ hsound'⟩

/-- After every call so far the accounts were right, and what was freed found the
pool full. -/
def Accounted (kind : PoolKind) (calls : List PoolCall) : Prop :=
  (∀ past, past <+: calls → (after kind past).Accounts kind.max) ∧
    Lib.Justified (fun past call => FreesFull kind (after kind past) call) calls

def NeverReused (kind : PoolKind) : List PoolCall → Prop :=
  Lib.Justified fun past call => call.Fresh (after kind past)

/-- The accounts of a run are right if and only if no struct is used again. -/
theorem pool_accounts_iff {calls : List PoolCall} (h : Possible kind calls) :
    Accounted kind calls ↔ NeverReused kind calls := by
  induction calls using List.reverseRecOn with
  | nil =>
    refine iff_of_true ⟨fun past hpast => ?_, Lib.justified_nil⟩ Lib.justified_nil
    rw [List.prefix_nil.mp hpast]
    exact (sound_empty _).accounts_iff.mpr rfl
  | append_singleton calls call ih =>
    obtain ⟨hpast, hcall⟩ := Lib.justified_concat_iff.mp h
    obtain ⟨linked, hsound⟩ := sound_after hpast
    obtain ⟨linked', hsound', hiff⟩ := hsound.exec hcall
    rw [← after_concat] at hsound' hiff
    have hsplit : Accounted kind (calls ++ [call]) ↔ Accounted kind calls ∧
        (after kind (calls ++ [call])).Accounts kind.max ∧ FreesFull kind (after kind calls) call := by
      rw [Accounted, Accounted, Lib.justified_concat_iff]
      constructor
      · rintro ⟨hall, hfrees, hlast⟩
        exact ⟨⟨fun past hp => hall past (hp.trans (List.prefix_append _ _)), hfrees⟩,
          hall _ List.prefix_rfl, hlast⟩
      · rintro ⟨⟨hall, hfrees⟩, hlast, hfreed⟩
        refine ⟨fun past hp => ?_, hfrees, hfreed⟩
        rcases List.prefix_concat_iff.mp hp with rfl | hp
        · exact hlast
        · exact hall past hp
    rw [hsplit, ih hpast, NeverReused, Lib.justified_concat_iff]
    refine and_congr_right fun hnever => ?_
    have hexact := hsound.accounts_iff.mp (((ih hpast).mpr hnever).1 calls List.prefix_rfl)
    rw [hsound'.accounts_iff, hiff hexact]
    exact and_iff_left (hsound.freesFull hexact)

instance (kind : PoolKind) (calls : List PoolCall) : Decidable (Possible kind calls) :=
  inferInstanceAs (Decidable (Lib.Justified _ calls))

instance (kind : PoolKind) (calls : List PoolCall) : Decidable (NeverReused kind calls) :=
  inferInstanceAs (Decidable (Lib.Justified _ calls))

/-- Two connections, the first of them released: nothing is used again. -/
theorem pool_accounts_iff_two : Accounted .socks5 [.new (some 7), .new (some 8), .destroy (some 7)] :=
  (pool_accounts_iff (by decide)).mpr (by decide)

def usedAgain : List PoolCall := [.new (some 7), .destroy (some 7), .new none]

theorem not_accounted_usedAgain (kind : PoolKind) : ¬ Accounted kind usedAgain := by
  rintro ⟨hall, -⟩
  obtain ⟨linked, hchain, hsize, -⟩ := hall usedAgain List.prefix_rfl
  have hpool : (after kind usedAgain).pool = none := by cases kind <;> rfl
  have hcount : (after kind usedAgain).poolSize = 1 := by cases kind <;> rfl
  cases linked with
  | nil => cases hcount.symm.trans hsize
  | cons a linked => cases hpool.symm.trans hchain.1

/-- The count says one, and the list is empty; after as many rounds as the
count allows, a struct is freed although no other waits in the pool. -/
theorem pool_drift :
    (Possible .socks5 usedAgain ∧ ¬ Accounted .socks5 usedAgain) ∧
    (Possible .connection usedAgain ∧ ¬ Accounted .connection usedAgain) ∧
    (after .connection (PoolCall.new (some 7) :: .destroy (some 7) ::
      (List.replicate 5 [PoolCall.new none, .destroy (some 7)]).flatten)).allocated = [] :=
  ⟨⟨by decide, not_accounted_usedAgain .socks5⟩, ⟨by decide, not_accounted_usedAgain .connection⟩,
    by decide⟩

end Pool

-- ---------------------------------------------------------------------------
-- The pool of the server
-- ---------------------------------------------------------------------------

/-- The pool of the world is the list of `p`, its structs at the addresses `addr`. -/
structure World.Pooled (addr : ConnId → Addr) (w : World) (p : Pool) : Prop where
  chain : Chain p.next p.pool (w.pool.map addr)
  poolSize : p.poolSize = w.poolSize

namespace World.Pooled

variable {addr : ConnId → Addr} {w w' : World} {p : Pool}

theorem destroy (h : w.Pooled addr p) {c : ConnId} {s : Socks5} (hc : w.deref c = .ok s)
    (href : s.references = 1) (href' : p.references (addr c) = 1) (hc' : addr c ∉ w.pool.map addr)
    (hd : w.socks5Destroy c = .ok w') : w'.Pooled addr (p.socks5Destroy (some (addr c))) := by
  simp only [socks5Destroy, hc, Bind.bind, Except.bind, href, ↓reduceIte] at hd
  simp only [Pool.socks5Destroy, href', ↓reduceIte, Pool.give, PoolKind.max, h.poolSize]
  cases hd
  by_cases hsize : w.poolSize < maxPool
  · have hsize' : (w.setConn c ⟨s, false⟩).poolSize < maxPool := hsize
    rw [if_pos hsize, if_pos hsize']
    refine ⟨⟨rfl, ?_⟩, rfl⟩
    show Chain _ (Function.update p.next (addr c) p.pool (addr c)) (w.pool.map addr)
    rw [Function.update_self]
    exact h.chain.update hc' p.pool
  · have hsize' : ¬ (w.setConn c ⟨s, false⟩).poolSize < maxPool := hsize
    obtain ⟨freed, hfreed⟩ := destroyed_eq (w.setConn c ⟨s, false⟩) c s
    rw [if_neg hsize, if_neg hsize', hfreed]
    exact ⟨h.chain, rfl⟩

theorem new (h : w.Pooled addr p) {malloc : Option Addr} {fd : Nat} {client : SockAddr} {c : ConnId}
    (hn : w.socks5New malloc.isSome fd client = some (w', c)) (hnodup : (w.pool.map addr).Nodup) :
    w'.Pooled addr (p.socks5New malloc).2 := by
  unfold socks5New at hn
  split at hn
  · cases hn
  rename_i hsome
  cases hn
  have hchain := h.chain
  cases hlist : w.pool with
  | nil =>
    rw [hlist] at hchain
    have hpool : p.pool = none := hchain
    cases malloc with
    | none => exact absurd ⟨hlist, rfl⟩ hsome
    | some a =>
      simp only [Pool.socks5New, Pool.take, hpool, Pool.hand]
      exact ⟨rfl, h.poolSize⟩
  | cons first rest =>
    rw [hlist, List.map_cons] at hchain hnodup
    have hfirst : addr first ∉ rest.map addr := (List.nodup_cons.mp hnodup).1
    simp only [Pool.socks5New, Pool.take, hchain.1, Pool.hand]
    exact ⟨(hchain.2.update hfirst none).update hfirst none, h.poolSize⟩

end World.Pooled

end Socks5d
