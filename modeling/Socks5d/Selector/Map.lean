import Socks5d.Selector.Table

/-!
# The selector refines a finite map

`Registry` is what the selector is for: a map from descriptors to their
registrations. `TableCall.apply` says what each operation does to the map, or
that it is refused. `selector_refines_registry` ties the table, the two sets
and the cached maximum to it, for a selector made as the server makes it and
any calls.
-/

namespace Socks5d

variable {η δ : Type}

structure Registration (η δ : Type) where
  interest : Interest
  handler : Option η
  data : Option δ

abbrev Registry (η δ : Type) := Nat → Option (Registration η δ)

/-- The operations on the table. A null handler is `none`; a key is the
descriptor it names. -/
inductive TableCall (η δ : Type)
  | register (fd : Int) (handler : Option η) (interest : Interest) (data : Option δ)
  | unregisterFd (fd : Int)
  | setInterest (fd : Int) (interest : Interest)
  | setInterestKey (fd : Int) (interest : Interest)

namespace TableCall

def fd : TableCall η δ → Int
  | register fd .. | unregisterFd fd | setInterest fd _ | setInterestKey fd _ => fd

def exec (alloc : Bool) (s : Selector η δ) :
    TableCall η δ → Except Fault (Selector η δ × SelectorStatus)
  | register _ none _ _ => .ok (s, .iargs)
  | register fd (some handler) interest data => selectorRegister alloc s fd handler interest data
  | unregisterFd fd => selectorUnregisterFd s fd
  | setInterest fd interest => selectorSetInterest s fd interest
  | setInterestKey fd interest =>
    if invalidFd fd then .ok (s, .iargs) else selectorSetInterest s fd interest

def execs (alloc : Bool) (s : Selector η δ) : List (TableCall η δ) → Except Fault (Selector η δ)
  | [] => .ok s
  | call :: calls => do
    let (s, _) ← call.exec alloc s
    execs alloc s calls

def change : TableCall η δ → Option (Registration η δ) → Option (Option (Registration η δ))
  | register _ (some handler) interest data, none => some (some ⟨interest, some handler, data⟩)
  | unregisterFd _, some _ => some none
  | setInterest _ interest, some r | setInterestKey _ interest, some r =>
    some (some { r with interest })
  | _, _ => none

def apply (call : TableCall η δ) (m : Registry η δ) : Option (Registry η δ) :=
  if invalidFd call.fd then none
  else (call.change (m call.fd.toNat)).map fun r => Function.update m call.fd.toNat r

end TableCall

namespace Selector

def registry (s : Selector η δ) : Registry η δ :=
  fun n => (s.entry n).map fun item => ⟨item.interest, item.handler, item.data⟩

/-- The three representations of the map agree. -/
structure Faithful (s : Selector η δ) : Prop where
  fd_eq : ∀ {i : Nat} {item}, s.fds[i]? = some item → item.used = true → item.fd = i
  masterR : ∀ i, s.masterR i = true ↔
    ∃ item, s.fds[i]? = some item ∧ item.used = true ∧ item.interest.read = true
  masterW : ∀ i, s.masterW i = true ↔
    ∃ item, s.fds[i]? = some item ∧ item.used = true ∧ item.interest.write = true
  le_maxFd : ∀ {i : Nat} {item}, s.fds[i]? = some item → item.used = true → i ≤ s.maxFd
  maxFd : s.maxFd = 0 ∨ ∃ item, s.fds[s.maxFd]? = some item ∧ item.used = true

/-- A successful call does to the map what `apply` says and leaves the rest of
the table and the sets alone; a refused one changes nothing. -/
structure Simulates (call : TableCall η δ) (s s' : Selector η δ) (st : SelectorStatus) : Prop where
  success : st = .success → call.apply s.registry = some s'.registry ∧
    ∀ m : Nat, m ≠ call.fd →
      s'.fds[m]? = s.fds[m]? ∧ s'.masterR m = s.masterR m ∧ s'.masterW m = s.masterW m
  failure : st ≠ .success → call.apply s.registry = none ∧ s' = s

-- ---------------------------------------------------------------------------
-- The cached maximum
-- ---------------------------------------------------------------------------

def MaxUsed (s : Selector η δ) : Prop := s.maxFd = 0 ∨ (s.entry s.maxFd).isSome = true

theorem foldl_maxFdStep_cases (items : List (Item η δ)) (m : Nat) :
    items.foldl maxFdStep m = m ∨
      ∃ item ∈ items, item.used = true ∧ item.fd = items.foldl maxFdStep m := by
  induction items generalizing m with
  | nil => exact .inl rfl
  | cons first items ih =>
    rcases ih (maxFdStep m first) with hsame | ⟨item, hmem, hused, hfd⟩
    · simp only [List.foldl_cons, hsame]
      unfold maxFdStep
      split
      · rename_i h
        simp only [Bool.and_eq_true, decide_eq_true_eq] at h
        refine .inr ⟨first, List.mem_cons_self, h.1, ?_⟩
        have hpos : 0 ≤ first.fd := by omega
        exact (Int.toNat_of_nonneg hpos).symm
      · exact .inl rfl
    · exact .inr ⟨item, List.mem_cons_of_mem _ hmem, hused, hfd⟩

theorem itemsMaxFd_used {s : Selector η δ}
    (hfd : ∀ {n item}, s.entry n = some item → item.fd = n) :
    itemsMaxFd s = 0 ∨ (s.entry (itemsMaxFd s)).isSome = true := by
  rcases foldl_maxFdStep_cases (s.fds.take (s.maxFd + 1)) 0 with h | ⟨item, hmem, hused, hmax⟩
  · exact .inl h
  · obtain ⟨n, hget⟩ := List.mem_iff_getElem?.mp (List.mem_of_mem_take hmem)
    have hentry : s.entry n = some item := by simp [entry, hget, hused]
    have hn : n = itemsMaxFd s := by
      have := (hfd hentry).symm.trans hmax
      exact Int.ofNat_inj.mp this
    exact .inr (by rw [← hn, hentry]; rfl)

-- ---------------------------------------------------------------------------
-- One call
-- ---------------------------------------------------------------------------

theorem faithful_of_ok {s : Selector η δ} (hs : s.Ok) (hmax : s.MaxUsed) : s.Faithful := by
  have hentry : ∀ {i item}, s.fds[i]? = some item → item.used = true → s.entry i = some item := by
    intro i item hget hused
    simp [entry, hget, hused]
  have hbit : ∀ (p : Item η δ → Bool) (i : Nat), (s.entry i).any p = true ↔
      ∃ item, s.fds[i]? = some item ∧ item.used = true ∧ p item = true := by
    intro p i
    simp only [Option.any_eq_true, entry, Option.filter_eq_some_iff, and_assoc]
  refine ⟨fun hget hused => hs.fd_eq (hentry hget hused), fun i => ?_, fun i => ?_,
    fun hget hused => hs.le_maxFd (hentry hget hused), ?_⟩
  · rw [hs.masterR, hbit]
  · rw [hs.masterW, hbit]
  · rcases hmax with h | h
    · exact .inl h
    · obtain ⟨item, hitem⟩ := Option.isSome_iff_exists.mp h
      exact .inr ⟨item, getElem?_of_entry hitem, used_of_entry hitem⟩

/-- What every call keeps: the invariant, the size and a maximum that is used. -/
structure Kept (s : Selector η δ) : Prop where
  ok : s.Ok
  size : fdSetSize ≤ s.fds.length
  maxUsed : s.MaxUsed

theorem apply_invalid {call : TableCall η δ} (h : invalidFd call.fd = true) (m : Registry η δ) :
    call.apply m = none := if_pos h

theorem apply_valid {call : TableCall η δ} {n : Nat} (hfd : call.fd = n) (hn : n < fdSetSize)
    (m : Registry η δ) :
    call.apply m = (call.change (m n)).map fun r => Function.update m n r := by
  simp only [TableCall.apply, hfd, invalidFd_natCast, Nat.not_le.mpr hn, decide_false,
    Bool.false_eq_true, ↓reduceIte, Int.toNat_natCast]

theorem registry_update {s s' : Selector η δ} {n : Nat}
    (h : ∀ m, m ≠ n → s'.entry m = s.entry m) :
    s'.registry = Function.update s.registry n (s'.registry n) := by
  funext m
  by_cases hm : m = n
  · rw [hm, Function.update_self]
  · rw [Function.update_of_ne hm, registry, registry, h m hm]

theorem masters_of_entries {s s' : Selector η δ} (hs : s.Ok) (hs' : s'.Ok) {m : Nat}
    (h : s'.entry m = s.entry m) : s'.masterR m = s.masterR m ∧ s'.masterW m = s.masterW m := by
  rw [hs'.masterR, hs.masterR, hs'.masterW, hs.masterW, h]
  exact ⟨rfl, rfl⟩

theorem simulates_refused {call : TableCall η δ} {s : Selector η δ} {st : SelectorStatus}
    (hst : st ≠ .success) (h : call.apply s.registry = none) : Simulates call s s st :=
  ⟨fun he => absurd he hst, fun _ => ⟨h, rfl⟩⟩

theorem simulates_done {call : TableCall η δ} {s s' : Selector η δ} {n : Nat} (hs : s.Ok)
    (hs' : s'.Ok) (hfd : call.fd = n) (hn : n < fdSetSize)
    (hchange : call.change (s.registry n) = some (s'.registry n))
    (hitems : ∀ m, m ≠ n → s'.fds[m]? = s.fds[m]?) : Simulates call s s' .success := by
  have hentry : ∀ m, m ≠ n → s'.entry m = s.entry m := fun m hm => by
    simp only [entry, hitems m hm]
  refine ⟨fun _ => ⟨?_, fun m hm => ?_⟩, fun h => absurd rfl h⟩
  · rw [apply_valid hfd hn, hchange, Option.map_some, ← registry_update hentry]
  · have hne : m ≠ n := fun h => hm (by rw [hfd, h])
    exact ⟨hitems m hne, masters_of_entries hs hs' (hentry m hne)⟩

theorem register_simulates {s : Selector η δ} (hs : s.Kept) (alloc : Bool) (fd : Int) (handler : η)
    (i : Interest) (data : Option δ) :
    ∃ s' st, selectorRegister alloc s fd handler i data = .ok (s', st) ∧ s'.Kept ∧
      Simulates (.register fd (some handler) i data) s s' st := by
  rcases fd_cases fd with hinvalid | ⟨n, rfl, hn⟩
  · exact ⟨s, .iargs, register_invalid s hinvalid alloc handler i data, hs,
      simulates_refused (by decide) (apply_invalid (by exact hinvalid) _)⟩
  have hsize : n < s.fds.length := Nat.lt_of_lt_of_le hn hs.size
  cases he : s.entry n with
  | some item =>
    refine ⟨s, .fdinuse, register_inUse hs.ok he alloc handler i data, hs,
      simulates_refused (by decide) ?_⟩
    rw [apply_valid rfl hn, registry, he]
    rfl
  | none =>
    obtain ⟨s', hs', hok, hlength, -, -, hself, hother⟩ :=
      register_spec hs.ok hn hsize he alloc handler i data
    have heq := (register_eq hn hsize he alloc handler i data).symm.trans hs'
    have hmax : s'.maxFd = max s.maxFd n := by
      cases heq
      rfl
    have hitems : ∀ m, m ≠ n → s'.fds[m]? = s.fds[m]? := by
      intro m hm
      cases heq
      exact List.getElem?_set_ne (Ne.symm hm)
    refine ⟨s', .success, hs', ⟨hok, hlength ▸ hs.size, ?_⟩,
      simulates_done hs.ok hok rfl hn ?_ hitems⟩
    · -- the larger of the two is used: the new one, or the old maximum
      unfold MaxUsed
      rw [hmax]
      rcases Nat.le_total s.maxFd n with hle | hle
      · rw [Nat.max_eq_right hle, hself]
        exact .inr rfl
      · rw [Nat.max_eq_left hle]
        rcases hs.maxUsed with h0 | h
        · exact .inl h0
        · by_cases hne : s.maxFd = n
          · rw [hne, hself]
            exact .inr rfl
          · rw [hother _ hne]
            exact .inr h
    · simp only [registry, he, hself, Option.map_none, Option.map_some]
      rfl

theorem unregister_simulates {s : Selector η δ} (hs : s.Kept) (fd : Int) :
    ∃ s' st, selectorUnregisterFd s fd = .ok (s', st) ∧ s'.Kept ∧
      Simulates (.unregisterFd fd) s s' st := by
  rcases fd_cases fd with hinvalid | ⟨n, rfl, hn⟩
  · refine ⟨s, .iargs, ?_, hs, simulates_refused (by decide) (apply_invalid (by exact hinvalid) _)⟩
    simp only [selectorUnregisterFd, registered_invalid s hinvalid]
    rfl
  have hsize : n < s.fds.length := Nat.lt_of_lt_of_le hn hs.size
  have hreg := registered_eq s hn hsize
  cases he : s.entry n with
  | none =>
    refine ⟨s, .iargs, ?_, hs, simulates_refused (by decide) ?_⟩
    · simp only [selectorUnregisterFd, hreg, he]
      rfl
    · rw [apply_valid rfl hn, registry, he]
      rfl
  | some item =>
    obtain ⟨hok, hlength, -, -, hself, -⟩ := release_spec hs.ok he
    refine ⟨s.release n item, .success, ?_, ⟨hok, hlength ▸ hs.size, ?_⟩,
      simulates_done hs.ok hok rfl hn ?_ fun m hm => List.getElem?_set_ne (Ne.symm hm)⟩
    · simp only [selectorUnregisterFd, hreg, he]
      rfl
    · exact itemsMaxFd_used (s := (itemsUpdateFdsetForFd s { item with interest := opNoop }).setItem
        n {}) fun h => hok.fd_eq h
    · simp only [registry, he, hself, Option.map_none, Option.map_some]
      rfl

theorem setInterest_simulates {s : Selector η δ} (hs : s.Kept) (fd : Int) (i : Interest) :
    ∃ s' st, selectorSetInterest s fd i = .ok (s', st) ∧ s'.Kept ∧
      Simulates (.setInterest fd i) s s' st := by
  rcases fd_cases fd with hinvalid | ⟨n, rfl, hn⟩
  · exact ⟨s, .iargs, setInterest_unregistered (registered_invalid s hinvalid) i, hs,
      simulates_refused (by decide) (apply_invalid (by exact hinvalid) _)⟩
  have hsize : n < s.fds.length := Nat.lt_of_lt_of_le hn hs.size
  have hreg := registered_eq s hn hsize
  cases he : s.entry n with
  | none =>
    refine ⟨s, .iargs, setInterest_unregistered (hreg.trans (by rw [he])) i, hs,
      simulates_refused (by decide) ?_⟩
    rw [apply_valid rfl hn, registry, he]
    rfl
  | some item =>
    obtain ⟨s', hs', hok, hlength, -, hmax, -, hself, hother⟩ := setInterest_spec hs.ok he i
    have hitems : ∀ m, m ≠ n → s'.fds[m]? = s.fds[m]? := by
      intro m hm
      simp only [selectorSetInterest, hreg, he] at hs'
      cases hs'
      exact List.getElem?_set_ne (Ne.symm hm)
    refine ⟨s', .success, hs', ⟨hok, hlength ▸ hs.size, ?_⟩,
      simulates_done hs.ok hok rfl hn ?_ hitems⟩
    · unfold MaxUsed
      rw [hmax]
      rcases hs.maxUsed with h0 | h
      · exact .inl h0
      · by_cases hne : s.maxFd = n
        · rw [hne, hself]
          exact .inr rfl
        · rw [hother _ hne]
          exact .inr h
    · simp only [registry, he, hself, Option.map_some]
      rfl

theorem exec_simulates {s : Selector η δ} (hs : s.Kept) (alloc : Bool) (call : TableCall η δ) :
    ∃ s' st, call.exec alloc s = .ok (s', st) ∧ s'.Kept ∧ Simulates call s s' st := by
  cases call with
  | register fd handler interest data =>
    cases handler with
    | none =>
      refine ⟨s, .iargs, rfl, hs, simulates_refused (by decide) ?_⟩
      rcases fd_cases fd with hinvalid | ⟨n, rfl, hn⟩
      · exact apply_invalid (by exact hinvalid) _
      · rw [apply_valid rfl hn]
        cases s.registry n <;> rfl
    | some handler => exact register_simulates hs alloc fd handler interest data
  | unregisterFd fd => exact unregister_simulates hs fd
  | setInterest fd interest => exact setInterest_simulates hs fd interest
  | setInterestKey fd interest =>
    obtain ⟨s', st, hexec, hkept, hsim⟩ := setInterest_simulates hs fd interest
    -- the checks of `selector_set_interest_key` are those of the function it calls
    have happly : ∀ m : Registry η δ, (TableCall.setInterestKey fd interest).apply m =
        (TableCall.setInterest (η := η) (δ := δ) fd interest).apply m := by
      intro m
      have hchange : ∀ r, (TableCall.setInterestKey fd interest).change r =
          (TableCall.setInterest (η := η) (δ := δ) fd interest).change r := by
        intro r
        cases r <;> rfl
      simp only [TableCall.apply, TableCall.fd, hchange]
      rfl
    refine ⟨s', st, ?_, hkept, ⟨fun h => ?_, fun h => ?_⟩⟩
    · simp only [TableCall.exec]
      split
      · rename_i hinvalid
        rw [setInterest_unregistered (registered_invalid s hinvalid)] at hexec
        exact hexec
      · exact hexec
    · exact happly s.registry ▸ hsim.success h
    · exact happly s.registry ▸ hsim.failure h

-- ---------------------------------------------------------------------------
-- Any sequence of calls
-- ---------------------------------------------------------------------------

theorem execs_kept (alloc : Bool) (calls : List (TableCall η δ)) {s : Selector η δ} (hs : s.Kept) :
    ∃ s', TableCall.execs alloc s calls = .ok s' ∧ s'.Kept := by
  induction calls generalizing s with
  | nil => exact ⟨s, rfl, hs⟩
  | cons call calls ih =>
    obtain ⟨s₁, st, hexec, hkept, -⟩ := exec_simulates hs alloc call
    obtain ⟨s', hexecs, hkept'⟩ := ih hkept
    refine ⟨s', ?_, hkept'⟩
    simp only [TableCall.execs, hexec]
    exact hexecs

theorem selectorNew_eq (n : Nat) (hn : n ≤ itemsMaxSize) :
    selectorNew true n = some ({ fds := List.replicate (nextCapacity n) {} } : Selector η δ) := by
  simp only [selectorNew, ensureCapacity, List.length_nil, Nat.not_lt_zero, ↓reduceIte, gt_iff_lt,
    Nat.not_lt.mpr hn, Nat.sub_zero, List.nil_append]

/-- The selector of `main` and any calls: no access is out of bounds, the table
is faithful after them, and so is whatever call comes next. -/
theorem selector_refines_registry (alloc : Bool) (calls : List (TableCall η δ)) :
    ∃ s₀ s, selectorNew true 1024 = some s₀ ∧ TableCall.execs alloc s₀ calls = .ok s ∧
      s.Faithful ∧ ∀ call : TableCall η δ, ∃ s' st,
        call.exec alloc s = .ok (s', st) ∧ Simulates call s s' st := by
  have hcapacity : nextCapacity 1024 = 1025 := by
    simp [nextCapacity, shiftCount, itemsMaxSize, fdSetSize]
  have hnew := selectorNew_eq (η := η) (δ := δ) 1024 (Nat.le_refl _)
  rw [hcapacity] at hnew
  have hkept : ({ fds := List.replicate 1025 {} } : Selector η δ).Kept := by
    refine ⟨ok_empty 1025, ?_, .inl rfl⟩
    rw [List.length_replicate]
    decide
  obtain ⟨s, hexecs, hs⟩ := execs_kept alloc calls hkept
  refine ⟨_, s, hnew, hexecs, faithful_of_ok hs.ok hs.maxUsed, fun call => ?_⟩
  obtain ⟨s', st, hexec, -, hsim⟩ := exec_simulates hs alloc call
  exact ⟨s', st, hexec, hsim⟩

end Selector

end Socks5d
