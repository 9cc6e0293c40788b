import Socks5d.References
import Socks5d.Resolutions

/-!
# server.c: what `finally` releases

`selector_destroy` takes every item out, and with the last item of a connection
its struct goes to the pool or is freed; `socksv5_pool_destroy` frees what waits in
the pool. No struct is there twice, and none that was freed before, so none is freed
twice; and every list of `getaddrinfo` that is not lost yet is freed
(`shutdown_releases`).
-/

namespace Socks5d

namespace World

open Lib (bind_ok)

variable {w₀ w w' : World} {c : ConnId}

/-- `socksv5_pool_destroy`. The variable `pool` keeps its value. -/
def poolDestroy (w : World) : World :=
  w.pool.foldl (fun w c => (w.conns c).elim w fun conn => w.socks5Destroy_ c conn.s) w

/-- The connections' part of `finally`. -/
def shutdown (w : World) : Except Fault World := do return (← w.selectorDestroy).poolDestroy

/-- The list of a struct was lost: the struct left the pool with it, to be used again. -/
def Lost (w : World) (c : ConnId) : Prop :=
  c ∉ w.pool ∧ w.freedOf c = [] ∧ ∃ s, w.conns c = some ⟨s, false⟩ ∧ s.originResolution ≠ []

-- ---------------------------------------------------------------------------
-- What every use of the structs keeps
-- ---------------------------------------------------------------------------

structure DropRules (I : World → Prop) : Prop where
  congr {w w' : World} (h : I w) (hconns : w'.conns = w.conns) (hpool : w'.pool = w.pool)
    (hsize : w'.poolSize = w.poolSize) (hfreed : w'.freed = w.freed) : I w'
  destroy {w w' : World} {c : ConnId} (h : I w) (hd : w.socks5Destroy c = .ok w') : I w'

structure StructRules (I : World → Prop) : Prop extends DropRules I where
  update {w : World} {c : ConnId} {s : Socks5} (s' : Socks5) (h : I w)
    (hc : w.conns c = some ⟨s, true⟩) : I (w.setConn c ⟨s', true⟩)
  new {w w' : World} {c : ConnId} {malloc : Bool} {fd : Nat} {addr : SockAddr} (h : I w)
    (hc : w.conns w.allocated = none) (hn : w.socks5New malloc fd addr = some (w', c)) : I w'

variable {I : World → Prop}

theorem DropRules.unregister (hI : DropRules I) (h : I w) {fd : Int} {st : SelectorStatus}
    (hu : w.unregister fd = .ok (w', st)) : I w' := by
  obtain ⟨item, -, hu⟩ := bind_ok hu
  cases item with
  | none =>
    cases hu
    exact h
  | some item =>
    obtain ⟨w₁, hclose, hu⟩ := bind_ok hu
    cases hu
    have h₁ : I w₁ := by
      unfold handleClose at hclose
      split at hclose
      · exact hI.destroy h hclose
      · exact Except.ok.inj hclose ▸ h
      · exact Except.ok.inj hclose ▸ h
      · cases hclose
    exact hI.congr h₁ rfl rfl rfl rfl

theorem DropRules.destroyItems (hI : DropRules I) (h : I w) {items : List Nat}
    (hd : items.foldlM World.destroyItem w = .ok w') : I w' := by
  induction items generalizing w with
  | nil =>
    cases hd
    exact h
  | cons n items ih =>
    rw [List.foldlM_cons] at hd
    obtain ⟨w₁, hitem, hd⟩ := bind_ok hd
    refine ih ?_ hd
    obtain ⟨item, -, hitem⟩ := bind_ok hitem
    split at hitem
    · obtain ⟨⟨w₂, st⟩, hrun, hitem⟩ := bind_ok hitem
      cases hitem
      exact hI.unregister h hrun
    · cases hitem
      exact h

namespace StructRules

theorem close (hI : StructRules I) (h : I w) (fd : Int) : I (w.close fd) := by
  unfold World.close
  split
  · exact h
  · exact hI.congr h rfl rfl rfl rfl

theorem exec (hI : StructRules I) (h : I w) {io : Io} (o : Call) (r : o.Answer)
    (he : World.exec io c o w = .ok (w', r)) : I w' := by
  cases o with
  | attachment =>
    obtain ⟨s, -, he⟩ := bind_ok he
    cases he
    exact h
  | update f =>
    obtain ⟨s, hs, he⟩ := bind_ok he
    cases he
    exact hI.update _ h (deref_ok hs)
  | globals | setGlobals | answers | spawn =>
    cases he
    exact hI.congr h rfl rfl rfl rfl
  | socket =>
    simp only [World.exec] at he
    split at he
    · cases he
      exact h
    · obtain ⟨w₁, hopen, he⟩ := bind_ok he
      cases he
      rw [openFile_ok hopen]
      exact hI.congr h rfl rfl rfl rfl
  | close fd =>
    cases he
    exact hI.close h fd
  | register | setInterest =>
    obtain ⟨_, -, he⟩ := bind_ok he
    cases he
    exact hI.congr h rfl rfl rfl rfl
  | unregister fd => exact hI.toDropRules.unregister h he
  | fail f => cases he

theorem handle (hI : StructRules I) (h : I w) {io : Io} {p : Handler Unit}
    (hp : w.handle io c p = .ok w') : I w' := by
  unfold World.handle at hp
  cases hrun : p.run (World.exec io c) w with
  | error f =>
    rw [hrun] at hp
    cases hp
  | ok r =>
    rw [hrun] at hp
    cases hp
    exact p.run_keeps (I := I) (fun o s s' r hs he => hI.exec hs o r he) h hrun

theorem accept (hI : StructRules I) (h : I w) (hc : w.conns w.allocated = none) {a : Accept}
    (ha : w.passiveAccept a = .ok w') : I w' := by
  unfold passiveAccept at ha
  split at ha
  · cases ha
    exact h
  · rename_i client addr _
    obtain ⟨w₁, hopen, ha⟩ := bind_ok ha
    rw [openFile_ok hopen] at ha
    have hopened : I { w with files := Function.update w.files client (some (.conn w.allocated)) } :=
      hI.congr h rfl rfl rfl rfl
    split at ha
    · cases ha
      exact hI.close hopened client
    · split at ha
      · cases ha
        exact hI.close hopened client
      · rename_i w₂ c hnew
        obtain ⟨⟨sel, st⟩, -, ha⟩ := bind_ok ha
        have hregistered : I { w₂ with sel } := hI.congr (hI.new hopened hc hnew) rfl rfl rfl rfl
        dsimp only at ha
        split at ha
        · cases ha
          exact hregistered
        · exact hI.destroy (hI.close hregistered client) ha

theorem step (hI : StructRules I) (h : I w) (hc : w.conns w.allocated = none) {e : Event}
    (hs : w.step e = some (.ok w')) : I w' := by
  cases e with
  | ready fd write io =>
    cases ht : w.target fd write with
    | none => simp [World.step, ht] at hs
    | some item =>
      simp only [World.step, ht, Option.bind_eq_bind, Option.bind_some] at hs
      split at hs
      · exact hI.handle h (Option.some.inj hs)
      · cases hs
  | accept fd a => exact hI.accept h hc (step_accept hs)
  | resolved key answer io =>
    simp only [World.step] at hs
    split at hs
    · have hjoined : I (w.joined key) := hI.congr h rfl rfl rfl rfl
      obtain ⟨w₁, hstore, hs⟩ := bind_ok (Option.some.inj hs)
      have hstored : I w₁ := hI.handle hjoined hstore
      obtain ⟨item, -, hs⟩ := bind_ok hs
      split at hs
      · cases hs
        exact hstored
      · split at hs
        · exact hI.handle hstored hs
        · cases hs
    · cases hs
  | registerUser | unregisterUser | toggleDisector =>
    cases hs
    exact hI.congr h rfl rfl rfl rfl

theorem runs (hI : StructRules I) (h₀ : w₀.Initial) (h : Reachable w₀ w) (hstart : I w)
    (hr : Reachable w w') : I w' := by
  induction hr with
  | start => exact hstart
  | next hr _ hs ih => exact hI.step ih (Reachable.unallocated h₀ (h.trans hr)) hs

theorem reachable (hI : StructRules I) (h₀ : w₀.Initial) (hstart : I w₀) (h : Reachable w₀ w) :
    I w := hI.runs h₀ .start hstart h

end StructRules

-- ---------------------------------------------------------------------------
-- The pool
-- ---------------------------------------------------------------------------

/-- What `socks5_destroy` does: a reference goes, or the struct goes to the pool, or
it is freed. -/
inductive Destroyed (w : World) (c : ConnId) : World → Prop
  | reference {s : Socks5} (hc : w.conns c = some ⟨s, true⟩) :
      Destroyed w c (w.setConn c ⟨{ s with references := s.references - 1 }, true⟩)
  | pooled {s : Socks5} (hc : w.conns c = some ⟨s, true⟩) :
      Destroyed w c { w.setConn c ⟨s, false⟩ with pool := c :: w.pool, poolSize := w.poolSize + 1 }
  | freed {s : Socks5} {freed : List (ConnId × List AddrInfo)} (hc : w.conns c = some ⟨s, true⟩)
      (hfreed : ∀ c', World.freedOf { w with freed } c' = w.freedOf c' ++ if c' = c then s.held else []) :
      Destroyed w c { w.setConn c ⟨s, false⟩ with freed }

theorem destroyed_of (h : w.socks5Destroy c = .ok w') : Destroyed w c w' := by
  obtain ⟨s, hs, h⟩ := bind_ok h
  have hc := deref_ok hs
  split at h
  · cases h
    split
    · exact .pooled hc
    · have hlists := freedOf_destroyed (w.setConn c ⟨s, false⟩) c s
      obtain ⟨freed, hfreed⟩ := destroyed_eq (w.setConn c ⟨s, false⟩) c s
      rw [hfreed] at hlists ⊢
      exact .freed hc hlists
  · cases h
    exact .reference hc

structure Stored (w : World) : Prop where
  parked : w.Parked False
  nodup : w.pool.Nodup

theorem Stored.live (h : w.Stored) {s : Socks5} (hc : w.conns c = some ⟨s, true⟩) : c ∉ w.pool := by
  intro hmem
  obtain ⟨s', hs', -⟩ := h.parked.pooled hmem
  cases hc.symm.trans hs'

theorem stored_rules : StructRules Stored where
  congr h hconns hpool hsize hfreed := ⟨h.parked.congr hconns hpool hsize hfreed, hpool ▸ h.nodup⟩
  update s' h hc := ⟨h.parked.setConn (by simp [hc]) s' rfl (fun _ hmem => hmem) rfl rfl, h.nodup⟩
  destroy h hd := by
    refine ⟨h.parked.destroy hd, ?_⟩
    cases destroyed_of hd with
    | reference hc => exact h.nodup
    | pooled hc => exact List.nodup_cons.mpr ⟨h.live hc, h.nodup⟩
    | freed hc hfreed => exact h.nodup
  new h hc hn := by
    refine ⟨h.parked.socks5New hc hn, ?_⟩
    unfold socks5New at hn
    split at hn
    · cases hn
    · cases hn
      exact h.nodup.tail

theorem Reachable.stored (h₀ : w₀.Initial) (h : Reachable w₀ w) : w.Stored :=
  stored_rules.reachable h₀ ⟨h₀.parked, h₀.pool.1 ▸ List.nodup_nil⟩ h

/-- The struct is out of use and not in the pool: it was freed, or left the pool to
be used again. -/
def Gone (w : World) (c : ConnId) : Prop := (∃ s, w.conns c = some ⟨s, false⟩) ∧ c ∉ w.pool

theorem Gone.setConn (h : w.Gone c) {c' : ConnId} {s : Socks5} (hc : w.conns c' = some ⟨s, true⟩)
    (conn : Conn) : c ≠ c' ∧ (w.setConn c' conn).Gone c := by
  obtain ⟨⟨s₁, hc₁⟩, hmem⟩ := h
  have hne : c ≠ c' := by
    rintro rfl
    cases hc.symm.trans hc₁
  exact ⟨hne, ⟨s₁, (Function.update_of_ne hne ..).trans hc₁⟩, hmem⟩

theorem gone_rules (c : ConnId) : StructRules (Gone · c) where
  congr h hconns hpool _ _ := ⟨hconns ▸ h.1, hpool ▸ h.2⟩
  update s' h hc := (h.setConn hc ⟨s', true⟩).2
  destroy {w w' c'} h hd := by
    cases destroyed_of hd with
    | reference hc => exact (h.setConn hc _).2
    | @pooled s hc =>
      obtain ⟨hne, hdead, hmem⟩ := h.setConn hc ⟨s, false⟩
      exact ⟨hdead, List.not_mem_cons_of_ne_of_not_mem hne hmem⟩
    | @freed s freed hc hfreed => exact (h.setConn hc ⟨s, false⟩).2
  new {w w' c' malloc fd addr} h hfree hn := by
    obtain ⟨⟨s₁, hc₁⟩, hmem⟩ := h
    unfold socks5New at hn
    split at hn
    · cases hn
    · cases hn
      have hne : c ≠ w.allocated := by
        rintro rfl
        cases hfree.symm.trans hc₁
      exact ⟨⟨s₁, (Function.update_of_ne hne ..).trans hc₁⟩,
        fun ht => hmem (List.mem_of_mem_tail ht)⟩

-- ---------------------------------------------------------------------------
-- selector_destroy
-- ---------------------------------------------------------------------------

structure Dropped (w w' : World) : Prop where
  stored : w'.Stored
  none : ∀ c, w.conns c = none → w'.conns c = none
  same : ∀ {c conn}, w.conns c = some conn → ∃ conn', w'.conns c = some conn' ∧
    conn'.s.log = conn.s.log ∧ conn'.s.originResolution = conn.s.originResolution
  lost : ∀ c, w'.Lost c ↔ w.Lost c

theorem Destroyed.conns (h : Destroyed w c w') : ∃ s s' live, w.conns c = some ⟨s, true⟩ ∧
    w'.conns = Function.update w.conns c (some ⟨s', live⟩) ∧ s'.log = s.log ∧
    s'.originResolution = s.originResolution := by
  cases h with
  | reference hc => exact ⟨_, _, true, hc, rfl, rfl, rfl⟩
  | pooled hc => exact ⟨_, _, false, hc, rfl, rfl, rfl⟩
  | freed hc hfreed => exact ⟨_, _, false, hc, rfl, rfl, rfl⟩

theorem not_lost_of_live {s : Socks5} (hc : w.conns c = some ⟨s, true⟩) : ¬ w.Lost c := by
  rintro ⟨-, -, s', hs', -⟩
  cases hc.symm.trans hs'

theorem Destroyed.not_lost (hd : Destroyed w c w') : ¬ w'.Lost c := by
  have hself (conn : Conn) : (w.setConn c conn).conns c = some conn := Function.update_self ..
  cases hd with
  | reference hc => exact not_lost_of_live (hself _)
  | pooled hc =>
    rintro ⟨hnot, -⟩
    exact hnot List.mem_cons_self
  | freed hc hfreed =>
    rintro ⟨-, hnone, s', hs', hlist⟩
    cases (hself _).symm.trans hs'
    have hheld := (hfreed c).symm.trans hnone
    rw [if_pos rfl, Socks5.held, if_neg hlist] at hheld
    exact List.cons_ne_nil _ _ (List.append_eq_nil_iff.mp hheld).2

theorem Destroyed.lost_iff (hd : Destroyed w c w') (c' : ConnId) :
    w'.Lost c' ↔ w.Lost c' := by
  by_cases hne : c' = c
  · subst hne
    obtain ⟨s, s', live, hc, -⟩ := hd.conns
    exact iff_of_false hd.not_lost (not_lost_of_live hc)
  · have hother {conn : Conn} : (w.setConn c conn).conns c' = w.conns c' :=
      Function.update_of_ne hne ..
    cases hd with
    | reference hc =>
      simp only [Lost, hother]
      rfl
    | pooled hc =>
      simp only [Lost, hother, List.mem_cons, hne, false_or]
      rfl
    | freed hc hfreed =>
      have hsame := hfreed c'
      rw [if_neg hne, List.append_nil] at hsame
      simp only [Lost, hother]
      rw [← hsame]
      rfl

theorem dropped_rules : DropRules (Dropped w) where
  congr h hconns hpool hsize hfreed := by
    refine ⟨stored_rules.congr h.stored hconns hpool hsize hfreed, ?_, ?_, ?_⟩
    · intro c hc
      rw [hconns]
      exact h.none c hc
    · intro c conn hc
      rw [hconns]
      exact h.same hc
    · intro c
      rw [← h.lost, Lost, Lost, hconns, hpool, freedOf, freedOf, hfreed]
  destroy {w₁ w₂ c} h hd := by
    have hdestroyed := destroyed_of hd
    obtain ⟨s, s', live, hc, hconns, hlog, hlist⟩ := hdestroyed.conns
    refine ⟨stored_rules.destroy h.stored hd, ?_, ?_, ?_⟩
    · intro c' hc'
      have hnone := h.none c' hc'
      rw [hconns, Function.update_of_ne ?_, hnone]
      rintro rfl
      cases hc.symm.trans hnone
    · intro c' conn hc'
      obtain ⟨conn₁, hconn₁, hlog₁, hlist₁⟩ := h.same hc'
      rw [hconns]
      by_cases hne : c' = c
      · subst hne
        cases hc.symm.trans hconn₁
        exact ⟨⟨s', live⟩, Function.update_self .., hlog.trans hlog₁, hlist.trans hlist₁⟩
      · exact ⟨conn₁, (Function.update_of_ne hne ..).trans hconn₁, hlog₁, hlist₁⟩
    · intro c'
      rw [hdestroyed.lost_iff, h.lost]

-- ---------------------------------------------------------------------------
-- socksv5_pool_destroy
-- ---------------------------------------------------------------------------

theorem freedOf_poolDestroy {l : List ConnId} (hl : l.Nodup) (w : World) :
    ∃ freed, l.foldl (fun w c => (w.conns c).elim w fun conn => w.socks5Destroy_ c conn.s) w =
        { w with freed } ∧
      ∀ c conn, w.conns c = some conn → World.freedOf { w with freed } c =
        w.freedOf c ++ if c ∈ l then conn.s.held else [] := by
  induction l generalizing w with
  | nil =>
    refine ⟨w.freed, rfl, ?_⟩
    intro c conn _
    exact (List.append_nil _).symm
  | cons a l ih =>
    obtain ⟨hnot, hl⟩ := List.nodup_cons.mp hl
    rw [List.foldl_cons]
    cases ha : w.conns a with
    | none =>
      obtain ⟨freed, hrun, hall⟩ := ih hl w
      refine ⟨freed, hrun, ?_⟩
      intro c conn hc
      have hne : c ≠ a := by
        rintro rfl
        cases ha.symm.trans hc
      simp only [hall c conn hc, List.mem_cons, hne, false_or]
    | some conn =>
      obtain ⟨freed₁, hfreed₁⟩ := destroyed_eq w a conn.s
      have hlists := freedOf_destroyed w a conn.s
      rw [hfreed₁] at hlists
      obtain ⟨freed, hrun, hall⟩ := ih hl { w with freed := freed₁ }
      simp only [Option.elim_some, hfreed₁]
      refine ⟨freed, hrun, ?_⟩
      intro c conn' hc
      have hfreed := hall c conn' hc
      rw [hlists] at hfreed
      refine hfreed.trans ?_
      by_cases hne : c = a
      · subst hne
        cases ha.symm.trans hc
        simp [hnot]
      · simp [hne]

-- ---------------------------------------------------------------------------
-- The end of every run
-- ---------------------------------------------------------------------------

theorem Stored.dropped (h : w.Stored) : Dropped w w :=
  ⟨h, fun _ hc => hc, fun hc => ⟨_, hc, rfl, rfl⟩, fun _ => Iff.rfl⟩

/-- After the pool a struct out of use was freed with its list, unless the list was lost. -/
theorem Stored.poolDestroy (h : w.Stored) : ∃ freed, w.poolDestroy = { w with freed } ∧
    ∀ c s, w.conns c = some ⟨s, false⟩ →
      (World.freedOf { w with freed } c = s.held ∧ ¬ w.Lost c) ∨
        (World.freedOf { w with freed } c = [] ∧ s.held ≠ [] ∧ w.Lost c) := by
  obtain ⟨freed, hrun, hall⟩ := freedOf_poolDestroy h.nodup w
  refine ⟨freed, hrun, ?_⟩
  intro c s hc
  have hfreed := hall c ⟨s, false⟩ hc
  by_cases hmem : c ∈ w.pool
  · obtain ⟨s', -, hnone, -⟩ := h.parked.pooled hmem
    rw [if_pos hmem, hnone, List.nil_append] at hfreed
    refine .inl ⟨hfreed, ?_⟩
    intro hlost
    exact hlost.1 hmem
  · rw [if_neg hmem, List.append_nil] at hfreed
    by_cases hlost : w.Lost c
    · have ⟨_, hnone, s', hs', hlist⟩ := hlost
      cases hc.symm.trans hs'
      refine .inr ⟨hfreed.trans hnone, ?_, hlost⟩
      rw [Socks5.held, if_neg hlist]
      exact List.cons_ne_nil _ _
    · refine .inl ⟨hfreed.trans ?_, hlost⟩
      rcases h.parked.released hc with hheld | ⟨-, hnone⟩
      · exact hheld
      · by_cases hlist : s.originResolution = []
        · exact hnone.trans (Socks5.held_nil hlist).symm
        · exact (hlost ⟨hmem, hnone, s, hc, hlist⟩).elim

theorem Gone.selectorDestroy {w₁ : World} {k : Nat} (hk : k ≤ w.sel.fds.length)
    (h₁ : (List.range k).foldlM destroyItem w = .ok w₁) (hd : w.selectorDestroy = .ok w')
    (hg : w₁.Gone c) : w'.Gone c := by
  obtain ⟨m, hm⟩ := Nat.exists_eq_add_of_le hk
  rw [World.selectorDestroy, hm, List.range_add, List.foldlM_append, h₁] at hd
  exact (gone_rules c).destroyItems hg hd

/-- At the end of every run `finally` succeeds, and releases every struct. None is in
the pool twice, and none that `socks5_destroy` has freed, in the run or so far in
`selector_destroy`. A list that `getaddrinfo` gave is then freed exactly once, unless
it was lost before; and a thread that is still resolving a name for a struct finds it
released. -/
theorem shutdown_releases (h₀ : w₀.Initial) (h : Reachable w₀ w) :
    ∃ w', w.shutdown = .ok w' ∧ w'.pool.Nodup ∧
      (∀ w₁ c, Reachable w₀ w₁ → Reachable w₁ w → w₁.Gone c → c ∉ w'.pool) ∧
      (∀ k w₁ c, k ≤ w.sel.fds.length → (List.range k).foldlM destroyItem w = .ok w₁ →
        w₁.Gone c → c ∉ w'.pool) ∧
      (∀ c conn, w.conns c = some conn → ∃ s, w'.conns c = some ⟨s, false⟩ ∧ s.log = conn.s.log ∧
        (freedIn s.log ++ w'.freedOf c = resolvedIn s.log ↔ ¬ w.Lost c)) ∧
      ∀ key ∈ w.threads, ∀ answer,
        w'.handle {} key.conn (Handler.requestResolvBlocking answer) = .error .useAfterFree := by
  have hcounted := (h.carries h₀).counted
  obtain ⟨w₁, hrun, hc₁, hempty, -⟩ := hcounted.destroyLoop (Nat.le_refl _)
  have hdropped : Dropped w w₁ := dropped_rules.destroyItems (h.stored h₀).dropped hrun
  obtain ⟨freed, hpool, hlists⟩ := hdropped.stored.poolDestroy
  have hdead {c : ConnId} {s : Socks5} {live : Bool} (hc : w₁.conns c = some ⟨s, live⟩) :
      live = false := by
    cases live with
    | false => rfl
    | true =>
      obtain ⟨n, hn⟩ := List.exists_mem_of_ne_nil _ (hc₁.inUse hc).2
      obtain ⟨item, he, -⟩ := mem_items.mp hn
      have hlt := hc₁.sel.lt he
      rw [hempty n (by rw [hcounted.size]; omega)] at he
      cases he
  have hgone {k : Nat} {w₂ : World} {c : ConnId} (hk : k ≤ w.sel.fds.length)
      (h₂ : (List.range k).foldlM destroyItem w = .ok w₂) (hg : w₂.Gone c) : c ∉ w₁.pool :=
    (hg.selectorDestroy hk h₂ hrun).2
  refine ⟨{ w₁ with freed }, ?_, hdropped.stored.nodup, ?_, fun _ _ _ => hgone, ?_, ?_⟩
  · rw [shutdown, selectorDestroy, hrun]
    exact congrArg Except.ok hpool
  · intro w₂ c h₂ hr hg
    exact hgone (Nat.zero_le _) rfl ((gone_rules c).runs h₀ h₂ hg hr)
  · intro c conn hc
    obtain ⟨⟨s, live⟩, hs, hlog, hlist⟩ := hdropped.same hc
    obtain rfl := hdead hs
    have hheld : s.held = conn.s.held := by
      unfold Socks5.held
      rw [hlist]
    have hbalanced := (balanced h₀ h hc).lists
    rw [← hlog, ← hheld] at hbalanced
    refine ⟨s, hs, hlog, ?_⟩
    rw [← hdropped.lost]
    rcases hlists c s hs with ⟨hfreed, hlost⟩ | ⟨hfreed, hne, hlost⟩
    · rw [hfreed]
      exact iff_of_true hbalanced hlost
    · rw [hfreed, ← hbalanced, List.append_right_inj]
      exact iff_of_false (fun heq => hne heq.symm) (not_not.mpr hlost)
  · intro key _ answer
    have hderef : deref { w₁ with freed } key.conn = .error .useAfterFree := by
      unfold deref
      split
      · rename_i s hs
        cases hdead hs
      · rfl
    have hnote (a : Action) :
        (Handler.note a).run (World.exec {} key.conn) { w₁ with freed } = .error .useAfterFree := by
      rw [Handler.note, Handler.update, Handler.call, Lib.Prog.run_perform, World.exec, hderef]
      rfl
    unfold World.handle Handler.requestResolvBlocking
    rw [Lib.Prog.run_bind, hnote]

/-- A connection asks for a name, another one too, and the first is refused: its
struct waits in the pool with its list. -/
def leftWaiting : List Event :=
  oneAddress econnrefused ++
    [.accept 3 { answer := some (6, {}) },
     .ready 6 false { recv := some [5, 1, 0] },
     .ready 6 true { send := some 2 },
     .ready 6 false { recv := some [5, 1, 0, 3, 1, 0x61, 0, 80] },
     .ready 4 true { send := some 10 }]

theorem shutdown_releases_waiting : ∃ w w' s, Reachable (startUp {}) w ∧ w.shutdown = .ok w' ∧
    w'.conns 0 = some ⟨s, false⟩ ∧ resolvedIn s.log = [[⟨afInet, {}⟩]] ∧
    freedIn s.log ++ w'.freedOf 0 = resolvedIn s.log ∧
    w'.handle {} 1 (Handler.requestResolvBlocking none) = .error .useAfterFree := by
  have hrun : Lib.endsIn (fun w => decide (0 ∈ w.pool ∧ ⟨6, 1⟩ ∈ w.threads) &&
        (w.conns 0).any fun conn => decide (resolvedIn conn.s.log = [[⟨afInet, {}⟩]]))
      (play (Meets anyEvent) (startUp {}) leftWaiting) = true := by decide +kernel
  obtain ⟨w, hplay, hend⟩ := Lib.endsIn_iff.mp hrun
  obtain ⟨hwaits, hconn⟩ := Bool.and_eq_true_iff.mp hend
  obtain ⟨hpool, hthread⟩ := of_decide_eq_true hwaits
  obtain ⟨conn, hc, hresolved⟩ := (Option.any_eq_true ..).mp hconn
  have hreach := Lib.reaches_of_play hplay
  obtain ⟨w', hshutdown, -, -, -, hall, hthreads⟩ :=
    shutdown_releases (startUp_initial (by decide)) hreach
  obtain ⟨s, hs, hlog, hfreed⟩ := hall 0 conn hc
  refine ⟨w, w', s, hreach, hshutdown, hs, ?_, hfreed.mpr fun hlost => hlost.1 hpool,
    hthreads _ hthread none⟩
  rw [hlog]
  exact of_decide_eq_true hresolved

end World

end Socks5d
