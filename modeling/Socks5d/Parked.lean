import Socks5d.Runs

/-!
# Structs out of use

A struct whose last reference goes is put in the pool, or is freed with its
list of addresses when the pool is full. `Parked` says where such a struct and
its list are; every call of a handler keeps it, so every event does.
-/

namespace Socks5d

def Socks5.held (s : Socks5) : List (List AddrInfo) :=
  if s.originResolution = [] then [] else [s.originResolution]

theorem Socks5.held_nil {s : Socks5} (h : s.originResolution = []) : s.held = [] := if_pos h

namespace World

open Lib (bind_ok)

/-- What `socks5_destroy_` gave to `freeaddrinfo` for the struct `c`. -/
def freedOf (w : World) (c : ConnId) : List (List AddrInfo) :=
  (w.freed.filter (·.1 = c)).map (·.2)

structure Parked (full : Prop) (w : World) : Prop where
  size : full → maxPool ≤ w.poolSize
  unused : ∀ {c}, (∀ s, w.conns c ≠ some ⟨s, false⟩) → w.freedOf c = []
  released : ∀ {c s}, w.conns c = some ⟨s, false⟩ →
    w.freedOf c = s.held ∨ ¬ full ∧ w.freedOf c = []
  pooled : ∀ {c}, c ∈ w.pool → ∃ s, w.conns c = some ⟨s, false⟩ ∧ w.freedOf c = [] ∧
    (full → s.originResolution = [])

variable {full : Prop} {w w' : World} {c : ConnId}

theorem Initial.parked (h : w.Initial) : Parked False w where
  size := False.elim
  unused _ := by rw [freedOf, h.freed]; rfl
  released hc := by rw [h.conns] at hc; cases hc
  pooled hc := by rw [h.pool.1] at hc; cases hc

namespace Parked

theorem congr (h : w.Parked full) (hconns : w'.conns = w.conns) (hpool : w'.pool = w.pool)
    (hsize : w'.poolSize = w.poolSize) (hfreed : w'.freed = w.freed) : w'.Parked full := by
  have hfreed' (c : ConnId) : w'.freedOf c = w.freedOf c := by rw [freedOf, hfreed, freedOf]
  refine ⟨fun hf => hsize ▸ h.size hf, fun hc => ?_, fun hc => ?_, fun hc => ?_⟩
  · rw [hfreed']
    exact h.unused (hconns ▸ hc)
  · rw [hfreed']
    exact h.released (hconns ▸ hc)
  · obtain ⟨s, hs, hnone, hlist⟩ := h.pooled (hpool ▸ hc)
    exact ⟨s, hconns ▸ hs, (hfreed' _).trans hnone, hlist⟩

theorem freedOf_eq (h : w.Parked full) {s : Socks5} (hc : w.conns c = some ⟨s, false⟩)
    (hlist : s.originResolution = []) : w.freedOf c = s.held := by
  rcases h.released hc with hfreed | ⟨-, hfreed⟩
  · exact hfreed
  · exact hfreed.trans (Socks5.held_nil hlist).symm

theorem fill (h : w.Parked False) (hsize : maxPool ≤ w.poolSize)
    (hlists : ∀ {c s}, w.conns c = some ⟨s, false⟩ → s.originResolution = []) : w.Parked True := by
  refine ⟨fun _ => hsize, h.unused, fun hc => .inl (h.freedOf_eq hc (hlists hc)), fun hc => ?_⟩
  obtain ⟨s, hs, hfreed, -⟩ := h.pooled hc
  exact ⟨s, hs, hfreed, fun _ => hlists hs⟩

theorem setConn (h : w.Parked full) (hc : ∀ s, w.conns c ≠ some ⟨s, false⟩) (s : Socks5)
    (hconns : w'.conns = Function.update w.conns c (some ⟨s, true⟩))
    (hpool : ∀ c, c ∈ w'.pool → c ∈ w.pool) (hsize : w'.poolSize = w.poolSize)
    (hfreed : w'.freed = w.freed) : w'.Parked full := by
  have hfreed' (c : ConnId) : w'.freedOf c = w.freedOf c := by rw [freedOf, hfreed, freedOf]
  have hothers {c' : ConnId} (hne : c' ≠ c) : w'.conns c' = w.conns c' := by
    rw [hconns, Function.update_of_ne hne]
  have hself : w'.conns c = some ⟨s, true⟩ := by rw [hconns, Function.update_self]
  refine ⟨fun hf => hsize ▸ h.size hf, fun {c'} hc' => ?_, fun {c' s'} hc' => ?_, fun {c'} hc' => ?_⟩
  · rw [hfreed']
    by_cases hne : c' = c
    · exact hne ▸ h.unused hc
    · exact h.unused (hothers hne ▸ hc')
  · rw [hfreed']
    by_cases hne : c' = c
    · rw [hne, hself] at hc'
      cases hc'
    · exact h.released (hothers hne ▸ hc')
  · obtain ⟨s', hs', hnone, hlist⟩ := h.pooled (hpool c' hc')
    have hne : c' ≠ c := fun heq => hc s' (heq ▸ hs')
    exact ⟨s', (hothers hne).trans hs', (hfreed' c').trans hnone, hlist⟩

/-- A struct goes out of use: it enters the pool with its list, or `lists` is freed. -/
theorem release (h : w.Parked full) {s : Socks5} (lists : List (List AddrInfo))
    (hc : w.conns c = some ⟨s, true⟩)
    (hconns : w'.conns = Function.update w.conns c (some ⟨s, false⟩))
    (hsize : full → maxPool ≤ w'.poolSize)
    (hfreed : ∀ c', w'.freedOf c' = w.freedOf c' ++ if c' = c then lists else [])
    (hlists : lists = s.held ∨ ¬ full ∧ lists = [])
    (hpool : ∀ c' ∈ w'.pool, c' ∈ w.pool ∨ c' = c ∧ ¬ full ∧ lists = []) : w'.Parked full := by
  have hlive (s' : Socks5) : w.conns c ≠ some ⟨s', false⟩ := by simp [hc]
  have hothers {c' : ConnId} (hne : c' ≠ c) : w'.conns c' = w.conns c' := by
    rw [hconns, Function.update_of_ne hne]
  have hself : w'.conns c = some ⟨s, false⟩ := by rw [hconns, Function.update_self]
  have hfreed_self : w'.freedOf c = lists := by
    rw [hfreed, h.unused hlive, if_pos rfl, List.nil_append]
  have hfreed_other {c' : ConnId} (hne : c' ≠ c) : w'.freedOf c' = w.freedOf c' := by
    rw [hfreed, if_neg hne, List.append_nil]
  refine ⟨hsize, fun {c'} hc' => ?_, fun {c' s'} hc' => ?_, fun {c'} hc' => ?_⟩
  · have hne : c' ≠ c := fun heq => hc' s (heq ▸ hself)
    exact (hfreed_other hne).trans (h.unused (hothers hne ▸ hc'))
  · by_cases hne : c' = c
    · subst hne
      obtain rfl : s = s' := by simpa using hself.symm.trans hc'
      rw [hfreed_self]
      exact hlists
    · rw [hfreed_other hne]
      exact h.released (hothers hne ▸ hc')
  · rcases hpool c' hc' with hmem | ⟨rfl, hnot, hnil⟩
    · obtain ⟨s', hs', hnone, hlist⟩ := h.pooled hmem
      have hne : c' ≠ c := fun heq => hlive s' (heq ▸ hs')
      exact ⟨s', (hothers hne).trans hs', (hfreed_other hne).trans hnone, hlist⟩
    · exact ⟨s, hself, hfreed_self.trans hnil, fun hf => absurd hf hnot⟩

end Parked

theorem openFile_ok {n : Nat} {owner : Owner} (ho : w.openFile n owner = .ok w') :
    w' = { w with files := Function.update w.files n (some owner) } := by
  unfold openFile at ho
  split at ho
  · exact (Except.ok.inj ho).symm
  · cases ho

theorem deref_ok {s : Socks5} (hs : w.deref c = .ok s) : w.conns c = some ⟨s, true⟩ := by
  unfold deref at hs
  split at hs
  · cases hs
    assumption
  · cases hs

theorem freedOf_destroyed (w : World) (c : ConnId) (s : Socks5) (c' : ConnId) :
    (w.socks5Destroy_ c s).freedOf c' = w.freedOf c' ++ if c' = c then s.held else [] := by
  unfold socks5Destroy_ Socks5.held
  by_cases hlist : s.originResolution = []
  · rw [if_neg (not_not.mpr hlist), if_pos hlist, ite_self, List.append_nil]
  · rw [if_pos hlist, if_neg hlist]
    simp only [freedOf, List.filter_append, List.map_append]
    by_cases hc : c' = c
    · simp [hc]
    · simp [hc, Ne.symm hc]

/-- `socks5_destroy`: a reference goes, or the struct does. -/
theorem Parked.destroy (h : w.Parked full) (hd : w.socks5Destroy c = .ok w') : w'.Parked full := by
  obtain ⟨s, hs, hd⟩ := bind_ok hd
  have hc := deref_ok hs
  by_cases hrefs : s.references = 1
  · rw [if_pos hrefs] at hd
    obtain rfl := Except.ok.inj hd
    by_cases hroom : w.poolSize < maxPool
    · -- the struct enters the pool
      have hnot : ¬ full := fun hf => absurd (h.size hf) (Nat.not_le.mpr hroom)
      have hroom' : (w.setConn c ⟨s, false⟩).poolSize < maxPool := hroom
      rw [if_pos hroom']
      refine h.release [] hc rfl (fun hf => absurd hf hnot) (fun c' => ?_) (.inr ⟨hnot, rfl⟩)
        fun c' hc' => ?_
      · rw [ite_self, List.append_nil]
        rfl
      · exact (List.mem_cons.mp hc').symm.imp_right fun heq => ⟨heq, hnot, rfl⟩
    · -- the struct is freed
      have hroom' : ¬ (w.setConn c ⟨s, false⟩).poolSize < maxPool := hroom
      rw [if_neg hroom']
      obtain ⟨freed, hfreed⟩ := destroyed_eq (w.setConn c ⟨s, false⟩) c s
      have hlists := freedOf_destroyed (w.setConn c ⟨s, false⟩) c s
      rw [hfreed] at hlists ⊢
      exact h.release _ hc rfl h.size hlists (.inl rfl) fun c' hc' => .inl hc'
  · rw [if_neg hrefs] at hd
    cases hd
    exact h.setConn (by simp [hc]) _ rfl (fun _ hc => hc) rfl rfl

theorem Parked.unregister (h : w.Parked full) {fd : Int} {st : SelectorStatus}
    (hu : w.unregister fd = .ok (w', st)) : w'.Parked full := by
  obtain ⟨item, -, hu⟩ := bind_ok hu
  cases item with
  | none =>
    cases hu
    exact h
  | some item =>
    obtain ⟨w₁, hclose, hu⟩ := bind_ok hu
    cases hu
    have hparked : w₁.Parked full := by
      unfold handleClose at hclose
      split at hclose
      · exact h.destroy hclose
      · exact Except.ok.inj hclose ▸ h
      · exact Except.ok.inj hclose ▸ h
      · cases hclose
    exact hparked.congr rfl rfl rfl rfl

theorem Parked.close (h : w.Parked full) (fd : Int) : (w.close fd).Parked full := by
  unfold World.close
  split
  · exact h
  · exact h.congr rfl rfl rfl rfl

theorem Parked.exec (h : w.Parked full) {io : Io} (o : Call) (r : o.Answer)
    (he : World.exec io c o w = .ok (w', r)) : w'.Parked full := by
  cases o with
  | attachment =>
    obtain ⟨s, -, he⟩ := bind_ok he
    cases he
    exact h
  | update f =>
    obtain ⟨s, hs, he⟩ := bind_ok he
    cases he
    exact h.setConn (by simp [deref_ok hs]) _ rfl (fun _ hc => hc) rfl rfl
  | globals | setGlobals | answers | spawn =>
    cases he
    exact h.congr rfl rfl rfl rfl
  | socket =>
    simp only [World.exec] at he
    split at he
    · cases he
      exact h
    · obtain ⟨w₁, hopen, he⟩ := bind_ok he
      cases he
      rw [openFile_ok hopen]
      exact h.congr rfl rfl rfl rfl
  | close fd =>
    cases he
    exact h.close fd
  | register fd interest =>
    obtain ⟨_, -, he⟩ := bind_ok he
    cases he
    exact h.congr rfl rfl rfl rfl
  | unregister fd => exact h.unregister he
  | setInterest fd interest =>
    obtain ⟨_, -, he⟩ := bind_ok he
    cases he
    exact h.congr rfl rfl rfl rfl
  | fail f => cases he

theorem Parked.handle (h : w.Parked full) {io : Io} {p : Handler Unit}
    (hp : w.handle io c p = .ok w') : w'.Parked full := by
  unfold World.handle at hp
  cases hrun : p.run (World.exec io c) w with
  | error f =>
    rw [hrun] at hp
    cases hp
  | ok r =>
    rw [hrun] at hp
    cases hp
    exact p.run_keeps (I := Parked full) (fun o s s' r hs he => hs.exec o r he) h hrun

theorem Parked.socks5New (h : w.Parked full) (hc : w.conns w.allocated = none) {malloc : Bool}
    {fd : Nat} {addr : SockAddr} (hn : w.socks5New malloc fd addr = some (w', c)) :
    w'.Parked full := by
  unfold World.socks5New at hn
  split at hn
  · cases hn
  · cases hn
    exact h.setConn (by simp [hc]) _ rfl (fun _ hmem => List.mem_of_mem_tail hmem) rfl rfl

theorem Parked.accept (h : w.Parked full) (hc : w.conns w.allocated = none) {a : Accept}
    (ha : w.passiveAccept a = .ok w') : w'.Parked full := by
  unfold passiveAccept at ha
  split at ha
  · cases ha
    exact h
  · rename_i client addr _
    obtain ⟨w₁, hopen, ha⟩ := bind_ok ha
    rw [openFile_ok hopen] at ha
    have hopened : ({ w with files := Function.update w.files client (some (.conn w.allocated)) } :
        World).Parked full := h.congr rfl rfl rfl rfl
    split at ha
    · cases ha
      exact hopened.close client
    · split at ha
      · cases ha
        exact hopened.close client
      · rename_i w₂ c hnew
        have hnewed := hopened.socks5New hc hnew
        obtain ⟨⟨sel, st⟩, -, ha⟩ := bind_ok ha
        have hregistered : ({ w₂ with sel } : World).Parked full := hnewed.congr rfl rfl rfl rfl
        dsimp only at ha
        split at ha
        · cases ha
          exact hregistered
        · exact (hregistered.close client).destroy ha

theorem Parked.step (h : w.Parked full) (hc : w.conns w.allocated = none) {e : Event}
    (hs : w.step e = some (.ok w')) : w'.Parked full := by
  cases e with
  | ready fd write io =>
    cases ht : w.target fd write with
    | none => simp [World.step, ht] at hs
    | some item =>
      simp only [World.step, ht, Option.bind_eq_bind, Option.bind_some] at hs
      split at hs
      · exact h.handle (Option.some.inj hs)
      · cases hs
  | accept fd a => exact h.accept hc (step_accept hs)
  | resolved key answer io =>
    simp only [World.step] at hs
    split at hs
    · have hjoined : (w.joined key).Parked full := h.congr rfl rfl rfl rfl
      obtain ⟨w₁, hstore, hs⟩ := bind_ok (Option.some.inj hs)
      have hstored : w₁.Parked full := hjoined.handle hstore
      obtain ⟨item, -, hs⟩ := bind_ok hs
      split at hs
      · cases hs
        exact hstored
      · split at hs
        · exact hstored.handle hs
        · cases hs
    · cases hs
  | registerUser | unregisterUser | toggleDisector =>
    cases hs
    exact h.congr rfl rfl rfl rfl

end World

end Socks5d
