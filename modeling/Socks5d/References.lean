import Socks5d.Runs

/-!
# The references of a connection

`references` of a `struct socks5` is the number of items of the selector whose
data it is. The shape of the connections says so between two events
(`Carries.counted`), and `selector_destroy` keeps it while it unregisters one
descriptor after the other (`Counted.destroyItem`).
-/

namespace Socks5d

namespace World

variable {w w' : World} {c : ConnId}

def items (w : World) (c : ConnId) : List Nat :=
  (List.range w.sel.fds.length).filter fun n => (w.sel.entry n).bind (·.data) = some c

theorem mem_items {n : Nat} :
    n ∈ w.items c ↔ ∃ item, w.sel.entry n = some item ∧ item.data = some c := by
  simp only [items, List.mem_filter, List.mem_range, decide_eq_true_eq, Option.bind_eq_some_iff]
  refine ⟨fun h => h.2, fun h => ⟨?_, h⟩⟩
  obtain ⟨item, he, -⟩ := h
  exact (List.getElem?_eq_some_iff.mp (Selector.getElem?_of_entry he)).1

theorem not_mem_items {n : Nat} {item : Item FdHandler ConnId} (he : w.sel.entry n = some item)
    (hd : item.data ≠ some c) : n ∉ w.items c := by
  rw [mem_items]
  rintro ⟨item', he', hd'⟩
  rw [he] at he'
  cases he'
  exact hd hd'

theorem nodup_items : (w.items c).Nodup := List.nodup_range.filter _

/-- The counts agree with the table: a struct in use has as many references as
items, and one at least; a released one has none. -/
structure Counted (w : World) : Prop where
  size : w.sel.fds.length = fdSetSize + 1
  sel : w.sel.Ok
  owners : ∀ {n item}, w.sel.entry n = some item →
    (item.handler = some .passive ∧ item.data = none) ∨
      ∃ c conn, item.handler = some .socks5 ∧ item.data = some c ∧ w.conns c = some conn
  inUse : ∀ {c s}, w.conns c = some ⟨s, true⟩ →
    s.references = (w.items c).length ∧ w.items c ≠ []
  released : ∀ {c s}, w.conns c = some ⟨s, false⟩ → w.items c = []

-- ---------------------------------------------------------------------------
-- Between two events
-- ---------------------------------------------------------------------------

theorem Shows.mem_items (hw : w.Wired) {v : View} (hv : w.Shows c v) {n : Nat} :
    n ∈ w.items c ↔ (v.link n).isWatched = true := by
  rw [World.mem_items, ← hv.link]
  constructor
  · rintro ⟨item, he, hd⟩
    rcases hw.items he with ⟨-, hnone, -⟩ | ⟨c', -, hd', hf⟩
    · rw [hd] at hnone
      cases hnone
    · rw [hd] at hd'
      cases hd'
      rw [World.link, if_pos hf, he]
      rfl
  · intro hlink
    cases hl : w.link c n with
    | closed => simp [hl, Link.isWatched] at hlink
    | opened => simp [hl, Link.isWatched] at hlink
    | watched i =>
      obtain ⟨item, he, -, hd, -⟩ :=
        Rel.entry_watched ⟨hw, hv, SameOthers.refl c w⟩ ((hv.link n).symm.trans hl)
      exact ⟨item, he, hd⟩

theorem Shows.items_perm (hw : w.Wired) {v : View} (hv : w.Shows c v) (hs : v.Shape c) :
    (w.items c).Perm (if v.peer.isWatched then [v.fd, v.peerFd] else [v.fd]) := by
  obtain ⟨i, hi⟩ := hs.client
  have hmem (n : Nat) : n ∈ w.items c ↔ n = v.fd ∨ n = v.peerFd ∧ v.peer.isWatched = true := by
    rw [hv.mem_items hw]
    unfold View.link
    by_cases hn : n = v.fd
    · simp [hn, hi, Link.isWatched]
    · rw [if_neg hn]
      by_cases hp : n = v.peerFd
      · subst hp
        simp [hn]
      · rw [if_neg hp]
        simp [hn, hp, Link.isWatched]
  cases hp : v.peer.isWatched with
  | false =>
    simp only [Bool.false_eq_true, ↓reduceIte]
    rw [List.perm_ext_iff_of_nodup nodup_items (by simp)]
    intro n
    simp [hmem, hp]
  | true =>
    have hne : v.peerFd ≠ v.fd := hs.body.peer_ne fun he => by simp [he, Link.isWatched] at hp
    simp only [↓reduceIte]
    rw [List.perm_ext_iff_of_nodup nodup_items (by simp [Ne.symm hne])]
    intro n
    simp [hmem, hp]

theorem Carries.counted {G : Globals → Prop} {I : ConnId → View → Prop} (h : Carries G I w) :
    w.Counted := by
  have hw := h.wired
  refine ⟨hw.size, hw.sel, fun he => ?_, fun {c s} hc => ?_, fun {c s} hc => ?_⟩
  · rcases hw.items he with ⟨hh, hd, -⟩ | ⟨c, hh, hd, hf⟩
    · exact .inl ⟨hh, hd⟩
    · obtain ⟨v, hv, -, -⟩ := h.views c (hw.files hf)
      exact .inr ⟨c, _, hh, hd, hv.conn⟩
  · obtain ⟨v, hv, hshape, -⟩ := h.views c (hw.lt_allocated hc)
    rw [hv.conn, Option.some.injEq, Conn.mk.injEq] at hc
    obtain ⟨rfl, hlive⟩ := hc
    rcases hshape with hs | he
    · have hperm := hv.items_perm hw hs
      rw [hs.body.references, hperm.length_eq]
      refine ⟨?_, fun hnil => ?_⟩
      · cases v.peer.isWatched <;> rfl
      · rw [hnil] at hperm
        cases hp : v.peer.isWatched <;> rw [hp] at hperm <;> simp at hperm
    · exact absurd he.live (by simp [hlive])
  · obtain ⟨v, hv, hshape, -⟩ := h.views c (hw.lt_allocated hc)
    rw [hv.conn, Option.some.injEq, Conn.mk.injEq] at hc
    rcases hshape with hs | he
    · exact absurd hs.body.live (by simp [hc.2])
    · rw [List.eq_nil_iff_forall_not_mem]
      intro n hn
      rw [hv.mem_items hw] at hn
      simp [View.link, he.client, he.peer, Link.isWatched] at hn

-- ---------------------------------------------------------------------------
-- The end of the process
-- ---------------------------------------------------------------------------

theorem items_release {n : Nat} (hsize : w'.sel.fds.length = w.sel.fds.length)
    (hself : w'.sel.entry n = none) (hother : ∀ m, m ≠ n → w'.sel.entry m = w.sel.entry m)
    (c : ConnId) : w'.items c = (w.items c).erase n := by
  rw [nodup_items.erase_eq_filter, items, items, List.filter_filter, hsize]
  refine List.filter_congr fun m _ => ?_
  by_cases hm : m = n
  · simp [hm, hself]
  · simp [hm, hother m hm]

theorem socks5Destroy_eq {s : Socks5} (hc : w.conns c = some ⟨s, true⟩) :
    ∃ w₁, w.socks5Destroy c = .ok w₁ ∧ w₁.sel = w.sel ∧
      w₁.conns = Function.update w.conns c (some (if s.references = 1 then ⟨s, false⟩
        else ⟨{ s with references := s.references - 1 }, true⟩)) := by
  have hderef : w.deref c = .ok s := by
    unfold deref
    rw [hc]
  unfold socks5Destroy
  rw [hderef]
  simp only [Bind.bind, Except.bind, Pure.pure, Except.pure]
  by_cases hrefs : s.references = 1
  · obtain ⟨freed, hfreed⟩ := destroyed_eq (w.setConn c ⟨s, false⟩) c s
    simp only [hrefs, ↓reduceIte, hfreed]
    refine ⟨_, rfl, ?_, ?_⟩ <;> split <;> rfl
  · simp only [hrefs, ↓reduceIte]
    exact ⟨_, rfl, rfl, rfl⟩

theorem Counted.owner (h : w.Counted) {n : Nat} {item : Item FdHandler ConnId}
    (he : w.sel.entry n = some item) (hd : item.data = some c) :
    ∃ s, w.conns c = some ⟨s, true⟩ ∧ s.references = (w.items c).length := by
  rcases h.owners he with ⟨-, hnone⟩ | ⟨c', ⟨s, live⟩, -, hd', hc⟩
  · rw [hd] at hnone
    cases hnone
  · obtain rfl : c = c' := Option.some.inj (hd.symm.trans hd')
    cases live with
    | true => exact ⟨s, hc, (h.inUse hc).1⟩
    | false =>
      have hmem : n ∈ w.items c := mem_items.mpr ⟨item, he, hd⟩
      rw [h.released hc] at hmem
      cases hmem

structure Without (w : World) (n : Nat) (w' : World) : Prop where
  counted : w'.Counted
  self : w'.sel.entry n = none
  others : ∀ m, m ≠ n → w'.sel.entry m = w.sel.entry m
  released : ∀ c s, w.conns c = some ⟨s, false⟩ → w'.conns c = some ⟨s, false⟩

/-- An item goes, and its struct loses a reference, or is released with its last one. -/
theorem Counted.without (h : w.Counted) {n : Nat} {item : Item FdHandler ConnId}
    (he : w.sel.entry n = some item) (hsize : w'.sel.fds.length = w.sel.fds.length)
    (hok : w'.sel.Ok) (hself : w'.sel.entry n = none)
    (hothers : ∀ m, m ≠ n → w'.sel.entry m = w.sel.entry m)
    (hsame : ∀ c, item.data ≠ some c → w'.conns c = w.conns c)
    (howner : ∀ c s, item.data = some c → w.conns c = some ⟨s, true⟩ →
      w'.conns c = some (if s.references = 1 then ⟨s, false⟩
        else ⟨{ s with references := s.references - 1 }, true⟩)) : w.Without n w' := by
  have hitems (c : ConnId) : w'.items c = (w.items c).erase n := items_release hsize hself hothers c
  -- the struct of the item, and the others
  have hlen (c : ConnId) (hd : item.data = some c) :
      (w'.items c).length = (w.items c).length - 1 ∧ 0 < (w.items c).length := by
    have hmem : n ∈ w.items c := mem_items.mpr ⟨item, he, hd⟩
    rw [hitems, List.length_erase_of_mem hmem]
    exact ⟨rfl, List.length_pos_of_mem hmem⟩
  have hkept (c : ConnId) (hd : item.data ≠ some c) : w'.items c = w.items c := by
    rw [hitems, List.erase_of_not_mem (not_mem_items he hd)]
  refine ⟨⟨hsize.trans h.size, hok, fun {m item'} he' => ?_, fun {c s} hc => ?_, fun {c s} hc => ?_⟩,
    hself, hothers, fun c s hc => ?_⟩
  · have hm : m ≠ n := by
      rintro rfl
      rw [hself] at he'
      cases he'
    rw [hothers m hm] at he'
    refine (h.owners he').imp_right ?_
    rintro ⟨c, conn, hh, hd', hc⟩
    by_cases hd : item.data = some c
    · obtain ⟨s, hc, -⟩ := h.owner he hd
      exact ⟨c, _, hh, hd', howner c s hd hc⟩
    · exact ⟨c, conn, hh, hd', (hsame c hd).trans hc⟩
  · by_cases hd : item.data = some c
    · obtain ⟨s₀, hc₀, hrefs⟩ := h.owner he hd
      obtain ⟨hlen, hpos⟩ := hlen c hd
      rw [howner c s₀ hd hc₀, Option.some.injEq] at hc
      split at hc
      · cases hc
      · cases hc
        refine ⟨by simp only [hlen, hrefs], fun hnil => ?_⟩
        rw [hnil, List.length_nil] at hlen
        omega
    · rw [hsame c hd] at hc
      rw [hkept c hd]
      exact h.inUse hc
  · by_cases hd : item.data = some c
    · obtain ⟨s₀, hc₀, hrefs⟩ := h.owner he hd
      obtain ⟨hlen, -⟩ := hlen c hd
      rw [howner c s₀ hd hc₀, Option.some.injEq] at hc
      split at hc
      · exact List.eq_nil_of_length_eq_zero (by omega)
      · cases hc
    · rw [hsame c hd] at hc
      rw [hkept c hd]
      exact h.released hc
  · refine (hsame c fun hd => ?_).trans hc
    obtain ⟨s₀, hc₀, -⟩ := h.owner he hd
    rw [hc] at hc₀
    cases hc₀

theorem Counted.unregister (h : w.Counted) {n : Nat} {item : Item FdHandler ConnId}
    (he : w.sel.entry n = some item) : ∃ w', w.unregister n = .ok (w', .success) ∧ w.Without n w' := by
  have hn := h.sel.lt he
  have hreg : w.sel.registered n = .ok (some item) := by
    rw [Selector.registered_eq _ hn (by rw [h.size]; omega), he]
  obtain ⟨hok, hsize, -, -, hself, hother⟩ := Selector.release_spec h.sel he
  rcases h.owners he with ⟨hh, hd⟩ | ⟨c, conn, hh, hd, -⟩
  · -- a passive socket has no struct
    refine ⟨{ w with sel := w.sel.release n item }, ?_,
      h.without he hsize hok hself hother (fun _ _ => rfl) fun c s hd' => ?_⟩
    · simp only [World.unregister, hreg, handleClose, hh, Bind.bind, Except.bind]
      rfl
    · rw [hd] at hd'
      cases hd'
  · obtain ⟨s, hc, -⟩ := h.owner he hd
    obtain ⟨w₁, hdestroy, hsel, hconns⟩ := socks5Destroy_eq hc
    rw [← hsel] at hok hself hother
    refine ⟨{ w₁ with sel := w₁.sel.release n item }, ?_,
      h.without he (by rw [hsel]; exact hsize) hok hself (fun m hm => ?_) (fun c' hne => ?_)
        fun c' s' hd' hc' => ?_⟩
    · simp only [World.unregister, hreg, handleClose, hh, hd, Bind.bind, Except.bind, hdestroy]
      rfl
    · exact (hother m hm).trans (by rw [hsel])
    · have hne : c' ≠ c := fun heq => hne (heq ▸ hd)
      exact (congrFun hconns c').trans (Function.update_of_ne hne ..)
    · obtain rfl : c = c' := Option.some.inj (hd.symm.trans hd')
      obtain rfl : s = s' := by simpa using hc.symm.trans hc'
      exact (congrFun hconns c).trans (Function.update_self ..)

theorem Counted.destroyItem (h : w.Counted) {n : Nat} (hn : n < w.sel.fds.length) :
    ∃ w', w.destroyItem n = .ok w' ∧ w.Without n w' := by
  have hitem : w.sel.item n = .ok w.sel.fds[n] := by
    simp only [Selector.item, List.getElem?_eq_getElem hn]
  unfold World.destroyItem
  simp only [hitem, Bind.bind, Except.bind]
  cases hused : w.sel.fds[n].used with
  | false =>
    have hentry : w.sel.entry n = none := by
      simp [Selector.entry, List.getElem?_eq_getElem hn, Option.filter, hused]
    exact ⟨w, rfl, h, hentry, fun _ _ => rfl, fun _ _ hc => hc⟩
  | true =>
    have hentry : w.sel.entry n = some w.sel.fds[n] := by
      simp [Selector.entry, List.getElem?_eq_getElem hn, Option.filter, hused]
    obtain ⟨w', hrun, hwithout⟩ := h.unregister hentry
    simp only [↓reduceIte, hrun]
    exact ⟨w', rfl, hwithout⟩

theorem Counted.destroyLoop (h : w.Counted) {k : Nat} (hk : k ≤ w.sel.fds.length) :
    ∃ w', (List.range k).foldlM World.destroyItem w = .ok w' ∧ w'.Counted ∧
      (∀ m, m < k → w'.sel.entry m = none) ∧
      ∀ c s, w.conns c = some ⟨s, false⟩ → w'.conns c = some ⟨s, false⟩ := by
  induction k with
  | zero => exact ⟨w, rfl, h, fun m hm => absurd hm (Nat.not_lt_zero m), fun _ _ hc => hc⟩
  | succ k ih =>
    obtain ⟨w₁, hrun, hc₁, hempty, hdead⟩ := ih (Nat.le_of_succ_le hk)
    have hlt : k < w₁.sel.fds.length := by
      rw [hc₁.size, ← h.size]
      exact hk
    obtain ⟨w₂, hrun₂, hwithout⟩ := hc₁.destroyItem hlt
    refine ⟨w₂, ?_, hwithout.counted, fun m hm => ?_,
      fun c s hc => hwithout.released c s (hdead c s hc)⟩
    · rw [List.range_succ, List.foldlM_append, hrun]
      simp only [Bind.bind, Except.bind, List.foldlM_cons, hrun₂, List.foldlM_nil]
      rfl
    · by_cases hm' : m = k
      · exact hm' ▸ hwithout.self
      · rw [hwithout.others m hm']
        exact hempty m (by omega)

/-- The references of every struct in use are its items, between two events and
during `selector_destroy`. A released struct is in no item and stays as it was
left, nothing follows a pointer to it, and at the end all are released. -/
theorem references_exact {w₀ w : World} (h₀ : w₀.Initial) (h : Reachable w₀ w) :
    w.Counted ∧
    (∀ e r, w.step e = some r → r ≠ .error .useAfterFree ∧ ∀ w', r = .ok w' →
      ∀ c s, w.conns c = some ⟨s, false⟩ → w'.conns c = some ⟨s, false⟩) ∧
    (∀ k, k ≤ w.sel.fds.length →
      ∃ w', (List.range k).foldlM World.destroyItem w = .ok w' ∧ w'.Counted ∧
        ∀ c s, w.conns c = some ⟨s, false⟩ → w'.conns c = some ⟨s, false⟩) ∧
    ∃ w', w.selectorDestroy = .ok w' ∧ ∀ c s live, w'.conns c = some ⟨s, live⟩ → live = false := by
  have hcarries := h.carries h₀
  have hcounted := hcarries.counted
  refine ⟨hcounted, fun e r hs => ?_, fun k hk => ?_, ?_⟩
  · obtain ⟨hfault, hdead⟩ := hcarries.step_safe (kept_trivial anyEvent) hs
    refine ⟨fun hr => ?_, hdead⟩
    rcases hfault _ hr with hf | hf <;> cases hf
  · obtain ⟨w', hrun, hc', -, hdead⟩ := hcounted.destroyLoop hk
    exact ⟨w', hrun, hc', hdead⟩
  · obtain ⟨w', hrun, hc', hempty, -⟩ := hcounted.destroyLoop (Nat.le_refl _)
    refine ⟨w', hrun, fun c s live hc => ?_⟩
    cases live with
    | false => rfl
    | true =>
      obtain ⟨n, hn⟩ := List.exists_mem_of_ne_nil _ (hc'.inUse hc).2
      obtain ⟨item, he, -⟩ := mem_items.mp hn
      have hlt := hc'.sel.lt he
      rw [hempty n (by rw [hcounted.size]; omega)] at he
      cases he

def connecting : List Event :=
  [.accept 3 { answer := some (4, {}) },
   .ready 4 false { recv := some [5, 1, 0] },
   .ready 4 true { send := some 2 },
   .ready 4 false { recv := some [5, 1, 0, 1, 127, 0, 0, 1, 0, 80], socket := some 5,
                    connect := some einprogress }]

theorem references_connecting : ∃ w s, play (Meets anyEvent) (startUp {}) connecting = some (.ok w) ∧
    w.conns 0 = some ⟨s, true⟩ ∧ s.references = 2 ∧ (w.items 0).length = 2 := by
  have hrun : Lib.endsIn (fun w => (w.conns 0).any fun conn => conn.live && conn.s.references == 2)
      (play (Meets anyEvent) (startUp {}) connecting) = true := by decide +kernel
  obtain ⟨w, hplay, hconn⟩ := Lib.endsIn_iff.mp hrun
  have hexact := (references_exact (startUp_initial (by decide)) (Lib.reaches_of_play hplay)).1
  cases hc : w.conns 0 with
  | none => simp [hc] at hconn
  | some conn =>
    obtain ⟨s, live⟩ := conn
    simp only [hc, Option.any_some, Bool.and_eq_true, beq_iff_eq] at hconn
    obtain ⟨rfl, htwo⟩ := hconn
    exact ⟨w, s, hplay, hc, htwo, (hexact.inUse hc).1 ▸ htwo⟩

end World

end Socks5d
