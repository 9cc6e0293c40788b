import Socks5d.Loop.Items
import Socks5d.Loop.Overlay

/-!
# The main loop refines the server

Whatever the order in which the resolver threads and the main thread take their
steps, the process is a server of `World.Reachable` in which the answers that
were not notified yet are not stored (`Refines`). So a name is resolved and its
connection told of it as if in one event.
-/

namespace Socks5d

namespace World

variable {w w' : World} {c : ConnId} {st : Stored} {keys : List Key}

/-- A resolved name is stored for each of the keys, and the thread of each is one
that the connection still waits for. -/
structure Pends (w : World) (st : Stored) (keys : List Key) : Prop where
  told : ∀ c, (st c).isSome = true ↔ c ∈ keys.map Key.conn
  threads : ∀ key ∈ keys, key ∈ w.threads
  nodup : (keys.map Key.conn).Nodup

theorem Pends.perm {keys' : List Key} (h : Pends w st keys) (hp : keys.Perm keys') :
    Pends w st keys' := by
  refine ⟨fun c => (h.told c).trans (hp.map _).mem_iff, fun key hk => ?_, ?_⟩
  · exact h.threads key (hp.mem_iff.mpr hk)
  · exact (hp.map _).nodup_iff.mp h.nodup

theorem Pends.stored (h : Pends w st keys) {key : Key} (hk : key ∈ keys) :
    ∃ answer, st key.conn = some answer :=
  Option.isSome_iff_exists.mp ((h.told key.conn).mpr (List.mem_map_of_mem hk))

theorem Pends.key (h : Pends w st keys) (hc : st c ≠ none) : ∃ key ∈ keys, key.conn = c := by
  obtain ⟨key, hk, hkc⟩ := List.mem_map.mp ((h.told c).mp (Option.isSome_iff_ne_none.mpr hc))
  exact ⟨key, hk, hkc⟩

theorem not_enabled_of_thread {v : View} (hs : v.Shape c) {key : Key} (hk : key ∈ v.threads)
    {fd : Nat} {write : Bool} : ¬ v.Enabled fd write := by
  intro hen
  obtain ⟨hst, -⟩ := hs.of_thread hk
  obtain ⟨hclient, hpeer, -, -, -⟩ := hs.phase_of hst
  obtain ⟨-, hwants⟩ := hen.client hpeer.1
  rw [hclient] at hwants
  cases write <;> cases hwants

theorem Shows.mem_threads {v : View} (hv : w.Shows c v) {key : Key} (hk : key ∈ w.threads)
    (hc : key.conn = c) : key ∈ v.threads := by
  rw [← hv.threads]
  exact List.mem_filter.mpr ⟨hk, decide_eq_true hc⟩

theorem Pends.free (h : Pends w st keys) {v : View} (hv : w.Shows c v) (hs : v.Shape c) {fd : Nat}
    {write : Bool} (hen : v.Enabled fd write) : st c = none := by
  by_contra hc
  obtain ⟨key, hk, hkc⟩ := h.key hc
  exact not_enabled_of_thread hs (hv.mem_threads (h.threads key hk) hkc) hen

theorem Pends.free_new (h : Pends w st keys) (hw : w.Wired) : st w.allocated = none := by
  by_contra hc
  obtain ⟨key, hk, hkc⟩ := h.key hc
  exact Nat.lt_irrefl _ (hkc ▸ hw.threads (h.threads key hk))

theorem Pends.step (h : Pends w st keys)
    (hcarries : Carries (fun _ => True) (fun _ _ => True) w) {e : Event}
    (hs : w.step e = some (.ok w'))
    (hother : ∀ c ce, w.concerns e = some (c, ce) → st c = none) : Pends w' st keys := by
  refine ⟨h.told, fun key hk => ?_, h.nodup⟩
  have hmem := h.threads key hk
  obtain ⟨answer, hst⟩ := h.stored hk
  rcases hcarries.step_cases (kept_trivial anyEvent) hs with
    ⟨c, v, ce, v', hcon, -, -, -, -, hrel⟩ | houtside
  · have hne : key.conn ≠ c := by
      rintro rfl
      rw [hother _ _ hcon] at hst
      cases hst
    refine List.mem_of_mem_filter (p := fun k => decide (k.conn = key.conn)) ?_
    rw [hrel.others.threads key.conn hne]
    exact List.mem_filter.mpr ⟨hmem, decide_eq_true rfl⟩
  · obtain ⟨v, hv, -, -⟩ := hcarries.views key.conn (hcarries.wired.threads hmem)
    have hv' := houtside.shows _ _ (hcarries.wired.threads hmem) hv
    refine List.mem_of_mem_filter (p := fun k => decide (k.conn = key.conn)) ?_
    rw [hv'.threads]
    exact hv.mem_threads hmem rfl

/-- What the main thread relies on: the items of the table, and that a passive
socket waits for connections only. -/
structure Listens (w : World) : Prop where
  bounded : w.sel.Bounded
  passive : ∀ {n item}, w.sel.entry n = some item → item.handler = some .passive →
    item.interest = opRead

theorem Listens.of_items (h : w.Listens) (hw' : w'.Wired) (hitems : SameItems c w w')
    (hb : w'.sel.Bounded) : w'.Listens := by
  refine ⟨hb, fun {n item} he hh => ?_⟩
  have hdata : item.data = none := by
    rcases hw'.items he with ⟨-, hd, -⟩ | ⟨c', hh', -, -⟩
    · exact hd
    · rw [hh] at hh'
      cases hh'
  exact h.passive ((hitems n item (by simp [hdata])).mp he) hh

structure Same (w : World) (st : Stored) (keys : List Key) (e : Event) (c : ConnId)
    (r : Except Fault World) : Prop where
  fault : ∀ f, r = .error f → f = .abort ∨ f = .kernel
  next : ∀ w', r = .ok w' → w.step e = some (.ok w') ∧ Pends w' st keys ∧ SameItems c w w' ∧
    w'.Listens

theorem ready_same (hcarries : Carries (fun _ => True) (fun _ _ => True) w) (hl : w.Listens)
    (hp : Pends w st keys) {fd : Nat} {write : Bool} {item : Item FdHandler ConnId}
    (ht : w.target fd write = some item) (hh : item.handler = some .socks5)
    (hd : item.data = some c) (io : Io) :
    ∃ r, Same w st keys (.ready fd write io) c r ∧
      (w.overlay st).handle io c (View.socksv5Ready write ⟨item.fd, c⟩) = r.map (·.overlay st) := by
  obtain ⟨-, hfd, v, hv, hs, -, hen⟩ := hcarries.target ht hh hd
  have hfree := hp.free hv hs hen
  have hstep : w.step (.ready fd write io) =
      some (w.handle io c (View.socksv5Ready write ⟨item.fd, c⟩)) := by
    simp only [World.step, ht, Option.bind_eq_bind, Option.bind_some, hh, hd]
    rfl
  have hcon (c' : ConnId) (ce : ConnEvent)
      (hc : w.concerns (.ready fd write io) = some (c', ce)) : st c' = none := by
    obtain ⟨ifd, interest, handler, data, serial⟩ := item
    obtain rfl : handler = some .socks5 := hh
    obtain rfl : data = some c := hd
    simp only [concerns, ht] at hc
    cases hc
    exact hfree
  have hmeets := View.ready_meets io hs hen
  rw [hfd]
  rw [hfd] at hstep
  refine ⟨w.handle io c (View.socksv5Ready write ⟨fd, c⟩), ⟨?_, fun w' hw' => ?_⟩, ?_⟩
  · exact (hcarries.step_safe (kept_trivial anyEvent) hstep).1
  · have hs' := hw' ▸ hstep
    have hitems := handle_items hcarries.wired hv hmeets View.not_faults_foreign hw'
    obtain ⟨w'', v', hrun, -, hrel⟩ | ⟨f, hrun, -⟩ :=
      handle_agrees hcarries.wired hv hmeets View.not_faults_foreign
    · obtain rfl : w'' = w' := Except.ok.inj (hrun.symm.trans hw')
      refine ⟨hs', hp.step hcarries hs' hcon, hitems, ?_⟩
      exact hl.of_items hrel.wired hitems (handle_bounded hl.bounded hw')
    · rw [hrun] at hw'
      cases hw'
  · exact overlay_handle hcarries.wired hv hfree hmeets View.not_faults_foreign

theorem accept_same (hcarries : Carries (fun _ => True) (fun _ _ => True) w) (hl : w.Listens)
    (hp : Pends w st keys) {fd : Nat} {item : Item FdHandler ConnId}
    (ht : w.target fd false = some item) (hh : item.handler = some .passive) (a : Accept) :
    ∃ r, Same w st keys (.accept fd a) w.allocated r ∧
      (w.overlay st).passiveAccept a = r.map (·.overlay st) := by
  have hstep : w.step (.accept fd a) = some (w.passiveAccept a) := by
    simp only [World.step, ht, Option.bind_eq_bind, Option.bind_some, hh]
  refine ⟨w.passiveAccept a, ⟨?_, fun w' hw' => ?_⟩, overlay_accept (hp.free_new hcarries.wired) a⟩
  · exact (hcarries.step_safe (kept_trivial anyEvent) hstep).1
  · have hs' := hw' ▸ hstep
    obtain ⟨hitems, hb⟩ := accept_items hcarries.wired hl.bounded hw'
    have hnext := hcarries.step (kept_trivial anyEvent)
      ⟨fun _ _ h => h, fun _ _ h => h⟩ (fun _ _ _ _ _ => trivial) hs'
    refine ⟨hs', ?_, hitems, hl.of_items hnext.wired hitems hb⟩
    exact hp.step hcarries hs' fun c ce hc => by cases hc

-- ---------------------------------------------------------------------------
-- An answer is stored, and then told
-- ---------------------------------------------------------------------------

theorem handle_answer {s : Socks5} (hc : w.conns c = some ⟨s, true⟩) (io : Io)
    (answer : Option (List AddrInfo)) :
    w.handle io c (Handler.requestResolvBlocking answer) =
      .ok (w.setConn c ⟨s.answered answer, true⟩) := by
  have hset {w : World} {s : Socks5} (f : Socks5 → Socks5) (hc : w.conns c = some ⟨s, true⟩) :
      (Handler.update f).run (exec io c) w = .ok (w.setConn c ⟨f s, true⟩, ()) := by
    have hderef : w.deref c = .ok s := by
      unfold deref
      rw [hc]
    refine (Lib.Prog.run_perform (exec io c) (Call.update f) w).trans ?_
    simp only [exec, hderef]
    rfl
  have hupdate (f g : Socks5 → Socks5) :
      (do Handler.update f; Handler.update g : Handler Unit).run (exec io c) w =
        .ok (w.setConn c ⟨g (f s), true⟩, ()) := by
    have hc' : (w.setConn c ⟨f s, true⟩).conns c = some ⟨f s, true⟩ := Function.update_self ..
    rw [Lib.Prog.run_bind, hset f hc]
    simp only [hset g hc']
    simp only [setConn, Function.update_idem]
  unfold handle Handler.requestResolvBlocking
  cases answer with
  | none =>
    have hrun := hupdate (fun s => { s with log := s.log ++ [.resolved []] }) (fun s => { s with
      originResolution := []
      request := { s.request with status := .generalSocksServerFailure } })
    simp only [Handler.note, Option.getD_none]
    rw [hrun]
    rfl
  | some list =>
    have hrun := hupdate (fun s => { s with log := s.log ++ [.resolved list] })
      (fun s => { s with originResolution := list })
    simp only [Handler.note, Option.getD_some]
    rw [hrun]
    rfl

def resolvedBy (w : World) (key : Key) (s : Socks5) (answer : Option (List AddrInfo)) : World :=
  { w.setConn key.conn ⟨s.answered answer, true⟩ with threads := w.threads.erase key }

theorem erase_of_unique {key : Key} {threads : List Key}
    (h : threads.filter (·.conn = key.conn) = [key]) :
    threads.erase key = threads.filter (·.conn ≠ key.conn) := by
  induction threads with
  | nil => rfl
  | cons k threads ih =>
    by_cases hk : k.conn = key.conn
    · rw [List.filter_cons_of_pos (by simpa using hk)] at h
      obtain ⟨rfl, hnil⟩ := List.cons.inj h
      have hall : threads.filter (·.conn ≠ k.conn) = threads := by
        rw [List.filter_eq_self]
        intro k' hk'
        simpa using List.filter_eq_nil_iff.mp hnil k' hk'
      rw [List.erase_cons_head, List.filter_cons_of_neg (by simp), hall]
    · have hne : k ≠ key := fun he => hk (he ▸ rfl)
      rw [List.filter_cons_of_neg (by simpa using hk)] at h
      rw [List.erase_cons_tail (by simpa using hne), List.filter_cons_of_pos (by simpa using hk),
        ih h]

theorem overlay_stored {key : Key} {s : Socks5} (hc : w.conns key.conn = some ⟨s, true⟩)
    (hunique : w.threads.filter (·.conn = key.conn) = [key]) (answer : Option (List AddrInfo))
    (hst : st key.conn = none) :
    w.overlay (Function.update st key.conn (some answer)) =
      (w.resolvedBy key s answer).overlay st := by
  have hconns : (fun c => (w.conns c).map
      (·.answered (Function.update st key.conn (some answer) c))) =
      fun c => ((Function.update w.conns key.conn (some ⟨s.answered answer, true⟩)) c).map
        (·.answered (st c)) := by
    funext c
    by_cases hne : c = key.conn
    · subst hne
      simp only [Function.update_self, hc, hst, Option.map_some, Conn.answered]
    · simp only [Function.update_of_ne hne]
  have hthreads : w.threads.filter
      (fun k => (Function.update st key.conn (some answer) k.conn).isNone) =
      (w.threads.erase key).filter fun k => (st k.conn).isNone := by
    rw [erase_of_unique hunique, List.filter_filter]
    refine List.filter_congr fun k _ => ?_
    by_cases hne : k.conn = key.conn
    · simp [hne]
    · simp [hne]
  simp only [overlay, resolvedBy, setConn, hconns, hthreads]

theorem resolvedBy_rel (hw : w.Wired) {v : View} {key : Key} (hv : w.Shows key.conn v)
    (hlive : v.live = true) (hthreads : v.threads = [key]) (answer : Option (List AddrInfo)) :
    Rel w key.conn (w.resolvedBy key v.s answer) (v.answered answer) := by
  obtain ⟨fd, c⟩ := key
  have hrel := (joined_rel hw hv hthreads).setConn (v.s.answered answer) true
  have hview : v.answered answer =
      { { v with threads := [] } with s := v.s.answered answer, live := true } := by
    rw [← hlive]
    rfl
  rw [hview]
  exact hrel

end World

/-- The loop of `handle_iteration` is inside the table, and the key it filled is
still the item's. -/
structure Scan.Inside (scan : Scan) (w : World) : Prop where
  le : scan.i ≤ scan.n
  lt : scan.n ≤ fdSetSize
  key : ∀ {key}, scan.key = some key → ∀ {item}, w.sel.entry scan.i = some item →
    item.fd = key.fd ∧ item.data = key.data

namespace Process

open World (Pends Listens Same SameItems Carries)

def pending (p : Process) (queued : List Key) : List Key := p.notifying ++ queued ++ p.lost

structure Refines (w₀ : World) (p : Process) (w : World) (st : Stored) (queued : List Key) : Prop where
  reachable : World.Reachable w₀ w
  world : p.world = w.overlay st
  pends : Pends w st (p.pending queued)
  waiting : p.waiting = queued.map Key.fd
  listens : w.Listens
  scan : ∀ scan, p.phase = .scanning scan → scan.Inside w
  selectorThread : p.selectorThread = false → p.phase = .idle ∧ w.threads = [] ∧ p.signalling = []

/-- The result of a step: a process that is a server again, after an event or
none, or the end of it. -/
inductive Next (w₀ w : World) : Except Fault Process → Prop
  | same (st : Stored) (queued : List Key) {p : Process} (h : Refines w₀ p w st queued) :
      Next w₀ w (.ok p)
  | event (st : Stored) (queued : List Key) {p : Process} {w' : World} {e : World.Event}
      (hstep : w.step e = some (.ok w')) (h : Refines w₀ p w' st queued) : Next w₀ w (.ok p)
  | abort : Next w₀ w (.error .abort)
  | kernel : Next w₀ w (.error .kernel)

variable {p₀ p : Process} {w₀ w : World} {st : Stored} {queued : List Key}

theorem Refines.carries (h : Refines w₀ p w st queued) (h₀ : w₀.Initial) :
    Carries (fun _ => True) (fun _ _ => True) w := h.reachable.carries h₀

theorem Initial.refines (h : p₀.Initial) :
    Refines p₀.world p₀ p₀.world (fun _ => none) [] where
  reachable := .start
  world := (World.overlay_none _).symm
  pends := by
    unfold pending
    rw [h.notifying, h.lost]
    exact ⟨fun c => by simp, fun key hk => by simp at hk, List.nodup_nil⟩
  waiting := by
    unfold waiting
    rw [h.phase]
    exact h.resolutionJobs
  listens := ⟨h.bounded, fun he _ => h.passive he⟩
  scan scan hs := by
    rw [h.phase] at hs
    cases hs
  selectorThread _ := ⟨h.phase, h.world.threads, h.signalling⟩

-- ---------------------------------------------------------------------------
-- The main thread
-- ---------------------------------------------------------------------------

theorem Inside.next {scan scan' : Scan} {w w' : World} (h : scan.Inside w)
    (hnext : scan.next = .scanning scan') : scan'.Inside w' := by
  unfold Scan.next at hnext
  split at hnext
  · rename_i hlt
    cases hnext
    exact ⟨hlt, h.lt, fun hk => by cases hk⟩
  · cases hnext

theorem Scan.next_ne {scan : Scan} (rest : List Int) : scan.next ≠ .draining rest := by
  unfold Scan.next
  split
  · exact Phase.noConfusion
  · exact Phase.noConfusion

theorem waiting_eq (h : ∀ rest, p.phase ≠ .draining rest) : p.waiting = p.resolutionJobs := by
  unfold waiting
  split
  · rename_i hp
    exact absurd hp (h _)
  · rfl

theorem Refines.deliver (h : Refines w₀ p w st queued) {scan : Scan}
    (hph : p.phase = .scanning scan) {e : World.Event} {c : ConnId} {r : Except Fault World}
    (hr : Same w st (p.pending queued) e c r) (phase : Phase)
    (hdrain : ∀ rest, phase ≠ .draining rest)
    (hscan : ∀ w', SameItems c w w' → w'.Listens →
      ∀ scan', phase = .scanning scan' → scan'.Inside w') :
    Next w₀ w (do return { p with world := ← r.map (·.overlay st), phase }) := by
  cases r with
  | error f =>
    rcases hr.fault f rfl with rfl | rfl
    · exact .abort
    · exact .kernel
  | ok w' =>
    obtain ⟨hstep, hpends, hitems, hlistens⟩ := hr.next w' rfl
    refine .event st queued hstep ⟨?_, rfl, hpends, ?_, hlistens,
      hscan w' hitems hlistens, fun hs => ?_⟩
    · exact h.reachable.next (fun _ _ _ _ _ => trivial) hstep
    · rw [waiting_eq hdrain, ← h.waiting, waiting_eq]
      intro rest hrest
      rw [hph] at hrest
      cases hrest
    · exact absurd (h.selectorThread hs).1 (by simp [hph])

theorem Refines.pass (h : Refines w₀ p w st queued) {scan : Scan} (hph : p.phase = .scanning scan)
    (phase : Phase) (hdrain : ∀ rest, phase ≠ .draining rest)
    (hscan : ∀ scan', phase = .scanning scan' → scan'.Inside w) : Next w₀ w (.ok { p with phase }) := by
  refine .same st queued
    ⟨h.reachable, h.world, h.pends, ?_, h.listens, hscan, fun hs => ?_⟩
  · rw [waiting_eq hdrain, ← h.waiting, waiting_eq]
    intro rest hrest
    rw [hph] at hrest
    cases hrest
  · exact absurd (h.selectorThread hs).1 (by simp [hph])

theorem Refines.item (h : Refines w₀ p w st queued) (h₀ : w₀.Initial) {scan : Scan}
    (hi : scan.Inside w) : ∃ item, p.world.sel.item scan.i = .ok item ∧ w.sel.fds[scan.i]? = some item := by
  have hlt : scan.i < w.sel.fds.length := by
    rw [(h.carries h₀).wired.size]
    have := hi.le
    have := hi.lt
    omega
  refine ⟨w.sel.fds[scan.i], ?_, List.getElem?_eq_getElem hlt⟩
  rw [h.world]
  show w.sel.item scan.i = _
  simp only [Selector.item, List.getElem?_eq_getElem hlt]

theorem Refines.visit_read (h : Refines w₀ p w st queued) (h₀ : w₀.Initial) {scan : Scan}
    (hph : p.phase = .scanning scan) (hkey : scan.key = none) (io : Io) (a : World.Accept) :
    Next w₀ w (p.visitItem scan io a) := by
  have hi := h.scan scan hph
  have hcarries := h.carries h₀
  obtain ⟨item, hitem, hget⟩ := h.item h₀ hi
  unfold visitItem
  simp only [hitem, hkey, Bind.bind, Except.bind]
  cases hused : item.used with
  | false => exact h.pass hph _ Scan.next_ne fun scan' hs => Inside.next hi hs
  | true =>
    simp only [↓reduceIte]
    have hentry : w.sel.entry scan.i = some item := by
      simp [Selector.entry, hget, hused]
    -- what the block leaves of the item is what the key was filled with
    have hkept (c : ConnId) (w' : World) (hitems : SameItems c w w') (hw' : w'.Listens)
        (scan' : Scan)
        (hs : Phase.scanning { scan with key := some ⟨item.fd, item.data⟩ } = .scanning scan') :
        scan'.Inside w' := by
      cases hs
      refine ⟨hi.le, hi.lt, fun hk item' he => ?_⟩
      cases hk
      refine ⟨(hw'.bounded.ok.fd_eq he).trans (hcarries.wired.sel.fd_eq hentry).symm, ?_⟩
      by_cases hd : item.data = some c
      · by_cases hd' : item'.data = some c
        · exact hd'.trans hd.symm
        · rw [hitems _ _ hd', hentry] at he
          cases he
          rfl
      · rw [(hitems _ _ hd).mpr hentry] at he
        cases he
        rfl
    split
    · rename_i hready
      obtain ⟨-, hread⟩ := Bool.and_eq_true_iff.mp hready
      have ht : w.target scan.i false = some item := World.target_iff.mpr ⟨hentry, hread⟩
      have hdrain (rest : List Int) :
          Phase.scanning { scan with key := some ⟨item.fd, item.data⟩ } ≠ .draining rest :=
        Phase.noConfusion
      rcases hcarries.wired.items hentry with ⟨hh, hd, -⟩ | ⟨c, hh, hd, -⟩
      · obtain ⟨r, hr, hrun⟩ := World.accept_same hcarries h.listens h.pends ht hh a
        simp only [World.handleRead, hh, h.world, hrun]
        have hnext := h.deliver hph hr _ hdrain (hkept w.allocated)
        exact hnext
      · obtain ⟨r, hr, hrun⟩ := World.ready_same hcarries h.listens h.pends ht hh hd io
        have hread : (w.overlay st).handle io c (Handler.socksv5Read ⟨item.fd, c⟩) =
            r.map (·.overlay st) := hrun
        simp only [World.handleRead, hh, hd, h.world, hread]
        have hnext := h.deliver hph hr _ hdrain (hkept c)
        rw [hd] at hnext
        exact hnext
    · refine h.pass hph _ (fun _ => Phase.noConfusion) fun scan' hs => ?_
      cases hs
      refine ⟨hi.le, hi.lt, fun hk item' he => ?_⟩
      cases hk
      rw [hentry] at he
      cases he
      exact ⟨rfl, rfl⟩

theorem Refines.visit_write (h : Refines w₀ p w st queued) (h₀ : w₀.Initial) {scan : Scan}
    (hph : p.phase = .scanning scan) {key : SelectorKey} (hkey : scan.key = some key) (io : Io)
    (a : World.Accept) : Next w₀ w (p.visitItem scan io a) := by
  have hi := h.scan scan hph
  have hcarries := h.carries h₀
  obtain ⟨item, hitem, hget⟩ := h.item h₀ hi
  unfold visitItem
  simp only [hitem, hkey, Bind.bind, Except.bind]
  split
  · rename_i hready
    obtain ⟨hset, hwrite⟩ := Bool.and_eq_true_iff.mp hready
    have hused : item.used = true := by
      have hpos : (0 : Int) ≤ item.fd := by
        unfold fdIsset at hset
        simpa using (Bool.and_eq_true_iff.mp hset).1
      exact Selector.used_of_fd (Int.toNat_of_nonneg hpos).symm
    have hentry : w.sel.entry scan.i = some item := by
      simp [Selector.entry, hget, hused]
    obtain ⟨hfd, hdata⟩ := hi.key hkey hentry
    have ht : w.target scan.i true = some item := World.target_iff.mpr ⟨hentry, hwrite⟩
    rcases hcarries.wired.items hentry with ⟨hh, -, -⟩ | ⟨c, hh, hd, -⟩
    · rw [h.listens.passive hentry hh] at hwrite
      cases hwrite
    · obtain ⟨r, hr, hrun⟩ := World.ready_same hcarries h.listens h.pends ht hh hd io
      have hrun' : (w.overlay st).handle io c (Handler.socksv5Write ⟨key.fd, c⟩) =
          r.map (·.overlay st) := by
        rw [← hfd]
        exact hrun
      rw [hd] at hdata
      simp only [World.handleWrite, hh, ← hdata, h.world, hrun']
      exact h.deliver hph hr _ Scan.next_ne fun w' _ _ scan' hs => Inside.next hi hs
  · exact h.pass hph _ Scan.next_ne fun scan' hs => Inside.next hi hs

theorem Refines.admin (h : Refines w₀ p w st queued) {scan : Scan}
    (hph : p.phase = .scanning scan) {e : World.Event} (he : e.isAdmin = true)
    {r : Except Fault Process}
    (hr : (p.world.step e).map (fun r => do return { p with world := ← r }) = some r) :
    Next w₀ w r := by
  obtain ⟨w', hstep, hover, hsel, hthreads⟩ := World.overlay_admin he w st
  rw [h.world, hover] at hr
  cases hr
  refine .event st queued hstep ⟨?_, rfl, ?_, h.waiting, ?_, fun scan hs => ?_,
    fun hs => ?_⟩
  · exact h.reachable.next (fun _ _ _ _ _ => trivial) hstep
  · exact ⟨h.pends.told, fun key hk => hthreads ▸ h.pends.threads key hk, h.pends.nodup⟩
  · exact ⟨hsel ▸ h.listens.bounded, fun he => h.listens.passive (hsel ▸ he)⟩
  · obtain ⟨hle, hlt, hkey⟩ := h.scan scan hs
    exact ⟨hle, hlt, fun hk item he => hkey hk (hsel ▸ he)⟩
  · exact absurd (h.selectorThread hs).1 (by simp [hph])

/-- The connection whose answer waits: it is in REQUEST_RESOLV, and the key is
that of its only thread. -/
theorem Refines.resolving (h : Refines w₀ p w st queued) (h₀ : w₀.Initial) {key : Key}
    (hk : key ∈ w.threads) :
    ∃ v, w.Shows key.conn v ∧ v.Shape key.conn ∧ v.s.stm = some .requestResolv ∧
      v.threads = [key] ∧ key.fd = v.fd := by
  have hcarries := h.carries h₀
  obtain ⟨fd, c⟩ := key
  obtain ⟨v, hv, hs, -⟩ := hcarries.views c (hcarries.wired.threads hk)
  have hmem := hv.mem_threads hk rfl
  have hshape : v.Shape c := by
    refine hs.resolve_right fun he => ?_
    rw [he.threads] at hmem
    cases hmem
  obtain ⟨hst, hthreads⟩ := hshape.of_thread hmem
  have hfd : (⟨fd, c⟩ : Key) = ⟨v.fd, c⟩ := by
    rw [hthreads] at hmem
    exact List.mem_singleton.mp hmem
  refine ⟨v, hv, hshape, hst, ?_, congrArg Key.fd hfd⟩
  rw [hthreads, hfd]

/-- The job at the head of the list is told to the connection that it is for,
which is the event of the server that ends the resolution of the name. -/
theorem Refines.told (h : Refines w₀ p w st queued) (h₀ : w₀.Initial) {fd : Int}
    {rest : List Int} (hph : p.phase = .draining (fd :: rest)) (io : Io) :
    ∃ key queued' answer r, queued = key :: queued' ∧ w.step (.resolved key answer io) = some r ∧
      p.world.handleBlock fd io = r.map (·.overlay (Function.update st key.conn none)) ∧
      ∀ w', r = .ok w' → Refines w₀
        { p with world := w'.overlay (Function.update st key.conn none), phase := .draining rest }
        w' (Function.update st key.conn none) queued' := by
  have hcarries := h.carries h₀
  have hwaiting := h.waiting
  unfold Process.waiting at hwaiting
  rw [hph] at hwaiting
  obtain ⟨key, queued', rfl, rfl, hrest⟩ := List.map_eq_cons_iff.mp hwaiting.symm
  have hmem : key ∈ p.pending (key :: queued') := by
    simp [pending]
  obtain ⟨answer, hanswer⟩ := h.pends.stored hmem
  obtain ⟨v, hv, hshape, hst, hthreads, hfd⟩ := h.resolving h₀ (h.pends.threads key hmem)
  have hlive := hshape.body.live
  have hconn : w.conns key.conn = some ⟨v.s, true⟩ := by
    rw [hv.conn, hlive]
  -- the world with the answer of this thread alone
  have hperm : (p.pending (key :: queued')).Perm (key :: p.pending queued') := by
    unfold pending
    rw [List.append_assoc, List.append_assoc]
    exact List.perm_middle
  have hpends := h.pends.perm hperm
  have hnew : key.conn ∉ (p.pending queued').map Key.conn :=
    (List.nodup_cons.mp hpends.nodup).1
  have hpends' : Pends w (Function.update st key.conn none) (p.pending queued') := by
    refine ⟨fun c => ?_, fun k hk => hpends.threads k (List.mem_cons_of_mem _ hk),
      (List.nodup_cons.mp hpends.nodup).2⟩
    by_cases hc : c = key.conn
    · subst hc
      simp [hnew]
    · rw [Function.update_of_ne hc, hpends.told, List.map_cons, List.mem_cons]
      simp [hc]
  have hworld : p.world =
      (w.resolvedBy key v.s answer).overlay (Function.update st key.conn none) := by
    rw [← World.overlay_stored hconn (hv.threads.trans hthreads) answer (Function.update_self ..),
      Function.update_idem, ← hanswer, Function.update_eq_self]
    exact h.world
  have hrel := World.resolvedBy_rel hcarries.wired hv hlive hthreads answer
  obtain ⟨hclient, -, -, -, -⟩ := hshape.phase_of hst
  have hlink : (v.answered answer).link v.fd = .watched opNoop := by
    rw [View.link, if_pos (by rfl)]
    exact hclient
  obtain ⟨item, hentry, hh, hd, -⟩ := hrel.entry_watched hlink
  have hentry' : w.sel.entry v.fd = some item := hentry
  have hifd := hcarries.wired.sel.fd_eq hentry'
  have hmeets := View.block_meets io hshape hst answer ⟨v.fd, key.conn⟩
  have hblock : p.world.handleBlock key.fd io =
      ((w.resolvedBy key v.s answer).handle io key.conn
        (Handler.socksv5Block ⟨v.fd, key.conn⟩)).map
          (·.overlay (Function.update st key.conn none)) := by
    rw [← World.overlay_handle hrel.wired hrel.shows (Function.update_self ..) hmeets
      View.not_faults_foreign, hfd, hworld]
    have hitem : ((w.resolvedBy key v.s answer).overlay (Function.update st key.conn none)).sel.item
        v.fd = .ok item := by
      show w.sel.item v.fd = _
      simp only [Selector.item, Selector.getElem?_of_entry hentry']
    have hneg : ¬ (v.fd : Int) < 0 := by omega
    unfold World.handleBlock
    simp only [hneg, ↓reduceIte, Int.toNat_natCast, hitem, Bind.bind, Except.bind,
      Selector.used_of_entry hentry', hh, hd, hifd]
  have hstep : w.step (.resolved key answer io) =
      some ((w.resolvedBy key v.s answer).handle io key.conn
        (Handler.socksv5Block ⟨v.fd, key.conn⟩)) := by
    have hin : key ∈ w.threads := h.pends.threads key hmem
    have hstored : ({ w with threads := w.threads.erase key } : World).handle io key.conn
        (Handler.requestResolvBlocking answer) = .ok (w.resolvedBy key v.s answer) :=
      World.handle_answer (w := { w with threads := w.threads.erase key }) hconn io answer
    have hreg : (w.resolvedBy key v.s answer).sel.registered key.fd = .ok (some item) := by
      show w.sel.registered key.fd = _
      rw [hfd, Selector.registered_eq _ hshape.body.fd_lt, hentry']
      have := hshape.body.fd_lt
      have := hcarries.wired.size
      omega
    simp only [World.step, hin, ↓reduceIte]
    simp only [hstored, Bind.bind, Except.bind, hreg, hh, hd, hifd]
  refine ⟨key, queued', answer, _, rfl, hstep, hblock, fun w' hrun => ?_⟩
  rw [hrun] at hstep
  have hnext := hcarries.step (World.kept_trivial World.anyEvent)
    ⟨fun _ _ h => h, fun _ _ h => h⟩ (fun _ _ _ _ _ => trivial) hstep
  have hitems := World.handle_items hrel.wired hrel.shows hmeets View.not_faults_foreign hrun
  have hl : (w.resolvedBy key v.s answer).Listens := ⟨h.listens.bounded, h.listens.passive⟩
  refine ⟨?_, rfl, ?_, hrest.symm, ?_, fun _ hs => (by cases hs), fun hs => ?_⟩
  · exact h.reachable.next (fun _ _ _ _ _ => trivial) hstep
  · refine hpends'.step hcarries hstep fun c ce hcon => ?_
    cases hcon
    exact Function.update_self ..
  · exact hl.of_items hnext.wired hitems (World.handle_bounded hl.bounded hrun)
  · exact absurd (h.selectorThread hs).1 (by simp [hph])

theorem Refines.notify (h : Refines w₀ p w st queued) (h₀ : w₀.Initial) {fd : Int}
    {rest : List Int} (hph : p.phase = .draining (fd :: rest)) (io : Io) :
    Next w₀ w (do return { p with world := ← p.world.handleBlock fd io, phase := .draining rest }) := by
  obtain ⟨key, queued', answer, r, rfl, hstep, hblock, hok⟩ := h.told h₀ hph io
  rw [hblock]
  cases r with
  | error f =>
    rcases ((h.carries h₀).step_safe (World.kept_trivial World.anyEvent) hstep).1 f rfl with rfl | rfl
    · exact .abort
    · exact .kernel
  | ok w' => exact .event _ _ hstep (hok w' rfl)

-- ---------------------------------------------------------------------------
-- The resolver threads
-- ---------------------------------------------------------------------------

theorem Refines.resolve (h : Refines w₀ p w st queued) (h₀ : w₀.Initial) {key : Key}
    (hk : key ∈ p.world.threads) (answer : Option (List AddrInfo)) :
    Next w₀ w (do
      let world ← p.world.handle {} key.conn (Handler.requestResolvBlocking answer)
      return { p with
        world := { world with threads := world.threads.erase key }
        notifying := key :: p.notifying }) := by
  rw [h.world] at hk
  obtain ⟨hk, hfree⟩ := List.mem_filter.mp hk
  have hnone : st key.conn = none := Option.isNone_iff_eq_none.mp hfree
  obtain ⟨v, hv, hshape, hst, hthreads, -⟩ := h.resolving h₀ hk
  have hconn : w.conns key.conn = some ⟨v.s, true⟩ := by
    rw [hv.conn, hshape.body.live]
  have hconn' : p.world.conns key.conn = some ⟨v.s, true⟩ := by
    rw [h.world, World.overlay_conns hnone]
    exact hconn
  rw [World.handle_answer hconn']
  have hworld : ({ p.world.setConn key.conn ⟨v.s.answered answer, true⟩ with
      threads := p.world.threads.erase key } : World) =
      w.overlay (Function.update st key.conn (some answer)) := by
    rw [World.overlay_stored hconn (hv.threads.trans hthreads) answer hnone, h.world,
      World.overlay_setConn hnone]
    simp only [World.resolvedBy, World.overlay, World.setConn, List.erase_filter]
  refine .same (Function.update st key.conn (some answer)) queued
    ⟨h.reachable, hworld, ?_, h.waiting, h.listens, h.scan, fun hs => ?_⟩
  · show Pends w _ (key :: p.notifying ++ queued ++ p.lost)
    refine ⟨fun c => ?_, fun k hkey => ?_, ?_⟩
    · by_cases hc : c = key.conn
      · subst hc
        simp
      · rw [Function.update_of_ne hc, h.pends.told]
        simp [pending, hc]
    · rcases List.mem_cons.mp hkey with rfl | hkey
      · exact hk
      · exact h.pends.threads k hkey
    · refine List.nodup_cons.mpr ⟨fun hmem => ?_, h.pends.nodup⟩
      have := (h.pends.told key.conn).mpr hmem
      rw [hnone] at this
      cases this
  · obtain ⟨-, hnil, -⟩ := h.selectorThread hs
    rw [hnil] at hk
    cases hk

theorem Refines.push (h : Refines w₀ p w st queued) {key : Key} (hk : key ∈ p.notifying)
    (hph : ∀ rest, p.phase ≠ .draining rest) (malloc : Bool) :
    Next w₀ w (.ok (if malloc then
      { p with
        notifying := p.notifying.erase key
        resolutionJobs := key.fd :: p.resolutionJobs
        signalling := key :: p.signalling }
    else { p with notifying := p.notifying.erase key, lost := key :: p.lost })) := by
  have hstarted : p.selectorThread ≠ false := by
    intro hs
    have hmem := h.pends.threads key (by simp [pending, hk])
    rw [(h.selectorThread hs).2.1] at hmem
    cases hmem
  have hperm := List.perm_cons_erase hk
  cases malloc with
  | true =>
    refine .same st (key :: queued)
      ⟨h.reachable, h.world, h.pends.perm ?_, ?_, h.listens, h.scan, fun hs => absurd hs hstarted⟩
    · show (p.notifying ++ queued ++ p.lost).Perm (p.notifying.erase key ++ key :: queued ++ p.lost)
      refine List.Perm.append_right _ ?_
      exact (hperm.append_right queued).trans List.perm_middle.symm
    · have hwaiting := h.waiting
      rw [waiting_eq hph] at hwaiting
      rw [List.map_cons, ← hwaiting]
      exact waiting_eq (p := { p with
        notifying := p.notifying.erase key
        resolutionJobs := key.fd :: p.resolutionJobs
        signalling := key :: p.signalling }) hph
  | false =>
    refine .same st queued
      ⟨h.reachable, h.world, h.pends.perm ?_, h.waiting, h.listens, h.scan,
        fun hs => absurd hs hstarted⟩
    show (p.notifying ++ queued ++ p.lost).Perm (p.notifying.erase key ++ queued ++ key :: p.lost)
    rw [List.append_assoc, List.append_assoc]
    refine (hperm.append_right _).trans ?_
    show (key :: (p.notifying.erase key ++ (queued ++ p.lost))).Perm _
    rw [← List.append_assoc, ← List.append_assoc]
    exact List.perm_middle.symm

-- ---------------------------------------------------------------------------
-- Runs
-- ---------------------------------------------------------------------------

theorem Refines.goes (h : Refines w₀ p w st queued) (phase : Phase) (signal : Bool)
    (resolutionJobs : List Int)
    (hwaiting : Process.waiting { p with phase, signal, resolutionJobs } = p.waiting)
    (hscan : ∀ scan, phase = .scanning scan → scan.Inside w)
    (hstarted : p.selectorThread = true) :
    Refines w₀ { p with phase, signal, resolutionJobs } w st queued :=
  ⟨h.reachable, h.world, h.pends, hwaiting.trans h.waiting, h.listens, hscan,
    fun hs => absurd hs (by simp [hstarted])⟩

theorem Refines.started (h : Refines w₀ p w st queued) (hph : p.phase ≠ .idle) :
    p.selectorThread = true := by
  by_contra hs
  exact hph (h.selectorThread (Bool.not_eq_true _ ▸ hs)).1

theorem Refines.step (h : Refines w₀ p w st queued) (h₀ : w₀.Initial) {a : Act}
    {r : Except Fault Process} (hs : p.step a = some r) : Next w₀ w r := by
  cases a with
  | poll =>
    simp only [Process.step] at hs
    split at hs
    · rename_i hph
      cases hs
      have hwaiting : p.waiting = p.resolutionJobs :=
        waiting_eq (by rw [hph]; exact fun _ => Phase.noConfusion)
      exact .same st queued ⟨h.reachable, h.world, h.pends,
        hwaiting.symm.trans h.waiting, h.listens, fun _ hs => (by cases hs), fun hs => (by cases hs)⟩
    · cases hs
  | wake answer =>
    simp only [Process.step] at hs
    split at hs
    · rename_i hph
      cases hs
      have hstarted := h.started (by rw [hph]; exact Phase.noConfusion)
      have hwaiting : p.waiting = p.resolutionJobs :=
        waiting_eq (by rw [hph]; exact fun _ => Phase.noConfusion)
      cases answer with
      | ready slaveR slaveW =>
        refine .same _ _ (h.goes _ p.signal p.resolutionJobs hwaiting.symm (fun scan hs => ?_) hstarted)
        cases hs
        refine ⟨Nat.zero_le _, ?_, fun hk => by cases hk⟩
        have hlt := h.listens.bounded.maxFd
        rw [(h.carries h₀).wired.size] at hlt
        rw [h.world]
        exact Nat.le_of_lt_succ hlt
      | interrupted =>
        exact .same _ _ (h.goes _ false p.resolutionJobs hwaiting.symm (fun _ hs => by cases hs) hstarted)
      | failed =>
        exact .same _ _ (h.goes _ p.signal p.resolutionJobs hwaiting.symm (fun _ hs => by cases hs) hstarted)
    · cases hs
  | visit io a =>
    simp only [Process.step] at hs
    split at hs
    · rename_i scan hph
      cases hs
      cases hkey : scan.key with
      | none => exact h.visit_read h₀ hph hkey io a
      | some key => exact h.visit_write h₀ hph hkey io a
    · cases hs
  | admin e =>
    simp only [Process.step] at hs
    split at hs
    · rename_i scan hph
      split at hs
      · rename_i he
        exact h.admin hph he hs
      · cases hs
    · cases hs
  | lock =>
    simp only [Process.step] at hs
    split at hs
    · rename_i hph
      cases hs
      refine .same _ _ (h.goes _ p.signal p.resolutionJobs ?_ (fun _ hs => by cases hs) ?_)
      · exact (waiting_eq (by rw [hph]; exact fun _ => Phase.noConfusion)).symm
      · exact h.started (by rw [hph]; exact Phase.noConfusion)
    · cases hs
  | notify io =>
    simp only [Process.step] at hs
    split at hs
    · rename_i fd rest hph
      cases hs
      exact h.notify h₀ hph io
    · cases hs
  | unlock =>
    simp only [Process.step] at hs
    split at hs
    · rename_i hph
      cases hs
      refine .same _ _ (h.goes _ p.signal [] ?_ (fun _ hs => by cases hs) ?_)
      · unfold Process.waiting
        rw [hph]
      · exact h.started (by rw [hph]; exact Phase.noConfusion)
    · cases hs
  | resolve key answer =>
    simp only [Process.step] at hs
    split at hs
    · rename_i hk
      cases hs
      exact h.resolve h₀ hk answer
    · cases hs
  | push key malloc =>
    simp only [Process.step] at hs
    split at hs
    · cases hs
    · rename_i hph
      split at hs
      · rename_i hk
        have hnext := h.push hk (fun rest hr => hph rest hr) malloc
        cases malloc <;> (cases hs; exact hnext)
      · cases hs
  | kill key =>
    simp only [Process.step] at hs
    split at hs
    · rename_i hk
      have hstarted : p.selectorThread = true := by
        by_contra hs'
        rw [(h.selectorThread (Bool.not_eq_true _ ▸ hs')).2.2] at hk
        cases hk
      rw [if_pos hstarted] at hs
      cases hs
      exact .same st queued ⟨h.reachable, h.world, h.pends, h.waiting,
        h.listens, h.scan, fun hs => absurd hs (by simp [hstarted])⟩
    · cases hs

theorem Reachable.refines (h₀ : p₀.Initial) (h : Reachable p₀ p) :
    ∃ w st queued, Refines p₀.world p w st queued := by
  refine h.invariant (I := fun p => ∃ w st queued, Refines p₀.world p w st queued)
    ⟨_, _, _, h₀.refines⟩ ?_
  rintro p a p' ⟨w, st, queued, hr⟩ - hs
  cases hr.step h₀.world hs with
  | same _ _ hr' => exact ⟨_, _, _, hr'⟩
  | event _ _ _ hr' => exact ⟨_, _, _, hr'⟩

end Process

end Socks5d
