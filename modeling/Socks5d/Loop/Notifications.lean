import Socks5d.Loop.Refinement
import Socks5d.Resolutions

/-!
# Notifications of resolved names

What the resolver threads and the main thread owe each other, in every
interleaving of their steps: each connection in REQUEST_RESOLV has exactly one
thread or job, and it is told of its own name only; no step is a use of a
released struct; and the main thread does not sleep over a job.
-/

namespace Socks5d.Process

open World (Carries)
open Lib (Reaches)

variable {p₀ p p' : Process} {w₀ w : World} {st : Stored} {queued : List Key} {c : ConnId}

-- ---------------------------------------------------------------------------
-- One event for a resolved name
-- ---------------------------------------------------------------------------

/-- Every interleaving of the threads leads to what the server does when a name
is resolved and told in one event, with the answers on top that were not told
yet. -/
theorem main_loop_refines (h₀ : p₀.Initial) (h : Reachable p₀ p) :
    (∃ w st queued, World.Reachable p₀.world w ∧ p.world = w.overlay st ∧
      p.waiting = queued.map Key.fd ∧
      ∀ c, (st c).isSome = true ↔ ∃ key ∈ p.notifying ++ queued ++ p.lost, key.conn = c) ∧
    (p.notifying = [] → p.waiting = [] → p.lost = [] → World.Reachable p₀.world p.world) := by
  obtain ⟨w, st, queued, hr⟩ := h.refines h₀
  refine ⟨⟨w, st, queued, hr.reachable, hr.world, hr.waiting, fun c => ?_⟩, fun hn hw hl => ?_⟩
  · rw [hr.pends.told, List.mem_map, pending]
  · have hqueued : queued = [] := by
      rw [← List.map_eq_nil_iff (f := Key.fd), ← hr.waiting, hw]
    have hstored : st = fun _ => none := by
      funext c
      have htold := hr.pends.told c
      rw [pending, hn, hqueued, hl] at htold
      simpa using htold
    rw [hr.world, hstored, World.overlay_none]
    exact hr.reachable

-- ---------------------------------------------------------------------------
-- Safety
-- ---------------------------------------------------------------------------

theorem Refines.free_of_dead (h : Refines w₀ p w st queued) (h₀ : w₀.Initial) {s : Socks5}
    (hc : w.conns c = some ⟨s, false⟩) : st c = none := by
  by_contra hst
  obtain ⟨key, hk, rfl⟩ := h.pends.key hst
  obtain ⟨v, hv, hshape, -⟩ := h.resolving h₀ (h.pends.threads key hk)
  rw [hv.conn, hshape.body.live] at hc
  cases hc

theorem Refines.dead (h : Refines w₀ p w st queued) (h₀ : w₀.Initial) {s : Socks5} :
    p.world.conns c = some ⟨s, false⟩ ↔ w.conns c = some ⟨s, false⟩ := by
  rw [h.world]
  constructor
  · intro hc
    obtain ⟨⟨s', live⟩, hw, hs⟩ := Option.map_eq_some_iff.mp hc
    have hlive : live = false := by
      cases hst : st c <;> rw [hst] at hs <;> cases hs <;> rfl
    subst hlive
    have hfree := h.free_of_dead h₀ hw
    rw [hfree] at hs
    cases hs
    exact hw
  · intro hc
    rw [World.overlay_conns (h.free_of_dead h₀ hc)]
    exact hc

/-- No thread touches a released struct or a null pointer, or leaves the table,
whatever the interleaving: a step ends the process by `abort`, or because the
kernel gave an open descriptor, and in no other way. -/
theorem process_safe (h₀ : p₀.Initial) (h : Reachable p₀ p) {a : Act} {r : Except Fault Process}
    (hs : p.step a = some r) :
    (∀ f, r = .error f → f = .abort ∨ f = .kernel) ∧
      ∀ p', r = .ok p' → ∀ c s, p.world.conns c = some ⟨s, false⟩ →
        p'.world.conns c = some ⟨s, false⟩ := by
  obtain ⟨w, st, queued, hr⟩ := h.refines h₀
  cases hr.step h₀.world hs with
  | same _ _ hr' =>
    refine ⟨fun f hf => (by cases hf), fun p' hp c s hc => ?_⟩
    cases hp
    exact (hr'.dead h₀.world).mpr ((hr.dead h₀.world).mp hc)
  | event _ _ hstep hr' =>
    refine ⟨fun f hf => (by cases hf), fun p' hp c s hc => ?_⟩
    cases hp
    have hsafe := (hr.carries h₀.world).step_safe (World.kept_trivial World.anyEvent) hstep
    exact (hr'.dead h₀.world).mpr (hsafe.2 _ rfl c s ((hr.dead h₀.world).mp hc))
  | abort => exact ⟨fun f hf => .inl (Except.error.inj hf).symm, fun p' hp => by cases hp⟩
  | kernel => exact ⟨fun f hf => .inr (Except.error.inj hf).symm, fun p' hp => by cases hp⟩

-- ---------------------------------------------------------------------------
-- Exactly one thread or job
-- ---------------------------------------------------------------------------

def inFlight (p : Process) (queued : List Key) : List Key := p.world.threads ++ p.pending queued

theorem Refines.live (h : Refines w₀ p w st queued) {s : Socks5}
    (hc : p.world.conns c = some ⟨s, true⟩) :
    ∃ s₀, w.conns c = some ⟨s₀, true⟩ ∧ s.stm = s₀.stm ∧ s.clientFd = s₀.clientFd := by
  rw [h.world] at hc
  obtain ⟨⟨s₀, live⟩, hw, hs⟩ := Option.map_eq_some_iff.mp hc
  cases hst : st c with
  | none =>
    rw [hst] at hs
    cases hs
    exact ⟨_, hw, rfl, rfl⟩
  | some answer =>
    rw [hst] at hs
    cases hs
    exact ⟨_, hw, rfl, rfl⟩

theorem Refines.inFlight_of (h : Refines w₀ p w st queued) (c : ConnId) :
    (p.inFlight queued).filter (·.conn = c) = w.threads.filter (·.conn = c) ∨
      ∃ key ∈ w.threads, key.conn = c ∧ (p.inFlight queued).filter (·.conn = c) = [key] := by
  unfold inFlight
  rw [h.world, List.filter_append]
  cases hst : st c with
  | none =>
    have hpending : (p.pending queued).filter (·.conn = c) = [] := by
      rw [List.filter_eq_nil_iff]
      intro key hk hkc
      have htold := (h.pends.told c).mpr (List.mem_map.mpr ⟨key, hk, of_decide_eq_true hkc⟩)
      rw [hst] at htold
      cases htold
    have hthreads : (w.overlay st).threads.filter (·.conn = c) = w.threads.filter (·.conn = c) := by
      simp only [World.overlay, List.filter_filter]
      refine List.filter_congr fun key _ => ?_
      by_cases hkc : key.conn = c
      · simp [hkc, hst]
      · simp [hkc]
    rw [hpending, hthreads, List.append_nil]
    exact .inl rfl
  | some answer =>
    have hthreads : (w.overlay st).threads.filter (·.conn = c) = [] := by
      rw [List.filter_eq_nil_iff]
      intro key hk hkc
      obtain ⟨-, hfree⟩ := List.mem_filter.mp hk
      rw [of_decide_eq_true hkc, hst] at hfree
      cases hfree
    obtain ⟨key, hk, hkc⟩ := h.pends.key (c := c) (by rw [hst]; exact Option.some_ne_none _)
    refine .inr ⟨key, h.pends.threads key hk, hkc, ?_⟩
    rw [hthreads, List.nil_append]
    obtain ⟨front, back, hsplit⟩ := List.append_of_mem hk
    have hnodup := h.pends.nodup
    rw [hsplit, List.map_append, List.map_cons, List.perm_middle.nodup_iff, List.nodup_cons] at hnodup
    have hnone (l : List Key) (hl : ∀ k ∈ l, k ∈ front ++ back) : l.filter (·.conn = c) = [] := by
      rw [List.filter_eq_nil_iff]
      intro k hmem hkc'
      refine hnodup.1 ?_
      rw [← List.map_append, hkc, ← of_decide_eq_true hkc']
      exact List.mem_map_of_mem (hl k hmem)
    rw [hsplit, List.filter_append, List.filter_cons_of_pos (by simpa using hkc),
      hnone front fun k hk => List.mem_append_left _ hk,
      hnone back fun k hk => List.mem_append_right _ hk, List.nil_append]

/-- A connection waits for its name if and only if one thread or one job is
there for it: in `getaddrinfo`, about to notify, in the list of jobs, or without
memory for one. No other connection has any. -/
theorem notified_once (h₀ : p₀.Initial) (h : Reachable p₀ p) :
    ∃ queued, p.waiting = queued.map Key.fd ∧
      (∀ c s, p.world.conns c = some ⟨s, true⟩ →
        (p.world.threads ++ p.notifying ++ queued ++ p.lost).filter (·.conn = c) =
          if s.stm = some .requestResolv then [⟨s.clientFd, c⟩] else []) ∧
      ∀ key ∈ p.world.threads ++ p.notifying ++ queued ++ p.lost,
        ∃ s, p.world.conns key.conn = some ⟨s, true⟩ ∧ s.stm = some .requestResolv := by
  obtain ⟨w, st, queued, hr⟩ := h.refines h₀
  have hcarries := hr.carries h₀.world
  have hall : p.world.threads ++ p.notifying ++ queued ++ p.lost = p.inFlight queued := by
    simp [inFlight, pending]
  refine ⟨queued, hr.waiting, fun c s hc => ?_, fun key hk => ?_⟩
  · obtain ⟨s₀, hw, hst, hfd⟩ := hr.live hc
    obtain ⟨v, hv, rfl, hshape, -⟩ := hcarries.live_view hw
    have hthreads : v.threads = if s.stm = some .requestResolv then [⟨s.clientFd, c⟩] else [] := by
      rw [hst, hfd, hshape.body.clientFd]
      split
      · rename_i hresolv
        exact (hshape.phase_of hresolv).2.2.2.1
      · rename_i hother
        cases hnil : v.threads with
        | nil => rfl
        | cons key rest =>
          exact absurd (hshape.of_thread (hnil ▸ List.mem_cons_self)).1 hother
    rw [hall, ← hthreads, ← hv.threads]
    rcases hr.inFlight_of c with hsame | ⟨key, hk, hkc, hone⟩
    · exact hsame
    · have hmem := hv.mem_threads hk hkc
      obtain ⟨-, honly⟩ := hshape.of_thread hmem
      rw [honly, List.mem_singleton] at hmem
      rw [hone, hv.threads, honly, hmem]
  · rw [hall] at hk
    have hthread : key ∈ w.threads := by
      unfold inFlight at hk
      rw [hr.world] at hk
      rcases List.mem_append.mp hk with hk | hk
      · exact List.mem_of_mem_filter hk
      · exact hr.pends.threads key hk
    obtain ⟨v, hv, hshape, hst, -⟩ := hr.resolving h₀.world hthread
    have hw : w.conns key.conn = some ⟨v.s, true⟩ := by
      rw [hv.conn, hshape.body.live]
    rw [hr.world]
    cases hs : st key.conn with
    | none => exact ⟨v.s, by rw [World.overlay_conns hs, hw], hst⟩
    | some answer => exact ⟨v.s.answered answer, by simp [World.overlay, hw, hs, Conn.answered], hst⟩

-- ---------------------------------------------------------------------------
-- No lost wake-up
-- ---------------------------------------------------------------------------

def Phase.early : Phase → Prop
  | .idle | .polling | .scanning _ => True
  | _ => False

/-- A job that waits while the main thread may go to sleep: the signal is
pending, or a thread is about to send it. -/
def Awake (p : Process) : Prop :=
  Phase.early p.phase → p.resolutionJobs ≠ [] → p.signal = true ∨ p.signalling ≠ []

theorem visitItem_rest {scan : Scan} {io : Io} {a : World.Accept}
    (h : p.visitItem scan io a = .ok p') :
    p'.resolutionJobs = p.resolutionJobs ∧ p'.signal = p.signal ∧ p'.signalling = p.signalling := by
  obtain ⟨item, -, h⟩ := Lib.bind_ok h
  have hnext {x : Except Fault World} {phase : Phase}
      (hx : (do return { p with world := ← x, phase } : Except Fault Process) = .ok p') :
      p'.resolutionJobs = p.resolutionJobs ∧ p'.signal = p.signal ∧ p'.signalling = p.signalling := by
    obtain ⟨world, -, hx⟩ := Lib.bind_ok hx
    cases hx
    exact ⟨rfl, rfl, rfl⟩
  split at h
  · split at h
    · dsimp only at h
      split at h
      · exact hnext h
      · exact hnext h
    · cases h
      exact ⟨rfl, rfl, rfl⟩
  · dsimp only at h
    split at h
    · exact hnext h
    · exact hnext h

theorem Awake.step {a : Act} (h : p.Awake) (hs : p.step a = some (.ok p')) : p'.Awake := by
  cases a with
  | poll =>
    simp only [Process.step] at hs
    split at hs
    · rename_i hph
      cases hs
      exact fun _ hjobs => h (by rw [hph]; trivial) hjobs
    · cases hs
  | wake answer =>
    simp only [Process.step] at hs
    split at hs
    · rename_i hph
      cases hs
      cases answer with
      | ready readyR readyW => exact fun _ hjobs => h (by rw [hph]; trivial) hjobs
      | interrupted => exact fun hearly => hearly.elim
      | failed => exact fun hearly => hearly.elim
    · cases hs
  | visit io a =>
    simp only [Process.step] at hs
    split at hs
    · rename_i scan hph
      obtain ⟨hjobs, hsignal, hsignalling⟩ := visitItem_rest (Option.some.inj hs)
      unfold Awake
      rw [hjobs, hsignal, hsignalling]
      exact fun _ hne => h (by rw [hph]; trivial) hne
    · cases hs
  | admin e =>
    simp only [Process.step] at hs
    split at hs
    · rename_i scan hph
      split at hs
      · obtain ⟨r, -, hr⟩ := Option.map_eq_some_iff.mp hs
        obtain ⟨world, -, hr⟩ := Lib.bind_ok hr
        cases hr
        exact h
      · cases hs
    · cases hs
  | lock =>
    simp only [Process.step] at hs
    split at hs
    · cases hs
      exact fun hearly => hearly.elim
    · cases hs
  | notify io =>
    simp only [Process.step] at hs
    split at hs
    · obtain ⟨world, -, hs⟩ := Lib.bind_ok (Option.some.inj hs)
      cases hs
      exact fun hearly => hearly.elim
    · cases hs
  | unlock =>
    simp only [Process.step] at hs
    split at hs
    · cases hs
      exact fun _ hjobs => absurd rfl hjobs
    · cases hs
  | resolve key answer =>
    simp only [Process.step] at hs
    split at hs
    · obtain ⟨world, -, hs⟩ := Lib.bind_ok (Option.some.inj hs)
      cases hs
      exact h
    · cases hs
  | push key malloc =>
    simp only [Process.step] at hs
    split at hs
    · cases hs
    · split at hs
      · split at hs
        · cases hs
          exact fun _ _ => .inr (List.cons_ne_nil _ _)
        · cases hs
          exact h
      · cases hs
  | kill key =>
    simp only [Process.step] at hs
    split at hs
    · split at hs
      · cases hs
        exact fun _ _ => .inl rfl
      · cases hs
    · cases hs

theorem Reachable.awake (h₀ : p₀.Initial) (h : Reachable p₀ p) : p.Awake :=
  h.invariant (I := Awake) (fun _ hjobs => absurd h₀.resolutionJobs hjobs)
    fun _ _ _ hi _ hs => hi.step hs

/-- A main thread that sleeps over jobs is woken, and then it has all of them to
tell. -/
theorem wakes_up (h₀ : p₀.Initial) (h : Reachable p₀ p) (hpoll : p.phase = .polling)
    (hjobs : p.resolutionJobs ≠ []) :
    ∃ signalling, Reaches Process.step Allowed p
      { p with phase := .draining p.resolutionJobs, signal := false, signalling } := by
  -- once the signal is pending
  have hpending (q : Process) (hq : q.phase = .polling) (hsignal : q.signal = true) :
      Reaches Process.step Allowed q
        { q with phase := .draining q.resolutionJobs, signal := false } := by
    have hwake : q.step (.wake .interrupted) =
        some (.ok { q with signal := false, phase := .scanned }) := by
      simp only [Process.step, hq]
      rfl
    exact (Reaches.start.next (a := .wake .interrupted) hsignal hwake).next (a := .lock) trivial rfl
  rcases h.awake h₀ (by rw [hpoll]; trivial) hjobs with hsignal | hthread
  · exact ⟨p.signalling, hpending p hpoll hsignal⟩
  · obtain ⟨key, hk⟩ := List.exists_mem_of_ne_nil _ hthread
    obtain ⟨w, st, queued, hr⟩ := h.refines h₀
    have hkill : p.step (.kill key) =
        some (.ok { p with signalling := p.signalling.erase key, signal := true }) := by
      simp only [Process.step, hk, hr.started (by rw [hpoll]; exact Phase.noConfusion), ↓reduceIte]
    refine ⟨p.signalling.erase key, ?_⟩
    exact (Reaches.start.next (a := .kill key) trivial hkill).trans
      (hpending { p with signalling := p.signalling.erase key, signal := true } hpoll rfl)

def Exhausted (io : Io) : Prop := io.socket = none ∧ ∃ errno, io.connect = some errno ∧ errno ≠ 0

def GoneOn (w : World) (c : ConnId) : Prop :=
  ∃ conn, w.conns c = some conn ∧ conn.s.stm ≠ some .requestResolv

theorem told_gone {key : Key} {answer : Option (List AddrInfo)} {io : Io} {r : Except Fault World}
    (hcarries : Carries (fun _ => True) (fun _ _ => True) w) (hio : Exhausted io)
    (hs : w.step (.resolved key answer io) = some r) :
    ∃ w', r = .ok w' ∧ GoneOn w' key.conn ∧ ∀ c, c ≠ key.conn → GoneOn w c → GoneOn w' c := by
  obtain ⟨hsocket, errno, hconnect, hzero⟩ := hio
  obtain ⟨v, hv, hshape, -, hst, hd⟩ := hcarries.resolved hs
  cases hd with
  | @ok w' v' hstep hrel =>
    refine ⟨w', rfl, ⟨_, hrel.shows.conn, ?_⟩, fun c hne => ?_⟩
    · cases hstep with
      | resolved _ hres =>
        rw [View.settle_stm]
        cases hres with
        | unreachable => exact nofun
        | connect _ hc => rcases hc.ret_cases with h | h <;> rw [h] <;> exact nofun
    · rintro ⟨conn, hc, hgone⟩
      exact ⟨conn, (hrel.others.conns c hne).trans hc, hgone⟩
  | error hf =>
    exfalso
    rcases hf with (⟨-, h | ⟨h, -⟩⟩ | ⟨-, h | h⟩) | ⟨-, n, owner, h, -⟩
    · rw [hconnect] at h
      cases h
    · rw [hst] at h
      cases h
    · rw [hconnect] at h
      exact hzero (Option.some.inj h)
    · rw [hsocket] at h
      cases h
    · rw [hsocket] at h
      cases h

theorem Refines.drain (h : Refines w₀ p w st queued) (h₀ : w₀.Initial) {rest : List Int}
    (hph : p.phase = .draining rest) {io : Io} (hio : Exhausted io) :
    ∃ p' w' st', Reaches Process.step Allowed p p' ∧ p'.phase = .draining [] ∧
      Refines w₀ p' w' st' [] ∧ (∀ c, c ∈ queued.map Key.conn → GoneOn w' c) ∧
      ∀ c, c ∉ queued.map Key.conn → GoneOn w c → GoneOn w' c := by
  induction rest generalizing p w st queued with
  | nil =>
    have hqueued : queued = [] := by
      have hwaiting := h.waiting
      unfold Process.waiting at hwaiting
      rw [hph] at hwaiting
      exact List.map_eq_nil_iff.mp hwaiting.symm
    subst hqueued
    exact ⟨p, w, st, .start, hph, h, fun c hc => absurd hc List.not_mem_nil, fun c _ hc => hc⟩
  | cons fd rest ih =>
    obtain ⟨key, queued', answer, r, rfl, hstep, hblock, hok⟩ := h.told h₀ hph io
    obtain ⟨w₁, rfl, hgone, hothers⟩ := told_gone (h.carries h₀) hio hstep
    have hnotify : p.step (.notify io) = some (.ok { p with
        world := w₁.overlay (Function.update st key.conn none), phase := .draining rest }) := by
      simp only [Process.step, hph, hblock]
      rfl
    obtain ⟨p', w', st', hrun, hph', hr', hall, hrest⟩ := ih (hok w₁ rfl) rfl
    have hnew : key.conn ∉ queued'.map Key.conn := by
      have hnodup := h.pends.nodup
      unfold pending at hnodup
      rw [List.append_assoc, List.map_append] at hnodup
      have hqueue := (List.nodup_append.mp hnodup).2.1
      rw [List.cons_append, List.map_cons, List.nodup_cons] at hqueue
      intro hmem
      refine hqueue.1 ?_
      rw [List.map_append]
      exact List.mem_append_left _ hmem
    refine ⟨p', w', st', (Reaches.start.next (a := .notify io) trivial hnotify).trans hrun, hph', hr',
      fun c hc => ?_, fun c hc hgone' => ?_⟩
    · rcases List.mem_cons.mp hc with rfl | hc
      · exact hrest _ hnew hgone
      · exact hall c hc
    · rw [List.map_cons, List.mem_cons, not_or] at hc
      exact hrest c hc.2 (hothers c hc.1 hgone')

/-- A main thread that sleeps over jobs comes back to `selector_select` with all
of them told, without any descriptor becoming ready: the connections waited for
their names, and go on. -/
theorem told_while_asleep (h₀ : p₀.Initial) (h : Reachable p₀ p) (hpoll : p.phase = .polling)
    (hjobs : p.resolutionJobs ≠ []) :
    ∃ p', Reaches Process.step Allowed p p' ∧ p'.phase = .idle ∧ p'.resolutionJobs = [] ∧
      ∃ queued : List Key, p.resolutionJobs = queued.map Key.fd ∧ ∀ key ∈ queued,
        (∃ s, p.world.conns key.conn = some ⟨s, true⟩ ∧ s.stm = some .requestResolv) ∧
        ∃ conn, p'.world.conns key.conn = some conn ∧ conn.s.stm ≠ some .requestResolv := by
  obtain ⟨signalling, hwake⟩ := wakes_up h₀ h hpoll hjobs
  obtain ⟨w, st, queued, hr⟩ := Reachable.refines h₀ (h.trans hwake)
  have hio : Exhausted { connect := some 1 } := ⟨rfl, 1, rfl, Nat.one_ne_zero⟩
  obtain ⟨p', w', st', hdrain, hph', hr', hall, -⟩ := hr.drain h₀.world rfl hio
  have hunlock : p'.step .unlock = some (.ok { p' with resolutionJobs := [], phase := .idle }) := by
    simp only [Process.step, hph']
  refine ⟨_, (hwake.trans hdrain).next (a := .unlock) trivial hunlock, rfl, rfl, queued, hr.waiting,
    fun key hk => ⟨?_, ?_⟩⟩
  · have hmem : key ∈ p.notifying ++ queued ++ p.lost := by simp [hk]
    obtain ⟨v, hv, hshape, hst, -⟩ := hr.resolving h₀.world (hr.pends.threads key hmem)
    obtain ⟨answer, hanswer⟩ := hr.pends.stored hmem
    have hw : w.conns key.conn = some ⟨v.s, true⟩ := by
      rw [hv.conn, hshape.body.live]
    have hworld : p.world = w.overlay st := hr.world
    refine ⟨v.s.answered answer, ?_, hst⟩
    rw [hworld]
    simp [World.overlay, hw, hanswer, Conn.answered]
  · obtain ⟨conn, hc, hst⟩ := hall key.conn (List.mem_map_of_mem hk)
    refine ⟨conn.answered (st' key.conn), ?_, ?_⟩
    · show p'.world.conns key.conn = _
      rw [hr'.world]
      simp [World.overlay, hc]
    · cases hs : st' key.conn with
      | none => exact hst
      | some answer => exact hst

-- ---------------------------------------------------------------------------
-- Concrete runs
-- ---------------------------------------------------------------------------

def startUp (users : Users) : Process := { world := World.startUp users }

theorem startUp_initial {users : Users} (h : users.registered ≤ maxUsers) :
    (startUp users).Initial := by
  have hempty := Selector.ok_empty (η := FdHandler) (δ := ConnId) (fdSetSize + 1)
  obtain ⟨sel, hreg, -, -, -, -, hself, hother⟩ := Selector.register_spec hempty (n := 3)
    (by decide) (by rw [List.length_replicate]; decide) (Selector.entry_empty _ _) true
    FdHandler.passive opRead none
  have hsel : World.startSelector = sel := by
    unfold World.startSelector
    rw [hreg]
  have hbounded : Selector.Bounded
      ({ fds := List.replicate (fdSetSize + 1) {} } : Selector FdHandler ConnId) :=
    ⟨hempty, by rw [List.length_replicate]; exact Nat.succ_pos _⟩
  refine ⟨World.startUp_initial h, ?_, fun {n item} he => ?_, rfl, rfl, rfl, rfl, rfl, rfl, rfl⟩
  · simp only [startUp, World.startUp, hsel]
    exact hbounded.register hreg
  · simp only [startUp, World.startUp, hsel] at he
    by_cases hn : n = 3
    · subst hn
      rw [hself] at he
      cases he
      rfl
    · rw [hother n hn, Selector.entry_empty] at he
      cases he

/-- One turn of the main loop: items with nothing ready, the rest of the
iteration, and no job. -/
def turn (answer : Poll) (idle : Nat) (visits : List Act) : List Act :=
  [.poll, .wake answer] ++ List.replicate idle (.visit {} {}) ++ visits ++ [.lock, .unlock]

def asksForName : List Act :=
  turn (.ready [3] []) 3 [.visit {} { answer := some (4, {}) }, .visit {} {}] ++
    turn (.ready [4] []) 5 [.visit { recv := some [5, 1, 0] } {}, .visit {} {}] ++
    turn (.ready [] [4]) 6 [.visit { send := some 2 } {}] ++
    turn (.ready [4] []) 5
      [.visit { recv := some [5, 1, 0, 3, 1, 0x61, 0, 80] } {}, .visit {} {}]

/-- The main thread goes to sleep; then the name is resolved, and the thread has
its job in the list but did not send the signal yet. -/
def asleep : List Act :=
  asksForName ++ [.poll, .resolve ⟨4, 0⟩ (some [⟨afInet, {}⟩]), .push ⟨4, 0⟩ true]

theorem asleep_run : ∃ p s, Reachable (startUp {}) p ∧ p.phase = .polling ∧
    p.resolutionJobs = [4] ∧ p.signalling = [⟨4, 0⟩] ∧ p.selectorThread = true ∧
    p.world.conns 0 = some ⟨s, true⟩ ∧ s.stm = some .requestResolv ∧ s.clientFd = 4 := by
  have hrun : Lib.endsIn (fun p : Process => p.phase.isPolling &&
        decide (p.resolutionJobs = [4] ∧ p.signalling = [⟨4, 0⟩] ∧ p.selectorThread = true) &&
        (p.world.conns 0).any fun conn => conn.live &&
          decide (conn.s.stm = some .requestResolv ∧ conn.s.clientFd = 4))
      (Lib.play Process.step Allowed (startUp {}) asleep) = true := by decide +kernel
  obtain ⟨p, hplay, hend⟩ := Lib.endsIn_iff.mp hrun
  obtain ⟨hend, hconn⟩ := Bool.and_eq_true_iff.mp hend
  obtain ⟨hphase, hjobs⟩ := Bool.and_eq_true_iff.mp hend
  obtain ⟨hjobs, hthreads⟩ := of_decide_eq_true hjobs
  obtain ⟨⟨s, live⟩, hc, hconn⟩ := (Option.any_eq_true ..).mp hconn
  obtain ⟨rfl, hstate⟩ := Bool.and_eq_true_iff.mp hconn
  obtain ⟨hst, hfd⟩ := of_decide_eq_true hstate
  refine ⟨p, s, Lib.reaches_of_play hplay, ?_, hjobs, hthreads.1, hthreads.2, hc, hst, hfd⟩
  cases hp : p.phase with
  | polling => rfl
  | _ =>
    rw [hp] at hphase
    cases hphase

theorem main_loop_refines_asleep : ∃ p, Reachable (startUp {}) p ∧ p.phase = .polling ∧
    ∃ w st queued, World.Reachable (World.startUp {}) w ∧ p.world = w.overlay st ∧
      p.waiting = queued.map Key.fd ∧
      ∀ c, (st c).isSome = true ↔ ∃ key ∈ p.notifying ++ queued ++ p.lost, key.conn = c := by
  obtain ⟨p, s, hreach, hphase, -⟩ := asleep_run
  exact ⟨p, hreach, hphase, (main_loop_refines (startUp_initial (by decide)) hreach).1⟩

theorem process_safe_kill : ∃ p p', Reachable (startUp {}) p ∧
    p.step (.kill ⟨4, 0⟩) = some (.ok p') ∧
    ∀ c s, p.world.conns c = some ⟨s, false⟩ → p'.world.conns c = some ⟨s, false⟩ := by
  obtain ⟨p, s, hreach, -, -, hthread, hstarted, -⟩ := asleep_run
  have hstep : p.step (.kill ⟨4, 0⟩) =
      some (.ok { p with signalling := p.signalling.erase ⟨4, 0⟩, signal := true }) := by
    simp [Process.step, hthread, hstarted]
  exact ⟨p, _, hreach, hstep, (process_safe (startUp_initial (by decide)) hreach hstep).2 _ rfl⟩

theorem notified_once_asleep : ∃ p queued, Reachable (startUp {}) p ∧ p.resolutionJobs = [4] ∧
    (p.world.threads ++ p.notifying ++ queued ++ p.lost).filter (·.conn = 0) = [⟨4, 0⟩] := by
  obtain ⟨p, s, hreach, -, hjobs, -, -, hc, hst, hfd⟩ := asleep_run
  obtain ⟨queued, -, hall, -⟩ := notified_once (startUp_initial (by decide)) hreach
  have honly := hall 0 s hc
  rw [if_pos hst, hfd] at honly
  exact ⟨p, queued, hreach, hjobs, honly⟩

theorem told_while_asleep_name : ∃ p p', Reachable (startUp {}) p ∧ p.resolutionJobs = [4] ∧
    Reaches Process.step Allowed p p' ∧ p'.phase = .idle ∧ p'.resolutionJobs = [] := by
  obtain ⟨p, s, hreach, hphase, hjobs, -⟩ := asleep_run
  obtain ⟨p', hrun, hidle, hnil, -⟩ := told_while_asleep (startUp_initial (by decide)) hreach hphase
    (by simp [hjobs])
  exact ⟨p, p', hreach, hjobs, hrun, hidle, hnil⟩

end Socks5d.Process
