import Socks5d.Relay

/-!
# Connections do not disturb each other

`View.replay` runs the handlers of one connection over its own events alone, with
the process-wide variables as they were at each event. In every run of the server a
connection is where its replay ends, whatever the other connections did in between.
So two runs in which it sees the same, however they differ elsewhere, leave it with
the same struct and the same descriptors.
-/

namespace Socks5d

namespace View

def react (c : ConnId) (v : View) : ConnEvent → Except Fault View
  | .ready fd write io => do
    let (v, _) ← (socksv5Ready write ⟨fd, c⟩).run (View.exec io c) v
    return v
  | .resolved answer io => do
    let (v, _) ← (Handler.requestResolvBlocking answer).run (View.exec io c) { v with threads := [] }
    let (v, _) ← (Handler.socksv5Block ⟨v.fd, c⟩).run (View.exec io c) v
    return v

/-- The events of a connection, each with the process-wide variables it met. -/
def replay (c : ConnId) (v : View) (history : List (Globals × ConnEvent)) : Except Fault View :=
  history.foldlM (fun v e => { v with globals := e.1 }.react c e.2) v

theorem replay_concat (c : ConnId) (v : View) (history : List (Globals × ConnEvent)) (g : Globals)
    (ce : ConnEvent) : replay c v (history ++ [(g, ce)]) =
      replay c v history >>= fun v => { v with globals := g }.react c ce := by
  unfold replay
  rw [List.foldlM_append]
  simp

end View

namespace World

open View

variable {w₀ w w' : World} {c : ConnId} {fd : Nat} {addr : SockAddr}
  {history : List (Globals × ConnEvent)}

/-- The server in a run from `w₀` in which the connection `c` was accepted on the
descriptor `fd` and then had the events of `history`. -/
inductive Lives (w₀ : World) (c : ConnId) (fd : Nat) (addr : SockAddr) :
    List (Globals × ConnEvent) → World → Prop
  | accepted {w : World} {s : Socks5} (h : Reachable w₀ w) (hc : w.conns c = some ⟨s, true⟩)
      (hst : s.stm = none) (hfd : s.clientFd = fd) (haddr : s.clientAddr = addr) :
      Lives w₀ c fd addr [] w
  | own {history : List (Globals × ConnEvent)} {w w' : World} {e : Event} {ce : ConnEvent}
      (h : Lives w₀ c fd addr history w) (hcon : w.concerns e = some (c, ce))
      (hs : w.step e = some (.ok w')) : Lives w₀ c fd addr (history ++ [(w.globals, ce)]) w'
  | other {history : List (Globals × ConnEvent)} {w w' : World} {e : Event}
      (h : Lives w₀ c fd addr history w) (hcon : ∀ ce, w.concerns e ≠ some (c, ce))
      (hs : w.step e = some (.ok w')) : Lives w₀ c fd addr history w'

theorem Lives.reachable (h : Lives w₀ c fd addr history w) : Reachable w₀ w := by
  induction h with
  | accepted h => exact h
  | own _ _ hs ih | other _ _ hs ih => exact .next ih (fun _ _ _ _ _ => trivial) hs

-- ---------------------------------------------------------------------------
-- One event
-- ---------------------------------------------------------------------------

/-- A handler does over the server what it does over the connection alone. -/
theorem handle_shows (hw : w.Wired) {v : View} (hv : w.Shows c v) {io : Io} {p : Handler Unit}
    {Q : View → Unit → Prop} {E : Fault → Prop} (hm : Lib.Prog.Meets (View.exec io c) p v Q E)
    (hE : ¬ E .foreign) (hs : w.handle io c p = .ok w') :
    ∃ v', p.run (View.exec io c) v = .ok (v', ()) ∧ Q v' () ∧ Rel w c w' v' := by
  have hin : p.run (View.exec io c) v ≠ .error .foreign := by
    intro he
    rw [Lib.Prog.Meets, he] at hm
    exact hE hm
  have hagree := handler_agrees hw hv io p hin
  unfold World.handle at hs
  unfold Lib.Prog.Meets at hm
  generalize p.run (World.exec io c) w = x at hagree hs
  generalize p.run (View.exec io c) v = y at hagree hm
  cases hagree with
  | excuse | fault => cases hs
  | @done _ v' _ hrel =>
    cases hs
    exact ⟨v', rfl, hm, hrel⟩

theorem Shows.react_ready (hw : w.Wired) {v : View} (hv : w.Shows c v) (hshape : v.Shape c)
    {n : Nat} {write : Bool} {io : Io} {ce : ConnEvent}
    (hcon : w.concerns (.ready n write io) = some (c, ce))
    (hs : w.step (.ready n write io) = some (.ok w')) :
    ∃ v', v.react c ce = .ok v' ∧ View.Step c v ce v' ∧ Rel w c w' v' := by
  cases ht : w.target n write with
  | none => simp [concerns, ht] at hcon
  | some item =>
    obtain ⟨hentry, hwants⟩ := target_iff.mp ht
    have hfd := hw.sel.fd_eq hentry
    obtain ⟨ifd, interest, handler, data, serial⟩ := item
    rcases hw.items hentry with ⟨hh, hd, -⟩ | ⟨c', hh, hd, hfile⟩
    · subst hh hd
      simp [concerns, ht] at hcon
    · subst hh hd
      obtain ⟨rfl, rfl⟩ : c' = c ∧ .ready n write io = ce := by simpa [concerns, ht] using hcon
      have hen : v.Enabled n write := by
        unfold View.Enabled
        rw [← hv.link, World.link, if_pos hfile, hentry]
        exact hwants
      have hrun : w.handle io c' (View.socksv5Ready write ⟨n, c'⟩) = .ok w' := by
        rw [← hfd]
        simpa [World.step, ht, View.socksv5Ready] using hs
      obtain ⟨v', hreact, ⟨v₁, ret, hout, rfl⟩, hrel'⟩ :=
        handle_shows hw hv (ready_meets io hshape hen) not_faults_foreign hrun
      exact ⟨_, by rw [View.react, hreact]; rfl, .ready hen hout, hrel'⟩

theorem Shows.react_resolved (hw : w.Wired) {v : View} (hv : w.Shows c v) (hshape : v.Shape c)
    {key : Key} {answer : Option (List AddrInfo)} {io : Io} {ce : ConnEvent}
    (hcon : w.concerns (.resolved key answer io) = some (c, ce))
    (hs : w.step (.resolved key answer io) = some (.ok w')) :
    ∃ v', v.react c ce = .ok v' ∧ View.Step c v ce v' ∧ Rel w c w' v' := by
  obtain ⟨kfd, kconn⟩ := key
  obtain ⟨rfl, rfl⟩ : kconn = c ∧ .resolved answer io = ce := by simpa [concerns] using hcon
  by_cases hmem : ⟨kfd, kconn⟩ ∈ w.threads
  · have hmem' : ⟨kfd, kconn⟩ ∈ v.threads := by
      rw [← hv.threads]
      exact List.mem_filter.mpr ⟨hmem, by simp⟩
    obtain ⟨hst, hthreads⟩ := hshape.of_thread hmem'
    obtain ⟨hclient, -⟩ := hshape.phase_of hst
    rw [hthreads, List.mem_singleton] at hmem'
    obtain rfl : kfd = v.fd := congrArg Key.fd hmem'
    simp only [World.step, hmem, ↓reduceIte, Option.some.injEq] at hs
    obtain ⟨w₂, hrun, hs⟩ := Lib.bind_ok hs
    -- the thread stores its answer
    have hrel := joined_rel hw hv hthreads
    have hstore : Lib.Prog.Meets (View.exec io kconn) (Handler.requestResolvBlocking answer)
        { v with threads := [] } (fun v' _ => v' = v.answered answer) (fun _ => False) :=
      Lib.Prog.meets_of_run (View.requestResolvBlocking_run hshape.body.live answer) rfl
    obtain ⟨v₂, hreact₂, rfl, hrel₂⟩ := handle_shows hrel.wired hrel.shows hstore id hrun
    -- and is notified
    have hrel' : Rel w kconn w₂ (v.answered answer) :=
      ⟨hrel₂.wired, hrel₂.shows, hrel.others.trans hrel₂.others⟩
    have hlink : (v.answered answer).link v.fd = .watched opNoop := by
      rw [View.link, if_pos (by rfl)]
      exact hclient
    obtain ⟨item, hentry, hh, hd, -⟩ := hrel'.entry_watched hlink
    have hreg : w₂.sel.registered v.fd = .ok (some item) := by
      rw [Selector.registered_eq _ hshape.body.fd_lt (size_lt hrel' hshape.body.fd_lt), hentry]
    have hfd := hrel'.wired.sel.fd_eq hentry
    simp only [hreg, hh, hd, hfd, Bind.bind, Except.bind] at hs
    obtain ⟨v', hreact, ⟨v₁, ret, hres, rfl⟩, hrel₃⟩ := handle_shows hrel'.wired hrel'.shows
      (View.block_meets io hshape hst answer ⟨v.fd, kconn⟩) not_faults_foreign hs
    refine ⟨_, ?_, .resolved hst hres, hrel₃.wired, hrel₃.shows, hrel'.others.trans hrel₃.others⟩
    simp only [View.react, hreact₂, Bind.bind, Except.bind]
    rw [show (v.answered answer).fd = v.fd from rfl, hreact]
    rfl
  · simp [World.step, hmem] at hs

-- ---------------------------------------------------------------------------
-- Runs
-- ---------------------------------------------------------------------------

theorem untouched_kept : Kept anyEvent (fun _ => True) fun _ v =>
    v.s.stm = none → v.s = { clientFd := v.s.clientFd, clientAddr := v.s.clientAddr } where
  step _ _ _ _ hstep := by
    refine ⟨fun hst => ?_, trivial⟩
    cases hstep <;> (rw [settle_stm] at hst; cases hst)
  frame _ hv _ := hv
  fresh _ _ _ := rfl
  turnedAway _ _ _ := rfl

theorem Reachable.accepted (h₀ : w₀.Initial) (h : Reachable w₀ w) {s : Socks5}
    (hc : w.conns c = some ⟨s, true⟩) (hst : s.stm = none) (hfd : s.clientFd = fd) :
    w.Shows c (View.fresh w.globals fd s.clientAddr) ∧ fd < fdSetSize := by
  have hcarries := reaches_carries untouched_kept ⟨fun _ _ h => h, fun _ _ h => h⟩ h₀ trivial h
  obtain ⟨v, hv, rfl, hshape, huntouched⟩ := hcarries.live_view hc
  have hphase := hshape.phase
  rw [hst] at hphase
  obtain ⟨hclient, ⟨hpeer, -⟩, -, hthreads⟩ := hphase
  have hvfd : v.fd = fd := by
    have := hshape.body.clientFd
    omega
  refine ⟨⟨rfl, ?_, fun n => ?_, hv.threads.trans hthreads⟩, hvfd ▸ hshape.body.fd_lt⟩
  · rw [hc, huntouched hst, hfd]
    rfl
  · rw [hv.link]
    by_cases hn : n = fd <;> simp [View.link, View.fresh, hclient, hpeer, hvfd, hn]

theorem Carries.concerned {G : Globals → Prop} {I : ConnId → View → Prop} (h : Carries G I w)
    {e : Event} {ce : ConnEvent} (hcon : w.concerns e = some (c, ce))
    (hs : w.step e = some (.ok w')) : ∃ s, w.conns c = some ⟨s, true⟩ := by
  cases e with
  | ready n write io =>
    obtain ⟨c', v, hcon', hv, hshape, -⟩ := h.ready hs
    rw [hcon, Option.some.injEq, Prod.mk.injEq] at hcon'
    obtain ⟨rfl, -⟩ := hcon'
    exact ⟨v.s, by rw [hv.conn, hshape.body.live]⟩
  | resolved key answer io =>
    obtain ⟨v, hv, hshape, -⟩ := h.resolved hs
    obtain ⟨rfl, -⟩ : key.conn = c ∧ _ := by simpa [concerns] using hcon
    exact ⟨v.s, by rw [hv.conn, hshape.body.live]⟩
  | _ => cases hcon

theorem Lives.replayed (h₀ : w₀.Initial) (g : Globals) (h : Lives w₀ c fd addr history w) :
    ∃ v, replay c (View.fresh g fd addr) history = .ok v ∧ w.Shows c { v with globals := w.globals } ∧
      (({ v with globals := w.globals } : View).Shape c ∨
        ({ v with globals := w.globals } : View).Ended) := by
  have hcarries {w : World} (h : Reachable w₀ w) : Carries (fun _ => True) (fun _ _ => True) w :=
    h.carries h₀
  induction h with
  | accepted h hc hst hfd haddr =>
    obtain ⟨hshows, hlt⟩ := h.accepted h₀ hc hst hfd
    subst haddr
    exact ⟨_, rfl, hshows, .inl (View.fresh_shape _ _ hlt)⟩
  | @own history w w' e ce h hcon hs ih =>
    obtain ⟨v, hreplay, hshows, hshape⟩ := ih
    obtain ⟨s, hc⟩ := (hcarries h.reachable).concerned hcon hs
    replace hshape : ({ v with globals := w.globals } : View).Shape c :=
      hshape.resolve_right fun hended => by
        rw [hshows.conn, hended.live] at hc
        cases hc
    have hw := (hcarries h.reachable).wired
    obtain ⟨v', hreact, hstep, hrel⟩ : ∃ v', ({ v with globals := w.globals } : View).react c ce =
        .ok v' ∧ View.Step c { v with globals := w.globals } ce v' ∧ Rel w c w' v' := by
      cases e with
      | ready n write io => exact hshows.react_ready hw hshape hcon hs
      | resolved key answer io => exact hshows.react_resolved hw hshape hcon hs
      | _ => cases hcon
    have hglobals : ({ v' with globals := w'.globals } : View) = v' := by rw [hrel.shows.globals]
    refine ⟨v', ?_, hglobals ▸ hrel.shows, hglobals ▸ hstep.shape hshape⟩
    rw [replay_concat, hreplay]
    exact hreact
  | @other history w w' e h hcon hs ih =>
    obtain ⟨v, hreplay, hshows, hshape⟩ := ih
    refine ⟨v, hreplay, ?_, hshape.imp (·.setGlobals _)
      fun he => ⟨he.live, he.client, he.peer, he.threads⟩⟩
    rcases (hcarries h.reachable).step_cases (kept_trivial anyEvent) hs with
      ⟨c', v', ce, v'', hcon', -, -, -, -, hrel⟩ | houtside
    · have hne : c ≠ c' := by
        rintro rfl
        exact hcon ce hcon'
      exact hshows.of_sameOthers hne hrel.others
    · exact houtside.shows c { v with globals := w.globals }
        ((hcarries h.reachable).wired.lt_allocated hshows.conn)
        hshows

/-- Connections do not disturb each other: two runs, of two servers even, in which a
connection was accepted alike and had the same events under the same process-wide
variables leave it with the same struct, descriptors and threads, whatever the other
connections did. These are what its handlers alone make of its events. -/
theorem connections_isolated {w₀' : World} (h₀ : w₀.Initial) (h₀' : w₀'.Initial)
    (h : Lives w₀ c fd addr history w) (h' : Lives w₀' c fd addr history w') (g : Globals) :
    ∃ v, replay c (View.fresh g fd addr) history = .ok v ∧
      (w.conns c = some ⟨v.s, v.live⟩ ∧ w'.conns c = some ⟨v.s, v.live⟩) ∧
      (w.link c = v.link ∧ w'.link c = v.link) ∧
      w.threads.filter (·.conn = c) = v.threads ∧ w'.threads.filter (·.conn = c) = v.threads := by
  obtain ⟨v, hreplay, hshows, -⟩ := h.replayed h₀ g
  obtain ⟨v', hreplay', hshows', -⟩ := h'.replayed h₀' g
  rw [hreplay, Except.ok.injEq] at hreplay'
  subst hreplay'
  exact ⟨v, hreplay, ⟨hshows.conn, hshows'.conn⟩, ⟨funext hshows.link, funext hshows'.link⟩,
    hshows.threads, hshows'.threads⟩

-- ---------------------------------------------------------------------------
-- Two concrete runs
-- ---------------------------------------------------------------------------

def ownEvents (c : ConnId) (w : World) : List Event → List (Globals × ConnEvent)
  | [] => []
  | e :: events =>
    let own := (w.concerns e).toList.filterMap fun (c', ce) =>
      if c' = c then some (w.globals, ce) else none
    match w.step e with
    | some (.ok w') => own ++ ownEvents c w' events
    | _ => own

theorem Lives.played (h : Lives w₀ c fd addr history w) {events : List Event}
    (hplay : play (Meets anyEvent) w events = some (.ok w')) :
    Lives w₀ c fd addr (history ++ ownEvents c w events) w' := by
  induction events generalizing w history with
  | nil =>
    cases hplay
    rwa [ownEvents, List.append_nil]
  | cons e events ih =>
    obtain ⟨-, ⟨f, -, hf⟩ | ⟨w₁, hs, hplay⟩⟩ := Lib.play_cons hplay
    · cases hf
    rw [ownEvents, hs, ← List.append_assoc]
    refine ih ?_ hplay
    cases hcon : w.concerns e with
    | none =>
      rw [Option.toList_none, List.filterMap_nil, List.append_nil]
      exact h.other (by simp [hcon]) hs
    | some own =>
      obtain ⟨c', ce⟩ := own
      by_cases hc : c' = c
      · subst hc
        simpa using h.own hcon hs
      · have hnone : ∀ ce, w.concerns e ≠ some (c, ce) := by simp [hcon, hc]
        simpa [hc] using h.other hnone hs

deriving instance DecidableEq for Globals, Io, ConnEvent

def greetsAlone : List Event :=
  [.accept 3 { answer := some (5, {}) }, .ready 4 false { recv := some [5, 1, 0] },
    .ready 4 true { send := some 1 }, .ready 4 true { send := some 1 }]

def greetsBoth : List Event :=
  [.accept 3 { answer := some (5, {}) }, .ready 4 false { recv := some [5, 1, 0] },
    .ready 5 false { recv := some [5, 1] }, .ready 4 true { send := some 1 },
    .ready 5 false { recv := some [2] }, .ready 5 true { send := some 2 },
    .ready 4 true { send := some 1 }]

/-- The events of the first one; its first event turns the authentication off. -/
def greetingEvents : List (Globals × ConnEvent) :=
  [({}, .ready 4 false { recv := some [5, 1, 0] }),
    ({ isAuthOn := false }, .ready 4 true { send := some 1 }),
    ({ isAuthOn := false }, .ready 4 true { send := some 1 })]

/-- What the second client does makes no difference to the first one. -/
theorem connections_isolated_greeting : ∃ w w' v,
    Lives (startUp {}) 0 4 {} greetingEvents w ∧ Lives (startUp {}) 0 4 {} greetingEvents w' ∧
    (w.conns 1).any (·.s.stm = none) ∧ (w'.conns 1).any (·.s.stm ≠ none) ∧
    replay 0 (View.fresh {} 4 {}) greetingEvents = .ok v ∧
    w.conns 0 = some ⟨v.s, v.live⟩ ∧ w'.conns 0 = some ⟨v.s, v.live⟩ := by
  have hrun : Lib.endsIn (fun w => ((w.conns 0).any fun conn => conn.live &&
          decide (conn.s.stm = none ∧ conn.s.clientFd = 4 ∧ conn.s.clientAddr = {})) &&
        decide (ownEvents 0 w greetsAlone = greetingEvents ∧ ownEvents 0 w greetsBoth = greetingEvents) &&
        (Lib.endsIn (fun w' => (w'.conns 1).any (·.s.stm = none)) (play (Meets anyEvent) w greetsAlone) &&
          Lib.endsIn (fun w' => (w'.conns 1).any (·.s.stm ≠ none)) (play (Meets anyEvent) w greetsBoth)))
      (play (Meets anyEvent) (startUp {}) [.accept 3 { answer := some (4, {}) }]) = true := by
    decide +kernel
  obtain ⟨w₁, hplay, hw⟩ := Lib.endsIn_iff.mp hrun
  simp only [Bool.and_eq_true] at hw
  obtain ⟨⟨hconn, hown⟩, halone, hboth⟩ := hw
  obtain ⟨⟨s, live⟩, hc, hconn⟩ := (Option.any_eq_true ..).mp hconn
  simp only [Bool.and_eq_true, decide_eq_true_eq] at hconn
  obtain ⟨rfl, hst, hfd, haddr⟩ := hconn
  have hlives : Lives (startUp {}) 0 4 {} [] w₁ :=
    .accepted (Lib.reaches_of_play hplay) hc hst hfd haddr
  obtain ⟨hown, hown'⟩ := of_decide_eq_true hown
  obtain ⟨w, hplay, hquiet⟩ := Lib.endsIn_iff.mp halone
  obtain ⟨w', hplay', hgreeted⟩ := Lib.endsIn_iff.mp hboth
  have h : Lives (startUp {}) 0 4 {} greetingEvents w := hown ▸ hlives.played hplay
  have h' : Lives (startUp {}) 0 4 {} greetingEvents w' := hown' ▸ hlives.played hplay'
  obtain ⟨v, hreplay, hconns, -⟩ := connections_isolated (startUp_initial (by decide))
    (startUp_initial (by decide)) h h' {}
  exact ⟨w, w', v, h, h', hquiet, hgreeted, hreplay, hconns⟩

end World

end Socks5d
