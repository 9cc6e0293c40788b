import Socks5d.Connection.Copy
import Socks5d.Loop
import Socks5d.Monitor.Serving
import Socks5d.Runs

/-!
# The process: the proxy and the monitor

`World` is the proxy, for which the requests of the administrators are events
from outside, and `Service` is the monitor, for which the statistics are. Here
the two share their variables: a step of one is an event from outside for the
other (`daemon_projects`), so what holds in the runs of one holds in the process.
-/

namespace Socks5d

open Lib (Reaches)

-- ---------------------------------------------------------------------------
-- What the proxy leaves to the monitor
-- ---------------------------------------------------------------------------

structure Globals.Tables (g g' : Globals) : Prop where
  users : g'.users = g.users
  isDisectorOn : g'.isDisectorOn = g.isDisectorOn

theorem Globals.Tables.trans {g g' g'' : Globals} (h : g.Tables g') (h' : g'.Tables g'') :
    g.Tables g'' := ⟨h'.users.trans h.users, h'.isDisectorOn.trans h.isDisectorOn⟩

namespace View

variable {c : ConnId} {io : Io} {v v' : View}

theorem advance_tables (v : View) (next : SocksState) : v.globals.Tables (v.advance next).globals := by
  unfold advance
  split
  · exact ⟨rfl, rfl⟩
  · cases next with
    | helloRead =>
      by_cases hzero : v.globals.users.registered = 0 <;>
        exact ⟨by simp [arrive, enter, hzero], by simp [arrive, enter, hzero]⟩
    | _ => exact ⟨rfl, rfl⟩

theorem Outcome.tables {fd : Nat} {write : Bool} {ret : SocksState}
    (h : Outcome io c v fd write v' ret) (hs : v.Shape c) : v.globals.Tables v'.globals := by
  by_cases hst : v.s.stm = some .copy
  · obtain ⟨d, lines, closed, -, hcopies⟩ := h.copies hs hst
    rw [hcopies.globals]
    exact ⟨rfl, rfl⟩
  · rw [(h.uncopied hst).2]
    split <;> exact ⟨rfl, rfl⟩

end View

namespace World

variable {w w' : World}

theorem step_tables {c : ConnId} {ce : ConnEvent} {v v' : View} (h : View.Step c v ce v')
    (hs : v.Shape c) : v.globals.Tables v'.globals := by
  have hany : anyEvent v.globals v.s ce := trivial
  refine step_keeps (P := fun v' => v.globals.Tables v'.globals) ?_ ?_ ?_ id hs ⟨rfl, rfl⟩ hany h
  · exact fun _ _ hv _ => hv.trans (View.advance_tables _ _)
  · exact fun hs₁ _ hv _ hout => (hv.trans (hout.tables hs₁)).trans (View.advance_tables _ _)
  · intro v₁ answer io v₂ ret _ _ hv _ hres
    have hanswered : (v₁.answered answer).globals = v₁.globals := rfl
    have hsame : v₂.globals = v₁.globals := hres.globals.trans hanswered
    exact (hsame ▸ hv : v.globals.Tables v₂.globals).trans (View.advance_tables _ _)

theorem Carries.tables {G : Globals → Prop} {I : ConnId → View → Prop} {cond : Condition}
    (hkept : Kept cond G I) (h : Carries G I w) {e : Event} (he : e.isAdmin = false)
    (hs : w.step e = some (.ok w')) : w.globals.Tables w'.globals := by
  cases e with
  | ready fd write io =>
    obtain ⟨c, v, -, hshows, hshape, -, -, hd⟩ := h.ready hs
    cases hd with
    | ok hstep hrel =>
      rw [hshows.globals, hrel.shows.globals]
      exact step_tables hstep hshape
  | accept fd a =>
    rcases h.accept hkept a with ⟨w₁, hw₁, -, hadmits⟩ | hk
    · rw [step_accept hs] at hw₁
      cases hw₁
      rw [hadmits.globals]
      exact ⟨rfl, rfl⟩
    · rw [step_accept hs] at hk
      cases hk
  | resolved key answer io =>
    obtain ⟨v, hshows, hshape, -, -, hd⟩ := h.resolved hs
    cases hd with
    | ok hstep hrel =>
      rw [hshows.globals, hrel.shows.globals]
      exact step_tables hstep hshape
  | registerUser | unregisterUser | toggleDisector => cases he

end World

-- ---------------------------------------------------------------------------
-- What the monitor does to the proxy
-- ---------------------------------------------------------------------------

namespace Service

variable {w w' : Service} {c : MonitorId}

theorem close_shared (w : Service) (fd : Int) : (w.close fd).shared = w.shared := by
  unfold close
  split <;> rfl

theorem connectionDestroy_shared (h : w.connectionDestroy c = .ok w') : w'.shared = w.shared := by
  obtain ⟨s, -, h⟩ := Lib.bind_ok h
  cases h
  split <;> rfl

theorem handleClose_shared {item : Item MonitorHandler MonitorId}
    (h : w.handleClose item = .ok w') : w'.shared = w.shared := by
  unfold handleClose at h
  split at h
  · exact connectionDestroy_shared h
  · cases h
    rfl
  · cases h
    rfl
  · cases h
    rfl
  · cases h

theorem unregister_shared {fd : Int} {st : SelectorStatus} (h : w.unregister fd = .ok (w', st)) :
    w'.shared = w.shared := by
  obtain ⟨item, -, h⟩ := Lib.bind_ok h
  cases item with
  | none =>
    cases h
    rfl
  | some item =>
    obtain ⟨w₁, hclose, h⟩ := Lib.bind_ok h
    cases h
    have hsame := handleClose_shared hclose
    exact hsame

theorem monitorFinish_shared (h : w.monitorFinish c = .ok w') : w'.shared = w.shared := by
  obtain ⟨s, -, h⟩ := Lib.bind_ok h
  split at h
  · obtain ⟨⟨w₁, st⟩, hunregister, h⟩ := Lib.bind_ok h
    dsimp only at h
    split at h
    · cases h
    · cases h
      exact (close_shared ..).trans (unregister_shared hunregister)
  · cases h
    rfl

theorem handleWrite_shared {io : Io} {key : MonitorKey} (h : w.handleWrite io key = .ok w') :
    w'.shared = w.shared := by
  obtain ⟨s, -, h⟩ := Lib.bind_ok h
  obtain ⟨⟨conn, bytes⟩, -, h⟩ := Lib.bind_ok h
  dsimp only at h
  split at h
  · have hsame := monitorFinish_shared h
    exact hsame
  · cases h
    rfl

theorem handleRead_shared {io : Io} {key : MonitorKey} (h : w.handleRead io key = .ok w') :
    w'.shared = w.shared ∨ ∃ s chunk conn, w.deref key.conn = .ok s ∧
      monitorRead chunk w.shared s.conn = .ok (w'.shared, conn) ∧
      (conn.finished = false → w'.sessions key.conn = some { s with
        conn, received := s.received ++ chunk.take (bufferWritePtr s.conn.reading.readBuffer) }) := by
  obtain ⟨s, hs, h⟩ := Lib.bind_ok h
  cases hrecv : io.recv with
  | none =>
    rw [hrecv] at h
    exact .inl (monitorFinish_shared h)
  | some chunk =>
    rw [hrecv] at h
    obtain ⟨⟨shared, conn⟩, hread, h⟩ := Lib.bind_ok h
    dsimp only at h
    have hshared : w'.shared = shared ∧ (conn.finished = false → w'.sessions key.conn = some { s with
        conn, received := s.received ++ chunk.take (bufferWritePtr s.conn.reading.readBuffer) }) := by
      split at h
      · have hsame := monitorFinish_shared h
        exact ⟨hsame, fun hf => absurd (hf.symm.trans ‹_›) Bool.false_ne_true⟩
      · split at h
        · obtain ⟨⟨sel, st⟩, -, h⟩ := Lib.bind_ok h
          cases h
          exact ⟨rfl, fun _ => Function.update_self ..⟩
        · cases h
          exact ⟨rfl, fun _ => Function.update_self ..⟩
    exact .inr ⟨s, chunk, conn, hs, hshared.1 ▸ hread, hshared.2⟩

theorem accept_shared {a : MonitorAccept} (h : w.monitorPassiveAccept a = .ok w') :
    w'.shared = w.shared := by
  unfold monitorPassiveAccept at h
  cases ha : a.answer with
  | none =>
    rw [ha] at h
    cases h
    rfl
  | some client =>
    rw [ha] at h
    obtain ⟨w₁, hopen, h⟩ := Lib.bind_ok h
    have hw₁ : w₁.shared = w.shared := by
      unfold openFile at hopen
      split at hopen
      · cases hopen
        rfl
      · cases hopen
    rw [← hw₁]
    split at h
    · cases h
      exact close_shared ..
    · cases hnew : w₁.connectionNew a.malloc client with
      | none =>
        simp only [hnew] at h
        cases h
        exact close_shared ..
      | some r =>
        obtain ⟨w₂, c⟩ := r
        have hw₂ : w₂.shared = w₁.shared := by
          unfold connectionNew at hnew
          split at hnew
          · cases hnew
          · cases hnew
            rfl
        simp only [hnew] at h
        obtain ⟨⟨sel, st⟩, -, h⟩ := Lib.bind_ok h
        rw [← hw₂]
        dsimp only at h
        split at h
        · cases h
          rfl
        · have hsame := connectionDestroy_shared h
          exact hsame.trans (close_shared ..)

def Event.isGlobals : Event → Bool
  | .proxy (.globals ..) => true
  | _ => false

theorem proxy_shared {call : ProxyCall} (hg : Event.isGlobals (.proxy call) = false)
    (h : w.proxy call = .ok w') : w'.shared = w.shared := by
  cases call with
  | register | setInterest =>
    obtain ⟨⟨sel, st⟩, -, h⟩ := Lib.bind_ok h
    cases h
    rfl
  | unregister fd =>
    obtain ⟨⟨w₁, st⟩, hrun, h⟩ := Lib.bind_ok h
    cases h
    exact unregister_shared hrun
  | openFile n =>
    unfold proxy openFile at h
    dsimp only at h
    split at h
    · cases h
      rfl
    · cases h
  | close n =>
    cases h
    exact close_shared ..
  | globals => cases hg

/-- An event of the monitor leaves the variables, or serves one request. -/
theorem Wired.served (h : w.Wired) {e : Event} (hg : e.isGlobals = false)
    (hs : w.step e = some (.ok w')) : w.shared.Same w'.shared ∨ ∃ r, w.Serves w' r := by
  have hsame (heq : w'.shared = w.shared) : w.shared.Same w'.shared :=
    ⟨congrArg _ heq, congrArg _ heq⟩
  cases e with
  | ready fd write io =>
    obtain ⟨c, s, item, hc, hl, ho, hst, hwants, hr⟩ := h.ready hs
    cases write with
    | true => exact .inl (hsame (handleWrite_shared hr.symm))
    | false =>
      rcases handleRead_shared hr.symm with heq | ⟨s', chunk, conn, hs', hread, hsessions⟩
      · exact .inl (hsame heq)
      · cases (deref_eq hc hl).symm.trans hs'
        generalize item.interest = i at hst hwants
        cases hst with
        | answering => cases hwants
        | waiting hw hgoing hsent =>
          by_cases hb : chunk.take (bufferWritePtr s.conn.reading.readBuffer) = []
          · rw [monitorRead, if_pos hb] at hread
            exact .inl (hsame (congrArg Prod.fst (Except.ok.inj hread)).symm)
          · have hheard := hw.heard h.valid hb
            rw [hread] at hheard
            generalize hr' : Except.ok (w'.shared, conn) = r at hheard
            cases hheard with
            | more =>
              have heq := congrArg Prod.fst (Except.ok.inj hr')
              have hglobals := congrArg Shared.globals heq
              have hadmins := congrArg Shared.admins heq
              exact .inl ⟨hglobals, hadmins⟩
            | served hf hserved =>
              obtain ⟨hshared, hconn⟩ := Prod.mk.inj (Except.ok.inj hr')
              rw [← hshared, ← hconn] at hserved
              have hc' := hsessions (hconn ▸ hf.trans hgoing)
              refine .inr ⟨⟨c, w.shared, w'.shared, _, _⟩, rfl, rfl, _, hc', rfl, ?_, hserved⟩
              show s.sent ++ conn.writeBuffer.content = _
              rw [hsent]
              rfl
  | accept fd a =>
    cases ht : w.target fd false with
    | none =>
      simp only [Service.step, ht] at hs
      cases hs
    | some item =>
      simp only [Service.step, ht, Option.bind_eq_bind, Option.bind_some] at hs
      split at hs
      · exact .inl (hsame (accept_shared (Option.some.inj hs)))
      · cases hs
  | proxy call => exact .inl (hsame (proxy_shared hg (Option.some.inj hs)))

end Service

/-- For the proxy, a request of the monitor is an event from outside, or nothing. -/
theorem RequestServed.admin_event {s s' : Shared} {stream response : List Byte} {p : MonitorParser}
    (h : RequestServed s stream s' p response) : s'.globals = s.globals ∨
      ∃ e : World.Event, e.isAdmin = true ∧ ∀ w : World, w.globals = s.globals →
        w.step e = some (.ok { w with globals := s'.globals }) := by
  rcases h.changed with hsame | ⟨-, -, -, op, -, -, hsame⟩
  · exact .inl hsame.globals
  · rw [hsame.globals]
    cases op with
    | toggleDisector value =>
      exact .inr ⟨.toggleDisector value, rfl, fun w hw => by rw [World.step, hw]; rfl⟩
    | registerUser uname passwd =>
      exact .inr ⟨.registerUser uname passwd, rfl, fun w hw => by rw [World.step, hw]; rfl⟩
    | unregisterUser uname =>
      exact .inr ⟨.unregisterUser uname, rfl, fun w hw => by rw [World.step, hw]; rfl⟩
    | registerAdmin | unregisterAdmin => exact .inl rfl

theorem Service.Serves.admin_event {w w' : Service} {r : Service.Request} (h : w.Serves w' r) :
    w'.shared.globals = w.shared.globals ∨
      ∃ e : World.Event, e.isAdmin = true ∧ ∀ v : World, v.globals = w.shared.globals →
        v.step e = some (.ok { v with globals := w'.shared.globals }) := by
  obtain ⟨s, -, -, -, hserved⟩ := h.session
  rw [← h.before, ← h.after]
  exact hserved.admin_event

-- ---------------------------------------------------------------------------
-- The two together
-- ---------------------------------------------------------------------------

/-- The proxy and the monitor have the same process-wide variables. -/
structure Daemon where
  world : World
  service : Service
  same : service.shared.globals = world.globals

namespace Daemon

inductive Event
  /-- An event of a connection of the proxy, or of one of its passive sockets. -/
  | proxy (e : World.Event)
  /-- One of the monitor, or what the proxy does with the selector and the
  descriptors that the monitor sees. -/
  | monitor (e : Service.Event)

def step (d : Daemon) : Event → Option (Except Fault Daemon)
  | .proxy e =>
    if e.isAdmin then none
    else (d.world.step e).map fun r => r.map fun world =>
      let shared := { d.service.shared with globals := world.globals }
      { world, service := { d.service with shared }, same := rfl }
  | .monitor e =>
    if e.isGlobals then none
    else (d.service.step e).map fun r => r.map fun service =>
      { world := { d.world with globals := service.shared.globals }, service, same := rfl }

def Allowed (d : Daemon) : Event → Prop
  | .proxy _ => True
  | .monitor e => d.service.Allowed e

structure Initial (d : Daemon) : Prop where
  world : d.world.Initial
  service : d.service.Initial

def Reachable : Daemon → Daemon → Prop := Reaches step Allowed

variable {d₀ d d' : Daemon}

/-- A step is one of the proxy, after which the monitor finds other statistics or
another flag, or one of the monitor, which for the proxy is an event from outside or
nothing. -/
inductive Projects (d d' : Daemon) : Prop
  | proxy {e : World.Event} (he : e.isAdmin = false) (hworld : d.world.step e = some (.ok d'.world))
      (hservice : d.service.step (.proxy (.globals d'.world.globals.isAuthOn
        d'.world.globals.historicConnections d'.world.globals.currentConnections
        d'.world.globals.bytesTransferred)) = some (.ok d'.service))
  | monitor {e : Service.Event} (he : e.isGlobals = false) (hallowed : d.service.Allowed e)
      (hservice : d.service.step e = some (.ok d'.service))
      (hworld : d'.world = d.world ∨
        ∃ e : World.Event, e.isAdmin = true ∧ d.world.step e = some (.ok d'.world))

/-- What a step does: one half makes it, and the other half finds its variables. -/
inductive Stepped (d d' : Daemon) : Event → Prop
  | proxy {e : World.Event} (he : e.isAdmin = false) (hworld : d.world.step e = some (.ok d'.world))
      (hservice : d'.service =
        { d.service with shared := { d.service.shared with globals := d'.world.globals } }) :
      Stepped d d' (.proxy e)
  | monitor {e : Service.Event} (he : e.isGlobals = false)
      (hservice : d.service.step e = some (.ok d'.service))
      (hworld : d'.world = { d.world with globals := d'.service.shared.globals }) :
      Stepped d d' (.monitor e)

theorem stepped_of {e : Event} (hs : d.step e = some (.ok d')) : Stepped d d' e := by
  cases e with
  | proxy e =>
    unfold step at hs
    cases hadmin : e.isAdmin with
    | true => simp [hadmin] at hs
    | false =>
      simp only [hadmin, Bool.false_eq_true, ↓reduceIte, Option.map_eq_some_iff] at hs
      obtain ⟨r, hr, hs⟩ := hs
      cases r with
      | error f => cases hs
      | ok world =>
        cases hs
        exact .proxy hadmin hr rfl
  | monitor e =>
    unfold step at hs
    cases hglobals : e.isGlobals with
    | true => simp [hglobals] at hs
    | false =>
      simp only [hglobals, Bool.false_eq_true, ↓reduceIte, Option.map_eq_some_iff] at hs
      obtain ⟨r, hr, hs⟩ := hs
      cases r with
      | error f => cases hs
      | ok service =>
        cases hs
        exact .monitor hglobals hr rfl

/-- An event of the proxy leaves the users and the disector. -/
theorem proxy_tables (h₀ : d₀.Initial) (hworld : World.Reachable d₀.world d.world) {e : World.Event}
    (he : e.isAdmin = false) (hs : d.world.step e = some (.ok d'.world)) :
    d.service.shared.globals.Tables d'.world.globals := by
  rw [d.same]
  exact (hworld.carries h₀.world).tables (World.kept_trivial World.anyEvent) he hs

theorem step_projects (h₀ : d₀.Initial) (hworld : World.Reachable d₀.world d.world)
    (hservice : Service.Reachable d₀.service d.service) {e : Event} (hallowed : d.Allowed e)
    (hs : d.step e = some (.ok d')) : Projects d d' := by
  cases stepped_of hs with
  | proxy he hr hd =>
    refine .proxy he hr ?_
    -- for the monitor, the statistics change
    have htables := proxy_tables h₀ hworld he hr
    have heq : { d.service.shared.globals with
        isAuthOn := d'.world.globals.isAuthOn
        historicConnections := d'.world.globals.historicConnections
        currentConnections := d'.world.globals.currentConnections
        bytesTransferred := d'.world.globals.bytesTransferred } = d'.world.globals := by
      dsimp only
      rw [← htables.users, ← htables.isDisectorOn]
    simp only [Service.step, Service.proxy, heq, hd]
  | monitor he hr hd =>
    refine .monitor he hallowed hr ?_
    have hsame {g : Globals} (hg : g = d.service.shared.globals) :
        { d.world with globals := g } = d.world := by
      rw [hg, d.same]
    rw [hd]
    -- for the proxy, the users or the disector change, or nothing
    rcases (hservice.wired h₀.service).served he hr with heq | ⟨r, hserves⟩
    · exact .inl (hsame heq.globals)
    · rcases hserves.admin_event with heq | ⟨e', hadmin, hstep⟩
      · exact .inl (hsame heq)
      · exact .inr ⟨e', hadmin, hstep _ d.same.symm⟩

theorem Projects.reaches (h : Projects d d') :
    World.Reachable d.world d'.world ∧ Service.Reachable d.service d'.service := by
  have hstart : Service.Reachable d.service d.service := Reaches.start
  cases h with
  | proxy _ hworld hservice =>
    refine ⟨.next .start (fun _ _ _ _ _ => trivial) hworld, Reaches.next hstart ?_ hservice⟩
    exact trivial
  | monitor _ hallowed hservice hworld =>
    refine ⟨?_, hstart.next hallowed hservice⟩
    rcases hworld with heq | ⟨e, -, hworld⟩
    · rw [heq]
      exact .start
    · exact .next .start (fun _ _ _ _ _ => trivial) hworld

theorem runs_project (h₀ : d₀.Initial) (h : Reachable d₀ d) :
    World.Reachable d₀.world d.world ∧ Service.Reachable d₀.service d.service := by
  have hstart : World.Reachable d₀.world d₀.world ∧ Service.Reachable d₀.service d₀.service :=
    ⟨.start, Reaches.start⟩
  refine Reaches.invariant (I := fun d => World.Reachable d₀.world d.world ∧
    Service.Reachable d₀.service d.service) h hstart ?_
  rintro d₁ e d₂ ⟨hworld, hservice⟩ hallowed hs
  have hnext := (step_projects h₀ hworld hservice hallowed hs).reaches
  exact ⟨hworld.trans hnext.1, Reaches.trans hservice hnext.2⟩

/-- Each half of the process runs as it does in its own model: for the proxy the
requests of the administrators are events from outside, and for the monitor the
events of the proxy are. -/
theorem daemon_projects (h₀ : d₀.Initial) (h : Reachable d₀ d) :
    World.Reachable d₀.world d.world ∧ Service.Reachable d₀.service d.service ∧
    ∀ e d', d.Allowed e → d.step e = some (.ok d') → Projects d d' := by
  obtain ⟨hworld, hservice⟩ := runs_project h₀ h
  exact ⟨hworld, hservice, fun _ _ hallowed hs => step_projects h₀ hworld hservice hallowed hs⟩

/-- The event of a run that changed a table: a request with the token of an
administrator of that moment, on a connection that has sent just that. -/
def ChangedIn (d d' : Daemon) : Prop :=
  ∃ d₁ e d₂ c s, Reachable d d₁ ∧ d₁.Allowed (.monitor e) ∧
    d₁.step (.monitor e) = some (.ok d₂) ∧ Reachable d₂ d' ∧ d₂.service.sessions c = some s ∧
    RequestServed d₁.service.shared s.received d₂.service.shared s.conn.reading.parser
      (s.sent ++ s.conn.writeBuffer.content) ∧
    Changed d₁.service.shared d₂.service.shared s.received s.conn.reading.parser

theorem step_changed (h₀ : d₀.Initial) (hservice : Service.Reachable d₀.service d.service)
    (hworld : World.Reachable d₀.world d.world) {e : Event} (hallowed : d.Allowed e)
    (hs : d.step e = some (.ok d')) :
    d.service.shared.Drifts d'.service.shared ∨ ChangedIn d d' := by
  cases stepped_of hs with
  | proxy he hr hd =>
    have htables := proxy_tables h₀ hworld he hr
    rw [hd]
    exact .inl ⟨htables.users, htables.isDisectorOn, rfl⟩
  | @monitor e he hr =>
    rcases (hservice.wired h₀.service).served he hr with heq | ⟨r, hserves⟩
    · exact .inl heq.drifts
    · obtain ⟨s, hc, hreceived, hresponse, hserved⟩ := hserves.session
      rw [hserves.before, hserves.after, ← hreceived, ← hresponse] at hserved
      refine hserved.changed.imp Shared.Same.drifts fun hchanged => ?_
      exact ⟨d, e, d', r.session, s, Reaches.start, hallowed, hs, Reaches.start, hc, hserved, hchanged⟩

/-- Whatever the clients of the proxy send, the users, the disector and the
administrators change only by a request to the monitor with the token of an
administrator of that moment, on a connection that sent just that. -/
theorem tables_changed_by_admin (h₀ : d₀.Initial) (h : Reachable d₀ d) (h' : Reachable d d')
    (hne : ¬ d.world.globals.Tables d'.world.globals ∨
      d'.service.shared.admins ≠ d.service.shared.admins) : ChangedIn d d' := by
  have hinv : Reachable d d' ∧ (d.service.shared.Drifts d'.service.shared ∨ ChangedIn d d') := by
    refine Reaches.invariant (I := fun d' => Reachable d d' ∧
      (d.service.shared.Drifts d'.service.shared ∨ ChangedIn d d')) h' ⟨Reaches.start, .inl (.refl _)⟩ ?_
    rintro d₁ e d₂ ⟨hreach, hbefore⟩ hallowed hs
    refine ⟨.next hreach hallowed hs, ?_⟩
    rcases hbefore with hdrift | ⟨d₃, e₃, d₄, c, s, h₃, hok, hstep, h₄, hchanged⟩
    · obtain ⟨hworld, hservice⟩ := runs_project h₀ (Reaches.trans h hreach)
      refine (step_changed h₀ hservice hworld hallowed hs).imp hdrift.trans ?_
      rintro ⟨d₃, e₃, d₄, c, s, h₃, hrest⟩
      exact ⟨d₃, e₃, d₄, c, s, Reaches.trans hreach h₃, hrest⟩
    · exact .inr ⟨d₃, e₃, d₄, c, s, h₃, hok, hstep, .next h₄ hallowed hs, hchanged⟩
  refine hinv.2.resolve_left fun hdrift => ?_
  rw [← d.same, ← d'.same] at hne
  exact hne.elim (fun hn => hn ⟨hdrift.users, hdrift.isDisectorOn⟩) fun hn => hn hdrift.admins

-- ---------------------------------------------------------------------------
-- A concrete run
-- ---------------------------------------------------------------------------

instance (d : Daemon) (e : Event) : Decidable (Allowed d e) := by
  cases e <;> unfold Allowed <;> infer_instance

def startUp : Daemon := ⟨World.startUp {}, Service.startUp, rfl⟩

theorem startUp_initial : startUp.Initial :=
  ⟨World.startUp_initial (Nat.zero_le _), Service.startUp_initial⟩

def addsAdmin : List Event :=
  .proxy (.accept 3 { answer := some (4, {}) }) :: Service.addsAdmin.map .monitor

theorem addsAdmin_run : ∃ d, Reachable startUp d ∧ d.world.allocated = 1 ∧
    d.service.shared.admins.registered = 2 := by
  have hrun : Lib.endsIn (fun d : Daemon =>
        decide (d.world.allocated = 1 ∧ d.service.shared.admins.registered = 2))
      (Lib.play step Allowed startUp addsAdmin) = true := by decide +kernel
  obtain ⟨d, hplay, hend⟩ := Lib.endsIn_iff.mp hrun
  exact ⟨d, Lib.reaches_of_play hplay, of_decide_eq_true hend⟩

theorem daemon_projects_addsAdmin : ∃ d d', Reachable startUp d ∧ d.world.allocated = 1 ∧
    d.service.shared.admins.registered = 1 ∧ d'.service.shared.admins.registered = 2 ∧
    World.Reachable (World.startUp {}) d.world ∧ Service.Reachable Service.startUp d.service ∧
    Projects d d' := by
  -- the rest of the request comes, and the administrator is added
  let e : Event := .monitor (.ready 4 false { recv := some (addAdminRequest.drop 20) })
  have hrun : Lib.endsIn (fun d => decide (d.Allowed e) &&
        decide (d.world.allocated = 1 ∧ d.service.shared.admins.registered = 1) &&
          Lib.endsIn (fun d' => decide (d'.service.shared.admins.registered = 2)) (d.step e))
      (Lib.play step Allowed startUp (addsAdmin.take 5)) = true := by decide +kernel
  obtain ⟨d, hplay, hend⟩ := Lib.endsIn_iff.mp hrun
  obtain ⟨hd, hstep⟩ := Bool.and_eq_true_iff.mp hend
  obtain ⟨hallowed, hd⟩ := Bool.and_eq_true_iff.mp hd
  obtain ⟨hworld, hone⟩ := of_decide_eq_true hd
  obtain ⟨d', hstep, htwo⟩ := Lib.endsIn_iff.mp hstep
  have hreach : Reachable startUp d := Lib.reaches_of_play hplay
  obtain ⟨hw, hservice, hprojects⟩ := daemon_projects startUp_initial hreach
  exact ⟨d, d', hreach, hworld, hone, of_decide_eq_true htwo, hw, hservice,
    hprojects e d' (of_decide_eq_true hallowed) hstep⟩

theorem tables_changed_by_admin_addsAdmin : ∃ d, Reachable startUp d ∧
    d.service.shared.admins.registered = 2 ∧ ChangedIn startUp d := by
  obtain ⟨d, hreach, -, hadmins⟩ := addsAdmin_run
  have hne : d.service.shared.admins ≠ startUp.service.shared.admins := by
    intro heq
    rw [heq] at hadmins
    exact absurd hadmins (by decide)
  exact ⟨d, hreach, hadmins,
    tables_changed_by_admin startUp_initial Reaches.start hreach (.inr hne)⟩

end Daemon

end Socks5d
