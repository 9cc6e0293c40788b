import Socks5d.Connection.Step
import Socks5d.Lib.Runs

/-!
# Runs of the server

An event of the server that concerns a connection is a `View.Step` of that
connection and leaves the others alone; the rest accept a connection or change
the process-wide variables. So what every step of a connection keeps holds of
every connection in every run: `World.reaches_carries`.
-/

namespace Socks5d

namespace World

open Lib (Reaches Agree)

def concerns (w : World) : Event → Option (ConnId × ConnEvent)
  | .ready fd write io =>
    match w.target fd write with
    | some { handler := some .socks5, data := some c, .. } => some (c, .ready fd write io)
    | _ => none
  | .resolved key answer io => some (key.conn, .resolved answer io)
  | _ => none

/-- A condition on the process-wide variables, the struct of the connection and
the event, before a step. -/
abbrev Condition := Globals → Socks5 → ConnEvent → Prop

def Meets (cond : Condition) (w : World) (e : Event) : Prop :=
  ∀ c ce s, w.concerns e = some (c, ce) → w.conns c = some ⟨s, true⟩ → cond w.globals s ce

/-- The states of the runs from `w₀` whose steps all meet the condition. -/
abbrev Runs (cond : Condition) (w₀ w : World) : Prop := Reaches World.step (Meets cond) w₀ w

structure Carries (G : Globals → Prop) (I : ConnId → View → Prop) (w : World) : Prop where
  wired : w.Wired
  globals : G w.globals
  views : ∀ c, c < w.allocated → ∃ v, w.Shows c v ∧ (v.Shape c ∨ v.Ended) ∧ I c v

variable {G : Globals → Prop} {I : ConnId → View → Prop} {w w' : World} {c : ConnId}

theorem Wired.lt_allocated (hw : w.Wired) {conn : Conn} (hc : w.conns c = some conn) :
    c < w.allocated := by
  by_contra hge
  rw [hw.conns (Nat.not_lt.mp hge)] at hc
  cases hc

theorem Carries.view (h : Carries G I w) {conn : Conn} (hc : w.conns c = some conn) :
    ∃ v, w.Shows c v ∧ (v.Shape c ∨ v.Ended) ∧ I c v := h.views c (h.wired.lt_allocated hc)

theorem Carries.live_view (h : Carries G I w) {s : Socks5} (hc : w.conns c = some ⟨s, true⟩) :
    ∃ v, w.Shows c v ∧ v.s = s ∧ v.Shape c ∧ I c v := by
  obtain ⟨v, hshows, hshape, hi⟩ := h.view hc
  rw [hshows.conn, Option.some.injEq, Conn.mk.injEq] at hc
  obtain ⟨rfl, hlive⟩ := hc
  refine ⟨v, hshows, rfl, hshape.resolve_right fun he => ?_, hi⟩
  rw [he.live] at hlive
  cases hlive

-- ---------------------------------------------------------------------------
-- Events of a connection
-- ---------------------------------------------------------------------------

theorem target_iff {fd : Nat} {write : Bool} {item : Item FdHandler ConnId} :
    w.target fd write = some item ↔ w.sel.entry fd = some item ∧
      (if write then item.interest.write else item.interest.read) = true := by
  unfold target Selector.entry
  rw [Option.filter_eq_some_iff]
  cases hget : w.sel.fds[fd]? with
  | none => simp
  | some item' =>
    simp only [Option.bind_eq_bind, Option.bind_some, Option.ite_none_right_eq_some,
      Option.some.injEq]
    constructor
    · rintro ⟨⟨hused, hwants⟩, rfl⟩
      exact ⟨⟨rfl, hused⟩, hwants⟩
    · rintro ⟨⟨rfl, hused⟩, hwants⟩
      exact ⟨⟨hused, hwants⟩, rfl⟩

theorem Shows.of_sameOthers {c' : ConnId} {v : View} (h : w.Shows c' v) (hne : c' ≠ c)
    (hs : SameOthers c w w') : w'.Shows c' { v with globals := w'.globals } :=
  ⟨rfl, (hs.conns c' hne).trans h.conn, fun n => (hs.link c' n hne).trans (h.link n),
    (hs.threads c' hne).trans h.threads⟩

structure Kept (cond : Condition) (G : Globals → Prop) (I : ConnId → View → Prop) : Prop where
  step : ∀ {c v ce v'}, v.Shape c → I c v → G v.globals → cond v.globals v.s ce →
    View.Step c v ce v' → I c v' ∧ G v'.globals
  frame : ∀ {c v} g, I c v → G g → I c { v with globals := g }
  fresh : ∀ {c g fd} addr, G g → I c (View.fresh g fd addr)
  turnedAway : ∀ {c g fd} addr, G g → I c (View.turnedAway g fd addr)

theorem Carries.after (h : Carries G I w) {cond : Condition} (hkept : Kept cond G I) {v' : View}
    (hrel : Rel w c w' v') (hview : I c v' ∧ G v'.globals)
    (hshape : v'.Shape c ∨ v'.Ended) : Carries G I w' := by
  refine ⟨hrel.wired, hrel.shows.globals ▸ hview.2, fun c' hc' => ?_⟩
  by_cases hne : c' = c
  · subst hne
    exact ⟨v', hrel.shows, hshape, hview.1⟩
  · rw [hrel.others.allocated] at hc'
    obtain ⟨u, hshows, hu, hi⟩ := h.views c' hc'
    refine ⟨_, hshows.of_sameOthers hne hrel.others, ?_, hkept.frame _ hi (hrel.shows.globals ▸ hview.2)⟩
    exact hu.imp (fun hs => hs.setGlobals _) fun he => ⟨he.live, he.client, he.peer, he.threads⟩

theorem Carries.target (h : Carries G I w) {fd : Nat} {write : Bool}
    {item : Item FdHandler ConnId} (ht : w.target fd write = some item)
    (hh : item.handler = some .socks5) (hd : item.data = some c) :
    c < w.allocated ∧ item.fd = fd ∧
      ∃ v, w.Shows c v ∧ v.Shape c ∧ I c v ∧ v.Enabled fd write := by
  obtain ⟨hentry, hwants⟩ := target_iff.mp ht
  have hfile : w.files fd = some (.conn c) := by
    rcases h.wired.items hentry with ⟨hp, -⟩ | ⟨c', -, hd', hf⟩
    · rw [hh] at hp
      cases hp
    · rw [hd] at hd'
      cases hd'
      exact hf
  have hc := h.wired.files hfile
  obtain ⟨v, hshows, hv, hi⟩ := h.views c hc
  have hlink : v.link fd = .watched item.interest := by
    rw [← hshows.link, World.link, if_pos hfile, hentry]
  refine ⟨hc, h.wired.sel.fd_eq hentry, v, hshows, ?_, hi, ?_⟩
  · refine hv.resolve_right fun he => ?_
    simp [View.link, he.client, he.peer] at hlink
  · unfold View.Enabled
    rw [hlink]
    exact hwants

theorem handle_agrees (hw : w.Wired) {v : View} (hv : w.Shows c v) {io : Io} {p : Handler Unit}
    {Q : View → Unit → Prop} {E : Fault → Prop} (hm : Lib.Prog.Meets (View.exec io c) p v Q E)
    (hE : ¬ E .foreign) :
    (∃ w' v', w.handle io c p = .ok w' ∧ Q v' () ∧ Rel w c w' v') ∨
      ∃ f, w.handle io c p = .error f ∧ (E f ∨ Excused w io c f) := by
  unfold Lib.Prog.Meets at hm
  have hin : p.run (View.exec io c) v ≠ .error .foreign := by
    intro he
    rw [he] at hm
    exact hE hm
  have hagree := handler_agrees hw hv io p hin
  unfold World.handle
  generalize p.run (World.exec io c) w = x at hagree
  generalize p.run (View.exec io c) v = y at hagree hm
  cases hagree with
  | excuse he => exact .inr ⟨_, rfl, .inr he⟩
  | fault f => exact .inr ⟨f, rfl, .inl hm⟩
  | done a hrel => exact .inl ⟨_, _, rfl, hm, hrel⟩

/-- The result of an event of a connection: a step of its view, or a fault that
the view explains. -/
inductive Delivered (w : World) (c : ConnId) (v : View) (ce : ConnEvent) (io : Io) (write : Bool) :
    Except Fault World → Prop
  | ok {w' : World} {v' : View} (hstep : View.Step c v ce v') (hrel : Rel w c w' v') :
      Delivered w c v ce io write (.ok w')
  | error {f : Fault} (h : View.Faults io v write f ∨ Excused w io c f) :
      Delivered w c v ce io write (.error f)

theorem Shows.ready (hw : w.Wired) {v : View} (hv : w.Shows c v) (hshape : v.Shape c) {fd : Nat}
    {write : Bool} (hen : v.Enabled fd write) (io : Io) :
    ∃ r, w.step (.ready fd write io) = some r ∧
      Delivered w c v (.ready fd write io) io write r := by
  have hrel : Rel w c w v := ⟨hw, hv, .refl c w⟩
  obtain ⟨i, hlink, hwants⟩ : ∃ i, v.link fd = .watched i ∧
      (if write then i.write else i.read) = true := by
    unfold View.Enabled at hen
    cases hlink : v.link fd with
    | watched i =>
      rw [hlink] at hen
      exact ⟨i, rfl, hen⟩
    | _ =>
      rw [hlink] at hen
      cases hen
  obtain ⟨item, hentry, hh, hd, rfl⟩ := hrel.entry_watched hlink
  have ht : w.target fd write = some item := target_iff.mpr ⟨hentry, hwants⟩
  have hfd := hw.sel.fd_eq hentry
  refine ⟨w.handle io c (View.socksv5Ready write ⟨fd, c⟩), ?_, ?_⟩
  · simp only [World.step, ht, Option.bind_eq_bind, Option.bind_some, hh, hd, hfd]
    rfl
  · rcases handle_agrees hw hv (View.ready_meets io hshape hen) View.not_faults_foreign with
      ⟨w', v', hrun, ⟨v₁, ret, hout, rfl⟩, hrel⟩ | ⟨f, hrun, hf⟩
    · rw [hrun]
      exact .ok (.ready hen hout) hrel
    · rw [hrun]
      exact .error hf

theorem Carries.ready (h : Carries G I w) {fd : Nat} {write : Bool} {io : Io}
    {r : Except Fault World} (hs : w.step (.ready fd write io) = some r) :
    ∃ c v, w.concerns (.ready fd write io) = some (c, .ready fd write io) ∧ w.Shows c v ∧
      v.Shape c ∧ I c v ∧ v.Enabled fd write ∧ Delivered w c v (.ready fd write io) io write r := by
  cases ht : w.target fd write with
  | none => simp [World.step, ht] at hs
  | some item =>
    obtain ⟨ifd, interest, handler, data, serial⟩ := item
    match handler, data, ht with
    | none, _, ht => simp [World.step, ht] at hs
    | some .passive, _, ht => simp [World.step, ht] at hs
    | some .socks5, none, ht => simp [World.step, ht] at hs
    | some .socks5, some c, ht =>
      obtain ⟨-, -, v, hshows, hshape, hi, hen⟩ := h.target ht rfl rfl
      refine ⟨c, v, ?_, hshows, hshape, hi, hen, ?_⟩
      · simp only [concerns, ht]
      · obtain ⟨r', hr', hd⟩ := hshows.ready h.wired hshape hen io
        rw [hs, Option.some.injEq] at hr'
        exact hr' ▸ hd

theorem Excused.of_sameOthers {io : Io} {f : Fault} (h : Excused w' io c f)
    (hs : SameOthers c w w') : Excused w io c f := by
  obtain ⟨rfl, n, owner, hio, hfile, hne⟩ := h
  exact ⟨rfl, n, owner, hio, (hs.files n owner hne).mp hfile, hne⟩

def joined (w : World) (key : Key) : World := { w with threads := w.threads.erase key }

theorem joined_rel (hw : w.Wired) {v : View} (hv : w.Shows c v) {fd : Int}
    (hk : v.threads = [⟨fd, c⟩]) : Rel w c (w.joined ⟨fd, c⟩) { v with threads := [] } := by
  refine ⟨⟨hw.size, hw.sel, hw.items, hw.conns, hw.files, fun hmem => ?_⟩,
    ⟨hv.globals, hv.conn, hv.link, ?_⟩,
    ⟨rfl, fun _ _ => rfl, fun _ _ _ => rfl, fun c' hne => ?_, fun _ _ _ => .rfl⟩⟩
  · exact hw.threads (List.mem_of_mem_erase hmem)
  · rw [joined, ← List.erase_filter, hv.threads, hk]
    exact List.erase_cons_head ..
  · rw [joined, ← List.erase_filter, List.erase_of_not_mem]
    simp [Ne.symm hne]

theorem Shows.resolved (hw : w.Wired) {v : View} (hv : w.Shows c v) (hshape : v.Shape c)
    (hst : v.s.stm = some .requestResolv) (answer : Option (List AddrInfo)) (io : Io) :
    ∃ r, w.step (.resolved ⟨v.fd, c⟩ answer io) = some r ∧
      Delivered w c v (.resolved answer io) io true r := by
  obtain ⟨hclient, -, -, hthreads, -⟩ := hshape.phase_of hst
  have hmem : (⟨v.fd, c⟩ : Key) ∈ w.threads := by
    refine List.mem_of_mem_filter (p := fun key => decide (key.conn = c)) ?_
    rw [hv.threads, hthreads]
    exact List.mem_singleton.mpr rfl
  simp only [World.step, hmem, ↓reduceIte]
  refine ⟨_, rfl, ?_⟩
  -- the thread stores its answer
  have hrel := joined_rel hw hv hthreads
  have hlive : v.live = true := hshape.body.live
  have hstore : Lib.Prog.Meets (View.exec io c) (Handler.requestResolvBlocking answer)
      { v with threads := [] } (fun v' _ => v' = v.answered answer) (fun _ => False) :=
    Lib.Prog.meets_of_run (View.requestResolvBlocking_run hlive answer) rfl
  obtain ⟨w₂, v₂, hrun, rfl, hrel₂⟩ | ⟨f, hrun, hf⟩ :=
    handle_agrees hrel.wired hrel.shows hstore id
  · have hrel' : Rel w c w₂ (v.answered answer) :=
      ⟨hrel₂.wired, hrel₂.shows, hrel.others.trans hrel₂.others⟩
    -- and is notified
    have hlink : (v.answered answer).link v.fd = .watched opNoop := by
      rw [View.link, if_pos (by rfl)]
      exact hclient
    obtain ⟨item, hentry, hh, hd, -⟩ := hrel'.entry_watched hlink
    have hreg : w₂.sel.registered v.fd = .ok (some item) := by
      rw [Selector.registered_eq _ hshape.body.fd_lt (size_lt hrel' hshape.body.fd_lt), hentry]
    have hfd := hrel'.wired.sel.fd_eq hentry
    simp only [joined] at hrun
    simp only [hrun, hreg, hh, hd, hfd, Bind.bind, Except.bind]
    obtain ⟨w', v', hrun', ⟨v₁, ret, hres, rfl⟩, hrel₃⟩ | ⟨f, hrun', hf⟩ :=
      handle_agrees hrel'.wired hrel'.shows (View.block_meets io hshape hst answer ⟨v.fd, c⟩)
        View.not_faults_foreign
    · rw [hrun']
      exact .ok (.resolved hst hres) ⟨hrel₃.wired, hrel₃.shows, hrel'.others.trans hrel₃.others⟩
    · rw [hrun']
      exact .error (hf.imp_right (·.of_sameOthers hrel'.others))
  · simp only [joined] at hrun
    simp only [hrun, Bind.bind, Except.bind]
    exact .error (.inr (hf.resolve_left id))

theorem Carries.resolved (h : Carries G I w) {key : Key} {answer : Option (List AddrInfo)}
    {io : Io} {r : Except Fault World} (hs : w.step (.resolved key answer io) = some r) :
    ∃ v, w.Shows key.conn v ∧ v.Shape key.conn ∧ I key.conn v ∧ v.s.stm = some .requestResolv ∧
      Delivered w key.conn v (.resolved answer io) io true r := by
  obtain ⟨fd, c⟩ := key
  by_cases hmem : (⟨fd, c⟩ : Key) ∈ w.threads
  · obtain ⟨v, hshows, hv, hi⟩ := h.views c (h.wired.threads hmem)
    have hmem' : (⟨fd, c⟩ : Key) ∈ v.threads := by
      rw [← hshows.threads]
      exact List.mem_filter.mpr ⟨hmem, by simp⟩
    have hshape : v.Shape c := hv.resolve_right fun he => by simp [he.threads] at hmem'
    obtain ⟨hst, hthreads⟩ := hshape.of_thread hmem'
    rw [hthreads, List.mem_singleton] at hmem'
    obtain rfl : fd = v.fd := congrArg Key.fd hmem'
    obtain ⟨r', hr', hd⟩ := hshows.resolved h.wired hshape hst answer io
    rw [hs, Option.some.injEq] at hr'
    exact ⟨v, hshows, hshape, hi, hst, hr' ▸ hd⟩
  · simp [World.step, hmem] at hs

-- ---------------------------------------------------------------------------
-- Accepted connections
-- ---------------------------------------------------------------------------

structure Admits (w w' : World) : Prop where
  globals : w'.globals = w.globals
  allocated : w.allocated ≤ w'.allocated
  shows : ∀ c v, c < w.allocated → w.Shows c v → w'.Shows c v
  fresh : ∀ c conn, w.allocated ≤ c → w'.conns c = some conn → conn.s.stm = none ∧ conn.s.log = []

theorem Admits.refl (hw : w.Wired) : Admits w w :=
  ⟨rfl, Nat.le_refl _, fun _ _ _ h => h, fun c conn hc h => by simp [hw.conns hc] at h⟩

theorem Carries.grow (h : Carries G I w) (hw : w'.Wired) (hg : w'.globals = w.globals)
    (hn : w'.allocated = w.allocated + 1)
    (hothers : ∀ c v, c < w.allocated → w.Shows c v → w'.Shows c v) {v : View}
    (hnew : v.s.stm = none ∧ v.s.log = []) (hv : w'.Shows w.allocated v)
    (hshape : v.Shape w.allocated ∨ v.Ended) (hi : I w.allocated v) :
    Carries G I w' ∧ Admits w w' := by
  refine ⟨⟨hw, hg ▸ h.globals, fun c hc => ?_⟩, hg, by omega, hothers, fun c conn hc hconn => ?_⟩
  · by_cases hlast : c = w.allocated
    · subst hlast
      exact ⟨v, hv, hshape, hi⟩
    · obtain ⟨u, hu, hrest⟩ := h.views c (by omega)
      exact ⟨u, hothers c u (by omega) hu, hrest⟩
  · have hlt := hw.lt_allocated hconn
    rw [hn] at hlt
    obtain rfl : c = w.allocated := Nat.le_antisymm (Nat.lt_succ_iff.mp hlt) hc
    rw [hv.conn] at hconn
    cases hconn
    exact hnew

def admitted (w : World) (client : Nat) (addr : SockAddr) (sel : Selector FdHandler ConnId) : World :=
  { w with
    sel
    pool := w.pool.tail
    allocated := w.allocated + 1
    conns := Function.update w.conns w.allocated (some ⟨{ clientFd := client, clientAddr := addr }, true⟩)
    files := Function.update w.files client (some (.conn w.allocated)) }

theorem no_threads (hw : w.Wired) (hc : w.allocated ≤ c) : w.threads.filter (·.conn = c) = [] := by
  rw [List.filter_eq_nil_iff]
  intro key hk
  simpa using Nat.ne_of_lt (Nat.lt_of_lt_of_le (hw.threads hk) hc)

theorem Carries.admitted (h : Carries G I w) {cond : Condition} (hkept : Kept cond G I)
    {client : Nat} (addr : SockAddr) (hfile : w.files client = none) (hlt : client < fdSetSize)
    {sel : Selector FdHandler ConnId} (hok : sel.Ok) (hsize : sel.fds.length = w.sel.fds.length)
    (hself : sel.entry client =
      some ⟨client, opRead, some .socks5, some w.allocated, w.sel.serial⟩)
    (hother : ∀ m, m ≠ client → sel.entry m = w.sel.entry m) :
    Carries G I (w.admitted client addr sel) ∧ Admits w (w.admitted client addr sel) := by
  have hw := h.wired
  refine h.grow (v := View.fresh w.globals client addr) ?_ rfl rfl ?_ ⟨rfl, rfl⟩ ?_
    (.inl (View.fresh_shape _ _ hlt)) (hkept.fresh addr h.globals)
  · refine ⟨hsize.trans hw.size, hok, fun {n item} he => ?_, fun {c} hc => ?_, fun {n c} hf => ?_,
      fun {key} hk => ?_⟩
    · by_cases hn : n = client
      · subst hn
        rw [World.admitted, hself] at he
        cases he
        exact .inr ⟨w.allocated, rfl, rfl, Function.update_self ..⟩
      · have he' : w.sel.entry n = some item := (hother n hn).symm.trans he
        simp only [World.admitted, Function.update_of_ne hn]
        exact hw.items he'
    · have hne : c ≠ w.allocated := Nat.ne_of_gt hc
      simp only [World.admitted, Function.update_of_ne hne]
      exact hw.conns (Nat.le_of_lt hc)
    · by_cases hn : n = client
      · subst hn
        simp only [World.admitted, Function.update_self, Option.some.injEq, Owner.conn.injEq] at hf
        exact hf ▸ Nat.lt_succ_self _
      · simp only [World.admitted, Function.update_of_ne hn] at hf
        exact Nat.lt_succ_of_lt (hw.files hf)
    · exact Nat.lt_succ_of_lt (hw.threads hk)
  · intro c v hc hv
    have hne : c ≠ w.allocated := Nat.ne_of_lt hc
    refine ⟨hv.globals, (Function.update_of_ne hne _ _).trans hv.conn, fun n => ?_, hv.threads⟩
    rw [← hv.link]
    by_cases hn : n = client
    · subst hn
      simp [World.link, World.admitted, hfile, Ne.symm hne]
    · simp only [World.link, World.admitted, Function.update_of_ne hn, hother n hn]
  · refine ⟨rfl, Function.update_self .., fun n => ?_, no_threads (w := w) hw (Nat.le_refl _)⟩
    by_cases hn : n = client
    · subst hn
      simp [World.link, World.admitted, View.link, View.fresh, hself]
    · have hnone : w.files n ≠ some (.conn w.allocated) := fun hf =>
        Nat.lt_irrefl _ (hw.files hf)
      simp [World.link, World.admitted, hnone, View.link, View.fresh, hn]

def rejected (w : World) (client : Nat) (addr : SockAddr) (pool : List ConnId) (poolSize : Nat) :
    World :=
  { w with
    pool
    poolSize
    allocated := w.allocated + 1
    conns := Function.update w.conns w.allocated
      (some ⟨{ clientFd := client, clientAddr := addr }, false⟩) }

theorem Carries.turnedAway (h : Carries G I w) {cond : Condition} (hkept : Kept cond G I)
    (client : Nat) (addr : SockAddr) (pool : List ConnId) (poolSize : Nat) :
    Carries G I (w.rejected client addr pool poolSize) ∧
      Admits w (w.rejected client addr pool poolSize) := by
  have hw := h.wired
  refine h.grow (v := View.turnedAway w.globals client addr) ?_ rfl rfl ?_ ⟨rfl, rfl⟩ ?_
    (.inr (View.turnedAway_ended ..)) (hkept.turnedAway addr h.globals)
  · refine ⟨hw.size, hw.sel, hw.items, fun {c} hc => ?_, fun {n c} hf => ?_, fun {key} hk => ?_⟩
    · have hne : c ≠ w.allocated := Nat.ne_of_gt hc
      simp only [rejected, Function.update_of_ne hne]
      exact hw.conns (Nat.le_of_lt hc)
    · exact Nat.lt_succ_of_lt (hw.files hf)
    · exact Nat.lt_succ_of_lt (hw.threads hk)
  · intro c v hc hv
    exact ⟨hv.globals, (Function.update_of_ne (Nat.ne_of_lt hc) _ _).trans hv.conn, hv.link,
      hv.threads⟩
  · refine ⟨rfl, Function.update_self .., fun n => ?_, no_threads (w := w) hw (Nat.le_refl _)⟩
    have hnone : w.files n ≠ some (.conn w.allocated) := fun hf => Nat.lt_irrefl _ (hw.files hf)
    have hclosed : (View.turnedAway w.globals client addr).link n = .closed := by
      unfold View.link
      split
      · rfl
      · split <;> rfl
    rw [hclosed]
    simp [World.link, rejected, hnone]

theorem Carries.accept (h : Carries G I w) {cond : Condition} (hkept : Kept cond G I) (a : Accept) :
    (∃ w', w.passiveAccept a = .ok w' ∧ Carries G I w' ∧ Admits w w') ∨
      w.passiveAccept a = .error .kernel := by
  unfold passiveAccept
  cases hans : a.answer with
  | none => exact .inl ⟨w, rfl, h, .refl h.wired⟩
  | some p =>
    obtain ⟨client, addr⟩ := p
    simp only [openFile]
    cases hfile : w.files client with
    | some owner => exact .inr rfl
    | none =>
      have hneg : ¬ (client : Int) < 0 := by omega
      have hfiles : Function.update w.files client none = w.files := by
        rw [← hfile, Function.update_eq_self]
      have hclose : ({ w with files := Function.update w.files client (some (.conn w.allocated)) } :
          World).close client = w := by
        simp only [close, hneg, ↓reduceIte, Int.toNat_natCast, Function.update_idem, hfiles]
      simp only [Bind.bind, Except.bind]
      cases hnio : a.nio with
      | false =>
        simp only [↓reduceIte, hclose]
        exact .inl ⟨w, rfl, h, .refl h.wired⟩
      | true =>
        simp only [Bool.true_eq_false, ↓reduceIte, socks5New]
        by_cases hpool : w.pool = [] ∧ a.malloc = false
        · rw [if_pos hpool]
          simp only [hclose]
          exact .inl ⟨w, rfl, h, .refl h.wired⟩
        · rw [if_neg hpool]
          simp only []
          by_cases hlt : client < fdSetSize
          · have hentry : w.sel.entry client = none := by
              cases he : w.sel.entry client with
              | none => rfl
              | some item =>
                rcases h.wired.items he with ⟨-, -, hf⟩ | ⟨c', -, -, hf⟩ <;> rw [hfile] at hf <;>
                  cases hf
            obtain ⟨sel, hreg, hok, hsize, -, -, hself, hother⟩ := Selector.register_spec h.wired.sel
              hlt (by rw [h.wired.size]; omega) hentry true FdHandler.socks5 opRead (some w.allocated)
            simp only [hreg, ↓reduceIte]
            exact .inl ⟨_, rfl, h.admitted hkept addr hfile hlt hok hsize hself hother⟩
          · have hvalid : invalidFd (client : Int) = true := by
              rw [Selector.invalidFd_natCast, decide_eq_true_iff]
              omega
            rw [Selector.register_invalid _ hvalid]
            simp only [reduceCtorEq, ↓reduceIte, close, hneg, Int.toNat_natCast,
              Function.update_idem, hfiles, socks5Destroy, deref, Function.update_self, setConn]
            refine .inl ⟨_, rfl, ?_⟩
            split
            · exact h.turnedAway hkept client addr _ _
            · exact h.turnedAway hkept client addr _ _

-- ---------------------------------------------------------------------------
-- Runs
-- ---------------------------------------------------------------------------

theorem Carries.setGlobals (h : Carries G I w) {cond : Condition} (hkept : Kept cond G I)
    {g : Globals} (hg : G g) : Carries G I { w with globals := g } := by
  have hw := h.wired
  refine ⟨⟨hw.size, hw.sel, hw.items, hw.conns, hw.files, hw.threads⟩, hg, fun c hc => ?_⟩
  obtain ⟨v, hv, hshape, hi⟩ := h.views c hc
  refine ⟨{ v with globals := g }, ⟨rfl, hv.conn, hv.link, hv.threads⟩, ?_, hkept.frame g hi hg⟩
  exact hshape.imp (fun hs => hs.setGlobals g) fun he => ⟨he.live, he.client, he.peer, he.threads⟩

def Tolerates (G : Globals → Prop) : Prop :=
  (∀ g users, G g → G { g with users }) ∧ ∀ g value, G g → G { g with isDisectorOn := value }

theorem Shows.meets {cond : Condition} {e : Event} {ce : ConnEvent} {v : View}
    (hm : Meets cond w e) (hcon : w.concerns e = some (c, ce)) (hv : w.Shows c v)
    (hlive : v.live = true) : cond v.globals v.s ce := by
  have hconn := hv.conn
  rw [hlive] at hconn
  exact hv.globals ▸ hm c ce v.s hcon hconn

theorem step_accept {fd : Nat} {a : Accept} {r : Except Fault World}
    (hs : w.step (.accept fd a) = some r) : w.passiveAccept a = r := by
  cases ht : w.target fd false with
  | none => simp [World.step, ht] at hs
  | some item =>
    cases hh : item.handler with
    | none => simp [World.step, ht, hh] at hs
    | some handler =>
      cases handler with
      | socks5 => simp [World.step, ht, hh] at hs
      | passive => simpa [World.step, ht, hh] using hs

theorem Carries.step {cond : Condition} (hkept : Kept cond G I) (hG : Tolerates G)
    (h : Carries G I w) {e : Event} (hm : Meets cond w e) (hs : w.step e = some (.ok w')) :
    Carries G I w' := by
  cases e with
  | ready fd write io =>
    obtain ⟨c, v, hcon, hshows, hshape, hi, -, hd⟩ := h.ready hs
    cases hd with
    | ok hstep hrel =>
      refine h.after hkept hrel (hkept.step hshape hi (hshows.globals ▸ h.globals) ?_ hstep)
        (hstep.shape hshape)
      exact hshows.meets hm hcon hshape.body.live
  | accept fd a =>
    rcases h.accept hkept a with ⟨w₁, hw₁, hc, -⟩ | hk
    · rw [step_accept hs] at hw₁
      cases hw₁
      exact hc
    · rw [step_accept hs] at hk
      cases hk
  | resolved key answer io =>
    obtain ⟨v, hshows, hshape, hi, -, hd⟩ := h.resolved hs
    cases hd with
    | ok hstep hrel =>
      refine h.after hkept hrel (hkept.step hshape hi (hshows.globals ▸ h.globals) ?_ hstep)
        (hstep.shape hshape)
      exact hshows.meets hm rfl hshape.body.live
  | registerUser uname passwd =>
    obtain rfl : _ = w' := by simpa [World.step] using hs
    exact h.setGlobals hkept (hG.1 _ _ h.globals)
  | unregisterUser uname =>
    obtain rfl : _ = w' := by simpa [World.step] using hs
    exact h.setGlobals hkept (hG.1 _ _ h.globals)
  | toggleDisector value =>
    obtain rfl : _ = w' := by simpa [World.step] using hs
    exact h.setGlobals hkept (hG.2 _ _ h.globals)

structure Outside (w w' : World) : Prop where
  isAuthOn : w'.globals.isAuthOn = w.globals.isAuthOn
  historicConnections : w'.globals.historicConnections = w.globals.historicConnections
  currentConnections : w'.globals.currentConnections = w.globals.currentConnections
  bytesTransferred : w'.globals.bytesTransferred = w.globals.bytesTransferred
  allocated : w.allocated ≤ w'.allocated
  shows : ∀ c v, c < w.allocated → w.Shows c v → w'.Shows c { v with globals := w'.globals }
  fresh : ∀ c conn, w.allocated ≤ c → w'.conns c = some conn → conn.s.stm = none ∧ conn.s.log = []

theorem Outside.of_admits (h : Admits w w') : Outside w w' := by
  refine ⟨by rw [h.globals], by rw [h.globals], by rw [h.globals], by rw [h.globals], h.allocated,
    fun c v hc hv => ?_, h.fresh⟩
  rw [h.globals, hv.globals]
  exact h.shows c v hc hv

theorem Outside.same (h : Outside w w') (hcarries : Carries G I w) (hc : c < w.allocated) :
    w'.conns c = w.conns c ∧ ∀ n, w'.link c n = w.link c n := by
  obtain ⟨v, hv, -, -⟩ := hcarries.views c hc
  have hv' := h.shows c v hc hv
  exact ⟨hv'.conn.trans hv.conn.symm, fun n => (hv'.link n).trans (hv.link n).symm⟩

/-- What an event does to the connections that exist: a step of one of them, or
nothing but the process-wide variables that are set from outside. -/
theorem Carries.step_cases {cond : Condition} (hkept : Kept cond G I) (h : Carries G I w) {e : Event}
    (hs : w.step e = some (.ok w')) :
    (∃ c v ce v', w.concerns e = some (c, ce) ∧ w.Shows c v ∧ v.Shape c ∧ I c v ∧
        View.Step c v ce v' ∧ Rel w c w' v') ∨
      Outside w w' := by
  cases e with
  | ready fd write io =>
    obtain ⟨c, v, hcon, hshows, hshape, hi, -, hd⟩ := h.ready hs
    cases hd with
    | ok hstep hrel => exact .inl ⟨c, v, _, _, hcon, hshows, hshape, hi, hstep, hrel⟩
  | accept fd a =>
    rcases h.accept hkept a with ⟨w₁, hw₁, -, hadmits⟩ | hk
    · rw [step_accept hs] at hw₁
      cases hw₁
      exact .inr (.of_admits hadmits)
    · rw [step_accept hs] at hk
      cases hk
  | resolved key answer io =>
    obtain ⟨v, hshows, hshape, hi, -, hd⟩ := h.resolved hs
    cases hd with
    | ok hstep hrel => exact .inl ⟨key.conn, v, _, _, rfl, hshows, hshape, hi, hstep, hrel⟩
  | registerUser | unregisterUser | toggleDisector =>
    obtain rfl : _ = w' := by simpa [World.step] using hs
    refine .inr ⟨rfl, rfl, rfl, rfl, Nat.le_refl _, fun c v _ hv => ?_, fun c conn hc hconn => ?_⟩
    · exact ⟨rfl, hv.conn, hv.link, hv.threads⟩
    · exact absurd hconn (by simp [h.wired.conns hc])

theorem Initial.carries (h : w.Initial) (hg : G w.globals) : Carries G I w := by
  refine ⟨⟨h.size, h.sel, fun he => .inl (h.passive he), fun _ => h.conns _, fun hf => ?_, fun hk => ?_⟩,
    hg, fun c hc => ?_⟩
  · exact absurd hf (h.files _ _)
  · simp [h.threads] at hk
  · rw [h.allocated] at hc
    exact absurd hc (Nat.not_lt_zero _)

/-- What the steps of a connection keep holds in every state of every run. -/
theorem reaches_carries {cond : Condition} (hkept : Kept cond G I) (hG : Tolerates G) {w₀ : World}
    (h₀ : w₀.Initial) (hg : G w₀.globals) (h : Runs cond w₀ w) : Carries G I w :=
  h.invariant (h₀.carries hg) fun _ _ _ hc hm hs => hc.step hkept hG hm hs

/-- What keeps an invariant, one rule for each part of a step. In the first
event the machine starts in HELLO_READ, so the condition speaks of a view
without a state. -/
structure Rules (cond : Condition) (G : Globals → Prop) (I : ConnId → View → Prop) : Prop where
  start : ∀ {c v fd write io}, v.Shape c → v.s.stm = none → I c v → G v.globals →
    cond v.globals v.s (.ready fd write io) →
    I c (v.advance .helloRead) ∧ G (v.advance .helloRead).globals
  outcome : ∀ {c v fd write io v₁ ret}, v.Shape c → v.Enabled fd write → I c v → G v.globals →
    v.s.stm = some .helloRead ∨ cond v.globals v.s (.ready fd write io) →
    View.Outcome io c v fd write v₁ ret → I c (v₁.advance ret) ∧ G (v₁.advance ret).globals
  resolved : ∀ {c v answer io v₁ ret}, v.Shape c → v.s.stm = some .requestResolv → I c v →
    G v.globals → cond v.globals v.s (.resolved answer io) →
    View.Resolved io (v.answered answer) v₁ ret → I c (v₁.advance ret) ∧ G (v₁.advance ret).globals
  ended : ∀ {c v}, I c v → I c v.ended
  frame : ∀ {c v} g, I c v → G g → I c { v with globals := g }
  fresh : ∀ {c g fd} addr, G g → I c (View.fresh g fd addr)
  turnedAway : ∀ {c g fd} addr, G g → I c (View.turnedAway g fd addr)

theorem step_keeps {cond : Condition} {P : View → Prop} {ce : ConnEvent} {v v' : View}
    (hstart : ∀ {v fd write io}, v.Shape c → v.s.stm = none → P v →
      cond v.globals v.s (.ready fd write io) → P (v.advance .helloRead))
    (houtcome : ∀ {v fd write io v₁ ret}, v.Shape c → v.Enabled fd write → P v →
      v.s.stm = some .helloRead ∨ cond v.globals v.s (.ready fd write io) →
      View.Outcome io c v fd write v₁ ret → P (v₁.advance ret))
    (hresolved : ∀ {v answer io v₁ ret}, v.Shape c → v.s.stm = some .requestResolv → P v →
      cond v.globals v.s (.resolved answer io) → View.Resolved io (v.answered answer) v₁ ret →
      P (v₁.advance ret))
    (hended : ∀ {v}, P v → P v.ended) (hshape : v.Shape c) (hv : P v)
    (hcond : cond v.globals v.s ce) (hstep : View.Step c v ce v') : P v' := by
  have hsettle {v₁ : View} {ret : SocksState} (hi : P (v₁.advance ret)) : P (v₁.settle ret) := by
    unfold View.settle
    split
    · exact hended hi
    · exact hi
  cases hstep with
  | @ready fd write io v₁ ret hen hout =>
    refine hsettle ?_
    have hen' : v.started.Enabled fd write := by
      unfold View.Enabled
      rw [View.started_link]
      exact hen
    have hstarted := hshape.started
    by_cases hst : v.s.stm = none
    · have heq : v.started = v.advance .helloRead := if_pos hst
      rw [heq] at hout hen' hstarted
      exact houtcome hstarted hen' (hstart hshape hst hv hcond) (.inl (View.advance_stm ..)) hout
    · have heq : v.started = v := if_neg hst
      rw [heq] at hout hen' hstarted
      exact houtcome hstarted hen' hv (.inr hcond) hout
  | resolved hst hres => exact hsettle (hresolved hshape hst hv hcond hres)

theorem Rules.kept {cond : Condition} (h : Rules cond G I) : Kept cond G I := by
  refine ⟨fun {c v ce v'} hshape hi hg hcond hstep => ?_, h.frame, h.fresh, h.turnedAway⟩
  refine step_keeps (P := fun v => I c v ∧ G v.globals) ?_ ?_ ?_ ?_ hshape ⟨hi, hg⟩ hcond hstep
  · exact fun hs hst hv hc => h.start hs hst hv.1 hv.2 hc
  · exact fun hs hen hv hc hout => h.outcome hs hen hv.1 hv.2 hc hout
  · exact fun hs hst hv hc hres => h.resolved hs hst hv.1 hv.2 hc hres
  · exact fun hv => ⟨h.ended hv.1, hv.2⟩

theorem kept_trivial (cond : Condition) : Kept cond (fun _ => True) (fun _ _ => True) :=
  ⟨fun _ _ _ _ _ => ⟨trivial, trivial⟩, fun _ _ _ => trivial, fun _ _ => trivial, fun _ _ => trivial⟩

abbrev anyEvent : Condition := fun _ _ _ => True

abbrev Reachable (w₀ w : World) : Prop := Runs anyEvent w₀ w

theorem Runs.reachable {cond : Condition} {w₀ : World} (h : Runs cond w₀ w) : Reachable w₀ w :=
  h.mono fun _ _ _ _ _ _ _ _ => trivial

theorem Reachable.carries {w₀ : World} (h₀ : w₀.Initial) (h : Reachable w₀ w) :
    Carries (fun _ => True) (fun _ _ => True) w :=
  reaches_carries (kept_trivial _) ⟨fun _ _ h => h, fun _ _ h => h⟩ h₀ trivial h

def MeetsOf (c : ConnId) (cond : Condition) (w : World) (e : Event) : Prop :=
  ∀ ce s, w.concerns e = some (c, ce) → w.conns c = some ⟨s, true⟩ → cond w.globals s ce

theorem Runs.meetsOf {cond : Condition} (c : ConnId) (h : Runs cond w w') :
    Reaches World.step (MeetsOf c cond) w w' :=
  h.mono fun _ _ hm ce s hcon hc => hm c ce s hcon hc

/-- What the steps of one connection keep from some state of the server on, of
its struct and of its descriptors. -/
theorem Carries.follow {cond : Condition} {J : Socks5 → (Nat → Link) → Prop}
    (hstep : ∀ {v ce v'}, View.Shape c v → J v.s v.link → cond v.globals v.s ce →
      View.Step c v ce v' → J v'.s v'.link)
    (h₀ : Carries (fun _ => True) (fun _ _ => True) w) {conn : Conn} (hc : w.conns c = some conn)
    (hJ : J conn.s (w.link c)) (h : Reaches World.step (MeetsOf c cond) w w') :
    ∃ conn', w'.conns c = some conn' ∧ J conn'.s (w'.link c) := by
  have hkept := kept_trivial anyEvent
  have hlink {w : World} {v : View} (hv : w.Shows c v) : w.link c = v.link := funext hv.link
  have hinv : Carries (fun _ => True) (fun _ _ => True) w' ∧
      ∃ conn', w'.conns c = some conn' ∧ J conn'.s (w'.link c) := by
    refine h.invariant (I := fun w => Carries (fun _ => True) (fun _ _ => True) w ∧
      ∃ conn, w.conns c = some conn ∧ J conn.s (w.link c)) ⟨h₀, conn, hc, hJ⟩ ?_
    intro w e w' ⟨hcarries, conn, hc, hJ⟩ hm hs
    refine ⟨hcarries.step hkept ⟨fun _ _ h => h, fun _ _ h => h⟩ (fun _ _ _ _ _ => trivial) hs, ?_⟩
    rcases hcarries.step_cases hkept hs with
      ⟨c', v, ce, v', hcon, hshows, hshape, -, hview, hrel⟩ | houtside
    · by_cases hne : c = c'
      · subst hne
        rw [hshows.conn] at hc
        cases hc
        rw [hlink hshows] at hJ
        have hlive := hshows.conn
        rw [hshape.body.live] at hlive
        have hcond := hm ce v.s hcon hlive
        rw [hshows.globals] at hcond
        refine ⟨_, hrel.shows.conn, ?_⟩
        rw [hlink hrel.shows]
        exact hstep hshape hJ hcond hview
      · refine ⟨conn, (hrel.others.conns c hne).trans hc, ?_⟩
        rwa [show w'.link c = w.link c from funext fun n => hrel.others.link c n hne]
    · obtain ⟨hsame, hlinks⟩ := houtside.same hcarries (hcarries.wired.lt_allocated hc)
      refine ⟨conn, hsame.trans hc, ?_⟩
      rwa [show w'.link c = w.link c from funext hlinks]
  exact hinv.2

theorem Carries.follow_parts {cond : Condition} {J : Socks5 → Prop}
    (hstart : ∀ {v fd write io}, View.Shape c v → v.s.stm = none → J v.s →
      cond v.globals v.s (.ready fd write io) → J (v.advance .helloRead).s)
    (houtcome : ∀ {v fd write io v₁ ret}, View.Shape c v → v.Enabled fd write → J v.s →
      v.s.stm = some .helloRead ∨ cond v.globals v.s (.ready fd write io) →
      View.Outcome io c v fd write v₁ ret → J (v₁.advance ret).s)
    (hresolved : ∀ {v answer io v₁ ret}, View.Shape c v → v.s.stm = some .requestResolv → J v.s →
      View.Resolved io (v.answered answer) v₁ ret → J (v₁.advance ret).s)
    (hended : ∀ {s}, J s → J { s with references := 1 })
    (h₀ : Carries (fun _ => True) (fun _ _ => True) w) {conn : Conn} (hc : w.conns c = some conn)
    (hJ : J conn.s) (h : Reaches World.step (MeetsOf c cond) w w') :
    ∃ conn', w'.conns c = some conn' ∧ J conn'.s :=
  h₀.follow (J := fun s _ => J s) (fun hs hv hcond hstep =>
    step_keeps (P := fun v => J v.s) hstart houtcome
      (fun hs hst hv _ hres => hresolved hs hst hv hres) hended hs hv hcond hstep) hc hJ h

theorem Carries.follow_running {cond : Condition} {J : Socks5 → Prop}
    (houtcome : ∀ {v fd write io v₁ ret}, View.Shape c v → v.Enabled fd write → J v.s →
      v.s.stm = some .helloRead ∨ cond v.globals v.s (.ready fd write io) →
      View.Outcome io c v fd write v₁ ret → J (v₁.advance ret).s)
    (hresolved : ∀ {v answer io v₁ ret}, View.Shape c v → v.s.stm = some .requestResolv → J v.s →
      View.Resolved io (v.answered answer) v₁ ret → J (v₁.advance ret).s)
    (hended : ∀ {s}, J s → J { s with references := 1 })
    (h₀ : Carries (fun _ => True) (fun _ _ => True) w) {conn : Conn} (hc : w.conns c = some conn)
    (hst : conn.s.stm ≠ none) (hJ : J conn.s) (h : Reaches World.step (MeetsOf c cond) w w') :
    ∃ conn', w'.conns c = some conn' ∧ J conn'.s := by
  have hsome (v : View) (next : SocksState) : (v.advance next).s.stm ≠ none := by
    rw [View.advance_stm]
    exact Option.some_ne_none _
  obtain ⟨conn', hc', -, hJ'⟩ := h₀.follow_parts (J := fun s => s.stm ≠ none ∧ J s)
    (fun _ hnone hv _ => absurd hnone hv.1)
    (fun hs hen hv hcond hout => ⟨hsome _ _, houtcome hs hen hv.2 hcond hout⟩)
    (fun hs hst hv hres => ⟨hsome _ _, hresolved hs hst hv.2 hres⟩)
    (fun hv => ⟨hv.1, hended hv.2⟩) hc ⟨hst, hJ⟩ h
  exact ⟨conn', hc', hJ'⟩

/-- An event never touches a released struct, and ends the process in no other
way than by `abort`. -/
theorem Carries.step_safe (h : Carries G I w) {cond : Condition} (hkept : Kept cond G I) {e : Event}
    {r : Except Fault World} (hs : w.step e = some r) :
    (∀ f, r = .error f → f = .abort ∨ f = .kernel) ∧
      ∀ w', r = .ok w' → ∀ c s, w.conns c = some ⟨s, false⟩ → w'.conns c = some ⟨s, false⟩ := by
  have hfault {io : Io} {v : View} {write : Bool} {c : ConnId} {f : Fault}
      (hf : View.Faults io v write f ∨ Excused w io c f) : f = .abort ∨ f = .kernel := by
    rcases hf with (⟨hf, -⟩ | ⟨hf, -⟩) | ⟨hf, -⟩
    · exact .inl hf
    · exact .inr hf
    · exact .inr hf
  -- the struct of the event's connection is live
  have hdead {c : ConnId} {v : View} {w' : World} (hv : w.Shows c v) (hshape : v.Shape c)
      (hsame : SameOthers c w w') (c' : ConnId) (s : Socks5) (hc' : w.conns c' = some ⟨s, false⟩) :
      w'.conns c' = some ⟨s, false⟩ := by
    have hne : c' ≠ c := by
      rintro rfl
      rw [hv.conn, hshape.body.live] at hc'
      cases hc'
    exact (hsame.conns c' hne).trans hc'
  cases e with
  | ready fd write io =>
    obtain ⟨c, v, -, hshows, hshape, -, -, hd⟩ := h.ready hs
    cases hd with
    | ok hstep hrel =>
      refine ⟨fun f hf => (by cases hf), fun w' hw' => ?_⟩
      cases hw'
      exact hdead hshows hshape hrel.others
    | error hf =>
      refine ⟨fun f hf' => ?_, fun w' hw' => by cases hw'⟩
      cases hf'
      exact hfault hf
  | accept fd a =>
    rcases h.accept hkept a with ⟨w₁, hw₁, -, hadmits⟩ | hk
    · rw [step_accept hs] at hw₁
      subst hw₁
      refine ⟨fun f hf => (by cases hf), fun w' hw' c s hc => ?_⟩
      cases hw'
      exact ((Outside.of_admits hadmits).same h (h.wired.lt_allocated hc)).1.trans hc
    · rw [step_accept hs] at hk
      subst hk
      exact ⟨fun f hf => by cases hf; exact .inr rfl, fun w' hw' => by cases hw'⟩
  | resolved key answer io =>
    obtain ⟨v, hshows, hshape, -, -, hd⟩ := h.resolved hs
    cases hd with
    | ok hstep hrel =>
      refine ⟨fun f hf => (by cases hf), fun w' hw' => ?_⟩
      cases hw'
      exact hdead hshows hshape hrel.others
    | error hf =>
      refine ⟨fun f hf' => ?_, fun w' hw' => by cases hw'⟩
      cases hf'
      exact hfault hf
  | registerUser | unregisterUser | toggleDisector =>
    cases hs
    refine ⟨fun f hf => (by cases hf), fun w' hw' c s hc => ?_⟩
    cases hw'
    exact hc

-- ---------------------------------------------------------------------------
-- Concrete runs
-- ---------------------------------------------------------------------------

def meets (cond : Condition) [∀ g s ce, Decidable (cond g s ce)] (w : World) (e : Event) : Bool :=
  match w.concerns e with
  | some (c, ce) =>
    match w.conns c with
    | some ⟨s, true⟩ => cond w.globals s ce
    | _ => true
  | none => true

theorem meets_iff {cond : Condition} [∀ g s ce, Decidable (cond g s ce)] {e : Event} :
    meets cond w e = true ↔ Meets cond w e := by
  unfold meets
  cases hcon : w.concerns e with
  | none => simp [Meets, hcon]
  | some p =>
    obtain ⟨c, ce⟩ := p
    simp only
    constructor
    · intro h c' ce' s hcon' hc
      rw [hcon] at hcon'
      cases hcon'
      simpa [hc] using h
    · intro h
      split
      · exact decide_eq_true (h c ce _ hcon ‹_›)
      · rfl

instance (cond : Condition) [∀ g s ce, Decidable (cond g s ce)] (w : World) (e : Event) :
    Decidable (Meets cond w e) := decidable_of_iff _ meets_iff

abbrev play (ok : World → Event → Prop) [∀ w e, Decidable (ok w e)] (w : World) (es : List Event) :
    Option (Except Fault World) := Lib.play World.step ok w es

def startSelector : Selector FdHandler ConnId :=
  match selectorRegister true { fds := List.replicate (fdSetSize + 1) {} } ((3 : Nat) : Int)
    FdHandler.passive opRead none with
  | .ok (s, _) => s
  | .error _ => {}

def startUp (users : Users) : World where
  globals := { users }
  sel := startSelector
  files n := if n ≤ 3 then some .system else none

theorem startUp_initial {users : Users} (h : users.registered ≤ maxUsers) :
    (startUp users).Initial := by
  have hempty := Selector.ok_empty (η := FdHandler) (δ := ConnId) (fdSetSize + 1)
  obtain ⟨sel, hreg, hok, hsize, -, -, hself, hother⟩ := Selector.register_spec hempty (n := 3)
    (by decide) (by rw [List.length_replicate]; decide) (Selector.entry_empty _ _) true
    FdHandler.passive opRead none
  have hsel : startSelector = sel := by
    unfold startSelector
    rw [hreg]
  refine ⟨?_, ?_, fun {n item} he => ?_, fun _ => rfl, rfl, ⟨rfl, rfl⟩, fun n c hf => ?_, rfl, rfl,
    rfl, ⟨rfl, rfl, rfl⟩, h⟩
  · simp only [startUp, hsel, hsize, List.length_replicate]
  · simp only [startUp, hsel, hok]
  · simp only [startUp, hsel] at he
    by_cases hn : n = 3
    · subst hn
      rw [hself] at he
      cases he
      exact ⟨rfl, rfl, rfl⟩
    · rw [hother n hn] at he
      rw [Selector.entry_empty] at he
      cases he
  · simp only [startUp] at hf
    split at hf <;> cases hf

end World

end Socks5d
