import Socks5d.Monitor.Admins
import Socks5d.Monitor.Refinement

/-!
# What every run of the service keeps

Whatever the order in which connections come, send their bytes, take theirs and
go, and whatever the proxy does in between: the service does not fault, its
items, structs and descriptors belong together, and it serves the requests one
after the other.
-/

namespace Socks5d

open Lib (Linear)

namespace Service

variable {w₀ w w' : Service}

/-- The event of a run that served a request. -/
def ServedIn (w w' : Service) (r : Request) : Prop :=
  ∃ w₁ e w₂, Reachable w w₁ ∧ Allowed w₁ e ∧ w₁.step e = some (.ok w₂) ∧
    Reachable w₂ w' ∧ w₁.Serves w₂ r

theorem ServedIn.next {w₁ : Service} {r : Request} {e : Event} (h : w.ServedIn w₁ r)
    (hallowed : Allowed w₁ e) (hs : w₁.step e = some (.ok w')) : w.ServedIn w' r := by
  obtain ⟨w₂, e₂, w₃, hbefore, hok, hstep, hafter, hserves⟩ := h
  exact ⟨w₂, e₂, w₃, hbefore, hok, hstep, .next hafter hallowed hs, hserves⟩

theorem Wired.reaches (h : w.Wired) (hr : Reachable w w') : w'.Wired := by
  refine Lib.Reaches.invariant (I := Wired) hr h ?_
  intro w₁ e w₂ hw hallowed hs
  cases hw.step hallowed hs with
  | ok hw₂ => exact hw₂
  | served hw₂ => exact hw₂

theorem Wired.runs (h : w.Wired) {s₀ : Shared} {served : List Request}
    (hl : Linear monitorProtocol s₀ served w.desk) (hr : Reachable w w') :
    ∃ more, Linear monitorProtocol s₀ (served ++ more) w'.desk ∧
      Lib.Chain monitorProtocol w.shared more w'.shared ∧ ∀ r ∈ more, w.ServedIn w' r := by
  have hinv : Reachable w w' ∧ ∃ more, Linear monitorProtocol s₀ (served ++ more) w'.desk ∧
      Lib.Chain monitorProtocol w.shared more w'.shared ∧ ∀ r ∈ more, w.ServedIn w' r := by
    refine Lib.Reaches.invariant (I := fun w' => Reachable w w' ∧ ∃ more,
      Linear monitorProtocol s₀ (served ++ more) w'.desk ∧
        Lib.Chain monitorProtocol w.shared more w'.shared ∧ ∀ r ∈ more, w.ServedIn w' r) hr
      ⟨Lib.Reaches.start, [], by rwa [List.append_nil], .refl _, fun r hr => by cases hr⟩ ?_
    rintro w₁ e w₂ ⟨hreach, more, hlinear, hchain, hserved⟩ hallowed hs
    have hreach₂ : Reachable w w₂ := .next hreach hallowed hs
    cases (h.reaches hreach).step hallowed hs with
    | ok _ hmoves =>
      have hnext := hlinear.moves hmoves
      exact ⟨hreach₂, more, hnext.1, hchain.drift hnext.2,
        fun r hr => (hserved r hr).next hallowed hs⟩
    | @served _ _ r _ hc hr hdesk =>
      obtain ⟨s, -, -, -, hserves⟩ := hr.session
      refine ⟨hreach₂, more ++ [r], ?_, ?_, fun r' hr' => ?_⟩
      · rw [hdesk, ← List.append_assoc]
        exact hlinear.serve hc hr.before ⟨_, hserves⟩
      · rw [← hr.after]
        exact (hr.before ▸ hchain).concat ⟨_, hserves⟩
      · rcases List.mem_append.mp hr' with hr' | hr'
        · exact (hserved r' hr').next hallowed hs
        · rw [List.mem_singleton.mp hr']
          exact ⟨w₁, e, w₂, hreach, hallowed, hs, Lib.Reaches.start, hr⟩
  exact hinv.2

theorem Initial.linear (h₀ : w₀.Initial) : Linear monitorProtocol w₀.shared [] w₀.desk :=
  Linear.start (a := w₀.desk) fun c => by simp [desk, h₀.sessions c]

theorem Initial.runs (h₀ : w₀.Initial) (h : Reachable w₀ w) :
    ∃ served, Linear monitorProtocol w₀.shared served w.desk ∧ ∀ r ∈ served, w₀.ServedIn w r := by
  obtain ⟨served, hlinear, -, hserved⟩ := h₀.wired.runs h₀.linear h
  exact ⟨served, hlinear, hserved⟩

theorem Reachable.wired (h₀ : w₀.Initial) (h : Reachable w₀ w) : w.Wired := h₀.wired.reaches h

/-- No event makes the service abort, follow a null pointer, leave an array or
use a struct that was released. -/
theorem service_safe (h₀ : w₀.Initial) (h : Reachable w₀ w) {e : Event} (hallowed : Allowed w e)
    {f : Fault} (hs : w.step e = some (.error f)) : f = .kernel := by
  cases (h.wired h₀).step hallowed hs with
  | kernel => rfl

-- ---------------------------------------------------------------------------
-- Items, structs and descriptors
-- ---------------------------------------------------------------------------

structure Registered (w : Service) (c : MonitorId) (s : MonitorSession) (n : Nat)
    (item : Item MonitorHandler MonitorId) : Prop where
  owns : w.Owns c s n item
  only : ∀ {m it}, w.sel.entry m = some it → it.handler = some .monitor → it.data = some c → m = n
  interest : item.interest =
    if monitorIsDone s.conn.reading.parser.state then opWrite else opRead

theorem Wired.registeredOnce (h : w.Wired) {c : MonitorId} {s : MonitorSession}
    (hc : w.sessions c = some s) (hl : s.live = true) : ∃ n item, w.Registered c s n item := by
  obtain ⟨n, item, ho, hst⟩ := h.live hc hl
  refine ⟨n, item, ho, fun {m it} he hmon hd => ?_, ?_⟩
  · obtain ⟨c', s', hc', -, ho'⟩ := h.item he hmon
    cases hd.symm.trans ho'.data
    cases hc.symm.trans hc'
    exact Int.ofNat.inj (ho'.clientFd.symm.trans ho.clientFd)
  · generalize item.interest = i at hst ⊢
    cases hst with
    | waiting hw => rw [if_neg (by simp [hw.parsing])]
    | answering hd => rw [if_pos hd]

/-- In every reachable state the connections in use have one item and one
descriptor each, the items and descriptors of the monitor are those of
connections in use, and the pool has at most five structs, all different and
none of them in use. -/
theorem connections_wired (h₀ : w₀.Initial) (h : Reachable w₀ w) :
    (∀ c s, w.sessions c = some s → s.live = true → ∃ n item, w.Registered c s n item) ∧
    (∀ n item, w.sel.entry n = some item → item.handler = some .monitor →
      ∃ c s, w.sessions c = some s ∧ s.live = true ∧ w.Owns c s n item) ∧
    (∀ n c, w.files n = some (.connection c) →
      ∃ s, w.sessions c = some s ∧ s.live = true ∧ s.clientFd = n) ∧
    w.pool.Nodup ∧ w.pool.length ≤ maxPool ∧
      ∀ c ∈ w.pool, ∃ s, w.sessions c = some s ∧ s.live = false := by
  have hw := h.wired h₀
  exact ⟨fun c s => hw.registeredOnce, fun n item => hw.item, fun n c => hw.file, hw.nodup,
    Nat.le_trans hw.poolSize.1 hw.poolSize.2, hw.pooled⟩

-- ---------------------------------------------------------------------------
-- One request after the other
-- ---------------------------------------------------------------------------

/-- The requests that a run served, and those that its continuation served after
them, each answered at one event of the run from the state that the ones before it
left. What a connection sent is its request, and what it was sent the response. -/
theorem requests_linearized (h₀ : w₀.Initial) (h : Reachable w₀ w) (h' : Reachable w w') :
    ∃ served more : List Request,
      Lib.Chain monitorProtocol w₀.shared served w.shared ∧
      Lib.Chain monitorProtocol w.shared more w'.shared ∧
      (∀ r ∈ served, w₀.ServedIn w r) ∧ (∀ r ∈ more, w.ServedIn w' r) ∧
      ((served ++ more).map Lib.Request.session).Nodup ∧
      (∀ r ∈ served ++ more, ∃ s, w'.sessions r.session = some s ∧ s.received = r.request) ∧
      (∀ c s, w.sessions c = some s → s.view.Recorded served c) ∧
      ∀ c s, w'.sessions c = some s → s.view.Recorded (served ++ more) c := by
  obtain ⟨served, hlinear, hserved⟩ := h₀.runs h
  obtain ⟨more, hlinear', hchain, hmore⟩ := (h.wired h₀).runs hlinear h'
  refine ⟨served, more, hlinear.chain, hchain, hserved, hmore, hlinear'.nodup, ?_,
    fun c s hc => hlinear.recorded (desk_sessions hc),
    fun c s hc => hlinear'.recorded (desk_sessions hc)⟩
  intro r hr
  obtain ⟨session, hsession, hreceived, -⟩ := hlinear'.served hr
  obtain ⟨s, hs, rfl⟩ := Option.map_eq_some_iff.mp hsession
  exact ⟨s, hs, s.view_received.symm.trans hreceived⟩

-- ---------------------------------------------------------------------------
-- The response arrives
-- ---------------------------------------------------------------------------

theorem Wired.ready_write (h : w.Wired) {c : MonitorId} {s : MonitorSession} {n : Nat}
    {item : Item MonitorHandler MonitorId} (ho : w.Owns c s n item)
    (hi : item.interest = opWrite) (io : Io) :
    w.step (.ready n true io) = some (w.handleWrite io ⟨n, c⟩) := by
  have ht : w.target n true = some item := target_iff.mpr ⟨ho.entry, by rw [hi]; rfl⟩
  simp only [Service.step, ht, Option.bind_eq_bind, Option.bind_some, ho.handler, ho.data,
    h.sel.fd_eq ho.entry, ↓reduceIte]

theorem Wired.delivers (h : w.Wired) {c : MonitorId} {s : MonitorSession} {n : Nat}
    (hc : w.sessions c = some s) (hl : s.live = true) (hfd : s.clientFd = n)
    (hd : monitorIsDone s.conn.reading.parser.state = true) {takes : Nat → Nat}
    (ht : ∀ i, 1 ≤ takes i) :
    ∃ m w' s', m ≤ s.conn.writeBuffer.content.length ∧
      Lib.play Service.step Allowed w
        ((List.range m).map fun i => .ready n true { send := some (takes i) }) = some (.ok w') ∧
      w'.sessions c = some s' ∧ s'.live = false ∧ w'.files n = none ∧
      s'.sent = s.sent ++ s.conn.writeBuffer.content := by
  -- what is left in the buffer gets shorter
  induction hlen : s.conn.writeBuffer.content.length using Nat.strongRecOn
    generalizing w s takes with
  | _ len ih =>
    obtain ⟨m, item, ho, hst⟩ := h.live hc hl
    have hm : m = n := Int.ofNat.inj (ho.clientFd.symm.trans hfd)
    subst hm
    obtain ⟨hi, hrest⟩ : item.interest = opWrite ∧ s.conn.writeBuffer.content ≠ [] := by
      generalize item.interest = i at hst
      cases hst with
      | waiting hw => exact absurd (hw.parsing.symm.trans hd) (by decide)
      | answering _ _ hrest => exact ⟨rfl, hrest⟩
    let io : Io := { send := some (takes 0) }
    have hstep := h.ready_write ho hi io
    have hsend : io.send = some (takes 0) := rfl
    obtain ⟨s₁, htakes, hrun⟩ := h.handleWrite_sent hc hl ho hsend
    have hpos := List.length_pos_iff.mpr hrest
    split at hrun
    · -- the last bytes
      rename_i hall
      refine ⟨1, w.finished c s₁ m item, { s₁ with live := false }, by omega, ?_,
        Function.update_self .., rfl, Function.update_self .., ?_⟩
      · have hplay : w.step (.ready m true io) = some (.ok (w.finished c s₁ m item)) := hstep.trans
          (congrArg some hrun)
        exact Lib.play_next [] trivial hplay
      · have htake := List.take_append_drop (takes 0) s.conn.writeBuffer.content
        rw [hall, List.append_nil] at htake
        exact htakes.sent.trans (by rw [htake])
    · rename_i hmore
      obtain ⟨hrun, hf⟩ := hrun
      have hplay : w.step (.ready m true io) = some (.ok (w.setSession c s₁)) := hstep.trans
        (congrArg some hrun)
      have hl₁ : s₁.live = true := htakes.live.trans hl
      have hd₁ : monitorIsDone s₁.conn.reading.parser.state = true := htakes.reading ▸ hd
      have hst₁ : s₁.Stands item.interest := by
        rw [hi]
        exact .answering hd₁ hf (htakes.rest ▸ hmore)
      have hw₁ : (w.setSession c s₁).Wired :=
        h.update hc hl ho s₁ h.sel rfl ho.entry (fun _ _ => rfl) hl₁ htakes.clientFd hst₁
      have hshort : s₁.conn.writeBuffer.content.length < len := by
        rw [htakes.rest, List.length_drop]
        have := ht 0
        omega
      obtain ⟨k, w', s', hk, hrest', hc', hl', hfile, hsent⟩ := ih _ hshort hw₁
        (Function.update_self ..) hl₁ (htakes.clientFd.trans hfd) hd₁ (fun i => ht (i + 1)) rfl
      refine ⟨k + 1, w', s', by omega, ?_, hc', hl', hfile, ?_⟩
      · rw [List.range_succ_eq_map, List.map_cons, List.map_map]
        exact (Lib.play_next _ trivial hplay).trans hrest'
      · rw [hsent, htakes.sent, htakes.rest, List.append_assoc, List.take_append_drop]

/-- A connection whose request was served gets the whole response, however
little its socket takes each time, and is then closed. -/
theorem response_delivered (h₀ : w₀.Initial) (h : Reachable w₀ w) {c : MonitorId}
    {s : MonitorSession} {n : Nat} (hc : w.sessions c = some s) (hl : s.live = true)
    (hfd : s.clientFd = n) (hd : monitorIsDone s.conn.reading.parser.state = true)
    {takes : Nat → Nat} (ht : ∀ i, 1 ≤ takes i) :
    ∃ m w' s', m ≤ s.conn.writeBuffer.content.length ∧
      Lib.play step Allowed w
        ((List.range m).map fun i => .ready n true { send := some (takes i) }) = some (.ok w') ∧
      w'.sessions c = some s' ∧ s'.live = false ∧ w'.files n = none ∧
      s'.sent = s.sent ++ s.conn.writeBuffer.content :=
  (h.wired h₀).delivers hc hl hfd hd ht

-- ---------------------------------------------------------------------------
-- The root administrator
-- ---------------------------------------------------------------------------

/-- A request with the token is not answered that the token is wrong. -/
def Lets (token : CStr) (r : Request) : Prop :=
  tokenOf r.request = token.val → r.response.head? ≠ some MonitorStatus.errorAuth.toByte

theorem root_authorised {token : CStr} (htoken : token.val.length = tokenSize) {s s' : Shared}
    {served : List Request} (hroot : s.admins.Rooted (rootAdmin token))
    (h : Lib.Chain monitorProtocol s served s') :
    s'.admins.Rooted (rootAdmin token) ∧ ∀ r ∈ served, Lets token r := by
  obtain ⟨hend, hall⟩ := h.invariant (I := fun s => s.admins.Rooted (rootAdmin token))
    (fun hs hd => hd.admins ▸ hs) (fun hs ⟨p, hp⟩ => hp.rooted hs) hroot
  refine ⟨hend, fun r hr ht => ?_⟩
  obtain ⟨-, -, -, -, ⟨p, hp⟩, -⟩ := h.split hr
  refine hp.authorised ?_
  rw [ht]
  exact (hall r hr).accepts htoken

/-- What a connection was sent is the beginning of the response to its request. -/
theorem Wired.sent (h : w.Wired) {c : MonitorId} {s : MonitorSession} (hc : w.sessions c = some s)
    {served : List Request} (hrecorded : s.view.Recorded served c) :
    s.sent = [] ∨ ∃ r ∈ served, r.session = c ∧ r.request = s.received ∧ s.sent <+: r.response := by
  cases hl : s.live with
  | false =>
    have hview : s.view = .closed s.received s.sent := if_pos hl
    generalize hsent : s.sent = sent at hview ⊢
    rw [hview] at hrecorded
    cases hrecorded with
    | unserved => exact .inl rfl
    | served hr hc hreq hresp => exact .inr ⟨_, hr, hc, hreq, hresp⟩
  | true =>
    obtain ⟨n, item, -, hst⟩ := h.live hc hl
    generalize item.interest = i at hst
    cases hst with
    | waiting _ _ hsent => exact .inl hsent
    | answering hd =>
      rw [MonitorSession.view_answering hl hd] at hrecorded
      cases hrecorded with
      | answering hr hc hreq hresp => exact .inr ⟨_, hr, hc, hreq, _, hresp.symm⟩

theorem Wired.lets (h : w.Wired) {c : MonitorId} {s : MonitorSession} (hc : w.sessions c = some s)
    {served : List Request} (hrecorded : s.view.Recorded served c) {token : CStr}
    (hall : ∀ r ∈ served, Lets token r) (ht : tokenOf s.received = token.val) :
    s.sent.head? ≠ some MonitorStatus.errorAuth.toByte := by
  rcases h.sent hc hrecorded with hnone | ⟨r, hr, -, hreq, hsent⟩
  · rw [hnone]
    simp
  · intro hhead
    refine hall r hr (hreq ▸ ht) ?_
    obtain ⟨rest, hrest⟩ := hsent
    obtain ⟨tail, htail⟩ := List.head?_eq_some_iff.mp hhead
    rw [← hrest, htail]
    rfl

/-- The root administrator is never locked out: whatever the others ask for, no
request with the root token is answered that the token is wrong, and no connection
that sent one is told so. -/
theorem root_never_refused {token : CStr} (htoken : token.val.length = tokenSize)
    (h₀ : w₀.Initial) (hroot : w₀.shared.admins.Rooted (rootAdmin token)) (h : Reachable w₀ w) :
    w.shared.admins.Rooted (rootAdmin token) ∧
    (∃ served : List Request, Lib.Chain monitorProtocol w₀.shared served w.shared ∧
      (∀ r ∈ served, w₀.ServedIn w r ∧ Lets token r) ∧
      ∀ c s, w.sessions c = some s → s.view.Recorded served c) ∧
    ∀ c s, w.sessions c = some s → tokenOf s.received = token.val →
      s.sent.head? ≠ some MonitorStatus.errorAuth.toByte := by
  obtain ⟨served, hlinear, hserved⟩ := h₀.runs h
  obtain ⟨hend, hall⟩ := root_authorised htoken hroot hlinear.chain
  have hrecorded : ∀ c s, w.sessions c = some s → s.view.Recorded served c :=
    fun c s hc => hlinear.recorded (desk_sessions hc)
  exact ⟨hend, ⟨served, hlinear.chain, fun r hr => ⟨hserved r hr, hall r hr⟩, hrecorded⟩,
    fun c s hc ht => (h.wired h₀).lets hc (hrecorded c s hc) hall ht⟩

-- ---------------------------------------------------------------------------
-- A concrete run
-- ---------------------------------------------------------------------------

def startSelector : Selector MonitorHandler MonitorId :=
  match selectorRegister true { fds := List.replicate (fdSetSize + 1) {} } ((3 : Nat) : Int)
    MonitorHandler.passive opRead none with
  | .ok (sel, _) => sel
  | .error _ => {}

def startUp : Service where
  shared := rootShared
  sel := startSelector
  files n := if n ≤ 3 then some .others else none

theorem startUp_initial : startUp.Initial := by
  have hempty := Selector.ok_empty (η := MonitorHandler) (δ := MonitorId) (fdSetSize + 1)
  obtain ⟨sel, hreg, hok, hsize, -, -, hself, hother⟩ := Selector.register_spec hempty (n := 3)
    (by decide) (by rw [List.length_replicate]; decide) (Selector.entry_empty _ _) true
    MonitorHandler.passive opRead none
  have hsel : startSelector = sel := by
    unfold startSelector
    rw [hreg]
  refine ⟨?_, ?_, fun {n item} he => ?_, fun _ => rfl, rfl, ⟨rfl, rfl⟩, fun n c hf => ?_,
    rootShared_valid.users, rootShared_valid.admins⟩
  · simp only [startUp, hsel, hsize, List.length_replicate]
  · simp only [startUp, hsel, hok]
  · simp only [startUp, hsel] at he
    by_cases hn : n = 3
    · subst hn
      cases hself.symm.trans he
      exact .inl rfl
    · rw [hother n hn, Selector.entry_empty] at he
      cases he
  · simp only [startUp] at hf
    split at hf <;> cases hf

def addsAdmin : List Event :=
  [.accept 3 { answer := some 4 }, .ready 4 false { recv := some (addAdminRequest.take 20) },
    .accept 3 { answer := some 5 }, .ready 5 false { recv := some [] },
    .ready 4 false { recv := some (addAdminRequest.drop 20) }]

theorem addsAdmin_run : ∃ w s, Reachable startUp w ∧ w.sessions 0 = some s ∧ s.live = true ∧
    s.clientFd = 4 ∧ s.received = addAdminRequest ∧
    monitorIsDone s.conn.reading.parser.state = true ∧ w.shared.admins.registered = 2 := by
  have hrun : Lib.endsIn (fun w : Service => decide (w.shared.admins.registered = 2) &&
        (w.sessions 0).any fun s => s.live && decide (s.clientFd = 4 ∧ s.received = addAdminRequest) &&
          monitorIsDone s.conn.reading.parser.state)
      (Lib.play step Allowed startUp addsAdmin) = true := by decide +kernel
  obtain ⟨w, hplay, hend⟩ := Lib.endsIn_iff.mp hrun
  obtain ⟨hadmins, hsession⟩ := Bool.and_eq_true_iff.mp hend
  obtain ⟨s, hc, hs⟩ := (Option.any_eq_true ..).mp hsession
  obtain ⟨hs, hd⟩ := Bool.and_eq_true_iff.mp hs
  obtain ⟨hl, hs⟩ := Bool.and_eq_true_iff.mp hs
  obtain ⟨hfd, hreceived⟩ := of_decide_eq_true hs
  exact ⟨w, s, Lib.reaches_of_play hplay, hc, hl, hfd, hreceived, hd, of_decide_eq_true hadmins⟩

def failsWith (fault : Fault) : Option (Except Fault Service) → Bool
  | some (.error f) => f = fault
  | _ => false

theorem service_safe_taken : ∃ w f, Reachable startUp w ∧
    w.step (.accept 3 { answer := some 3 }) = some (.error f) ∧ f = .kernel := by
  have hrun : failsWith .kernel (startUp.step (.accept 3 { answer := some 3 })) = true := by
    decide +kernel
  generalize hs : startUp.step (.accept 3 { answer := some 3 }) = r at hrun
  cases r with
  | none => cases hrun
  | some r =>
    cases r with
    | ok w => cases hrun
    | error f =>
      exact ⟨startUp, f, Lib.Reaches.start, hs,
        service_safe startUp_initial Lib.Reaches.start (show Allowed startUp (.accept 3 _) from trivial) hs⟩

theorem connections_wired_addsAdmin : ∃ w s n item, Reachable startUp w ∧ w.sessions 0 = some s ∧
    w.Registered 0 s n item ∧ item.interest = opWrite := by
  obtain ⟨w, s, hreach, hc, hl, -, -, hd, -⟩ := addsAdmin_run
  obtain ⟨n, item, hreg⟩ := (connections_wired startUp_initial hreach).1 0 s hc hl
  exact ⟨w, s, n, item, hreach, hc, hreg, hreg.interest.trans (if_pos hd)⟩

theorem requests_linearized_addsAdmin : ∃ w s r, Reachable startUp w ∧ w.sessions 0 = some s ∧
    s.received = addAdminRequest ∧ r.request = addAdminRequest ∧ startUp.ServedIn w r ∧
    ∃ served : List Request, r ∈ served ∧ Lib.Chain monitorProtocol startUp.shared served w.shared ∧
      s.view.Recorded served 0 := by
  obtain ⟨w, s, hreach, hc, hl, -, hreceived, hd, -⟩ := addsAdmin_run
  obtain ⟨served, -, hchain, -, hserved, -, -, -, hrecorded, -⟩ :=
    requests_linearized startUp_initial hreach Lib.Reaches.start
  have hrecord := hrecorded 0 s hc
  have hview := hrecord
  rw [MonitorSession.view_answering hl hd] at hview
  cases hview with
  | @answering r _ _ _ hr hsession hreq hresp =>
    exact ⟨w, s, r, hreach, hc, hreceived, hreq.trans hreceived, hserved r hr, served, hr, hchain,
      hrecord⟩

theorem response_delivered_addsAdmin : ∃ w w' s', Reachable startUp w ∧ Reachable w w' ∧
    w'.sessions 0 = some s' ∧ s'.live = false := by
  obtain ⟨w, s, hreach, hc, hl, hfd, -, hd, -⟩ := addsAdmin_run
  obtain ⟨m, w', s', -, hplay, hc', hl', -⟩ :=
    response_delivered startUp_initial hreach hc hl hfd hd fun _ => Nat.le_refl 1
  exact ⟨w, w', s', hreach, Lib.reaches_of_play hplay, hc', hl'⟩

/-- The one who adds an administrator has the root token and is answered 00. -/
theorem root_never_refused_addsAdmin : ∃ w s, Reachable startUp w ∧ w.sessions 0 = some s ∧
    tokenOf s.received = rootToken.val ∧ s.sent = [0, 0] ∧
    s.sent.head? ≠ some MonitorStatus.errorAuth.toByte ∧
    w.shared.admins.Rooted (rootAdmin rootToken) ∧
    ∃ served : List Request, Lib.Chain monitorProtocol startUp.shared served w.shared ∧
      ∃ r ∈ served, startUp.ServedIn w r ∧ r.request = addAdminRequest ∧
        r.response.head? ≠ some MonitorStatus.errorAuth.toByte := by
  have hrun : Lib.endsIn (fun w : Service => (w.sessions 0).any fun s =>
        decide (s.received = addAdminRequest ∧ s.sent = [0, 0]))
      (Lib.play step Allowed startUp (addsAdmin ++ [.ready 4 true { send := some 2 }])) = true := by
    decide +kernel
  obtain ⟨w, hplay, hend⟩ := Lib.endsIn_iff.mp hrun
  obtain ⟨s, hc, hs⟩ := (Option.any_eq_true ..).mp hend
  obtain ⟨hreceived, hsent⟩ := of_decide_eq_true hs
  have hreach : Reachable startUp w := Lib.reaches_of_play hplay
  have htoken : rootToken.val.length = tokenSize := by decide
  have ht : tokenOf s.received = rootToken.val := by
    rw [hreceived]
    decide
  obtain ⟨hrooted, ⟨served, hchain, hall, hrecorded⟩, hsents⟩ := root_never_refused htoken
    startUp_initial (Admins.rooted_rootAdmins htoken) hreach
  refine ⟨w, s, hreach, hc, ht, hsent, hsents 0 s hc ht, hrooted, served, hchain, ?_⟩
  rcases (hreach.wired startUp_initial).sent hc (hrecorded 0 s hc) with hnone | ⟨r, hr, -, hreq, -⟩
  · rw [hsent] at hnone
    cases hnone
  · exact ⟨r, hr, (hall r hr).1, hreq.trans hreceived, (hall r hr).2 (hreq ▸ ht)⟩

end Service

end Socks5d
