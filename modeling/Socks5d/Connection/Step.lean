import Socks5d.Connection.Handlers

/-!
# One event of a connection

An event runs the handler of the current state, moves the machine to the state
that the handler returned and releases the connection when that is an end.
`View.Step` says so in terms of the outcomes, and `Shape` is kept by it.
-/

namespace Socks5d

namespace View

open Handler Lib.Prog

variable {v v' : View} {io : Io} {c : ConnId}

-- ---------------------------------------------------------------------------
-- The machine
-- ---------------------------------------------------------------------------

def arrive (v : View) : SocksState → View
  | .helloRead => { v with
      globals := if v.globals.users.registered = 0 then { v.globals with isAuthOn := false }
        else v.globals
      s := { v.s with
        hello := helloParserInit socksHelloNoAcceptableMethods
        log := v.s.log ++ [.helloInit v.globals.users.registered] } }
  | .authRead =>
    { v with s := { v.s with auth := { parser := authParserInit, status := .failure } } }
  | .requestRead => { v with s := { v.s with
      request := { parser := requestParserInit, status := .generalSocksServerFailure } } }
  | .copy => { v with s := { v.s with
      clientDuplex := ⟨true, true⟩
      origDuplex := ⟨true, true⟩
      dp := disectorParserInit } }
  | _ => v

def enter (v : View) (next : SocksState) : View :=
  { v with s := { v.s with stm := some next, log := v.s.log ++ [.enter v.s.stm next] } }

def advance (v : View) (next : SocksState) : View :=
  if v.s.stm = some next then v else (v.enter next).arrive next

def started (v : View) : View := if v.s.stm = none then v.advance .helloRead else v

def ended (v : View) : View :=
  { v with live := false, client := .closed, peer := .closed, s := { v.s with references := 1 } }

def settle (v : View) (next : SocksState) : View :=
  if next = .error ∨ next = .done then (v.advance next).ended else v.advance next

theorem arrive_run (h : v.live = true) (next : SocksState) (key : Key) :
    (StateMachine.hook (clientStatbl next).onArrival key).run (View.exec io c) v =
      .ok (v.arrive next, ()) := by
  cases next with
  | helloRead =>
    simp only [clientStatbl, StateMachine.hook, helloReadInit, run_bind, run_update h, run_globals]
    rw [run_note (by exact h)]
    by_cases hreg : v.globals.users.registered = 0
    · simp [hreg, arrive, noted]
    · simp [hreg, arrive, noted]
  | authRead => exact run_update h _
  | requestRead => exact run_update h _
  | copy => exact run_update h _
  | _ => rfl

theorem jump_run (h : v.live = true) (next : SocksState) (key : Key) :
    (stm.jump next key).run (View.exec io c) v = .ok (v.advance next, ()) := by
  have hcurrent : stm.current.run (View.exec io c) v = .ok (v, v.s.stm) := by
    simp only [stm, run_bind, run_attachment h, run_pure]
  have hset : (stm.setCurrent next).run (View.exec io c) v = .ok (v.enter next, ()) := run_update h _
  unfold StateMachine.jump advance
  simp only [run_bind, hcurrent]
  by_cases hst : v.s.stm = some next
  · simp only [hst, ne_eq, not_true_eq_false, ↓reduceIte, run_pure]
  · have hgo : (StateMachine.hook (stm.states next).onArrival key).run (View.exec io c)
        (v.enter next) = .ok ((v.enter next).arrive next, ()) := arrive_run (by exact h) next key
    simp only [ne_eq, hst, not_false_eq_true, ↓reduceIte]
    cases hcur : v.s.stm with
    | none => simp only [run_bind, hset, hgo]
    | some st =>
      have hdep : (StateMachine.hook (stm.states st).onDeparture key).run (View.exec io c) v =
          .ok (v, ()) := by cases st <;> rfl
      simp only [run_bind, hdep, hset, hgo]

theorem handleFirst_run (io : Io) (c : ConnId) (h : v.live = true) (key : Key) :
    ∃ st, (stm.handleFirst key).run (View.exec io c) v = .ok (v.started, st) ∧
      v.started.s.stm = some st ∧ v.s.stm.getD .helloRead = st := by
  have hcurrent : stm.current.run (View.exec io c) v = .ok (v, v.s.stm) := by
    simp only [stm, run_bind, run_attachment h, run_pure]
  unfold StateMachine.handleFirst started
  cases hst : v.s.stm with
  | some st =>
    refine ⟨st, ?_, ?_, rfl⟩
    · simp only [run_bind, hcurrent, hst]
      rfl
    · simp [hst]
  | none =>
    refine ⟨.helloRead, ?_, ?_, rfl⟩
    · simp only [run_bind, hcurrent, hst]
      have hset : (stm.setCurrent stm.initial).run (View.exec io c) v =
          .ok (v.enter .helloRead, ()) := run_update h _
      have hgo : (StateMachine.hook (stm.states stm.initial).onArrival key).run (View.exec io c)
          (v.enter .helloRead) = .ok ((v.enter .helloRead).arrive .helloRead, ()) :=
        arrive_run (by exact h) .helloRead key
      simp only [hset, hgo, run_pure, ↓reduceIte, advance, hst, reduceCtorEq]
      rfl
    · simp [advance, hst, enter, arrive]

-- ---------------------------------------------------------------------------
-- The parts of the shape that an outcome keeps
-- ---------------------------------------------------------------------------

theorem Body.of_same (hb : v.Body) (hlive : v'.live = v.live) (hfd : v'.fd = v.fd)
    (hclient : v'.s.clientFd = v.s.clientFd)
    (hrl : v'.s.readBuffer.limit = v.s.readBuffer.limit) (hrr : v'.s.readBuffer.Rewound)
    (hwl : v'.s.writeBuffer.limit = v.s.writeBuffer.limit) (hwr : v'.s.writeBuffer.Rewound)
    (hrefs : v'.s.references = v.s.references) (hpfd : v'.peerFd = v.peerFd)
    (hpeer : v'.peer.isWatched = v.peer.isWatched) (hclosed : v'.peer ≠ .closed → v.peer ≠ .closed) :
    v'.Body where
  live := hlive.trans hb.live
  fd_lt := hfd ▸ hb.fd_lt
  clientFd := by rw [hclient, hfd, hb.clientFd]
  readLimit := hrl.trans hb.readLimit
  readRewound := hrr
  writeLimit := hwl.trans hb.writeLimit
  writeRewound := hwr
  references := by rw [hrefs, hpeer, hb.references]
  peer_ne := fun h => by
    rw [hpfd, hfd]
    exact hb.peer_ne (hclosed h)
  peer_lt := fun h => by
    rw [hpfd]
    exact hb.peer_lt (hpeer ▸ h)

theorem Body.congr (hb : v.Body) (hlive : v'.live = v.live) (hfd : v'.fd = v.fd)
    (hclient : v'.s.clientFd = v.s.clientFd) (hrb : v'.s.readBuffer = v.s.readBuffer)
    (hwb : v'.s.writeBuffer = v.s.writeBuffer) (hrefs : v'.s.references = v.s.references)
    (hpfd : v'.peerFd = v.peerFd) (hpeer : v'.peer = v.peer) : v'.Body :=
  hb.of_same hlive hfd hclient (by rw [hrb]) (hrb ▸ hb.readRewound) (by rw [hwb])
    (hwb ▸ hb.writeRewound) hrefs hpfd (by rw [hpeer]) (hpeer ▸ id)

theorem Body.fills (hb : v.Body) {bytes : List Byte}
    (hwb : v.s.writeBuffer.Fills bytes v'.s.writeBuffer) (hne : bytes ≠ [])
    (hlive : v'.live = v.live) (hfd : v'.fd = v.fd) (hclient : v'.s.clientFd = v.s.clientFd)
    (hrb : v'.s.readBuffer = v.s.readBuffer) (hrefs : v'.s.references = v.s.references)
    (hpfd : v'.peerFd = v.peerFd) (hpeer : v'.peer = v.peer) : v'.Body :=
  hb.of_same hlive hfd hclient (by rw [hrb]) (hrb ▸ hb.readRewound) hwb.limit (hwb.rewound hne)
    hrefs hpfd (by rw [hpeer]) (hpeer ▸ id)

theorem requestReply_ne_nil (status : SocksStatus) : requestReply status ≠ [] := by
  simp [requestReply]

theorem Body.received (hb : v.Body) {bytes : List Byte} {rb rb' : Buffer}
    (hr : Receives io v bytes rb) (hd : Drained rb rb') : (v.received bytes rb').Body :=
  hb.of_same rfl rfl rfl (hd.limit.trans hr.fills.limit) (hd.rewound (hr.fills.rewound hr.ne)) rfl
    hb.writeRewound rfl rfl rfl id

theorem Body.sent (hb : v.Body) {n : Nat} {wb : Buffer} (hs : Sends io v n wb) :
    (v.sent n wb).Body :=
  hb.of_same rfl rfl rfl rfl hb.readRewound hs.takes.limit hs.takes.rewound rfl rfl rfl id

theorem helloConsume_drained {f : δ → Byte → δ} {b b' : Buffer} {p p' : HelloParser δ} {e : Bool}
    (h : helloConsume f b p = (b', p', e)) : Drained b b' := by
  obtain ⟨rfl, -, -⟩ : _ ∧ _ ∧ _ := by simpa [helloConsume] using h
  exact (consumeBuffer_spec _ b p).2.2

theorem authConsume_drained {b b' : Buffer} {p p' : AuthParser} {e : Bool}
    (h : authConsume b p = (b', p', e)) : Drained b b' := by
  obtain ⟨rfl, -, -⟩ : _ ∧ _ ∧ _ := by simpa [authConsume] using h
  exact (consumeBuffer_spec _ b p).2.2

theorem requestConsume_drained {b b' : Buffer} {p p' : RequestParser} {e : Bool}
    (h : requestConsume b p = (b', p', e)) : Drained b b' := by
  obtain ⟨rfl, -, -⟩ : _ ∧ _ ∧ _ := by simpa [requestConsume] using h
  exact (consumeBuffer_spec _ b p).2.2

theorem Body.requested (hb : v.Body) {bytes : List Byte} {rb rb' : Buffer} {p : RequestParser}
    {errored : Bool} (hr : Receives io v bytes rb)
    (hc : requestConsume rb v.s.request.parser = (rb', p, errored)) :
    ({ v.received bytes rb' with s := { (v.received bytes rb').s with
      request := { v.s.request with parser := p }
      log := (v.received bytes rb').s.log ++ [.requestProcess p.request] } } : View).Body := by
  have hbody := hb.received hr (requestConsume_drained hc)
  exact hbody.congr rfl rfl rfl rfl rfl rfl rfl rfl

structure Poised (v : View) : Prop where
  body : v.Body
  client : ∃ i, v.client = .watched i
  peer : v.peer = .closed
  threads : v.threads = []
  status : v.s.request.status ≠ .succeeded
  current : v.s.request.parser.request.destAddrType = socksReqAddrtypeDomain →
    v.s.originResolutionCurrent ≠ []

theorem Poised.references (h : v.Poised) : v.s.references = 1 := by
  simpa [h.peer, Link.isWatched] using h.body.references

theorem Connect.shape {ret : SocksState} (h : Connect io v v' ret) (hp : v.Poised) :
    v'.Body ∧ v'.Phase c ret := by
  have hb := hp.body
  have hrefs := hp.references
  cases h with
  | noSocket hio hwb =>
    refine ⟨hb.fills hwb (requestReply_ne_nil _) rfl rfl rfl rfl rfl rfl rfl, ?_⟩
    exact ⟨.inl ⟨rfl, ⟨hp.peer, rfl⟩, by simp [replied]⟩, hp.threads⟩
  | noNio hio hn hnio =>
    refine ⟨⟨hb.live, hb.fd_lt, hb.clientFd, hb.readLimit, hb.readRewound, hb.writeLimit,
      hb.writeRewound, hrefs, fun _ => hn, by simp [Link.isWatched]⟩, ?_⟩
    exact ⟨.inr (.inr ⟨hp.client, rfl, rfl⟩), hp.threads, hp.status, hp.current⟩
  | failed hio hn hnio hconnect hzero herrno hwb =>
    refine ⟨⟨hb.live, hb.fd_lt, hb.clientFd, hb.readLimit, hb.readRewound,
      hwb.limit.trans hb.writeLimit, hwb.rewound (by simp [requestReply]), hrefs,
      fun h => absurd rfl h, by simp [replied, gaveUp, Link.isWatched]⟩, ?_⟩
    exact ⟨.inl ⟨rfl, ⟨rfl, rfl⟩, errnoToSocks_ne_succeeded hzero⟩, hp.threads⟩
  | unregistered hio hn hnio hconnect hlarge hwb =>
    refine ⟨⟨hb.live, hb.fd_lt, hb.clientFd, hb.readLimit, hb.readRewound,
      hwb.limit.trans hb.writeLimit, hwb.rewound (by simp [requestReply]), hrefs,
      fun h => absurd rfl h, by simp [replied, gaveUp, Link.isWatched]⟩, ?_⟩
    exact ⟨.inl ⟨rfl, ⟨rfl, rfl⟩, hp.status⟩, hp.threads⟩
  | pending hio hn hnio hconnect hlarge =>
    refine ⟨⟨hb.live, hb.fd_lt, hb.clientFd, hb.readLimit, hb.readRewound, hb.writeLimit,
      hb.writeRewound, by simp [hrefs, Link.isWatched], fun _ => hn, fun _ => hlarge⟩, ?_⟩
    exact ⟨.inl ⟨rfl, rfl, rfl⟩, hp.threads, hp.status, hp.current⟩

theorem Connect.connecting {ret : SocksState} (h : Connect io v v' ret) (hp : v.Poised) :
    v'.Phase c .requestConnecting := by
  have hshape := (h.shape (c := c) hp).2
  cases h with
  | noSocket hio hwb =>
    exact ⟨.inr (.inl ⟨rfl, hp.peer, rfl⟩), hp.threads, by simp [replied], hp.current⟩
  | noNio hio hn hnio => exact hshape
  | failed hio hn hnio hconnect hzero herrno hwb =>
    exact ⟨.inr (.inl ⟨rfl, rfl, rfl⟩), hp.threads, errnoToSocks_ne_succeeded hzero, hp.current⟩
  | unregistered hio hn hnio hconnect hlarge hwb =>
    exact ⟨.inr (.inl ⟨rfl, rfl, rfl⟩), hp.threads, hp.status, hp.current⟩
  | pending hio hn hnio hconnect hlarge => exact hshape

theorem Body.advance (hb : v.Body) (next : SocksState) : (v.advance next).Body := by
  unfold View.advance
  split
  · exact hb
  · cases next <;> exact hb.congr rfl rfl rfl rfl rfl rfl rfl rfl

theorem Phase.advance {next : SocksState} (h : v.Phase c next) : (v.advance next).Phase c next := by
  unfold View.advance
  split
  · exact h
  · cases next with
    | requestRead => exact ⟨h.1, h.2.1, h.2.2.1, h.2.2.2.1, by simp [arrive]⟩
    | _ => exact h

theorem phase_requestRead (hst : v.s.stm ≠ some .requestRead) (hc : v.client = .watched opRead)
    (halone : v.Alone) (hwb : v.s.writeBuffer.content = []) (ht : v.threads = []) :
    (v.advance .requestRead).Phase c .requestRead := by
  unfold View.advance
  rw [if_neg hst]
  exact ⟨hc, halone, hwb, ht, by simp [arrive]⟩

theorem Shape.phase_of (hs : v.Shape c) {st : SocksState} (hst : v.s.stm = some st) :
    v.Phase c st := by
  have := hs.phase
  rwa [hst] at this

theorem Process.shape {ret : SocksState} (h : Process io c v v' ret) (hb : v.Body)
    (hphase : v.Phase c .requestRead) : v'.Body ∧ v'.Phase c ret := by
  obtain ⟨hc, halone, hwb, ht, hstatus⟩ := hphase
  cases h with
  | refused hne hfills =>
    refine ⟨hb.fills hfills (requestReply_ne_nil _) rfl rfl rfl rfl rfl rfl rfl, ?_⟩
    exact ⟨.inl ⟨rfl, halone, hne⟩, ht⟩
  | resolve htype =>
    refine ⟨hb.congr rfl rfl rfl rfl rfl rfl rfl rfl, ?_⟩
    exact ⟨rfl, halone, hwb, by simp [ht], hstatus⟩
  | connect htype hconnect =>
    refine hconnect.shape ⟨?_, ⟨_, hc⟩, halone.1, ht, hstatus, fun h => absurd h htype⟩
    exact hb.congr rfl rfl rfl rfl rfl rfl rfl rfl

theorem Connect.stm {ret : SocksState} (h : Connect io v v' ret) : v'.s.stm = v.s.stm := by
  cases h <;> rfl

theorem Connect.globals {ret : SocksState} (h : Connect io v v' ret) : v'.globals = v.globals := by
  cases h <;> rfl

theorem Process.stm {ret : SocksState} (h : Process io c v v' ret) : v'.s.stm = v.s.stm := by
  cases h with
  | refused => rfl
  | resolve => rfl
  | connect _ hconnect => exact hconnect.stm

theorem setRb_stm (s : Socks5) (d : Side) (b : Buffer) : (s.setRb d b).stm = s.stm := by
  cases d <;> rfl

theorem shut_stm (v : View) (d : Side) (write : Bool) : (v.shut d write).s.stm = v.s.stm := by
  cases d <;> rfl

theorem Outcome.stm {fd : Nat} {write : Bool} {ret : SocksState}
    (h : Outcome io c v fd write v' ret) : v'.s.stm = v.s.stm := by
  cases h with
  | requestDone _ _ _ _ hprocess => exact hprocess.stm
  | retried _ _ _ _ _ hconnect => exact hconnect.stm
  | copyReceived _ _ _ _ _ h₁ =>
    subst h₁
    exact setRb_stm ..
  | copyEnded => exact shut_stm ..
  | copySent hst hs hb v₁ v₂ h₁ h₂ =>
    subst h₁ h₂
    obtain ⟨dp, lines, heq, -⟩ := disected_eq (v.noted _) _ _
    rw [heq]
    exact setRb_stm ..
  | copyFailed => exact shut_stm ..
  | _ => rfl

theorem Copying.copied (h : v.Copying) (ht : v.threads = []) (d : Side) :
    (v.copied d).Body ∧ ((v.copied d).advance (v.copyNext d)).Phase c (v.copyNext d) := by
  obtain ⟨i, hi⟩ := h.peer
  refine ⟨h.body.of_same rfl rfl rfl rfl h.body.readRewound rfl h.body.writeRewound rfl rfl
    (by simp [View.copied, hi, Link.isWatched]) (by simp [hi]), Phase.advance ?_⟩
  unfold copyNext
  split
  · exact ⟨⟨_, rfl⟩, .inr ⟨⟨_, rfl⟩, h.originFd⟩, ht⟩
  · exact ⟨⟨_, rfl⟩, ⟨_, rfl⟩, h.originFd, ht⟩

theorem AnsweringLinks.enabled (h : v.AnsweringLinks) {fd : Nat} {write : Bool}
    (hen : v.Enabled fd write) : v.client = .watched opWrite ∧
      (v.Alone ∧ v.s.request.status ≠ .succeeded ∨
        v.peer = .watched opNoop ∧ v.s.originFd = v.peerFd) := by
  rcases h with ⟨hc, ha, hst⟩ | ⟨hc, hp⟩ | ⟨hc, hp⟩
  · exact ⟨hc, .inl ⟨ha, hst⟩⟩
  · exact ⟨hc, .inr hp⟩
  · exfalso
    rcases hen.cases with ⟨-, hw⟩ | ⟨-, -, hw⟩
    · rw [hc] at hw
      cases write <;> cases hw
    · cases hpeer : v.peer with
      | watched i => simp [hpeer, Link.isWatched] at hp
      | _ => simp [hpeer, Link.wants] at hw

/-- In REQUEST_CONNECTING an event is the origin's, or the client's while no
origin socket is registered. -/
theorem ConnectingLinks.enabled (h : v.ConnectingLinks) {fd : Nat} {write : Bool}
    (hen : v.Enabled fd write) :
    (fd = v.fd ∧ v.client.wants write = true ∧ v.peer.isWatched = false) ∨
      (fd ≠ v.fd ∧ fd = v.peerFd ∧ write = true ∧ v.client = .watched opNoop ∧
        v.peer = .watched opWrite ∧ v.s.originFd = v.peerFd) := by
  rcases h with ⟨hc, hp, ho⟩ | ⟨hc, ha⟩ | ⟨hc, hp, ho⟩
  · rcases hen.cases with ⟨-, hw⟩ | ⟨hne, hfd, hw⟩
    · rw [hc] at hw
      cases write <;> cases hw
    · rw [hp] at hw
      refine .inr ⟨hne, hfd, ?_, hc, hp, ho⟩
      cases write with
      | true => rfl
      | false => cases hw
  · obtain ⟨hfd, hw⟩ := hen.client ha.1
    exact .inl ⟨hfd, hw, by rw [ha.1]; rfl⟩
  · rcases hen.cases with ⟨hfd, hw⟩ | ⟨-, -, hw⟩
    · exact .inl ⟨hfd, hw, by rw [hp]; rfl⟩
    · rw [hp] at hw
      cases hw

theorem ConnectingLinks.client (h : v.ConnectingLinks) : ∃ i, v.client = .watched i := by
  rcases h with ⟨hc, -⟩ | ⟨hc, -⟩ | ⟨hc, -⟩
  · exact ⟨_, hc⟩
  · exact ⟨_, hc⟩
  · exact hc

theorem Body.dropPeer (hb : v.Body) : v.dropPeer.Body where
  live := hb.live
  fd_lt := hb.fd_lt
  clientFd := hb.clientFd
  readLimit := hb.readLimit
  readRewound := hb.readRewound
  writeLimit := hb.writeLimit
  writeRewound := hb.writeRewound
  references := by
    have := hb.references
    show v.s.references - (if v.peer.isWatched then 1 else 0) = 1
    omega
  peer_ne := fun h => absurd rfl h
  peer_lt := fun h => by cases h

theorem Shape.poised_retry (hs : v.Shape c) (hst : v.s.stm = some .requestConnecting) (act : Action)
    (a : AddrInfo) (rest : List AddrInfo) : (((v.noted act).aimed (a :: rest) a).dropPeer).Poised := by
  obtain ⟨hlinks, ht, hstatus, -⟩ := hs.phase_of hst
  have hb := hs.body
  have haimed : ((v.noted act).aimed (a :: rest) a).Body :=
    hb.congr rfl rfl rfl rfl rfl rfl rfl rfl
  exact ⟨haimed.dropPeer, hlinks.client, rfl, ht, hstatus, fun _ => List.cons_ne_nil _ _⟩

theorem disected_threads (v : View) (fd : Nat) (bytes : List Byte) :
    (v.disected fd bytes).threads = v.threads := by
  obtain ⟨dp, lines, heq, -⟩ := v.disected_eq fd bytes
  rw [heq]

theorem Shape.copying (hs : v.Shape c) (hst : v.s.stm = some .copy) :
    v.Copying ∧ v.threads = [] := by
  obtain ⟨hc, hp, ho, ht⟩ := hs.phase_of hst
  exact ⟨⟨hs.body, hc, hp, ho⟩, ht⟩

theorem Outcome.shape_read {fd : Nat} {write : Bool} {ret : SocksState}
    (h : Outcome io c v fd write v' ret) (hs : v.Shape c)
    (hst : v.s.stm = some .helloRead ∨ v.s.stm = some .authRead) :
    v'.Body ∧ (v'.advance ret).Phase c ret := by
  have hb := hs.body
  have hphase : v.Phase c .helloRead := by
    rcases hst with hst | hst
    · exact hs.phase_of hst
    · have hauth := hs.phase_of hst
      exact hauth
  obtain ⟨hcl, ha, -, ht⟩ := id hphase
  cases h with
  | recvFailed => exact ⟨hb.noted _, Phase.advance ⟨⟨_, hcl⟩, .inl ha, ht⟩⟩
  | helloMore _ hr hc =>
    have hbody := hb.received hr (helloConsume_drained hc)
    exact ⟨hbody.congr rfl rfl rfl rfl rfl rfl rfl rfl, Phase.advance hphase⟩
  | authMore _ hr hc =>
    have hbody := hb.received hr (authConsume_drained hc)
    exact ⟨hbody.congr rfl rfl rfl rfl rfl rfl rfl rfl, Phase.advance hphase⟩
  | helloDone _ hr hc hdone hwb =>
    have hbody := hb.received hr (helloConsume_drained hc)
    refine ⟨hbody.fills hwb (by simp) rfl rfl rfl rfl rfl rfl rfl, Phase.advance ?_⟩
    split
    · exact ⟨⟨_, rfl⟩, .inl ha, ht⟩
    · exact ⟨rfl, ha, ht⟩
  | authDone _ hr hc hdone hstatus hwb =>
    have hbody := hb.received hr (authConsume_drained hc)
    refine ⟨hbody.fills hwb (by simp) rfl rfl rfl rfl rfl rfl rfl, Phase.advance ?_⟩
    split
    · exact ⟨⟨_, rfl⟩, .inl ha, ht⟩
    · exact ⟨rfl, ha, ht⟩
  | _ => rcases hst with hst | hst <;> simp_all

theorem Outcome.shape_write {fd : Nat} {write : Bool} {ret : SocksState}
    (h : Outcome io c v fd write v' ret) (hs : v.Shape c)
    (hst : v.s.stm = some .helloWrite ∨ v.s.stm = some .authWrite) :
    v'.Body ∧ (v'.advance ret).Phase c ret := by
  have hb := hs.body
  have hphase : v.Phase c .helloWrite := by
    rcases hst with hst | hst
    · exact hs.phase_of hst
    · have hauth := hs.phase_of hst
      exact hauth
  obtain ⟨hcl, ha, ht⟩ := id hphase
  cases h with
  | sendFailed => exact ⟨hb.noted _, Phase.advance ⟨⟨_, hcl⟩, .inl ha, ht⟩⟩
  | helloPart _ hsends => exact ⟨hb.sent hsends, Phase.advance hphase⟩
  | authPart _ hsends => exact ⟨hb.sent hsends, Phase.advance hphase⟩
  | helloSent hst hsends hleft =>
    refine ⟨(hb.sent hsends).congr rfl rfl rfl rfl rfl rfl rfl rfl, ?_⟩
    split
    · exact Phase.advance ⟨rfl, ha, hleft, ht⟩
    · exact phase_requestRead (by simp [sent, hst]) rfl ha hleft ht
  | authSent hst hsends hleft =>
    refine ⟨(hb.sent hsends).congr rfl rfl rfl rfl rfl rfl rfl rfl, ?_⟩
    exact phase_requestRead (by simp [sent, hst]) rfl ha hleft ht
  | authRejected _ hsends =>
    refine ⟨(hb.sent hsends).congr rfl rfl rfl rfl rfl rfl rfl rfl, ?_⟩
    exact Phase.advance ⟨⟨_, rfl⟩, .inl ha, ht⟩
  | _ => rcases hst with hst | hst <;> simp_all

theorem Outcome.shape_requestRead {fd : Nat} {write : Bool} {ret : SocksState}
    (h : Outcome io c v fd write v' ret) (hs : v.Shape c) (hst : v.s.stm = some .requestRead) :
    v'.Body ∧ (v'.advance ret).Phase c ret := by
  have hb := hs.body
  obtain ⟨hcl, ha, hwb, ht, hstatus⟩ := hs.phase_of hst
  cases h with
  | recvFailed => exact ⟨hb.noted _, Phase.advance ⟨⟨_, hcl⟩, .inl ha, ht⟩⟩
  | requestMore _ hr hc =>
    have hbody := hb.received hr (requestConsume_drained hc)
    refine ⟨hbody.congr rfl rfl rfl rfl rfl rfl rfl rfl, Phase.advance ?_⟩
    split
    · exact ⟨⟨_, hcl⟩, .inl ha, ht⟩
    · exact ⟨hcl, ha, hwb, ht, hstatus⟩
  | requestDone _ hr hc hdone hprocess =>
    obtain ⟨hb', hphase⟩ := hprocess.shape (hb.requested hr hc) (hs.phase_of hst)
    exact ⟨hb', hphase.advance⟩
  | _ => simp_all

theorem Outcome.shape_connecting {fd : Nat} {write : Bool} {ret : SocksState}
    (h : Outcome io c v fd write v' ret) (hs : v.Shape c) (hen : v.Enabled fd write)
    (hst : v.s.stm = some .requestConnecting) : v'.Body ∧ (v'.advance ret).Phase c ret := by
  have hb := hs.body
  cases h with
  | concluded _ hstatus hwb =>
    have hwr := hwb.rewound (requestReply_ne_nil _)
    obtain ⟨hlinks, ht, -⟩ := hs.phase_of hst
    rcases hlinks.enabled hen with ⟨rfl, -, hp⟩ | ⟨hne, rfl, -, -, hp, ho⟩
    · refine ⟨hb.of_same rfl rfl rfl rfl hb.readRewound hwb.limit hwr rfl rfl
        (by simp [View.concluded, noted]) (by simp [View.concluded, noted]), Phase.advance ?_⟩
      exact ⟨.inr (.inr (by simp [View.concluded, noted, hp])), ht⟩
    · refine ⟨hb.of_same rfl rfl rfl rfl hb.readRewound hwb.limit hwr rfl rfl
        (by simp [View.concluded, noted, hne, hp, Link.isWatched])
        (by simp [View.concluded, noted, hp]), Phase.advance ?_⟩
      exact ⟨.inr (.inl (by simp [View.concluded, noted, hne, ho])), ht⟩
  | retried _ herr he htype hcur hconnect =>
    have hpoised := hs.poised_retry hst
    exact ⟨(hconnect.shape (c := c) (hpoised _ _ _)).1, (hconnect.connecting (hpoised _ _ _)).advance⟩
  | _ => simp_all

theorem Outcome.shape_requestWrite {fd : Nat} {write : Bool} {ret : SocksState}
    (h : Outcome io c v fd write v' ret) (hs : v.Shape c) (hen : v.Enabled fd write)
    (hst : v.s.stm = some .requestWrite) : v'.Body ∧ (v'.advance ret).Phase c ret := by
  have hb := hs.body
  obtain ⟨hlinks, ht⟩ := hs.phase_of hst
  obtain ⟨hc, horigin⟩ := hlinks.enabled hen
  cases h with
  | sendFailed =>
    refine ⟨hb.noted _, Phase.advance ?_⟩
    rcases horigin with ⟨ha, -⟩ | ⟨hp, ho⟩
    · exact ⟨⟨_, hc⟩, .inl ha, ht⟩
    · exact ⟨⟨_, hc⟩, .inr ⟨⟨_, hp⟩, ho⟩, ht⟩
  | replyPart _ hsends => exact ⟨hb.sent hsends, Phase.advance (hs.phase_of hst)⟩
  | replySent _ hsends hleft hstatus =>
    obtain ⟨hp, ho⟩ := horigin.resolve_left fun h => h.2 hstatus
    have hbody := hb.sent hsends
    refine ⟨hbody.of_same rfl rfl rfl rfl hbody.readRewound rfl hbody.writeRewound rfl rfl
      (by simp [logged, relaying, noted, sent, hp, Link.isWatched])
      (by simp [sent, hp]), Phase.advance ?_⟩
    exact ⟨⟨_, rfl⟩, ⟨_, rfl⟩, ho, ht⟩
  | replyRefused _ hsends hleft hstatus =>
    have hbody := hb.sent hsends
    rcases horigin with ⟨⟨hp, ho⟩, -⟩ | ⟨hp, ho⟩
    · refine ⟨hbody.of_same rfl rfl rfl rfl hbody.readRewound rfl hbody.writeRewound rfl rfl
        (by simp [ho, sent]) (by simp [ho, sent]), Phase.advance ?_⟩
      exact ⟨⟨_, rfl⟩, .inl ⟨by simp [ho, hp], ho⟩, ht⟩
    · have ho' : v.s.originFd ≠ -1 := by omega
      refine ⟨hbody.of_same rfl rfl rfl rfl hbody.readRewound rfl hbody.writeRewound rfl rfl
        (by simp [ho', sent, hp, Link.isWatched]) (by simp [hp, sent]), Phase.advance ?_⟩
      exact ⟨⟨_, rfl⟩, .inr ⟨⟨opNoop, by simp [ho']⟩, ho⟩, ht⟩
  | _ => simp_all

theorem Outcome.shape_copy {fd : Nat} {write : Bool} {ret : SocksState}
    (h : Outcome io c v fd write v' ret) (hs : v.Shape c) (hst : v.s.stm = some .copy) :
    v'.Body ∧ (v'.advance ret).Phase c ret := by
  have hb := hs.body
  obtain ⟨hcopying, ht⟩ := hs.copying hst
  cases h with
  | copyReceived _ hr hne hfills v₁ h₁ =>
    subst h₁
    exact ((hcopying.noted _).setRb (hfills.limit.trans (hb.rb _).1) (hfills.rewound hne)).copied ht _
  | copyEnded => exact ((hcopying.noted _).shut _ false).copied ht _
  | copySent _ hsends htakes v₁ v₂ h₁ h₂ =>
    subst h₁ h₂
    refine (((hcopying.noted _).disected _ _).setRb (htakes.limit.trans (hb.rb _).1)
      htakes.rewound |>.setGlobals _).copied ?_ _
    exact (disected_threads ..).trans ht
  | copyFailed => exact ((hcopying.noted _).shut _ true).copied ht _
  | _ => simp_all

theorem Outcome.some_stm {fd : Nat} {write : Bool} {ret : SocksState}
    (h : Outcome io c v fd write v' ret) : ∃ st, v.s.stm = some st := by
  cases h with
  | recvFailed hst => rcases hst with hst | hst | hst <;> exact ⟨_, hst⟩
  | sendFailed hst => rcases hst with hst | hst | hst <;> exact ⟨_, hst⟩
  | _ => exact ⟨_, by assumption⟩

/-- The view after an outcome fits the state that the handler returned. -/
theorem Outcome.shape {fd : Nat} {write : Bool} {ret : SocksState}
    (h : Outcome io c v fd write v' ret) (hs : v.Shape c) (hen : v.Enabled fd write) :
    v'.Body ∧ (v'.advance ret).Phase c ret := by
  obtain ⟨st, hst⟩ := h.some_stm
  cases st with
  | helloRead => exact h.shape_read hs (.inl hst)
  | authRead => exact h.shape_read hs (.inr hst)
  | helloWrite => exact h.shape_write hs (.inl hst)
  | authWrite => exact h.shape_write hs (.inr hst)
  | requestRead => exact h.shape_requestRead hs hst
  | requestResolv => cases h <;> simp_all
  | requestConnecting => exact h.shape_connecting hs hen hst
  | requestWrite => exact h.shape_requestWrite hs hen hst
  | copy => exact h.shape_copy hs hst
  | done => exact absurd hst hs.stays.1
  | error => exact absurd hst hs.stays.2

-- ---------------------------------------------------------------------------
-- The end of a connection
-- ---------------------------------------------------------------------------

/-- One turn of the loop of `socksv5_done`: the descriptor is unregistered,
which drops a reference, and closed. -/
theorem socksv5DoneFd_run {n : Nat} {i : Interest} (hlive : v.live = true)
    (hlink : v.link n = .watched i) (hn : n < fdSetSize) {v₁ : View} (hd : v.destroy = .ok v₁) :
    (socksv5DoneFd n).run (View.exec io c) v = .ok (v₁.setLink n .closed, ()) := by
  have hvalid : invalidFd (n : Int) = false := by
    rw [Selector.invalidFd_natCast, decide_eq_false_iff_not]
    omega
  have hpos : (n : Int) ≠ -1 := by omega
  have hneg : ¬ (n : Int) < 0 := by omega
  have hlink₁ : v₁.link n = v.link n := by
    unfold View.destroy at hd
    rw [if_neg (by simp [hlive])] at hd
    split at hd <;> (cases hd; rfl)
  have hunreg : (Handler.selectorUnregisterFd (n : Int)).run (View.exec io c) v =
      .ok (v₁.setLink n .opened, .success) := by
    refine (run_call _).trans ?_
    simp [View.exec, View.unregister, hvalid, hlink, hd, Bind.bind, Except.bind, Pure.pure,
      Except.pure]
  have hopened : (v₁.setLink n .opened).link n = .opened := by
    rw [View.link_setLink (by simp [hlink₁, hlink]), if_pos rfl]
  have hclose : (Handler.close (n : Int)).run (View.exec io c) (v₁.setLink n .opened) =
      .ok (v₁.setLink n .closed, ()) := by
    refine (run_call _).trans ?_
    simp only [View.exec, View.close, hneg, ↓reduceIte, Int.toNat_natCast, hopened, Bind.bind,
      Except.bind, Pure.pure, Except.pure]
    unfold View.setLink
    by_cases hfd : n = v₁.fd <;> simp [hfd]
  simp only [socksv5DoneFd, ne_eq, hpos, not_false_eq_true, ↓reduceIte, run_bind, hunreg,
    not_true_eq_false, hclose]

theorem socksv5Done_run (hb : v.Body) (hphase : v.Phase c .error) (key : Key) :
    (socksv5Done key).run (View.exec io c) v = .ok (v.ended, ()) := by
  obtain ⟨⟨i, hi⟩, hpeer, -⟩ := hphase
  unfold socksv5Done
  simp only [run_bind, run_attachment hb.live, hb.clientFd]
  have hclient : v.link v.fd = .watched i := by simp [View.link, hi]
  rcases hpeer with ⟨hp, ho⟩ | ⟨⟨j, hj⟩, ho⟩
  · have hrefs : v.s.references = 1 := by simpa [hp, Link.isWatched] using hb.references
    have hd : v.destroy = .ok { v with live := false } := by
      simp [View.destroy, hb.live, hrefs]
    rw [socksv5DoneFd_run hb.live hclient hb.fd_lt hd]
    have hsame : { v.s with references := 1 } = v.s := by rw [← hrefs]
    have hskip : socksv5DoneFd v.s.originFd = pure () := by
      rw [ho]
      rfl
    show (socksv5DoneFd v.s.originFd).run (View.exec io c) _ = _
    rw [hskip, ended, hsame, ← hp]
    simp [View.setLink]
  · have hrefs : v.s.references = 2 := by simpa [hj, Link.isWatched] using hb.references
    have hd : v.destroy = .ok { v with s := { v.s with references := 1 } } := by
      simp [View.destroy, hb.live, hrefs]
    rw [socksv5DoneFd_run hb.live hclient hb.fd_lt hd]
    have hne := hb.peer_ne (by simp [hj])
    have hlt := hb.peer_lt (by simp [hj, Link.isWatched])
    have horigin : socksv5DoneFd v.s.originFd = socksv5DoneFd (v.peerFd : Int) := by rw [ho]
    show (socksv5DoneFd v.s.originFd).run (View.exec io c) _ = _
    rw [horigin]
    have hd' : (({ v with s := { v.s with references := 1 } } : View).setLink v.fd .closed).destroy =
        .ok { v with live := false, client := .closed, s := { v.s with references := 1 } } := by
      simp [View.destroy, View.setLink, hb.live]
    rw [socksv5DoneFd_run (by simp [View.setLink, hb.live]) (i := j)
      (by simp [View.setLink, View.link, hne, hj])
      hlt hd']
    simp [View.setLink, hne, ended]

theorem finish_run {ret : SocksState} (hb : v.Body) (hphase : v.Phase c ret) (key : Key) :
    (finish ret key).run (View.exec io c) v =
      .ok (if ret = .error ∨ ret = .done then v.ended else v, ()) := by
  unfold finish
  by_cases hret : ret = .error ∨ ret = .done
  · rw [if_pos hret, if_pos hret]
    refine socksv5Done_run hb ?_ key
    rcases hret with rfl | rfl <;> exact hphase
  · rw [if_neg hret, if_neg hret]
    rfl

-- ---------------------------------------------------------------------------
-- Whole events
-- ---------------------------------------------------------------------------

def hookOf (write : Bool) (d : StateDefinition Handler SocksState Key) :
    Option (Key → Handler SocksState) :=
  if write then d.onWriteReady else d.onReadReady

/-- An event that the selector delivers finds its handler, except for a read
event in REQUEST_CONNECTING. -/
theorem hook_meets (io : Io) (hs : v.Shape c) {st : SocksState} (hst : v.s.stm = some st) {fd : Nat}
    {write : Bool} (hen : v.Enabled fd write) :
    match hookOf write (clientStatbl st) with
    | none => Faults io v write .abort
    | some h => Meets (View.exec io c) (h ⟨fd, c⟩) v (Outcome io c v fd write) (Faults io v write) := by
  have hb := hs.body
  have hphase := hs.phase_of hst
  -- a state with one descriptor and one interest
  have honly {i : Interest} (hc : v.client = .watched i) (ha : v.Alone) :
      fd = v.fd ∧ (if write then i.write else i.read) = true := by
    obtain ⟨hfd, hw⟩ := hen.client ha.1
    rw [hc] at hw
    exact ⟨hfd, hw⟩
  cases st with
  | helloRead =>
    obtain ⟨hc, ha, hwb, -⟩ := hphase
    obtain ⟨rfl, hw⟩ := honly hc ha
    cases write with
    | true => cases hw
    | false => exact helloRead_meets hb hst hc hwb
  | helloWrite =>
    obtain ⟨hc, ha, -⟩ := hphase
    obtain ⟨rfl, hw⟩ := honly hc ha
    cases write with
    | true => exact helloWrite_meets hb hst hc
    | false => cases hw
  | authRead =>
    obtain ⟨hc, ha, hwb, -⟩ := hphase
    obtain ⟨rfl, hw⟩ := honly hc ha
    cases write with
    | true => cases hw
    | false => exact authRead_meets hb hst hc hwb
  | authWrite =>
    obtain ⟨hc, ha, -⟩ := hphase
    obtain ⟨rfl, hw⟩ := honly hc ha
    cases write with
    | true => exact authWrite_meets hb hst hc
    | false => cases hw
  | requestRead =>
    obtain ⟨hc, ha, hwb, -⟩ := hphase
    obtain ⟨rfl, hw⟩ := honly hc ha
    cases write with
    | true => cases hw
    | false => exact requestRead_meets hb hst hc ha.1 hwb
  | requestResolv =>
    obtain ⟨hc, ha, -⟩ := hphase
    obtain ⟨rfl, hw⟩ := honly hc ha
    cases write <;> cases hw
  | requestConnecting =>
    obtain ⟨hlinks, -, -, hcur⟩ := hphase
    cases write with
    | false => exact .inl ⟨rfl, .inr ⟨hst, .inl rfl⟩⟩
    | true =>
      refine requestConnecting_meets hb hst hlinks ?_ hcur
      rcases hlinks.enabled hen with ⟨hfd, -⟩ | ⟨-, hfd, -, -, hp, -⟩
      · exact .inl hfd
      · exact .inr ⟨hfd, _, hp⟩
  | requestWrite =>
    obtain ⟨hlinks, -⟩ := hphase
    obtain ⟨hc, hrest⟩ := hlinks.enabled hen
    rcases hen.cases with ⟨rfl, hw⟩ | ⟨-, -, hw⟩
    · rw [hc] at hw
      cases write with
      | true => exact requestWrite_meets hb hst hc hrest
      | false => cases hw
    · rcases hrest with ⟨⟨hp, -⟩, -⟩ | ⟨hp, -⟩ <;> rw [hp] at hw <;> cases write <;> cases hw
  | copy =>
    obtain ⟨hcopying, -⟩ := hs.copying hst
    obtain ⟨d, rfl⟩ : ∃ d, fd = v.sideFd d := by
      rcases hen.cases with ⟨rfl, -⟩ | ⟨-, rfl, -⟩
      · exact ⟨.client, rfl⟩
      · exact ⟨.origin, rfl⟩
    cases write with
    | true => exact copyW_meets hcopying hst d
    | false => exact copyR_meets hcopying hst d
  | done => exact absurd hst hs.stays.1
  | error => exact absurd hst hs.stays.2

theorem started_stm (v : View) : v.started.s.stm = some (v.s.stm.getD .helloRead) := by
  unfold started
  cases hst : v.s.stm with
  | none => simp [advance, hst, enter, arrive]
  | some st => simp [hst]

theorem Shape.started (hs : v.Shape c) : v.started.Shape c := by
  have hst := v.started_stm
  have hphase := hs.phase
  refine ⟨?_, ?_, ?_⟩
  · unfold View.started
    split
    · exact hs.body.advance _
    · exact hs.body
  · rw [hst, Option.getD_some]
    cases hcur : v.s.stm with
    | none =>
      rw [hcur] at hphase
      simp only [View.started, hcur, ↓reduceIte, Option.getD_none]
      exact Phase.advance hphase
    | some st =>
      rw [hcur] at hphase
      simpa [View.started, hcur] using hphase
  · rw [hst]
    have hstays := hs.stays
    cases hcur : v.s.stm with
    | none => simp
    | some st =>
      rw [hcur] at hstays
      exact hstays

theorem started_link (v : View) (n : Nat) : v.started.link n = v.link n := by
  unfold started advance
  split
  · split <;> rfl
  · rfl

theorem Faults.of_started {write : Bool} {f : Fault} (h : Faults io v.started write f) :
    Faults io v write f := by
  have hst := v.started_stm
  have hsame : v.started.fd = v.fd ∧ v.started.s.writeBuffer = v.s.writeBuffer := by
    unfold started advance
    split
    · split <;> exact ⟨rfl, rfl⟩
    · exact ⟨rfl, rfl⟩
  rcases h with ⟨rfl, hc | ⟨hcon, hrest⟩⟩ | ⟨rfl, hk⟩
  · exact .inl ⟨rfl, .inl hc⟩
  · refine .inl ⟨rfl, .inr ⟨?_, by rwa [hsame.2] at hrest⟩⟩
    rw [hst] at hcon
    cases hcur : v.s.stm with
    | none => rw [hcur] at hcon; cases hcon
    | some st => rw [hcur] at hcon; exact hcon
  · exact .inr ⟨rfl, hsame.1 ▸ hk⟩

def socksv5Ready (write : Bool) (key : Key) : Handler Unit :=
  if write then socksv5Write key else socksv5Read key

theorem ready_meets (io : Io) (hs : v.Shape c) {fd : Nat} {write : Bool} (hen : v.Enabled fd write) :
    Meets (View.exec io c) (socksv5Ready write ⟨fd, c⟩) v
      (fun v' _ => ∃ v₁ ret, Outcome io c v.started fd write v₁ ret ∧ v' = v₁.settle ret)
      (Faults io v write) := by
  have hready : socksv5Ready write ⟨fd, c⟩ =
      (stm.handler (hookOf write) ⟨fd, c⟩ >>= fun ret => finish ret ⟨fd, c⟩) := by
    cases write <;> rfl
  rw [hready]
  have hen' : v.started.Enabled fd write := by
    unfold Enabled
    rw [started_link]
    exact hen
  obtain ⟨st, hfirst, hst, -⟩ := handleFirst_run io c hs.body.live ⟨fd, c⟩
  have hhook := hook_meets io hs.started hst hen'
  have hhandler : Meets (View.exec io c) (stm.handler (hookOf write) ⟨fd, c⟩) v
      (fun v₂ ret => ∃ v₁, Outcome io c v.started fd write v₁ ret ∧ v₂ = v₁.advance ret)
      (Faults io v write) := by
    unfold StateMachine.handler
    refine meets_bind hfirst ?_
    simp only [stm]
    cases hh : hookOf write (clientStatbl st) with
    | none =>
      rw [hh] at hhook
      exact meets_of_error run_abort hhook.of_started
    | some h =>
      rw [hh] at hhook
      refine (hhook.mono (fun _ _ h => h) fun _ => Faults.of_started).bind ?_
      intro v₁ ret hout
      exact meets_bind (jump_run (hout.shape hs.started hen').1.live ret _)
        (meets_pure ⟨v₁, hout, rfl⟩)
  refine hhandler.bind ?_
  rintro v₂ ret ⟨v₁, hout, rfl⟩
  obtain ⟨hb, hphase⟩ := hout.shape hs.started hen'
  refine meets_of_run (finish_run (hb.advance ret) hphase _) ⟨v₁, ret, hout, ?_⟩
  unfold settle
  split <;> rfl

def answered (v : View) (answer : Option (List AddrInfo)) : View :=
  { v with
    threads := []
    s := { v.s with
      originResolution := answer.getD []
      request := { v.s.request with
        status := if answer = none then .generalSocksServerFailure else v.s.request.status }
      log := v.s.log ++ [.resolved (answer.getD [])] } }

theorem requestResolvBlocking_run (h : v.live = true) (answer : Option (List AddrInfo)) :
    (requestResolvBlocking answer).run (View.exec io c) { v with threads := [] } =
      .ok (v.answered answer, ()) := by
  unfold requestResolvBlocking
  simp only [run_bind]
  rw [run_note (by exact h)]
  cases answer with
  | none => exact run_update (by exact h) _
  | some list => exact run_update (by exact h) _

theorem Shape.poised_resolved (hs : v.Shape c) (hst : v.s.stm = some .requestResolv)
    (answer : Option (List AddrInfo)) (a : AddrInfo) (rest : List AddrInfo) :
    ((v.answered answer).aimed (a :: rest) a).Poised := by
  obtain ⟨hc, ha, -, -, hstatus⟩ := hs.phase_of hst
  have hb := hs.body
  refine ⟨?_, ⟨_, hc⟩, ha.1, rfl, ?_, fun _ => List.cons_ne_nil _ _⟩
  · exact hb.congr rfl rfl rfl rfl rfl rfl rfl rfl
  · simp only [aimed, answered]
    split
    · simp
    · exact hstatus

theorem Resolved.shape {answer : Option (List AddrInfo)} {ret : SocksState}
    (h : Resolved io (v.answered answer) v' ret) (hs : v.Shape c)
    (hst : v.s.stm = some .requestResolv) : v'.Body ∧ v'.Phase c ret := by
  obtain ⟨-, ha, -, -, -⟩ := hs.phase_of hst
  have hb : (v.answered answer).Body :=
    hs.body.congr rfl rfl rfl rfl rfl rfl rfl rfl
  cases h with
  | unreachable hlist hfills =>
    refine ⟨hb.fills hfills (requestReply_ne_nil _) rfl rfl rfl rfl rfl rfl rfl, ?_⟩
    exact ⟨.inl ⟨rfl, ha, by simp [replied]⟩, rfl⟩
  | connect hlist hconnect => exact hconnect.shape (hs.poised_resolved hst _ _ _)

theorem Resolved.stm {ret : SocksState} (h : Resolved io v v' ret) : v'.s.stm = v.s.stm := by
  cases h with
  | unreachable => rfl
  | connect _ hconnect => exact hconnect.stm

theorem Resolved.globals {ret : SocksState} (h : Resolved io v v' ret) : v'.globals = v.globals := by
  cases h with
  | unreachable => rfl
  | connect hlist hconnect => exact hconnect.globals

theorem block_meets (io : Io) (hs : v.Shape c) (hst : v.s.stm = some .requestResolv)
    (answer : Option (List AddrInfo)) (key : Key) :
    Meets (View.exec io c) (socksv5Block key) (v.answered answer)
      (fun v' _ => ∃ v₁ ret, Resolved io (v.answered answer) v₁ ret ∧ v' = v₁.settle ret)
      (Faults io v true) := by
  obtain ⟨hc, ha, hwb, -, -⟩ := hs.phase_of hst
  have hlive : (v.answered answer).live = true := hs.body.live
  obtain ⟨st, hfirst, hst', -⟩ := handleFirst_run io c hlive key
  have hstarted : (v.answered answer).started = v.answered answer := by
    unfold started
    rw [if_neg (by simp [answered, hst])]
  rw [hstarted] at hfirst hst'
  obtain rfl : st = .requestResolv := by simpa [answered, hst] using hst'.symm
  have hhandler : Meets (View.exec io c) (stm.handlerBlock key) (v.answered answer)
      (fun v₂ ret => ∃ v₁, Resolved io (v.answered answer) v₁ ret ∧ v₂ = v₁.advance ret)
      (Faults io v true) := by
    unfold StateMachine.handlerBlock StateMachine.handler
    refine meets_bind hfirst ?_
    refine ((requestResolvDone_meets ⟨hlive, hs.body.fd_lt, hs.body.clientFd, _, hc⟩ hst
      ha.1).mono (fun _ _ h => h) ?_).bind ?_
    · intro f hf
      refine hf.faults rfl ?_
      have := space_of_empty hs.body hwb
      show 10 ≤ v.s.writeBuffer.space
      omega
    · intro v₁ ret hout
      exact meets_bind (jump_run (hout.shape hs hst).1.live ret _) (meets_pure ⟨v₁, hout, rfl⟩)
  refine hhandler.bind ?_
  rintro v₂ ret ⟨v₁, hout, rfl⟩
  obtain ⟨hb, hphase⟩ := hout.shape hs hst
  refine meets_of_run (finish_run (hb.advance ret) hphase.advance _) ⟨v₁, ret, hout, ?_⟩
  unfold settle
  split <;> rfl

-- ---------------------------------------------------------------------------
-- Steps
-- ---------------------------------------------------------------------------

end View

inductive ConnEvent
  | ready (fd : Nat) (write : Bool) (io : Io)
  | resolved (answer : Option (List AddrInfo)) (io : Io)

namespace View

variable {v v' : View} {c : ConnId}

inductive Step (c : ConnId) (v : View) : ConnEvent → View → Prop
  | ready {fd : Nat} {write : Bool} {io : Io} {v₁ : View} {ret : SocksState}
      (hen : v.Enabled fd write) (h : Outcome io c v.started fd write v₁ ret) :
      Step c v (.ready fd write io) (v₁.settle ret)
  | resolved {answer : Option (List AddrInfo)} {io : Io} {v₁ : View} {ret : SocksState}
      (hst : v.s.stm = some .requestResolv) (h : Resolved io (v.answered answer) v₁ ret) :
      Step c v (.resolved answer io) (v₁.settle ret)

theorem advance_stm (v : View) (next : SocksState) : (v.advance next).s.stm = some next := by
  unfold advance
  split
  · assumption
  · cases next <;> rfl

theorem settle_stm (v : View) (ret : SocksState) : (v.settle ret).s.stm = some ret := by
  unfold settle
  split <;> exact advance_stm v ret

theorem settle_shape {v₁ : View} {ret : SocksState} (hb : v₁.Body)
    (hphase : (v₁.advance ret).Phase c ret) : (v₁.settle ret).Shape c ∨ (v₁.settle ret).Ended := by
  unfold settle
  by_cases hret : ret = .error ∨ ret = .done
  · rw [if_pos hret]
    right
    have hthreads : (v₁.advance ret).threads = [] := by
      rcases hret with rfl | rfl <;> exact hphase.2.2
    exact ⟨rfl, rfl, rfl, hthreads⟩
  · rw [if_neg hret]
    rw [not_or] at hret
    left
    have hst := v₁.advance_stm ret
    refine ⟨hb.advance ret, ?_, ?_⟩
    · rw [hst]
      exact hphase
    · rw [hst]
      simp [hret.1, hret.2]

theorem Step.shape {e : ConnEvent} (h : Step c v e v') (hs : v.Shape c) :
    v'.Shape c ∨ v'.Ended := by
  cases h with
  | @ready fd write io v₁ ret hen hout =>
    have hen' : v.started.Enabled fd write := by
      unfold Enabled
      rw [started_link]
      exact hen
    obtain ⟨hb, hphase⟩ := hout.shape hs.started hen'
    exact settle_shape hb hphase
  | resolved hst hres =>
    obtain ⟨hb, hphase⟩ := hres.shape hs hst
    exact settle_shape hb hphase.advance

theorem Shape.setGlobals (h : v.Shape c) (g : Globals) :
    ({ v with globals := g } : View).Shape c := by
  have hb := h.body
  refine ⟨⟨hb.live, hb.fd_lt, hb.clientFd, hb.readLimit, hb.readRewound, hb.writeLimit,
    hb.writeRewound, hb.references, hb.peer_ne, hb.peer_lt⟩, ?_, h.stays⟩
  have hphase := h.phase
  show Phase c _ (v.s.stm.getD .helloRead)
  cases hst : v.s.stm.getD .helloRead <;> rw [hst] at hphase <;> exact hphase

theorem not_faults_foreign {io : Io} {v : View} {write : Bool} :
    ¬ Faults io v write .foreign := by
  rintro (⟨h, -⟩ | ⟨h, -⟩) <;> cases h

theorem Shape.of_thread (h : v.Shape c) {key : Key} (hk : key ∈ v.threads) :
    v.s.stm = some .requestResolv ∧ v.threads = [⟨v.fd, c⟩] := by
  have hphase := h.phase
  have hne : v.threads ≠ [] := List.ne_nil_of_mem hk
  cases hst : v.s.stm with
  | none =>
    rw [hst] at hphase
    exact absurd hphase.2.2.2 hne
  | some st =>
    rw [hst] at hphase
    cases st with
    | requestResolv => exact ⟨rfl, hphase.2.2.2.1⟩
    | helloRead => exact absurd hphase.2.2.2 hne
    | authRead => exact absurd hphase.2.2.2 hne
    | helloWrite => exact absurd hphase.2.2 hne
    | authWrite => exact absurd hphase.2.2 hne
    | requestRead => exact absurd hphase.2.2.2.1 hne
    | requestConnecting => exact absurd hphase.2.1 hne
    | requestWrite => exact absurd hphase.2 hne
    | copy => exact absurd hphase.2.2.2 hne
    | done => exact absurd hst h.stays.1
    | error => exact absurd hst h.stays.2

theorem Shape.client (h : v.Shape c) : ∃ i, v.client = .watched i := by
  have hphase := h.phase
  cases hst : v.s.stm.getD .helloRead <;> rw [hst] at hphase
  case requestConnecting => exact hphase.1.client
  case requestWrite =>
    rcases hphase.1 with ⟨hc, -⟩ | ⟨hc, -⟩ | ⟨hc, -⟩ <;> exact ⟨_, hc⟩
  case copy => exact hphase.1
  case done => exact hphase.1
  case error => exact hphase.1
  all_goals exact ⟨_, hphase.1⟩

def fresh (g : Globals) (fd : Nat) (addr : SockAddr) : View where
  globals := g
  s := { clientFd := fd, clientAddr := addr }
  live := true
  fd := fd
  client := .watched opRead
  peerFd := fd
  peer := .closed
  threads := []

def turnedAway (g : Globals) (fd : Nat) (addr : SockAddr) : View :=
  { fresh g fd addr with live := false, client := .closed }

theorem fresh_shape (g : Globals) {fd : Nat} (addr : SockAddr) (h : fd < fdSetSize) :
    (fresh g fd addr).Shape c := by
  refine ⟨⟨rfl, h, rfl, ?_, Buffer.rewound_bufferInit _, ?_, Buffer.rewound_bufferInit _, rfl,
    fun hne => absurd rfl hne, fun hw => by cases hw⟩, ⟨rfl, ⟨rfl, rfl⟩, ?_, rfl⟩, by simp [fresh]⟩
  · exact List.length_replicate
  · exact List.length_replicate
  · exact Buffer.content_bufferInit _

theorem turnedAway_ended (g : Globals) (fd : Nat) (addr : SockAddr) :
    (turnedAway g fd addr).Ended := ⟨rfl, rfl, rfl, rfl⟩

end View

end Socks5d
