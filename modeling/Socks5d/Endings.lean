import Socks5d.Aborts
import Socks5d.Interests
import Socks5d.Origin
import Socks5d.Statistics

/-!
# How a connection can end

A connection is released when its machine reaches ERROR or DONE. From nearly every
state the peers can bring it there: a `recv` or a `send` that fails is enough in
the handshake, the end of both streams in COPY. `View.Ends` says so for one
connection, whatever the others do.

The exceptions are `Stranded`: a connection in REQUEST_WRITE whose client nobody
watches, and one in REQUEST_CONNECTING whose origin nobody watches and that has no
address left to try, or no room for the reply. Such a connection keeps its struct
and its descriptor as long as the process runs.

A thread that resolves a name is told here. In the process one may not be: when
`pthread_create` fails there is none, and when `selector_notify_block` gets no
memory nobody hears of its answer. Then a connection in REQUEST_RESOLV stays too.
-/

namespace Socks5d

def Waits (link : Nat → Link) (fd : Int) : Prop := ∃ n : Nat, fd = n ∧ (link n).wants true = true

namespace Socks5

def CanRetry (s : Socks5) : Prop :=
  s.request.parser.request.destAddrType = socksReqAddrtypeDomain ∧
    2 ≤ s.originResolutionCurrent.length

/-- No event can bring the connection to its end. -/
def Stranded (s : Socks5) (link : Nat → Link) : Prop :=
  (s.stm = some .requestConnecting ∧ (s.writeBuffer.space < 10 ∨
    ¬ Waits link s.originFd ∧ ¬ (Waits link s.clientFd ∧ s.CanRetry))) ∨
  (s.stm = some .requestWrite ∧ ¬ Waits link s.clientFd)

end Socks5

/-- `fcntl` succeeds, and an attempt that follows a failed one gets a descriptor
that the selector can watch and does not fail at once. -/
def Tended : World.Condition := fun _ s ce =>
  ce.io.nio = true ∧
    (s.stm = some .requestConnecting → s.CanRetry → (∃ e, e ∈ ce.io.sockError ∧ e ≠ 0) →
      ∃ n, n ∈ ce.io.socket ∧ n < fdSetSize ∧ ce.io.connect = some einprogress)

instance (s : Socks5) : Decidable s.CanRetry := inferInstanceAs (Decidable (_ ∧ _))

instance (g : Globals) (s : Socks5) (ce : ConnEvent) : Decidable (Tended g s ce) :=
  inferInstanceAs (Decidable (_ ∧ (_ → _ → _ → _)))

def Io.hangUp : Io := { connect := some einprogress }

namespace View

variable {v v' : View} {io : Io} {c : ConnId}

inductive Ends (c : ConnId) : View → Prop
  | released {v : View} (h : v.live = false) : Ends c v
  | ready {v : View} {fd : Nat} {write : Bool} (hen : v.Enabled fd write)
      (hok : ∀ f, ¬ Faults .hangUp v write f)
      (h : ∀ v', Step c v (.ready fd write .hangUp) v' → Ends c v') : Ends c v
  | resolved {v : View} (hlive : v.live = true) (hst : v.s.stm = some .requestResolv)
      (h : ∀ v', Step c v (.resolved none .hangUp) v' → Ends c v') : Ends c v

-- ---------------------------------------------------------------------------
-- The events that end a connection
-- ---------------------------------------------------------------------------

theorem waits_client (hb : v.Body) : Waits v.link v.s.clientFd ↔ v.client.wants true = true := by
  have hlink : v.link v.fd = v.client := if_pos rfl
  constructor
  · rintro ⟨n, hn, hw⟩
    obtain rfl : n = v.fd := by
      have := hb.clientFd
      omega
    rwa [hlink] at hw
  · intro hw
    exact ⟨v.fd, hb.clientFd, hlink ▸ hw⟩

theorem ConnectingLinks.waits_origin (h : v.ConnectingLinks) (hb : v.Body) :
    Waits v.link v.s.originFd ↔
      v.client = .watched opNoop ∧ v.peer = .watched opWrite ∧ v.s.originFd = v.peerFd := by
  have hlink (hp : v.peer ≠ .closed) : v.link v.peerFd = v.peer := by
    rw [link, if_neg (hb.peer_ne hp), if_pos rfl]
  constructor
  · rintro ⟨n, hn, hw⟩
    rcases h with hfirst | ⟨-, -, hnone⟩ | ⟨-, hp, ho⟩
    · exact hfirst
    · omega
    · obtain rfl : n = v.peerFd := by omega
      rw [hlink (by simp [hp]), hp] at hw
      cases hw
  · rintro ⟨-, hp, ho⟩
    refine ⟨v.peerFd, ho, ?_⟩
    rw [hlink (by simp [hp]), hp]
    rfl

theorem not_faults {write : Bool}
    (h : v.s.stm = some .requestConnecting → write = true ∧ 10 ≤ v.s.writeBuffer.space) (f : Fault) :
    ¬ Faults .hangUp v write f := by
  rintro (⟨-, hc | ⟨hst, hw⟩⟩ | ⟨-, hc | hs⟩)
  · cases hc
  · obtain ⟨rfl, hroom⟩ := h hst
    rcases hw with hw | hw
    · cases hw
    · omega
  · exact absurd (Option.some.inj hc) (by decide)
  · cases hs

theorem settle_live (v : View) {ret : SocksState} (hret : ret = .error ∨ ret = .done) :
    (v.settle ret).live = false := by
  rw [settle, if_pos hret]
  rfl

theorem Outcome.recv_hangUp {fd : Nat} {ret : SocksState} (h : Outcome .hangUp c v fd false v' ret)
    (hst : v.s.stm = some .helloRead ∨ v.s.stm = some .authRead ∨ v.s.stm = some .requestRead) :
    ret = .error := by
  cases h with
  | recvFailed => rfl
  | helloMore _ hr | helloDone _ hr | authMore _ hr | authDone _ hr | requestMore _ hr
  | requestDone _ hr => cases hr.answer
  | _ => simp_all

theorem Outcome.send_hangUp {fd : Nat} {ret : SocksState} (h : Outcome .hangUp c v fd true v' ret)
    (hst : v.s.stm = some .helloWrite ∨ v.s.stm = some .authWrite ∨ v.s.stm = some .requestWrite) :
    ret = .error := by
  cases h with
  | sendFailed => rfl
  | helloPart _ hs | helloSent _ hs | authPart _ hs | authSent _ hs | authRejected _ hs
  | replyPart _ hs | replySent _ hs | replyRefused _ hs => cases hs.answer
  | _ => simp_all

theorem settle_requestWrite (v : View) :
    (v.settle .requestWrite).client = v.client ∧ (v.settle .requestWrite).s.stm = some .requestWrite := by
  have hsettle : v.settle .requestWrite = v.advance .requestWrite := if_neg (by simp)
  rw [hsettle]
  exact ⟨(advance_fds v _).1, advance_stm v _⟩

theorem ends_of_recv (hc : v.client = .watched opRead)
    (hst : v.started.s.stm = some .helloRead ∨ v.started.s.stm = some .authRead ∨
      v.started.s.stm = some .requestRead) (hnot : v.s.stm ≠ some .requestConnecting) :
    Ends c v := by
  have hen : v.Enabled v.fd false := by
    rw [Enabled, link, if_pos rfl, hc]
    rfl
  refine .ready hen (not_faults fun h => absurd h hnot) fun v' hstep => ?_
  cases hstep with
  | ready hen hout => exact .released (settle_live _ (.inl (hout.recv_hangUp hst)))

theorem ends_of_send (hc : v.client.wants true = true)
    (hst : v.s.stm = some .helloWrite ∨ v.s.stm = some .authWrite ∨ v.s.stm = some .requestWrite) :
    Ends c v := by
  have hstarted : v.started = v := if_neg (by rcases hst with h | h | h <;> simp [h])
  have hen : v.Enabled v.fd true := by rwa [Enabled, link, if_pos rfl]
  refine .ready hen (not_faults fun h => by simp_all) fun v' hstep => ?_
  cases hstep with
  | ready hen hout =>
    rw [hstarted] at hout
    exact .released (settle_live _ (.inl (hout.send_hangUp hst)))

theorem ends_of_attempt (hs : v.Shape c) (hst : v.s.stm = some .requestConnecting)
    (hroom : 10 ≤ v.s.writeBuffer.space) (hwaits : Waits v.link v.s.originFd) : Ends c v := by
  have hb := hs.body
  obtain ⟨hc, hp, ho⟩ := (hs.phase_of hst).1.waits_origin hb |>.mp hwaits
  have hne : v.peerFd ≠ v.fd := hb.peer_ne (by simp [hp])
  have hstarted : v.started = v := if_neg (by simp [hst])
  have hen : v.Enabled v.peerFd true := by
    rw [Enabled, link, if_neg hne, if_pos rfl, hp]
    rfl
  refine .ready hen (not_faults fun _ => ⟨rfl, hroom⟩) fun v' hstep => ?_
  cases hstep with
  | @ready _ _ _ v₁ ret hen' hout =>
    rw [hstarted] at hout
    -- `getsockopt` fails, so this was the last attempt
    have hconcluded : ret = .requestWrite ∧ v₁.client = .watched opWrite := by
      clear hen hen' hwaits
      generalize hfd : v.peerFd = fd at hout
      cases hout with
      | concluded => exact ⟨rfl, if_neg (hfd ▸ hne)⟩
      | retried _ herr => cases herr
      | _ => simp_all
    obtain ⟨rfl, hclient⟩ := hconcluded
    obtain ⟨hclient', hst'⟩ := settle_requestWrite v₁
    exact ends_of_send (by rw [hclient', hclient]; rfl) (.inr (.inr hst'))

theorem ends_of_resolution (hlive : v.live = true) (hst : v.s.stm = some .requestResolv) :
    Ends c v := by
  refine .resolved hlive hst fun v' hstep => ?_
  cases hstep with
  | resolved _ hres =>
    cases hres with
    | @unreachable wb =>
      obtain ⟨hclient, hst'⟩ := settle_requestWrite ((v.answered none).replied .hostUnreachable wb)
      exact ends_of_send (by rw [hclient]; rfl) (.inr (.inr hst'))
    | connect hlist => cases hlist

-- ---------------------------------------------------------------------------
-- COPY
-- ---------------------------------------------------------------------------

theorem Copying.sideFd_inj (h : v.Copying) {d d' : Side} (heq : v.sideFd d = v.sideFd d') : d = d' := by
  have hne := h.peer_ne
  cases d <;> cases d' <;> simp_all [sideFd, eq_comm]

theorem Outcome.closes {fd : Nat} {write : Bool} {ret : SocksState} {d : Side}
    (h : Outcome .hangUp c v fd write v' ret) (hs : v.Shape c) (hst : v.s.stm = some .copy)
    (hfd : v.sideFd (if write then d.other else d) = fd) : (v'.s.duplex d).read = false := by
  have hcopying := (hs.copying hst).1
  cases h with
  | copyEnded =>
    obtain rfl := hcopying.sideFd_inj hfd
    show ((View.shut _ _ false).s.duplex _).read = false
    rw [(shut_spec _ _ false _).2.2.1]
    simp
  | copyFailed =>
    obtain rfl := hcopying.sideFd_inj hfd
    show ((View.shut _ _ true).s.duplex _).read = false
    rw [(shut_spec _ _ true _).2.2.1]
    simp [Side.other_other]
  | copyReceived _ hr => cases hr
  | copySent _ hr => cases hr
  | _ => simp_all

/-- The end of one stream ends the connection, or leaves the other direction. -/
theorem ends_of_closing (hs : v.Shape c) (hv : v.Attends) (hst : v.s.stm = some .copy) {d : Side}
    (hd : (v.s.duplex d).read = true)
    (hnext : ∀ v', v'.Shape c → v'.Attends → v'.s.stm = some .copy →
      (∀ d', (v'.s.duplex d').read = true → (v.s.duplex d').read = true ∧ d' ≠ d) →
      (v'.s.duplex d.other).read = true → Ends c v') : Ends c v := by
  obtain ⟨write, hwants⟩ : ∃ write,
      (v.link (v.sideFd (if write then d.other else d))).wants write = true := by
    rcases hv.wants hs hst hd with h | h
    · exact ⟨false, h⟩
    · exact ⟨true, h⟩
  have hstarted : v.started = v := if_neg (by simp [hst])
  refine .ready hwants (not_faults fun h => by simp [hst] at h) fun v' hstep => ?_
  rcases hstep.shape hs with hshape | hended
  · cases hstep with
    | @ready _ _ _ v₁ ret hen hout =>
      rw [hstarted] at hout
      have hclosed := hout.closes hs hst rfl
      obtain ⟨d', lines, closed, -, hcopies⟩ := hout.copies hs hst
      have hsym := hcopies.symmetric (hv hs.body.live hst).1
      have hst₁ : v₁.s.stm = some .copy := hout.stm.trans hst
      have hret : ret = .copy := by
        refine hcopies.ret_cases.resolve_left fun hdone => ?_
        have hlive := hshape.body.live
        rw [settle_live _ (.inr hdone)] at hlive
        cases hlive
      subst hret
      have hsettle : v₁.settle .copy = v₁ := (if_neg (by simp)).trans (advance_copy hst₁)
      rw [hsettle] at hshape ⊢
      have hattends := hout.attends hs hv
      rw [advance_copy hst₁] at hattends
      refine hnext v₁ hshape hattends hst₁ (fun d' hd' => ⟨?_, ?_⟩) ?_
      · rw [hcopies.reads, Bool.and_eq_true] at hd'
        exact hd'.1
      · rintro rfl
        rw [hclosed] at hd'
        cases hd'
      by_contra hother
      have hall : ∀ d', (v₁.s.duplex d').read = false := by
        intro d'
        rcases Side.eq_or_other d d' with rfl | rfl
        · exact hclosed
        · simpa using hother
      exact absurd ((hcopies.done_iff (hv hs.body.live hst).1).mpr hall) (by simp)
  · exact .released hended.live

theorem ends_of_copy (hs : v.Shape c) (hv : v.Attends) (hst : v.s.stm = some .copy)
    (hopen : ∃ d, (v.s.duplex d).read = true) : Ends c v := by
  obtain ⟨d, hd⟩ := hopen
  refine ends_of_closing hs hv hst hd fun v₁ hs₁ hv₁ hst₁ hless hother => ?_
  refine ends_of_closing hs₁ hv₁ hst₁ hother fun v₂ _ _ _ hless₂ hagain => ?_
  rw [Side.other_other] at hagain
  exact absurd rfl (hless d (hless₂ d hagain).1).2

-- ---------------------------------------------------------------------------
-- Every state
-- ---------------------------------------------------------------------------

/-- A connection that is not stranded, and need not open another socket first, can
be brought to its end. -/
theorem Shape.ends (hs : v.Shape c) (hv : v.Attends)
    (hopen : v.s.stm = some .copy → ∃ d, (v.s.duplex d).read = true)
    (hconnecting : v.s.stm = some .requestConnecting →
      Waits v.link v.s.originFd ∧ 10 ≤ v.s.writeBuffer.space)
    (hwrite : v.s.stm = some .requestWrite → Waits v.link v.s.clientFd) : Ends c v := by
  have hphase := hs.phase
  cases hst : v.s.stm with
  | none =>
    rw [hst] at hphase
    refine ends_of_recv hphase.1 (.inl ?_) (by simp [hst])
    rw [View.started, if_pos hst]
    exact advance_stm ..
  | some st =>
    have hstarted : v.started.s.stm = some st := by
      rw [View.started, if_neg (by simp [hst]), hst]
    rw [hst] at hphase
    cases st with
    | helloRead => exact ends_of_recv hphase.1 (.inl hstarted) (by simp [hst])
    | authRead => exact ends_of_recv hphase.1 (.inr (.inl hstarted)) (by simp [hst])
    | requestRead => exact ends_of_recv hphase.1 (.inr (.inr hstarted)) (by simp [hst])
    | helloWrite => exact ends_of_send (by rw [hphase.1]; rfl) (.inl hst)
    | authWrite => exact ends_of_send (by rw [hphase.1]; rfl) (.inr (.inl hst))
    | requestResolv => exact ends_of_resolution hs.body.live hst
    | requestConnecting =>
      obtain ⟨hwaits, hroom⟩ := hconnecting hst
      exact ends_of_attempt hs hst hroom hwaits
    | requestWrite => exact ends_of_send ((waits_client hs.body).mp (hwrite hst)) (.inr (.inr hst))
    | copy => exact ends_of_copy hs hv hst (hopen hst)
    | done => exact absurd hst hs.stays.1
    | error => exact absurd hst hs.stays.2

-- ---------------------------------------------------------------------------
-- Stranded connections
-- ---------------------------------------------------------------------------

theorem Connect.roomless {ret : SocksState} (h : Connect io v v' ret)
    (hroom : v.s.writeBuffer.space < 10) : v'.s.writeBuffer = v.s.writeBuffer := by
  have hfull {status : SocksStatus} {wb : Buffer} (hwb : v.s.writeBuffer.Fills (requestReply status) wb) :
      False := by
    have := hwb.room
    rw [length_requestReply] at this
    omega
  cases h with
  | noSocket _ hwb => exact (hfull hwb).elim
  | failed _ _ _ _ _ _ hwb => exact (hfull hwb).elim
  | unregistered _ _ _ _ _ hwb => exact (hfull hwb).elim
  | noNio | pending => rfl

theorem Shape.waits_connecting (hs : v.Shape c) (hst : v.s.stm = some .requestConnecting) {fd : Nat}
    (hen : v.Enabled fd true) :
    Waits v.link v.s.originFd ∨ fd = v.fd ∧ Waits v.link v.s.clientFd := by
  have hlinks := (hs.phase_of hst).1
  rcases hlinks.enabled hen with ⟨hfd, hw, -⟩ | ⟨-, -, -, hrest⟩
  · exact .inr ⟨hfd, (waits_client hs.body).mpr hw⟩
  · exact .inl ((hlinks.waits_origin hs.body).mpr hrest)

/-- No event brings a stranded connection to its end, and none rescues it. -/
theorem Outcome.stranded {fd : Nat} {write : Bool} {ret : SocksState}
    (h : Outcome io c v fd write v' ret) (hs : v.Shape c) (hen : v.Enabled fd write)
    (hv : v.s.Stranded v.link) :
    (ret = .requestConnecting ∨ ret = .requestWrite) ∧
      (v'.advance ret).s.Stranded (v'.advance ret).link := by
  have hbody := (h.shape hs hen).1.advance ret
  rcases hv with ⟨hst, hcase⟩ | ⟨hst, hno⟩
  · cases h with
    | @concluded _ status wb _ _ hwb =>
      have hroom := hwb.room
      rw [length_requestReply] at hroom
      obtain ⟨hno, -⟩ := hcase.resolve_left (by omega)
      obtain ⟨rfl, -⟩ := (hs.waits_connecting hst hen).resolve_left hno
      refine ⟨.inr rfl, .inr ⟨advance_stm .., ?_⟩⟩
      rw [waits_client hbody, (advance_fds _ _).1]
      simp [View.concluded, noted, Link.wants, opNoop]
    | @retried _ e a₀ a rest _ ret' _ herr he htype hcur hconnect =>
      refine ⟨.inl rfl, .inl ⟨advance_stm .., ?_⟩⟩
      rcases hcase with hroom | ⟨hno, hretry⟩
      · have hwb := hconnect.roomless hroom
        have hst' : v'.s.stm = some .requestConnecting := hconnect.stm.trans hst
        rw [show v'.advance .requestConnecting = v' from if_pos hst', hwb]
        exact .inl hroom
      · obtain ⟨-, hclient⟩ := (hs.waits_connecting hst hen).resolve_left hno
        exact absurd ⟨hclient, htype, by simp [hcur]⟩ hretry
    | _ => simp_all
  · exact absurd ((waits_client hs.body).mpr (by
      rw [((hs.phase_of hst).1.enabled hen).1]
      rfl)) hno

theorem Step.stranded {ce : ConnEvent} (h : Step c v ce v') (hs : v.Shape c)
    (hv : v.s.Stranded v.link) : v'.s.Stranded v'.link ∧ v'.Shape c := by
  have hst : v.s.stm ≠ none ∧ v.s.stm ≠ some .requestResolv := by
    rcases hv with ⟨hst, -⟩ | ⟨hst, -⟩ <;> simp [hst]
  cases h with
  | @ready fd write io v₁ ret hen hout =>
    rw [View.started, if_neg hst.1] at hout
    obtain ⟨hret, hstranded⟩ := hout.stranded hs hen hv
    have hstays : ¬ (ret = .error ∨ ret = .done) := by rcases hret with rfl | rfl <;> simp
    obtain ⟨hb, hphase⟩ := hout.shape hs hen
    have hshape := settle_shape (c := c) hb hphase
    have hsettle : v₁.settle ret = v₁.advance ret := if_neg hstays
    rw [hsettle] at hshape ⊢
    refine ⟨hstranded, hshape.resolve_right fun hended => ?_⟩
    have hlive := (hb.advance ret).live
    rw [hended.live] at hlive
    cases hlive
  | resolved hst' => exact absurd hst' hst.2

def nextAttempt (n : Nat) : Io :=
  { sockError := some econnrefused, socket := some n, connect := some einprogress }

theorem Step.nextAttempt {n : Nat} (hstep : Step c v (.ready v.fd true (nextAttempt n)) v')
    (hs : v.Shape c) (hst : v.s.stm = some .requestConnecting) (hretry : v.s.CanRetry)
    (hn : n < fdSetSize) : v'.Shape c ∧ v'.s.stm = some .requestConnecting ∧
      v'.s.writeBuffer = v.s.writeBuffer ∧ Waits v'.link v'.s.originFd := by
  obtain ⟨htype, hlength⟩ := hretry
  have hshape := hstep.shape hs
  cases hstep with
  | @ready _ _ _ v₁ ret hen hout =>
    rw [View.started, if_neg (by simp [hst])] at hout
    generalize hfd : v.fd = fd at hen hout
    cases hout with
    | concluded _ hstatus =>
      rcases hstatus with ⟨h, -⟩ | ⟨h, -⟩ | ⟨e, -, -, -, hlast⟩
      · cases h
      · cases h
      · obtain ⟨a, ha⟩ := hlast htype
        simp [ha] at hlength
    | retried _ _ _ _ hcur hconnect =>
      have hst₁ : v₁.s.stm = some .requestConnecting := hconnect.stm.trans hst
      have hsettle : v₁.settle .requestConnecting = v₁ := (if_neg (by simp)).trans (if_pos hst₁)
      rw [hsettle] at hshape ⊢
      cases hconnect with
      | noSocket hio => cases hio
      | noNio _ _ hnio => cases hnio
      | failed _ _ _ hconnect _ hne => exact absurd (Option.some.inj hconnect).symm hne
      | unregistered hio _ _ _ hlarge =>
        cases hio
        omega
      | @pending m hio hne =>
        refine ⟨hshape.resolve_right fun he => ?_, hst₁, rfl, m, rfl, ?_⟩
        · exact absurd he.client (by simp)
        · rw [link, if_neg hne, if_pos rfl]
          rfl
    | _ => simp_all

-- ---------------------------------------------------------------------------
-- Attempts that are waited for
-- ---------------------------------------------------------------------------

def Awaited (v : View) : SocksState → Prop
  | .requestConnecting => v.peer = .watched opWrite ∧ v.s.writeBuffer.content = []
  | .requestWrite => v.client = .watched opWrite
  | _ => True

theorem Awaited.advance {next : SocksState} (h : v.Awaited next) : (v.advance next).Awaited next := by
  unfold View.advance
  split
  · exact h
  · cases next <;> exact h

theorem Connect.awaited {ret : SocksState} (h : Connect io v v' ret) (hnio : io.nio = true)
    (hempty : v.s.writeBuffer.content = []) : v'.Awaited ret := by
  cases h with
  | noNio _ _ hno =>
    rw [hnio] at hno
    cases hno
  | pending => exact ⟨rfl, hempty⟩
  | noSocket | failed | unregistered => rfl

theorem Outcome.awaited {fd : Nat} {write : Bool} {ret : SocksState}
    (h : Outcome io c v fd write v' ret) (hs : v.Shape c) (hen : v.Enabled fd write)
    (hcond : v.s.stm = some .helloRead ∨ Tended v.globals v.s (.ready fd write io))
    (hv : v.Awaited (v.s.stm.getD .helloRead)) : v'.Awaited ret := by
  have hat {st : SocksState} (hst : v.s.stm = some st) : v.Awaited st := by
    rw [hst] at hv
    exact hv
  cases h with
  | requestDone hst _ _ _ hprocess =>
    obtain ⟨-, -, hwb, -⟩ := hs.phase_of hst
    have hnio : io.nio = true := (hcond.resolve_left (by simp [hst])).1
    cases hprocess with
    | refused => rfl
    | resolve => trivial
    | connect _ hconnect => exact hconnect.awaited hnio hwb
  | concluded hst =>
    obtain ⟨hp, -⟩ := hat hst
    rcases (hs.phase_of hst).1.enabled hen with ⟨-, -, hno⟩ | ⟨hne, -⟩
    · rw [hp] at hno
      cases hno
    · exact if_neg hne
  | @retried _ e a₀ a rest _ ret' hst herr he htype hcur hconnect =>
    obtain ⟨-, hempty⟩ := hat hst
    obtain ⟨n, hsocket, hn, hpending⟩ := (hcond.resolve_left (by simp [hst])).2 hst
      ⟨htype, by simp [hcur]⟩ ⟨e, herr, he⟩
    cases hconnect with
    | noSocket hio => simp_all [ConnEvent.io]
    | noNio _ _ hno =>
      rw [show io.nio = true from (hcond.resolve_left (by simp [hst])).1] at hno
      cases hno
    | failed _ _ _ hfail _ hne => simp_all [ConnEvent.io]
    | unregistered hio _ _ _ hlarge =>
      rw [show io.socket = some n from hsocket] at hio
      cases hio
      omega
    | pending => exact ⟨rfl, hempty⟩
  | replyPart hst => exact hat hst
  | helloDone | helloSent | authDone | requestMore => split <;> trivial
  | copyReceived | copyEnded | copySent | copyFailed =>
    unfold copyNext
    split <;> trivial
  | _ => trivial

end View

namespace World

open View

variable {w₀ w w' : World} {c : ConnId} {G : Globals → Prop} {I : ConnId → View → Prop}

abbrev Sane (w : World) : Prop :=
  Carries (fun _ => True) (fun _ v => v.Attends ∧ v.Tracked) w

theorem Kept.and {cond : Condition} {J : ConnId → View → Prop} (hI : Kept cond G I)
    (hJ : Kept cond G J) : Kept cond G fun c v => I c v ∧ J c v where
  step hs hv hg hc hstep :=
    have hi := hI.step hs hv.1 hg hc hstep
    ⟨⟨hi.1, (hJ.step hs hv.2 hg hc hstep).1⟩, hi.2⟩
  frame g hv hg := ⟨hI.frame g hv.1 hg, hJ.frame g hv.2 hg⟩
  fresh addr hg := ⟨hI.fresh addr hg, hJ.fresh addr hg⟩
  turnedAway addr hg := ⟨hI.turnedAway addr hg, hJ.turnedAway addr hg⟩

theorem sane_kept : Kept anyEvent (fun _ => True) fun _ v => v.Attends ∧ v.Tracked :=
  attends_rules.kept.and tracked_kept

theorem Reachable.sane (h₀ : w₀.Initial) (h : Reachable w₀ w) : w.Sane :=
  reaches_carries sane_kept ⟨fun _ _ h => h, fun _ _ h => h⟩ h₀ trivial h

theorem Sane.step (h : w.Sane) {e : Event} (hs : w.step e = some (.ok w')) : w'.Sane :=
  Carries.step sane_kept ⟨fun _ _ h => h, fun _ _ h => h⟩ h (fun _ _ _ _ _ => trivial) hs

def CanEnd (w : World) (c : ConnId) : Prop :=
  ∃ w' s, Reachable w w' ∧ w'.conns c = some ⟨s, false⟩

theorem CanEnd.of_step {e : Event} (hs : w.step e = some (.ok w')) (h : w'.CanEnd c) : w.CanEnd c := by
  obtain ⟨w₂, s, hreach, hc⟩ := h
  exact ⟨w₂, s, .trans (.next .start (fun _ _ _ _ _ => trivial) hs) hreach, hc⟩

theorem not_excused (f : Fault) : ¬ Excused w .hangUp c f := by
  rintro ⟨-, n, owner, hn, -⟩
  cases hn

theorem CanEnd.of_ends {v : View} (h : View.Ends c v) (hw : w.Sane) (hv : w.Shows c v)
    (hshape : v.Shape c ∨ v.Ended) : w.CanEnd c := by
  induction h generalizing w with
  | @released v hlive =>
    have hc := hv.conn
    rw [hlive] at hc
    exact ⟨w, v.s, .start, hc⟩
  | @ready v fd write hen hok _ ih =>
    replace hshape : v.Shape c := hshape.resolve_right fun he => by
      simp [Enabled, View.link, he.client, he.peer, Link.wants] at hen
    obtain ⟨r, hs, hd⟩ := hv.ready hw.wired hshape hen .hangUp
    cases hd with
    | ok hstep hrel => exact .of_step hs (ih _ hstep (hw.step hs) hrel.shows (hstep.shape hshape))
    | error hf => exact (hf.elim (hok _) (not_excused _)).elim
  | @resolved v hlive hst _ ih =>
    replace hshape : v.Shape c := hshape.resolve_right fun he => by simp [he.live] at hlive
    obtain ⟨r, hs, hd⟩ := hv.resolved hw.wired hshape hst none .hangUp
    cases hd with
    | ok hstep hrel => exact .of_step hs (ih _ hstep (hw.step hs) hrel.shows (hstep.shape hshape))
    | error hf => exact (hf.elim (not_faults (fun h => by simp [hst] at h) _) (not_excused _)).elim

/-- Another address is tried on the free descriptor `n`, after which the origin is
waited for. -/
theorem CanEnd.of_retry {v : View} (hw : w.Sane) (hv : w.Shows c v) (hshape : v.Shape c)
    (hst : v.s.stm = some .requestConnecting) (hroom : 10 ≤ v.s.writeBuffer.space)
    (hwaits : Waits v.link v.s.clientFd) (hretry : v.s.CanRetry) {n : Nat} (hn : n < fdSetSize)
    (hfree : w.files n = none) : w.CanEnd c := by
  have hrel : Rel w c w v := ⟨hw.wired, hv, .refl c w⟩
  have hclient := (waits_client hshape.body).mp hwaits
  have hlink : v.link v.fd = v.client := if_pos rfl
  have hen : v.Enabled v.fd true := by
    show (v.link v.fd).wants true = true
    rw [hlink]
    exact hclient
  have hown : w.files v.fd = some (.conn c) := hrel.file_of_link fun hclosed => by
    rw [hlink] at hclosed
    rw [hclosed] at hclient
    cases hclient
  obtain ⟨r, hs, hd⟩ := hv.ready hw.wired hshape hen (nextAttempt n)
  cases hd with
  | @ok w' v' hstep hrel' =>
    obtain ⟨hshape', hst', hwb, hwaits'⟩ := hstep.nextAttempt hshape hst hretry hn
    refine .of_step hs (.of_ends ?_ (hw.step hs) hrel'.shows (.inl hshape'))
    exact ends_of_attempt hshape' hst' (hwb ▸ hroom) hwaits'
  | error hf =>
    -- the descriptor is free, so `socket` may answer it
    rcases hf with (⟨-, hc | ⟨-, hw' | hw'⟩⟩ | ⟨-, hc | hc⟩) | ⟨-, m, owner, hm, hfile, -⟩
    · cases hc
    · cases hw'
    · omega
    · exact absurd (Option.some.inj hc) (by decide)
    · cases hc
      rw [hfree] at hown
      cases hown
    · cases hm
      rw [hfree] at hfile
      cases hfile

/-- A stranded connection is in use, with its descriptor, for the rest of the run. -/
theorem Sane.stranded (hw : w.Sane) {s : Socks5} (hc : w.conns c = some ⟨s, true⟩)
    (h : s.Stranded (w.link c)) (hreach : Reachable w w') :
    ∃ s', w'.conns c = some ⟨s', true⟩ ∧ s'.Stranded (w'.link c) := by
  have hinv : w'.Sane ∧ ∃ s', w'.conns c = some ⟨s', true⟩ ∧ s'.Stranded (w'.link c) := by
    refine hreach.invariant (I := fun w => w.Sane ∧ ∃ s, w.conns c = some ⟨s, true⟩ ∧
      s.Stranded (w.link c)) ⟨hw, s, hc, h⟩ ?_
    rintro w e w' ⟨hw, s, hc, h⟩ - hs
    refine ⟨hw.step hs, ?_⟩
    rcases hw.step_cases sane_kept hs with ⟨c', v, ce, v', -, hv, hshape, -, hstep, hrel⟩ | houtside
    · by_cases hne : c = c'
      · subst hne
        rw [hv.conn, Option.some.injEq, Conn.mk.injEq] at hc
        obtain ⟨rfl, -⟩ := hc
        rw [show w.link c = v.link from funext hv.link] at h
        obtain ⟨hstranded, hshape'⟩ := hstep.stranded hshape h
        refine ⟨v'.s, ?_, ?_⟩
        · rw [hrel.shows.conn, hshape'.body.live]
        · rwa [show w'.link c = v'.link from funext hrel.shows.link]
      · refine ⟨s, (hrel.others.conns c hne).trans hc, ?_⟩
        rwa [show w'.link c = w.link c from funext fun n => hrel.others.link c n hne]
    · obtain ⟨hsame, hlinks⟩ := houtside.same hw (hw.wired.lt_allocated hc)
      refine ⟨s, hsame.trans hc, ?_⟩
      rwa [show w'.link c = w.link c from funext hlinks]
  exact hinv.2

/-- Which connections can be released: in every reachable state in which a
descriptor below FD_SETSIZE is free, all but the stranded ones. Those stay in use
for the rest of every run. -/
theorem can_end_iff (h₀ : w₀.Initial) (h : Reachable w₀ w) {s : Socks5}
    (hc : w.conns c = some ⟨s, true⟩) {n : Nat} (hn : n < fdSetSize) (hfree : w.files n = none) :
    w.CanEnd c ↔ ¬ s.Stranded (w.link c) := by
  have hw := h.sane h₀
  obtain ⟨v, hv, rfl, hshape, hattends, htracked⟩ := hw.live_view hc
  have hlink : w.link c = v.link := funext hv.link
  constructor
  · rintro ⟨w', s', hreach, hc'⟩ hstranded
    obtain ⟨s₁, hs₁, -⟩ := hw.stranded hc hstranded hreach
    rw [hs₁] at hc'
    cases hc'
  · intro hnot
    rw [hlink] at hnot
    by_cases hst : v.s.stm = some .requestConnecting ∧ ¬ Waits v.link v.s.originFd
    · obtain ⟨hst, hno⟩ := hst
      have hcase : ¬ (v.s.writeBuffer.space < 10 ∨ ¬ Waits v.link v.s.originFd ∧
          ¬ (Waits v.link v.s.clientFd ∧ v.s.CanRetry)) := fun h => hnot (.inl ⟨hst, h⟩)
      rw [not_or, not_and_not_right] at hcase
      obtain ⟨hwaits, hretry⟩ := hcase.2 hno
      exact .of_retry hw hv hshape hst (by omega) hwaits hretry hn hfree
    · refine .of_ends (hshape.ends hattends (fun h => (htracked.symmetric h).2) (fun h => ?_)
        fun h => ?_) hw hv (.inl hshape)
      · have hwaits : Waits v.link v.s.originFd := by
          by_contra hno
          exact hst ⟨h, hno⟩
        refine ⟨hwaits, ?_⟩
        by_contra hroom
        exact hnot (.inl ⟨h, .inl (by omega)⟩)
      · by_contra hno
        exact hnot (.inr ⟨h, hno⟩)

/-- A client that asked for a name whose addresses were all refused, the last one
at once, stays. -/
theorem can_end_iff_refused : ∃ w, Reachable (startUp {}) w ∧
    (w.conns 0).any (fun conn => conn.live) = true ∧ ¬ w.CanEnd 0 := by
  have hrun : Lib.endsIn (fun w => (w.conns 0).any fun conn => conn.live &&
        decide (conn.s.stm = some .requestConnecting ∧ conn.s.originFd = -1 ∧ ¬ conn.s.CanRetry ∧
          w.files 5 = none))
      (play (Meets anyEvent) (startUp {}) (retries 2 0)) = true := by decide +kernel
  obtain ⟨w, hplay, hconn⟩ := Lib.endsIn_iff.mp hrun
  obtain ⟨⟨s, live⟩, hc, hconn⟩ := (Option.any_eq_true ..).mp hconn
  simp only [Bool.and_eq_true, decide_eq_true_eq] at hconn
  obtain ⟨rfl, hst, horigin, hretry, hfree⟩ := hconn
  have hreach := Lib.reaches_of_play hplay
  refine ⟨w, hreach, by rw [hc]; rfl, fun hend => ?_⟩
  refine (can_end_iff (startUp_initial (by decide)) hreach hc (by decide) hfree).mp hend
    (.inl ⟨hst, .inr ⟨?_, fun h => hretry h.2⟩⟩)
  rintro ⟨n, hn, -⟩
  omega

theorem awaited_rules : Rules Tended (fun _ => True) fun _ v =>
    v.live = true → v.Awaited (v.s.stm.getD .helloRead) where
  start _ _ _ _ _ := by
    rw [advance_stm]
    exact ⟨fun _ => trivial, trivial⟩
  outcome hs hen hv _ hcond hout := by
    rw [advance_stm]
    exact ⟨fun _ => (hout.awaited hs hen hcond (hv hs.body.live)).advance, trivial⟩
  resolved {c v answer io v₁ ret} hs hst hv _ hcond hres := by
    rw [advance_stm]
    refine ⟨fun _ => Awaited.advance ?_, trivial⟩
    obtain ⟨-, -, hwb, -⟩ := hs.phase_of hst
    cases hres with
    | unreachable => rfl
    | connect _ hconnect => exact hconnect.awaited hcond.1 hwb
  ended _ hlive := by cases hlive
  frame {c v} g hv _ := by
    intro hlive
    show View.Awaited _ (v.s.stm.getD .helloRead)
    have hv := hv hlive
    cases hst : v.s.stm.getD .helloRead <;> rw [hst] at hv <;> exact hv
  fresh _ _ _ := trivial
  turnedAway _ _ _ := trivial

/-- In a run whose attempts are all waited for, so is what a reply needs. -/
theorem Runs.awaited (h₀ : w₀.Initial) (h : Runs Tended w₀ w) {s : Socks5}
    (hc : w.conns c = some ⟨s, true⟩) :
    (s.stm = some .requestConnecting →
      Waits (w.link c) s.originFd ∧ 10 ≤ s.writeBuffer.space) ∧
    (s.stm = some .requestWrite → Waits (w.link c) s.clientFd) := by
  have hcarries := reaches_carries awaited_rules.kept ⟨fun _ _ h => h, fun _ _ h => h⟩ h₀ trivial h
  obtain ⟨v, hv, rfl, hshape, hawaited⟩ := hcarries.live_view hc
  replace hawaited := hawaited hshape.body.live
  have hlink : w.link c = v.link := funext hv.link
  rw [hlink]
  refine ⟨fun hst => ?_, fun hst => ?_⟩
  · rw [hst] at hawaited
    obtain ⟨hp, hempty⟩ := hawaited
    have hlinks := (hshape.phase_of hst).1
    refine ⟨(hlinks.waits_origin hshape.body).mpr ?_, ?_⟩
    · rcases hlinks with hfirst | ⟨-, ha, -⟩ | ⟨-, ho, -⟩
      · exact hfirst
      · rw [hp] at ha
        cases ha
      · rw [hp] at ho
        cases ho
    · have := space_of_empty hshape.body hempty
      omega
  · rw [hst] at hawaited
    rw [waits_client hshape.body, show v.client = .watched opWrite from hawaited]
    rfl

/-- In a run whose attempts are all waited for, every connection in use can be
released. -/
theorem tended_can_end (h₀ : w₀.Initial) (h : Runs Tended w₀ w) {s : Socks5}
    (hc : w.conns c = some ⟨s, true⟩) : w.CanEnd c ∧ ¬ s.Stranded (w.link c) := by
  have hw := h.reachable.sane h₀
  obtain ⟨hconnecting, hwrite⟩ := h.awaited h₀ hc
  obtain ⟨v, hv, rfl, hshape, hattends, htracked⟩ := hw.live_view hc
  rw [show w.link c = v.link from funext hv.link] at hconnecting hwrite ⊢
  refine ⟨.of_ends (hshape.ends hattends (fun h => (htracked.symmetric h).2) hconnecting hwrite)
    hw hv (.inl hshape), ?_⟩
  rintro (⟨hst, hroom | ⟨hno, -⟩⟩ | ⟨hst, hno⟩)
  · have := (hconnecting hst).2
    omega
  · exact hno (hconnecting hst).1
  · exact hno (hwrite hst)

/-- So can one whose first address was refused late, and whose second one answers. -/
theorem tended_can_end_second : ∃ w s, Runs Tended (startUp {}) w ∧ w.conns 0 = some ⟨s, true⟩ ∧
    .sockError 5 (some econnrefused) ∈ s.log ∧ .sockError 5 (some 0) ∈ s.log ∧
    w.CanEnd 0 ∧ ¬ s.Stranded (w.link 0) := by
  have hrun : Lib.endsIn (fun w => (w.conns 0).any fun conn => conn.live &&
        decide (.sockError 5 (some econnrefused) ∈ conn.s.log ∧ .sockError 5 (some 0) ∈ conn.s.log))
      (play (Meets Tended) (startUp {}) (secondAddress einprogress 5)) = true := by decide +kernel
  obtain ⟨w, hplay, hconn⟩ := Lib.endsIn_iff.mp hrun
  obtain ⟨⟨s, live⟩, hc, hconn⟩ := (Option.any_eq_true ..).mp hconn
  simp only [Bool.and_eq_true, decide_eq_true_eq] at hconn
  obtain ⟨rfl, hrefused, hconnected⟩ := hconn
  have hruns := Lib.reaches_of_play hplay
  exact ⟨w, s, hruns, hc, hrefused, hconnected, tended_can_end (startUp_initial (by decide)) hruns hc⟩

end World

end Socks5d
