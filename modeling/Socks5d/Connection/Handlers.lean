import Socks5d.Connection.Run

/-!
# The handlers of the states

Each theorem runs the handler of one state over a connection of the shape that
goes with the state, for the descriptor and the kind of event that the selector
can deliver there.
-/

namespace Socks5d

namespace View

open Handler Lib.Prog

variable {v : View} {io : Io} {c : ConnId}

/-- The ways in which an event can go wrong. A read event finds no handler in
REQUEST_CONNECTING, and only there can the reply not fit. -/
def Faults (io : Io) (v : View) (write : Bool) (f : Fault) : Prop :=
  (f = .abort ∧ (io.connect = none ∨ v.s.stm = some .requestConnecting ∧
    (write = false ∨ v.s.writeBuffer.space < 10))) ∨
  (f = .kernel ∧ (io.connect = some 0 ∨ io.socket = some v.fd))

theorem recv_cases (io : Io) (b : Buffer) :
    (recvAnswer io b.space).getD [] = [] ∨
      ∃ bytes b', recvAnswer io b.space = some bytes ∧ bytes ≠ [] ∧
        bufferWriteAdv (b.fill bytes) bytes.length = some b' ∧ b.Fills bytes b' := by
  cases h : recvAnswer io b.space with
  | none => exact .inl rfl
  | some bytes =>
    by_cases hne : bytes = []
    · exact .inl hne
    · have hlen : bytes.length ≤ b.space := by
        obtain ⟨all, -, rfl⟩ := Option.map_eq_some_iff.mp h
        exact List.length_take_le ..
      obtain ⟨b', hb', hfills⟩ := Buffer.writeAdv_fills hlen
      exact .inr ⟨bytes, b', rfl, hne, hb', hfills⟩

theorem send_takes {b : Buffer} {n : Nat} (h : sendAnswer io b.content = some n) :
    ∃ b', bufferReadAdv b n = some b' ∧ b.Takes n b' := by
  obtain ⟨k, -, rfl⟩ := Option.map_eq_some_iff.mp h
  exact Buffer.readAdv_takes (Nat.min_le_right _ _)

theorem space_of_empty (hb : v.Body) (h : v.s.writeBuffer.content = []) :
    v.s.writeBuffer.space = 1024 :=
  (hb.writeRewound.space_of_empty h).trans hb.writeLimit

-- ---------------------------------------------------------------------------
-- HELLO
-- ---------------------------------------------------------------------------

theorem helloConsume_errored {f : δ → Byte → δ} {b b' : Buffer} {p p' : HelloParser δ}
    {errored : Bool} (h : helloConsume f b p = (b', p', errored))
    (hdone : helloIsDone p'.state = false) : errored = false := by
  obtain ⟨-, rfl, rfl⟩ : _ ∧ _ ∧ _ := by simpa [helloConsume] using h
  simp only [helloIsDone, Bool.or_eq_false_iff] at hdone
  simp [hdone.2]

theorem helloProcess_run (h : v.live = true) {wb : Buffer}
    (hm : helloMarshall v.s.writeBuffer v.s.hello.data = some wb) :
    helloProcess.run (View.exec io c) v =
      .ok ({ v with s := { v.s with writeBuffer := wb } }, .helloWrite) := by
  simp only [helloProcess, run_bind, run_attachment h, hm, run_update h, run_pure]

theorem helloRead_meets (hb : v.Body) (hst : v.s.stm = some .helloRead)
    (hc : v.client = .watched opRead) (hwb : v.s.writeBuffer.content = []) :
    Meets (View.exec io c) (helloRead ⟨v.fd, c⟩) v (Outcome io c v v.fd false)
      (Faults io v false) := by
  unfold helloRead
  refine meets_attachment hb.live ?_
  refine meets_recv hb.live ?_
  rcases recv_cases io v.s.readBuffer with hnone | ⟨bytes, rb, hbytes, hne, hadv, hfills⟩
  · simp only [bufferWritePtr, hnone]
    exact meets_pure (.recvFailed (.inl hst) hnone)
  · have hlen : bytes.length > 0 := List.length_pos_iff.mpr hne
    simp only [bufferWritePtr, hbytes, Option.getD_some, hlen, ↓reduceIte]
    refine meets_check hadv ?_
    refine meets_globals ?_
    obtain ⟨rb', p, errored, hconsume⟩ : ∃ rb' p errored,
      helloConsume (onHelloMethod v.globals.isAuthOn) rb v.s.hello = (rb', p, errored) :=
      ⟨_, _, _, rfl⟩
    simp only [noted, hconsume]
    refine meets_update hb.live ?_
    have hr : Receives io v bytes rb := ⟨hbytes, hne, hfills⟩
    cases hdone : helloIsDone p.state with
    | false =>
      have herr : errored = false := helloConsume_errored hconsume hdone
      subst herr
      exact meets_of_run rfl (.helloMore hst hr hconsume hdone)
    | true =>
      simp only [↓reduceIte]
      obtain ⟨wb, hm, hwb'⟩ := Buffer.bufferMarshall_fills (b := v.s.writeBuffer)
        [0x05, p.data] (by simp [space_of_empty hb hwb])
      refine meets_setClient rfl hc hb.fd_lt ?_
      simp only [↓reduceIte]
      refine meets_bind (helloProcess_run (by exact hb.live) (by exact hm)) ?_
      exact meets_pure (.helloDone hst hr hconsume hdone hwb')

theorem helloWrite_meets (hb : v.Body) (hst : v.s.stm = some .helloWrite)
    (hc : v.client = .watched opWrite) :
    Meets (View.exec io c) (helloWrite ⟨v.fd, c⟩) v (Outcome io c v v.fd true)
      (Faults io v true) := by
  unfold helloWrite
  refine meets_attachment hb.live ?_
  refine meets_send hb.live ?_
  cases hsend : sendAnswer io (bufferReadPtr v.s.writeBuffer) with
  | none =>
    simp only [sendAction, hsend]
    exact meets_pure (.sendFailed (.inl hst) hsend)
  | some n =>
    obtain ⟨wb, hadv, htakes⟩ := send_takes hsend
    have hs : Sends io v n wb := ⟨hsend, htakes⟩
    simp only [sendAction, hsend]
    refine meets_check hadv ?_
    refine meets_update hb.live ?_
    cases hcan : bufferCanRead wb with
    | true => exact meets_pure (.helloPart hst hs (by simpa using hcan))
    | false =>
      simp only [Bool.false_eq_true, ↓reduceIte]
      refine meets_setClient rfl hc hb.fd_lt ?_
      simp only [↓reduceIte]
      refine meets_globals ?_
      exact meets_pure (.helloSent hst hs (by simpa using hcan))

-- ---------------------------------------------------------------------------
-- AUTH
-- ---------------------------------------------------------------------------

theorem authConsume_errored {b b' : Buffer} {p p' : AuthParser} {errored : Bool}
    (h : authConsume b p = (b', p', errored)) (hdone : authIsDone p'.state = false) :
    errored = false := by
  obtain ⟨-, rfl, rfl⟩ : _ ∧ _ ∧ _ := by simpa [authConsume] using h
  simp only [authIsDone, AuthState.toNat, ge_iff_le, decide_eq_false_iff_not, Nat.not_le] at hdone
  simp only [authIsError, AuthState.toNat, ge_iff_le, Bool.and_eq_false_iff,
    decide_eq_false_iff_not, Nat.not_le]
  omega

theorem authProcess_run (h : v.live = true) {status : AuthStatus} {wb : Buffer} {key : Key}
    (hstatus : status = if (v.globals.users.authenticate v.s.auth.parser.auth).isSome then
      .succeeded else .failure)
    (hm : authMarshall v.s.writeBuffer status = some wb) :
    (authProcess key).run (View.exec io c) v =
      .ok ({ v with s := { v.s with
        clientUname := v.globals.users.authenticate v.s.auth.parser.auth <|> v.s.clientUname
        auth := { v.s.auth with status }
        writeBuffer := wb
        log := v.s.log ++ [.authProcess v.globals.users v.s.auth.parser.auth status] } },
        .authWrite) := by
  subst hstatus
  unfold authProcess
  simp only [run_bind, run_attachment h, run_globals, run_note h]
  rw [run_update (by exact h)]
  simp only [hm, run_bind]
  rw [run_update (by exact h)]
  rfl

theorem authRead_meets (hb : v.Body) (hst : v.s.stm = some .authRead)
    (hc : v.client = .watched opRead) (hwb : v.s.writeBuffer.content = []) :
    Meets (View.exec io c) (authRead ⟨v.fd, c⟩) v (Outcome io c v v.fd false)
      (Faults io v false) := by
  unfold authRead
  refine meets_attachment hb.live ?_
  refine meets_recv hb.live ?_
  rcases recv_cases io v.s.readBuffer with hnone | ⟨bytes, rb, hbytes, hne, hadv, hfills⟩
  · simp only [bufferWritePtr, hnone]
    exact meets_pure (.recvFailed (.inr (.inl hst)) hnone)
  · have hlen : bytes.length > 0 := List.length_pos_iff.mpr hne
    simp only [bufferWritePtr, hbytes, Option.getD_some, hlen, ↓reduceIte]
    refine meets_check hadv ?_
    obtain ⟨rb', p, errored, hconsume⟩ : ∃ rb' p errored,
      authConsume rb v.s.auth.parser = (rb', p, errored) := ⟨_, _, _, rfl⟩
    simp only [noted, hconsume]
    refine meets_update hb.live ?_
    have hr : Receives io v bytes rb := ⟨hbytes, hne, hfills⟩
    cases hdone : authIsDone p.state with
    | false =>
      have herr : errored = false := authConsume_errored hconsume hdone
      subst herr
      exact meets_of_run rfl (.authMore hst hr hconsume hdone)
    | true =>
      simp only [↓reduceIte]
      obtain ⟨wb, hm, hwb'⟩ := authMarshall_fills (b := v.s.writeBuffer)
        (if (v.globals.users.authenticate p.auth).isSome then .succeeded else .failure)
        (by simp [space_of_empty hb hwb])
      refine meets_setClient rfl hc hb.fd_lt ?_
      simp only [↓reduceIte]
      refine meets_bind (authProcess_run (by exact hb.live) rfl (by exact hm)) ?_
      exact meets_pure (.authDone hst hr hconsume hdone rfl hwb')

theorem authWrite_meets (hb : v.Body) (hst : v.s.stm = some .authWrite)
    (hc : v.client = .watched opWrite) :
    Meets (View.exec io c) (authWrite ⟨v.fd, c⟩) v (Outcome io c v v.fd true)
      (Faults io v true) := by
  unfold authWrite
  refine meets_attachment hb.live ?_
  refine meets_send hb.live ?_
  cases hsend : sendAnswer io (bufferReadPtr v.s.writeBuffer) with
  | none =>
    simp only [sendAction, hsend]
    exact meets_pure (.sendFailed (.inr (.inl hst)) hsend)
  | some n =>
    obtain ⟨wb, hadv, htakes⟩ := send_takes hsend
    have hs : Sends io v n wb := ⟨hsend, htakes⟩
    simp only [sendAction, hsend]
    refine meets_check hadv ?_
    refine meets_update hb.live ?_
    cases hcan : bufferCanRead wb with
    | true => exact meets_pure (.authPart hst hs (by simpa using hcan))
    | false =>
      simp only [Bool.false_eq_true, ↓reduceIte]
      by_cases hstatus : v.s.auth.status = .succeeded
      · simp only [hstatus, ↓reduceIte]
        refine meets_setClient rfl hc hb.fd_lt ?_
        exact meets_pure (.authSent hst hs (by simpa using hcan) hstatus)
      · simp only [hstatus, ↓reduceIte]
        refine meets_setClient rfl hc hb.fd_lt ?_
        exact meets_pure (.authRejected hst hs (by simpa using hcan) hstatus)

-- ---------------------------------------------------------------------------
-- REQUEST
-- ---------------------------------------------------------------------------

theorem requestProcessAddress_meets {family : Nat} {addr : Request → SockAddr}
    {setAddr : SockAddr → SocksAddr → SocksAddr} {key : Key} (h : v.Ready) (hpeer : v.peer = .closed)
    (hst : v.s.stm = some .requestRead)
    (hcmd : v.s.request.parser.request.cmd = socksReqCmdConnect)
    (haims : Aims v.s.request.parser.request family
      { addr v.s.request.parser.request with port := v.s.request.parser.request.destPort }
      (setAddr { addr v.s.request.parser.request with port := v.s.request.parser.request.destPort }
        v.s.request.parser.request.destAddr)) :
    Meets (View.exec io c) (requestProcessAddress family addr setAddr key) v (Process io c v)
      (Breaks io v) := by
  unfold requestProcessAddress
  refine meets_attachment h.live ?_
  refine meets_update h.live ?_
  refine (requestConnect_fresh (by exact ⟨h.live, h.fd_lt, h.clientFd, h.client⟩)
    (by exact hpeer) (by simp [hst])).mono ?_ ?_
  · exact fun v' ret hconnect => .connect haims.type_ne hconnect hcmd haims
  · exact fun f hf => hf

theorem requestProcess_meets {key : Key} (hkey : key = ⟨v.fd, c⟩) (h : v.Ready)
    (hpeer : v.peer = .closed) (hst : v.s.stm = some .requestRead) :
    Meets (View.exec io c) (requestProcess key) v
      (Process io c (v.noted (.requestProcess v.s.request.parser.request))) (Breaks io v) := by
  have hready : (v.noted (.requestProcess v.s.request.parser.request)).Ready :=
    ⟨h.live, h.fd_lt, h.clientFd, h.client⟩
  have herror (status : SocksStatus) (hne : status ≠ .succeeded)
      (hwhy : Refusal v.s.request.parser.request status) :
      Meets (View.exec io c) (requestErrorWrite status)
        (v.noted (.requestProcess v.s.request.parser.request))
        (Process io c (v.noted (.requestProcess v.s.request.parser.request))) (Breaks io v) := by
    refine (requestErrorWrite_meets hready status).mono ?_ ?_
    · rintro v' ret ⟨wb, hwb, rfl, rfl⟩
      exact .refused hne hwb hwhy
    · rintro f ⟨rfl, hroom⟩
      exact breaks_noRoom hroom
  subst hkey
  unfold requestProcess
  refine meets_attachment h.live ?_
  refine meets_note h.live ?_
  by_cases hcmd : v.s.request.parser.request.cmd = socksReqCmdConnect
  · rw [if_pos hcmd]
    by_cases h4 : v.s.request.parser.request.destAddrType = socksReqAddrtypeIpv4
    · rw [if_pos h4]
      exact requestProcessAddress_meets hready hpeer hst hcmd (.ipv4 h4)
    · by_cases h6 : v.s.request.parser.request.destAddrType = socksReqAddrtypeIpv6
      · rw [if_neg h4, if_pos h6]
        exact requestProcessAddress_meets hready hpeer hst hcmd (.ipv6 h6)
      · by_cases hd : v.s.request.parser.request.destAddrType = socksReqAddrtypeDomain
        · rw [if_neg h4, if_neg h6, if_pos hd]
          unfold requestProcessDomain
          refine meets_answers ?_
          cases io.malloc with
          | false => exact herror _ (by simp) (.thread hcmd hd)
          | true =>
            cases io.thread with
            | false => exact herror _ (by simp) (.thread hcmd hd)
            | true =>
              simp only [Bool.true_eq_false, ↓reduceIte]
              refine meets_bind (run_spawn _ rfl) ?_
              obtain ⟨i, hi⟩ := h.client
              refine meets_setClient rfl hi h.fd_lt ?_
              exact meets_pure (.resolve hd hcmd)
        · rw [if_neg h4, if_neg h6, if_neg hd]
          exact herror _ (by simp) (.type hcmd h4 h6 hd)
  · rw [if_neg hcmd]
    exact herror _ (by simp) (.command hcmd)

theorem Breaks.faults {f : Fault} {write : Bool} {v v' : View} (h : Breaks io v' f)
    (hfd : v'.fd = v.fd) (hroom : 10 ≤ v'.s.writeBuffer.space) : Faults io v write f := by
  rcases h with ⟨rfl, hc | hr⟩ | ⟨rfl, hk⟩
  · exact .inl ⟨rfl, .inl hc⟩
  · exact absurd hr (Nat.not_lt.mpr hroom)
  · exact .inr ⟨rfl, hfd ▸ hk⟩

theorem requestRead_meets (hb : v.Body) (hst : v.s.stm = some .requestRead)
    (hc : v.client = .watched opRead) (hpeer : v.peer = .closed)
    (hwb : v.s.writeBuffer.content = []) :
    Meets (View.exec io c) (requestRead ⟨v.fd, c⟩) v (Outcome io c v v.fd false)
      (Faults io v false) := by
  unfold requestRead
  refine meets_attachment hb.live ?_
  refine meets_recv hb.live ?_
  rcases recv_cases io v.s.readBuffer with hnone | ⟨bytes, rb, hbytes, hne, hadv, hfills⟩
  · simp only [bufferWritePtr, hnone]
    exact meets_pure (.recvFailed (.inr (.inr hst)) hnone)
  · have hlen : bytes.length > 0 := List.length_pos_iff.mpr hne
    simp only [bufferWritePtr, hbytes, Option.getD_some, hlen, ↓reduceIte]
    refine meets_check hadv ?_
    obtain ⟨rb', p, errored, hconsume⟩ : ∃ rb' p errored,
      requestConsume rb v.s.request.parser = (rb', p, errored) := ⟨_, _, _, rfl⟩
    simp only [noted, hconsume]
    refine meets_update hb.live ?_
    have hr : Receives io v bytes rb := ⟨hbytes, hne, hfills⟩
    cases errored with
    | true => exact meets_pure (.requestMore hst hr hconsume (.inl rfl))
    | false =>
      cases hdone : requestIsDone p.state with
      | false => exact meets_pure (.requestMore hst hr hconsume (.inr hdone))
      | true =>
        simp only [Bool.false_eq_true, ↓reduceIte]
        refine (requestProcess_meets (by rfl) (by exact ⟨hb.live, hb.fd_lt, hb.clientFd, _, hc⟩)
          (by exact hpeer) (by exact hst)).mono ?_ ?_
        · exact fun v' ret hprocess => .requestDone hst hr hconsume hdone hprocess
        · intro f hf
          refine Breaks.faults hf rfl ?_
          show 10 ≤ v.s.writeBuffer.space
          simp [space_of_empty hb hwb]

theorem requestResolvDone_meets {key : Key} (h : v.Ready) (hst : v.s.stm = some .requestResolv)
    (hpeer : v.peer = .closed) :
    Meets (View.exec io c) (requestResolvDone key) v (Resolved io v) (Breaks io v) := by
  unfold requestResolvDone
  refine meets_attachment h.live ?_
  cases hlist : v.s.originResolution with
  | nil =>
    refine (requestErrorWrite_meets h .hostUnreachable).mono ?_ ?_
    · rintro v' ret ⟨wb, hwb, rfl, rfl⟩
      exact .unreachable hlist hwb
    · rintro f ⟨rfl, hroom⟩
      exact breaks_noRoom hroom
  | cons a rest =>
    simp only [setOrigin]
    refine meets_update h.live ?_
    refine (requestConnect_fresh (by exact ⟨h.live, h.fd_lt, h.clientFd, h.client⟩)
      (by exact hpeer) (by simp [hst])).mono ?_ ?_
    · exact fun v' ret hconnect => .connect hlist hconnect
    · exact fun f hf => hf

-- ---------------------------------------------------------------------------
-- REQUEST CONNECTING
-- ---------------------------------------------------------------------------

/-- The descriptor of an event in REQUEST_CONNECTING: the client's, or the
origin's. -/
def Own (v : View) (fd : Nat) : Prop := fd = v.fd ∨ fd = v.peerFd ∧ ∃ i, v.peer = .watched i

theorem answer_meets (h : v.Ready) {fd : Nat} (hown : v.Own fd)
    (hlt : v.peer.isWatched = true → v.peerFd < fdSetSize) :
    Meets (View.exec io c) (do
        marshallReply
        let s ← attachment
        let client ← Handler.selectorSetInterest s.clientFd opWrite
        let own ← selectorSetInterestKey ⟨fd, c⟩ opNoop
        return if client = .success ∧ own = .success then SocksState.requestWrite else .error) v
      (fun v' ret => ∃ wb, v.s.writeBuffer.Fills (requestReply v.s.request.status) wb ∧
        v' = { v with
          client := if fd = v.fd then .watched opNoop else .watched opWrite
          peer := if fd = v.fd then v.peer else .watched opNoop
          s := { v.s with
            writeBuffer := wb
            log := v.s.log ++ [.marshall v.s.request.status] } } ∧
        ret = .requestWrite)
      (fun f => f = .abort ∧ v.s.writeBuffer.space < 10) := by
  obtain ⟨i, hi⟩ := h.client
  refine (marshallReply_meets h.live).bind ?_
  rintro v' _ ⟨wb, hwb, rfl⟩
  refine meets_attachment h.live ?_
  refine meets_setClient h.clientFd hi h.fd_lt ?_
  unfold selectorSetInterestKey
  by_cases hfd : fd = v.fd
  · refine meets_setClient (congrArg Int.ofNat hfd) rfl h.fd_lt ?_
    exact meets_pure ⟨wb, hwb, by simp only [hfd, ↓reduceIte], rfl⟩
  · obtain ⟨rfl, j, hj⟩ := hown.resolve_left hfd
    refine meets_setPeer rfl hj hfd (hlt (by simp [hj, Link.isWatched])) ?_
    exact meets_pure ⟨wb, hwb, by simp only [hfd, ↓reduceIte], rfl⟩

theorem requestConnectingEnd_meets (h : v.Ready) {fd : Nat} (hown : v.Own fd)
    (hlt : v.peer.isWatched = true → v.peerFd < fdSetSize)
    (hsucc : v.s.request.status = .succeeded → v.s.originFd = fd) :
    Meets (View.exec io c) (requestConnectingEnd ⟨fd, c⟩) v
      (fun v' ret => ∃ wb, v.s.writeBuffer.Fills (requestReply v.s.request.status) wb ∧
        v' = v.concluded fd v.s.request.status wb ∧ ret = .requestWrite)
      (fun f => f = .abort ∧ v.s.writeBuffer.space < 10) := by
  have horigin : (if v.s.request.status = .succeeded then (fd : Int) else v.s.originFd) =
      v.s.originFd := by
    split
    · exact (hsucc ‹_›).symm
    · rfl
  unfold requestConnectingEnd
  refine meets_attachment h.live ?_
  by_cases hdom : v.s.request.parser.request.destAddrType = socksReqAddrtypeDomain
  · simp only [hdom, ↓reduceIte]
    refine meets_note h.live ?_
    refine meets_update h.live ?_
    refine (answer_meets (by exact ⟨h.live, h.fd_lt, h.clientFd, h.client⟩) (by exact hown)
      (by exact hlt)).mono ?_ ?_
    · rintro v' ret ⟨wb, hwb, rfl, rfl⟩
      refine ⟨wb, hwb, ?_, rfl⟩
      simp only [concluded, noted, hdom, horigin, ↓reduceIte]
      rfl
    · exact fun f hf => hf
  · simp only [hdom, ↓reduceIte]
    refine (answer_meets h hown hlt).mono ?_ ?_
    · rintro v' ret ⟨wb, hwb, rfl, rfl⟩
      refine ⟨wb, hwb, ?_, rfl⟩
      simp [concluded, hdom, horigin]
    · exact fun f hf => hf

theorem requestConnecting_meets (hb : v.Body) (hst : v.s.stm = some .requestConnecting)
    (hlinks : v.ConnectingLinks) {fd : Nat} (hown : v.Own fd)
    (hcur : v.s.request.parser.request.destAddrType = socksReqAddrtypeDomain →
      v.s.originResolutionCurrent ≠ []) :
    Meets (View.exec io c) (requestConnecting ⟨fd, c⟩) v (Outcome io c v fd true)
      (Faults io v true) := by
  have hready : v.Ready := hb.ready (by
    rcases hlinks with ⟨hc, -⟩ | ⟨hc, -⟩ | ⟨hc, -⟩
    · exact ⟨_, hc⟩
    · exact ⟨_, hc⟩
    · exact hc)
  have hfaults {f : Fault} (hf : f = .abort ∧ v.s.writeBuffer.space < 10) : Faults io v true f :=
    .inl ⟨hf.1, .inr ⟨hst, .inr hf.2⟩⟩
  have hconclude {status : SocksStatus} {wb : Buffer}
      (hstatus : (io.sockError = none ∧ status = .generalSocksServerFailure) ∨
        (io.sockError = some 0 ∧ status = .succeeded) ∨
        ∃ e, io.sockError = some e ∧ e ≠ 0 ∧ status = errnoToSocks e ∧
          (v.s.request.parser.request.destAddrType = socksReqAddrtypeDomain →
            ∃ a, v.s.originResolutionCurrent = [a]))
      (hwb : v.s.writeBuffer.Fills (requestReply status) wb) :
      Outcome io c v fd true ((v.noted (.sockError fd io.sockError)).concluded fd status wb)
        .requestWrite := .concluded hst hstatus hwb
  unfold requestConnecting
  refine meets_bind (run_getsockoptError hb.live _) ?_
  cases herr : io.sockError with
  | none =>
    refine meets_update hb.live ?_
    refine (requestConnectingEnd_meets (by exact ⟨hready.live, hready.fd_lt, hready.clientFd,
      hready.client⟩) (by exact hown) (by exact hb.peer_lt) (by simp)).mono ?_ ?_
    · rintro v' ret ⟨wb, hwb, rfl, rfl⟩
      have hout := hconclude (.inl ⟨herr, rfl⟩) hwb
      rw [herr] at hout
      exact hout
    · exact fun f hf => hfaults hf
  | some e =>
    by_cases he : e = 0
    · subst he
      simp only [↓reduceIte]
      refine meets_update hb.live ?_
      refine meets_update hb.live ?_
      refine (requestConnectingEnd_meets (by exact ⟨hready.live, hready.fd_lt, hready.clientFd,
        hready.client⟩) (by exact hown) (by exact hb.peer_lt) (by simp)).mono ?_ ?_
      · rintro v' ret ⟨wb, hwb, rfl, rfl⟩
        have hout := hconclude (.inr (.inl ⟨herr, rfl⟩)) hwb
        rw [herr] at hout
        exact hout
      · exact fun f hf => hfaults hf
    · simp only [he, ↓reduceIte]
      refine meets_attachment hb.live ?_
      -- the last address, or the only one
      have hlast (hone : v.s.request.parser.request.destAddrType = socksReqAddrtypeDomain →
          ∃ a, v.s.originResolutionCurrent = [a]) :
          Meets (View.exec io c) (do
              update fun s => { s with request := { s.request with status := errnoToSocks e } }
              requestConnectingEnd ⟨fd, c⟩)
            (v.noted (.sockError fd (some e))) (Outcome io c v fd true) (Faults io v true) := by
        refine meets_update hb.live ?_
        refine (requestConnectingEnd_meets (by exact ⟨hready.live, hready.fd_lt, hready.clientFd,
          hready.client⟩) (by exact hown) (by exact hb.peer_lt)
          (fun h => absurd h (errnoToSocks_ne_succeeded he))).mono ?_ ?_
        · rintro v' ret ⟨wb, hwb, rfl, rfl⟩
          have hout := hconclude (.inr (.inr ⟨e, herr, he, rfl, hone⟩)) hwb
          rw [herr] at hout
          exact hout
        · exact fun f hf => hfaults hf
      by_cases htype : v.s.request.parser.request.destAddrType = socksReqAddrtypeDomain
      · rw [if_pos (by exact htype), noted_current]
        cases hlist : v.s.originResolutionCurrent with
        | nil => exact absurd hlist (hcur htype)
        | cons a₀ tail =>
          cases tail with
          | nil => exact hlast fun _ => ⟨a₀, hlist⟩
          | cons a rest =>
            simp only [setOrigin]
            refine meets_update hb.live ?_
            have hbody : ((v.noted (.sockError fd (some e))).aimed (a :: rest) a).Body :=
              ⟨hb.live, hb.fd_lt, hb.clientFd, hb.readLimit, hb.readRewound, hb.writeLimit,
                hb.writeRewound, hb.references, hb.peer_ne, hb.peer_lt⟩
            refine ((requestConnect_retry hbody hlinks hst).mono (fun _ _ h => h) ?_).bind ?_
            · rintro f (⟨rfl, hc | hroom⟩ | ⟨rfl, hk⟩)
              · exact .inl ⟨rfl, .inl hc⟩
              · exact .inl ⟨rfl, .inr ⟨hst, .inr hroom⟩⟩
              · exact .inr ⟨rfl, hk⟩
            · intro v' ret hconnect
              rw [← herr] at hconnect
              exact meets_pure (.retried hst herr he htype hlist hconnect)
      · rw [if_neg (by exact htype)]
        exact hlast fun h => absurd h htype

theorem requestWrite_meets (hb : v.Body) (hst : v.s.stm = some .requestWrite)
    (hc : v.client = .watched opWrite)
    (hlinks : v.Alone ∧ v.s.request.status ≠ .succeeded ∨
      v.peer = .watched opNoop ∧ v.s.originFd = v.peerFd) :
    Meets (View.exec io c) (requestWrite ⟨v.fd, c⟩) v (Outcome io c v v.fd true)
      (Faults io v true) := by
  unfold requestWrite
  refine meets_attachment hb.live ?_
  refine meets_send hb.live ?_
  cases hsend : sendAnswer io (bufferReadPtr v.s.writeBuffer) with
  | none =>
    simp only [sendAction, hsend]
    exact meets_pure (.sendFailed (.inr (.inr hst)) hsend)
  | some n =>
    obtain ⟨wb, hadv, htakes⟩ := send_takes hsend
    have hs : Sends io v n wb := ⟨hsend, htakes⟩
    simp only [sendAction, hsend]
    refine meets_check hadv ?_
    refine meets_update hb.live ?_
    cases hcan : bufferCanRead wb with
    | true => exact meets_pure (.replyPart hst hs (by simpa using hcan))
    | false =>
      have hleft : wb.content = [] := by simpa using hcan
      simp only [Bool.false_eq_true, ↓reduceIte]
      by_cases hstatus : v.s.request.status = .succeeded
      · obtain ⟨hp, ho⟩ := hlinks.resolve_left fun h => h.2 hstatus
        have hne := hb.peer_ne (by simp [hp])
        have hlt := hb.peer_lt (by simp [hp, Link.isWatched])
        rw [if_pos hstatus]
        refine meets_setClient hb.clientFd hc hb.fd_lt ?_
        refine meets_setPeer ho hp hne hlt ?_
        refine meets_update hb.live ?_
        refine meets_setGlobals ?_
        refine meets_globals ?_
        refine meets_note hb.live ?_
        exact meets_pure (.replySent hst hs hleft hstatus)
      · rw [if_neg hstatus]
        refine meets_setClient hb.clientFd hc hb.fd_lt ?_
        rcases hlinks with ⟨⟨hp, ho⟩, -⟩ | ⟨hp, ho⟩
        · simp only [ho, ne_eq, not_true_eq_false, ↓reduceIte]
          refine meets_globals ?_
          refine meets_note hb.live ?_
          have hout := Outcome.replyRefused (c := c) hst hs hleft hstatus
          rw [if_pos ho] at hout
          exact meets_pure hout
        · have hne := hb.peer_ne (by simp [hp])
          have hlt := hb.peer_lt (by simp [hp, Link.isWatched])
          have ho' : v.s.originFd ≠ -1 := by omega
          rw [if_pos ho']
          refine meets_setPeer ho hp hne hlt ?_
          refine meets_globals ?_
          refine meets_note hb.live ?_
          have hout := Outcome.replyRefused (c := c) hst hs hleft hstatus
          rw [if_neg ho'] at hout
          exact meets_pure hout

-- ---------------------------------------------------------------------------
-- COPY
-- ---------------------------------------------------------------------------

structure Copying (v : View) : Prop where
  body : v.Body
  client : ∃ i, v.client = .watched i
  peer : ∃ i, v.peer = .watched i
  originFd : v.s.originFd = v.peerFd

theorem Copying.fd_eq (h : v.Copying) (d : Side) : v.s.fd d = v.sideFd d := by
  cases d with
  | client => exact h.body.clientFd
  | origin => exact h.originFd

theorem Copying.peer_ne (h : v.Copying) : v.peerFd ≠ v.fd := by
  obtain ⟨i, hi⟩ := h.peer
  exact h.body.peer_ne (by simp [hi])

theorem Copying.peer_lt (h : v.Copying) : v.peerFd < fdSetSize := by
  obtain ⟨i, hi⟩ := h.peer
  exact h.body.peer_lt (by simp [hi, Link.isWatched])

theorem copyPtr_run (h : v.Copying) (d : Side) :
    (copyPtr ⟨v.sideFd d, c⟩).run (View.exec io c) v = .ok (v, d) := by
  have hd : (if v.s.clientFd = (v.sideFd d : Int) then Side.client else .origin) = d := by
    have hne := h.peer_ne
    cases d with
    | client => simp [sideFd, h.body.clientFd]
    | origin =>
      simp only [sideFd, h.body.clientFd, ite_eq_right_iff, reduceCtorEq]
      omega
  simp only [copyPtr, run_bind, run_attachment h.body.live, hd, h.fd_eq, ne_eq, not_true_eq_false,
    ↓reduceIte, run_pure]

theorem copyShutdown_run (h : v.Copying) (d : Side) (write : Bool) :
    (copyShutdown d write).run (View.exec io c) v = .ok (v.shut d write, ()) := by
  have hother : v.s.fd d.other ≠ -1 := by
    rw [h.fd_eq]
    omega
  unfold copyShutdown
  simp only [run_bind, run_attachment h.body.live, run_note h.body.live]
  rw [run_update (by exact h.body.live)]
  simp only [hother, ne_eq, not_false_eq_true, ↓reduceIte, run_bind]
  rw [run_note (by exact h.body.live)]
  simp only []
  rw [run_update (by exact h.body.live)]
  rw [h.fd_eq, h.fd_eq]
  cases d <;> simp only [View.shut, noted, Socks5.setDuplex, Socks5.duplex, Side.other]

theorem copyComputeInterests_run (h : v.Copying) (d : Side) :
    (copyComputeInterests d).run (View.exec io c) v =
      .ok (match d with
        | .client => { v with client := .watched (v.s.copyInterest .client) }
        | .origin => { v with peer := .watched (v.s.copyInterest .origin) }, ()) := by
  unfold copyComputeInterests
  simp only [run_bind, run_attachment h.body.live]
  rw [h.fd_eq]
  cases d with
  | client =>
    obtain ⟨i, hi⟩ := h.client
    rw [sideFd, run_setInterest_client hi h.body.fd_lt]
    simp
  | origin =>
    obtain ⟨i, hi⟩ := h.peer
    rw [sideFd, run_setInterest_peer hi h.peer_ne h.peer_lt]
    simp

theorem copyEnd_run (h : v.Copying) (d : Side) :
    (copyEnd d).run (View.exec io c) v = .ok (v.copied d, v.copyNext d) := by
  have hb := h.body
  have hne := h.peer_ne
  have hlt := h.peer_lt
  unfold copyEnd
  simp only [run_bind, copyComputeInterests_run h d]
  have hcopying (client peer : Link) (hc : ∃ i, client = .watched i)
      (hp : ∃ i, peer = .watched i) : ({ v with client, peer } : View).Copying := by
    obtain ⟨i, rfl⟩ := hp
    obtain ⟨j, hj⟩ := h.peer
    refine ⟨⟨hb.live, hb.fd_lt, hb.clientFd, hb.readLimit, hb.readRewound, hb.writeLimit,
      hb.writeRewound, ?_, fun _ => hne, fun _ => hlt⟩, hc, ⟨i, rfl⟩, h.originFd⟩
    simpa [hj, Link.isWatched] using hb.references
  cases d with
  | client =>
    simp only [Side.other]
    rw [copyComputeInterests_run (hcopying _ _ ⟨_, rfl⟩ h.peer)]
    simp only []
    rw [run_attachment (by exact hb.live)]
    by_cases hd : v.s.duplex .client = opNoop <;> simp [hd, copied, copyNext]
  | origin =>
    simp only [Side.other]
    rw [copyComputeInterests_run (hcopying _ _ h.client ⟨_, rfl⟩)]
    simp only []
    rw [run_attachment (by exact hb.live)]
    by_cases hd : v.s.duplex .origin = opNoop <;> simp [hd, copied, copyNext]

theorem Body.rb (hb : v.Body) (d : Side) :
    (v.s.rb d).limit = rawBufferSize ∧ (v.s.rb d).Rewound := by
  cases d with
  | client => exact ⟨hb.readLimit, hb.readRewound⟩
  | origin => exact ⟨hb.writeLimit, hb.writeRewound⟩

theorem Body.noted (hb : v.Body) (a : Action) : (v.noted a).Body :=
  ⟨hb.live, hb.fd_lt, hb.clientFd, hb.readLimit, hb.readRewound, hb.writeLimit, hb.writeRewound,
    hb.references, hb.peer_ne, hb.peer_lt⟩

theorem Copying.noted (h : v.Copying) (a : Action) : (v.noted a).Copying :=
  ⟨h.body.noted a, h.client, h.peer, h.originFd⟩

theorem Copying.setRb (h : v.Copying) {d : Side} {b : Buffer} (hl : b.limit = rawBufferSize)
    (hr : b.Rewound) : ({ v with s := v.s.setRb d b } : View).Copying := by
  have hb := h.body
  cases d with
  | client =>
    exact ⟨⟨hb.live, hb.fd_lt, hb.clientFd, hl, hr, hb.writeLimit, hb.writeRewound, hb.references,
      hb.peer_ne, hb.peer_lt⟩, h.client, h.peer, h.originFd⟩
  | origin =>
    exact ⟨⟨hb.live, hb.fd_lt, hb.clientFd, hb.readLimit, hb.readRewound, hl, hr, hb.references,
      hb.peer_ne, hb.peer_lt⟩, h.client, h.peer, h.originFd⟩

theorem Copying.setDuplex (h : v.Copying) (d : Side) (bits : Interest) :
    ({ v with s := v.s.setDuplex d bits } : View).Copying := by
  have hb := h.body
  cases d <;> exact ⟨⟨hb.live, hb.fd_lt, hb.clientFd, hb.readLimit, hb.readRewound, hb.writeLimit,
    hb.writeRewound, hb.references, hb.peer_ne, hb.peer_lt⟩, h.client, h.peer, h.originFd⟩

theorem Copying.setLog (h : v.Copying) (log : List Action) :
    ({ v with s := { v.s with log } } : View).Copying := by
  have hb := h.body
  exact ⟨⟨hb.live, hb.fd_lt, hb.clientFd, hb.readLimit, hb.readRewound, hb.writeLimit,
    hb.writeRewound, hb.references, hb.peer_ne, hb.peer_lt⟩, h.client, h.peer, h.originFd⟩

theorem Copying.shut (h : v.Copying) (d : Side) (write : Bool) : (v.shut d write).Copying :=
  ((h.setDuplex d _).setDuplex d.other _).setLog _

theorem Copying.setGlobals (h : v.Copying) (g : Globals) : ({ v with globals := g } : View).Copying :=
  ⟨⟨h.body.live, h.body.fd_lt, h.body.clientFd, h.body.readLimit, h.body.readRewound,
    h.body.writeLimit, h.body.writeRewound, h.body.references, h.body.peer_ne, h.body.peer_lt⟩,
    h.client, h.peer, h.originFd⟩

theorem Copying.disected (h : v.Copying) (fd : Nat) (bytes : List Byte) :
    (v.disected fd bytes).Copying := by
  have hb := h.body
  obtain ⟨dp, lines, heq, -⟩ := v.disected_eq fd bytes
  rw [heq]
  exact ⟨⟨hb.live, hb.fd_lt, hb.clientFd, hb.readLimit, hb.readRewound, hb.writeLimit,
    hb.writeRewound, hb.references, hb.peer_ne, hb.peer_lt⟩, h.client, h.peer, h.originFd⟩

theorem copyR_meets (h : v.Copying) (hst : v.s.stm = some .copy) (d : Side) :
    Meets (View.exec io c) (copyR ⟨v.sideFd d, c⟩) v (Outcome io c v (v.sideFd d) false)
      (Faults io v false) := by
  have hb := h.body
  unfold copyR
  refine meets_bind (copyPtr_run h d) ?_
  refine meets_attachment hb.live ?_
  refine meets_recv hb.live ?_
  rcases recv_cases io (v.s.rb d) with hnone | ⟨bytes, b, hbytes, hne, hadv, hfills⟩
  · simp only [bufferWritePtr, hnone, List.length_nil, gt_iff_lt, Nat.lt_irrefl, ↓reduceIte]
    have hcopying := h.noted (.recv (v.sideFd d) (recvAnswer io (v.s.rb d).space))
    refine meets_bind (copyShutdown_run hcopying d false) ?_
    exact meets_of_run (copyEnd_run (hcopying.shut d false) d) (.copyEnded hst hnone)
  · have hlen : bytes.length > 0 := List.length_pos_iff.mpr hne
    simp only [bufferWritePtr, hbytes, Option.getD_some, hlen, ↓reduceIte]
    refine meets_check hadv ?_
    refine meets_update hb.live ?_
    have hcopying := (h.noted (.recv (v.sideFd d) (some bytes))).setRb (d := d) (b := b)
      (hfills.limit.trans (hb.rb d).1) (hfills.rewound hne)
    exact meets_of_run (copyEnd_run hcopying d) (.copyReceived hst hbytes hne hfills _ rfl)

theorem copyDisect_run (h : v.live = true) (fd : Nat) (bytes : List Byte) :
    (copyDisect ⟨fd, c⟩ bytes).run (View.exec io c) v = .ok (v.disected fd bytes, ()) := by
  unfold copyDisect View.disected
  simp only [run_bind, run_attachment h, run_globals]
  by_cases hl : disectorListens v.globals v.s fd = true
  · simp only [hl, ↓reduceIte]
    by_cases hd : (disectorConsume v.s.dp bytes).2 = .done
    · simp only [hd, ↓reduceIte, run_bind, run_note h]
      rw [run_update (by exact h)]
      rfl
    · simp only [hd, ↓reduceIte]
      exact run_update h _
  · simp only [hl, Bool.false_eq_true, ↓reduceIte]
    rfl

theorem copyW_meets (h : v.Copying) (hst : v.s.stm = some .copy) (d : Side) :
    Meets (View.exec io c) (copyW ⟨v.sideFd d, c⟩) v (Outcome io c v (v.sideFd d) true)
      (Faults io v true) := by
  have hb := h.body
  unfold copyW
  refine meets_bind (copyPtr_run h d) ?_
  refine meets_attachment hb.live ?_
  refine meets_send hb.live ?_
  cases hsend : sendAnswer io (bufferReadPtr (v.s.wb d)) with
  | none =>
    simp only [sendAction, hsend]
    have hcopying := h.noted (.sendFailed (v.sideFd d))
    refine meets_bind (copyShutdown_run hcopying d true) ?_
    exact meets_of_run (copyEnd_run (hcopying.shut d true) d) (.copyFailed hst hsend)
  | some n =>
    obtain ⟨b, hadv, htakes⟩ := send_takes hsend
    simp only [sendAction, hsend]
    refine meets_bind (copyDisect_run (by exact hb.live) _ _) ?_
    refine meets_check hadv ?_
    have hcopying := (h.noted (.send (v.sideFd d) ((v.s.wb d).content.take n))).disected
      (v.sideFd d) ((v.s.wb d).content.take n)
    refine meets_update (by exact hcopying.body.live) ?_
    refine meets_setGlobals ?_
    refine meets_of_run (copyEnd_run ?_ d) (.copySent hst hsend htakes _ _ rfl rfl)
    exact (hcopying.setRb (htakes.limit.trans (hb.rb d.other).1) htakes.rewound).setGlobals _

end View

end Socks5d
