import Socks5d.Connection.Shape

/-!
# The handlers do what `Outcome` says

Every handler of the machine is run over a connection of the right shape. The
run ends in one of the outcomes, or the process aborts for a reason that the
postcondition names.
-/

namespace Socks5d

namespace View

open Handler Lib.Prog

variable {v : View} {io : Io} {c : ConnId} {key : Key}

/-- The ways in which an attempt to connect, or the reply to it, goes wrong. -/
def Breaks (io : Io) (v : View) (f : Fault) : Prop :=
  (f = .abort ∧ (io.connect = none ∨ v.s.writeBuffer.space < 10)) ∨
    (f = .kernel ∧ (io.connect = some 0 ∨ io.socket = some v.fd))

theorem breaks_noRoom (h : v.s.writeBuffer.space < 10) : Breaks io v .abort := .inl ⟨rfl, .inr h⟩

-- ---------------------------------------------------------------------------
-- Replies
-- ---------------------------------------------------------------------------

structure Ready (v : View) : Prop where
  live : v.live = true
  fd_lt : v.fd < fdSetSize
  clientFd : v.s.clientFd = v.fd
  client : ∃ i, v.client = .watched i

theorem marshallReply_meets (h : v.live = true) :
    Meets (View.exec io c) marshallReply v
      (fun v' _ => ∃ wb, v.s.writeBuffer.Fills (requestReply v.s.request.status) wb ∧
        v' = { v with s := { v.s with
          writeBuffer := wb
          log := v.s.log ++ [.marshall v.s.request.status] } })
      (fun f => f = .abort ∧ v.s.writeBuffer.space < 10) := by
  unfold marshallReply
  refine meets_attachment h ?_
  by_cases hroom : 10 ≤ v.s.writeBuffer.space
  · obtain ⟨wb, hwb, hfills⟩ := Buffer.bufferMarshall_fills
      (requestReply v.s.request.status) hroom
    simp only [requestMarshall, hwb]
    refine meets_note h ?_
    exact meets_of_run (run_update (by exact h) _) ⟨wb, hfills, rfl⟩
  · have hnone : requestMarshall v.s.writeBuffer v.s.request.status = none :=
      Buffer.bufferMarshall_eq_none.mpr (by simpa using hroom)
    simp only [hnone]
    exact meets_of_error run_abort ⟨rfl, Nat.not_le.mp hroom⟩

theorem requestErrorWrite_meets (h : v.Ready) (status : SocksStatus) :
    Meets (View.exec io c) (requestErrorWrite status) v
      (fun v' ret => ∃ wb, v.s.writeBuffer.Fills (requestReply status) wb ∧
        v' = v.replied status wb ∧ ret = .requestWrite)
      (fun f => f = .abort ∧ v.s.writeBuffer.space < 10) := by
  unfold requestErrorWrite
  refine meets_update h.live ?_
  refine (marshallReply_meets (by exact h.live)).bind ?_
  rintro v' _ ⟨wb, hwb, rfl⟩
  refine meets_attachment h.live ?_
  obtain ⟨i, hi⟩ := h.client
  refine meets_setClient h.clientFd hi h.fd_lt ?_
  exact meets_pure ⟨wb, hwb, rfl, rfl⟩

-- ---------------------------------------------------------------------------
-- request_connect
-- ---------------------------------------------------------------------------

/-- `request_connect` without the part for retries; `s` is the struct at its
start. -/
def attempt (s : Socks5) : Handler SocksState := do
  let fd ← Handler.socket
  update fun s => { s with originFd := fd }
  if fd = -1 then requestConnectFailed .generalSocksServerFailure
  else if (← selectorFdSetNio fd) = false then return .requestConnecting
  else
    match ← connect fd s.originAddr with
    | none => abort
    | some errno =>
      if errno = einprogress then
        if (← Handler.selectorSetInterest s.clientFd opNoop) ≠ .success then
          requestConnectFailed s.request.status
        else if (← Handler.selectorRegister fd opWrite) ≠ .success then
          requestConnectFailed s.request.status
        else
          update fun s => { s with references := s.references + 1 }
          return .requestConnecting
      else requestConnectFailed (errnoToSocks errno)

theorem requestConnect_eq : requestConnect key = (do
    let s ← attachment
    if s.stm = some .requestConnecting then
      let _ ← Handler.selectorUnregisterFd s.originFd
      Handler.close s.originFd
      attempt s
    else attempt s) := rfl

theorem run_socket_none (h : v.live = true) (hio : io.socket = none) :
    Handler.socket.run (View.exec io c) v = .ok (v.noted (.socket (-1)), -1) := by
  have hcall : (call .socket).run (View.exec io c) v = .ok (v, -1) := by
    rw [run_call]
    simp only [View.exec, hio]
  simp only [Handler.socket, run_bind, hcall, run_note h, run_pure]

theorem run_socket_some (h : v.live = true) {n : Nat} (hio : io.socket = some n)
    (hclient : v.client ≠ .closed) (hpeer : v.peer = .closed) (hn : n ≠ v.fd) :
    Handler.socket.run (View.exec io c) v =
      .ok (({ v with peerFd := n, peer := .opened } : View).noted (.socket n), (n : Int)) := by
  have hcall : (call .socket).run (View.exec io c) v =
      .ok ({ v with peerFd := n, peer := .opened }, (n : Int)) := by
    rw [run_call]
    simp [View.exec, hio, View.socket, hclient, hpeer, hn, Bind.bind, Except.bind, Pure.pure,
      Except.pure]
  simp only [Handler.socket, run_bind, hcall]
  rw [run_note (by exact h)]
  rfl

theorem run_socket_own {n : Nat} (hio : io.socket = some n)
    (hclient : v.client ≠ .closed) (hpeer : v.peer = .closed) (hn : n = v.fd) :
    Handler.socket.run (View.exec io c) v = .error .kernel := by
  have hcall : (call .socket).run (View.exec io c) v = .error .kernel := by
    rw [run_call]
    simp [View.exec, hio, View.socket, hclient, hpeer, hn, Bind.bind, Except.bind]
  simp only [Handler.socket, run_bind, hcall]

theorem run_connect (h : v.live = true) {fd : Int} {addr : SockAddr} {answer : Option Nat}
    (hio : io.connect = answer) (hzero : answer ≠ some 0) :
    (connect fd addr).run (View.exec io c) v =
      .ok (v.noted (.connect fd addr answer), answer) := by
  subst hio
  simp only [connect, run_bind, run_answers, run_note h, hzero, ↓reduceIte, run_pure]

theorem run_connect_zero (h : v.live = true) {fd : Int} {addr : SockAddr}
    (hio : io.connect = some 0) :
    (connect fd addr).run (View.exec io c) v = .error .kernel := by
  simp only [connect, run_bind, run_answers, run_note h, hio, ↓reduceIte, run_fail]

theorem run_close_peer {fd : Int} (hfd : fd = v.peerFd) (hpeer : v.peer = .opened)
    (hne : v.peerFd ≠ v.fd) :
    (Handler.close fd).run (View.exec io c) v = .ok ({ v with peer := .closed }, ()) := by
  subst hfd
  refine (run_call _).trans ?_
  have hneg : ¬ (v.peerFd : Int) < 0 := by omega
  simp [View.exec, View.close, hneg, View.link, View.setLink, hne, hpeer, Bind.bind, Except.bind,
    Pure.pure, Except.pure]

theorem run_register_peer {fd : Int} (hfd : fd = v.peerFd) (hpeer : v.peer = .opened)
    (hne : v.peerFd ≠ v.fd) (hn : v.peerFd < fdSetSize) (i : Interest) :
    (Handler.selectorRegister fd i).run (View.exec io c) v =
      .ok ({ v with peer := .watched i }, .success) := by
  subst hfd
  have hvalid : invalidFd (v.peerFd : Int) = false := by
    rw [Selector.invalidFd_natCast, decide_eq_false_iff_not]
    omega
  refine (run_call _).trans ?_
  simp [View.exec, View.register, hvalid, View.link, View.setLink, hne, hpeer]

theorem run_register_large {n : Nat} (hn : fdSetSize ≤ n) (i : Interest) :
    (Handler.selectorRegister (n : Int) i).run (View.exec io c) v = .ok (v, .iargs) := by
  have hvalid : invalidFd (n : Int) = true := by
    rw [Selector.invalidFd_natCast, decide_eq_true_iff]
    exact hn
  refine (run_call _).trans ?_
  simp [View.exec, View.register, hvalid]

theorem requestConnectFailed_alone (h : v.Ready) (horigin : v.s.originFd = -1)
    (status : SocksStatus) :
    Meets (View.exec io c) (requestConnectFailed status) v
      (fun v' ret => ∃ wb, v.s.writeBuffer.Fills (requestReply status) wb ∧
        v' = v.replied status wb ∧ ret = .requestWrite)
      (fun f => f = .abort ∧ v.s.writeBuffer.space < 10) := by
  unfold requestConnectFailed
  refine meets_attachment h.live ?_
  simp only [horigin, ne_eq, not_true_eq_false, ↓reduceIte]
  exact requestErrorWrite_meets h status

theorem requestConnectFailed_opened (h : v.Ready) (hpeer : v.peer = .opened)
    (hne : v.peerFd ≠ v.fd) (horigin : v.s.originFd = v.peerFd) (status : SocksStatus) :
    Meets (View.exec io c) (requestConnectFailed status) v
      (fun v' ret => ∃ wb, v.s.writeBuffer.Fills (requestReply status) wb ∧
        v' = ({ v with peer := .closed, s := { v.s with originFd := -1 } } : View).replied status wb ∧
        ret = .requestWrite)
      (fun f => f = .abort ∧ v.s.writeBuffer.space < 10) := by
  unfold requestConnectFailed
  refine meets_attachment h.live ?_
  have hne1 : v.s.originFd ≠ -1 := by omega
  simp only [ne_eq, hne1, not_false_eq_true, ↓reduceIte]
  refine meets_bind (run_close_peer horigin hpeer hne) ?_
  refine meets_update h.live ?_
  exact requestErrorWrite_meets (by exact ⟨h.live, h.fd_lt, h.clientFd, h.client⟩) status

theorem attempt_meets (h : v.Ready) (hpeer : v.peer = .closed) {s : Socks5}
    (haddr : s.originAddr = v.s.originAddr) (hclient : s.clientFd = v.s.clientFd)
    (hstatus : s.request.status = v.s.request.status) :
    Meets (View.exec io c) (attempt s) v (Connect io v) (Breaks io v) := by
  obtain ⟨i, hi⟩ := h.client
  have hcl : v.client ≠ .closed := by simp [hi]
  unfold attempt
  cases hio : io.socket with
  | none =>
    refine meets_bind (run_socket_none h.live hio) ?_
    refine meets_update h.live ?_
    simp only [↓reduceIte]
    refine (requestConnectFailed_alone (by exact ⟨h.live, h.fd_lt, h.clientFd, h.client⟩) rfl _).mono ?_ ?_
    · rintro v' ret ⟨wb, hwb, rfl, rfl⟩
      exact .noSocket hio hwb
    · rintro f ⟨rfl, hroom⟩
      exact breaks_noRoom hroom
  | some n =>
    by_cases hn : n = v.fd
    · exact meets_bind_error (run_socket_own hio hcl hpeer hn) (.inr ⟨rfl, .inr (hn ▸ hio)⟩)
    refine meets_bind (run_socket_some h.live hio hcl hpeer hn) ?_
    refine meets_update h.live ?_
    have hpos : (n : Int) ≠ -1 := by omega
    simp only [hpos, ↓reduceIte]
    refine meets_bind (run_selectorFdSetNio _) ?_
    cases hnio : io.nio with
    | false => exact meets_pure (.noNio hio hn hnio)
    | true =>
      simp only [Bool.true_eq_false, ↓reduceIte]
      cases hconnect : io.connect with
      | none =>
        refine meets_bind (run_connect (by exact h.live) hconnect (by simp)) ?_
        exact meets_of_error run_abort (.inl ⟨rfl, .inl hconnect⟩)
      | some errno =>
        by_cases hzero : errno = 0
        · subst hzero
          exact meets_bind_error (run_connect_zero (by exact h.live) hconnect)
            (.inr ⟨rfl, .inl hconnect⟩)
        refine meets_bind (run_connect (by exact h.live) hconnect (by simpa using hzero)) ?_
        by_cases herrno : errno = einprogress
        · subst herrno
          simp only [↓reduceIte]
          refine meets_setClient (hclient.trans h.clientFd) hi h.fd_lt ?_
          simp only [ne_eq, not_true_eq_false, ↓reduceIte]
          by_cases hlarge : n < fdSetSize
          · refine meets_bind (run_register_peer (by rfl) (by rfl) (by exact hn) (by exact hlarge) opWrite) ?_
            simp only [not_true_eq_false, ↓reduceIte]
            refine meets_update h.live ?_
            rw [haddr]
            exact meets_pure (.pending hio hn hnio hconnect hlarge)
          · rw [Nat.not_lt] at hlarge
            refine meets_bind (run_register_large hlarge opWrite) ?_
            simp only [reduceCtorEq, not_false_eq_true, ↓reduceIte]
            refine (requestConnectFailed_opened (by exact ⟨h.live, h.fd_lt, h.clientFd, _, rfl⟩)
              rfl hn rfl _).mono ?_ ?_
            · rintro v' ret ⟨wb, hwb, rfl, rfl⟩
              rw [haddr, hstatus]
              exact .unregistered hio hn hnio hconnect hlarge (hstatus ▸ hwb)
            · rintro f ⟨rfl, hroom⟩
              exact breaks_noRoom hroom
        · simp only [herrno, ↓reduceIte]
          refine (requestConnectFailed_opened (by exact ⟨h.live, h.fd_lt, h.clientFd, h.client⟩)
            rfl hn rfl _).mono ?_ ?_
          · rintro v' ret ⟨wb, hwb, rfl, rfl⟩
            rw [haddr]
            exact .failed hio hn hnio hconnect hzero herrno hwb
          · rintro f ⟨rfl, hroom⟩
            exact breaks_noRoom hroom

theorem run_unregister_peer (hb : v.Body) {i : Interest} (hpeer : v.peer = .watched i) :
    (Handler.selectorUnregisterFd (v.peerFd : Int)).run (View.exec io c) v =
      .ok ({ v with peer := .opened, s := { v.s with references := 1 } }, .success) := by
  have hne := hb.peer_ne (by simp [hpeer])
  have hn := hb.peer_lt (by simp [hpeer, Link.isWatched])
  have hvalid : invalidFd (v.peerFd : Int) = false := by
    rw [Selector.invalidFd_natCast, decide_eq_false_iff_not]
    omega
  have hrefs : v.s.references = 2 := by simpa [hpeer, Link.isWatched] using hb.references
  refine (run_call _).trans ?_
  simp [View.exec, View.unregister, hvalid, View.link, View.setLink, hne, hpeer, View.destroy,
    hb.live, hrefs, Bind.bind, Except.bind, Pure.pure, Except.pure]

theorem run_unregister_opened (hpeer : v.peer = .opened) (hne : v.peerFd ≠ v.fd) :
    (Handler.selectorUnregisterFd (v.peerFd : Int)).run (View.exec io c) v = .ok (v, .iargs) := by
  refine (run_call _).trans ?_
  simp [View.exec, View.unregister, View.link, hne, hpeer]

theorem run_unregister_none :
    (Handler.selectorUnregisterFd (-1)).run (View.exec io c) v = .ok (v, .iargs) := by
  refine (run_call _).trans ?_
  simp [View.exec, View.unregister, invalidFd]

theorem run_close_none : (Handler.close (-1)).run (View.exec io c) v = .ok (v, ()) := by
  refine (run_call _).trans ?_
  simp [View.exec, View.close, Bind.bind, Except.bind, Pure.pure, Except.pure]

theorem requestConnect_fresh (h : v.Ready) (hpeer : v.peer = .closed)
    (hst : v.s.stm ≠ some .requestConnecting) :
    Meets (View.exec io c) (requestConnect key) v (Connect io v) (Breaks io v) := by
  rw [requestConnect_eq]
  refine meets_attachment h.live ?_
  rw [if_neg hst]
  exact attempt_meets h hpeer rfl rfl rfl

theorem Body.ready (hb : v.Body) (hclient : ∃ i, v.client = .watched i) : v.Ready :=
  ⟨hb.live, hb.fd_lt, hb.clientFd, hclient⟩

theorem requestConnect_retry (hb : v.Body) (hlinks : v.ConnectingLinks)
    (hst : v.s.stm = some .requestConnecting) :
    Meets (View.exec io c) (requestConnect key) v (Connect io v.dropPeer) (Breaks io v) := by
  rw [requestConnect_eq]
  refine meets_attachment hb.live ?_
  rw [if_pos hst]
  have hattempt (hclient : ∃ i, v.client = .watched i) :
      Meets (View.exec io c) (attempt v.s) v.dropPeer (Connect io v.dropPeer) (Breaks io v) :=
    attempt_meets (v := v.dropPeer) ⟨hb.live, hb.fd_lt, hb.clientFd, hclient⟩ rfl rfl rfl rfl
  rcases hlinks with ⟨hc, hp, ho⟩ | ⟨hc, hp, ho⟩ | ⟨hc, hp, ho⟩
  · rw [ho]
    refine meets_bind (run_unregister_peer hb hp) ?_
    have hne := hb.peer_ne (by simp [hp])
    refine meets_bind (run_close_peer (by rfl) (by rfl) (by exact hne)) ?_
    have hdrop : v.dropPeer = { v with peer := .closed, s := { v.s with references := 1 } } := by
      have hrefs : v.s.references = 2 := by simpa [hp, Link.isWatched] using hb.references
      simp [dropPeer, hp, Link.isWatched, hrefs]
    simpa [hdrop] using hattempt ⟨_, hc⟩
  · rw [ho]
    refine meets_bind run_unregister_none ?_
    refine meets_bind run_close_none ?_
    have hdrop : v.dropPeer = v := by
      obtain ⟨g, s, live, fd, client, peerFd, peer, threads⟩ := v
      obtain rfl : peer = .closed := hp
      rfl
    simpa [hdrop] using hattempt ⟨_, hc⟩
  · rw [ho]
    have hne := hb.peer_ne (by simp [hp])
    refine meets_bind (run_unregister_opened hp hne) ?_
    refine meets_bind (run_close_peer rfl hp hne) ?_
    have hdrop : v.dropPeer = { v with peer := .closed } := by
      simp [dropPeer, hp, Link.isWatched]
    simpa [hdrop] using hattempt hc

end View

end Socks5d
