import Socks5d.Authentication
import Socks5d.Exchange
import Socks5d.Request.Format

/-!
# Requests that are not served

`request_process` answers a request with an unknown command, and it has a reply
for an unknown type of address. A request of the second kind never gets there: its
parser stops with an error, and `request_read` closes the connection.
-/

namespace Socks5d

open Lib (Machine)

def requestExchange : Exchange RequestParser where
  machine := requestMachine
  init := requestParserInit
  parser s := s.request.parser
  read := .requestRead
  write := .requestWrite
  going := rfl

/-- A request that cannot be served, up to the byte that says so, and the status
of the reply that is due. -/
inductive Unservable : List Byte → SocksStatus → Prop
  | command {cmd : Byte} (rsv : Byte) (d : Destination) (port : Byte × Byte)
      (h : cmd ≠ socksReqCmdConnect) :
      Unservable (requestBytes cmd rsv d port) .commandNotSupported
  | type (cmd rsv : Byte) {t : Byte} (h : ¬ RequestParser.supported t) :
      Unservable [0x05, cmd, rsv, t] .addressTypeNotSupported

section

variable (start : Socks5) (message : List Byte) (last : RequestParser)

inductive RefusalCourse (s : Socks5) (lines : List Action) : Prop
  | hearing (h : Hearing requestExchange start message s lines)
  | hungUp (h : HungUp requestExchange start message s lines)
  | sendFailed (hst : s.stm = some .error) (h : .sendFailed start.clientFd ∈ lines)
  | dropped (herror : requestIsError last.state = true) (hst : s.stm = some .error)
      (hsent : sentTo start.clientFd lines = [])
  | refusing (herror : requestIsError last.state = false)
      (hreceived : receivedFrom start.clientFd lines ≠ [])
      (hstatus : s.request.status = .commandNotSupported)
      (h : Replying requestExchange start message (requestReply .commandNotSupported) s lines)
  | refused (herror : requestIsError last.state = false)
      (hreceived : receivedFrom start.clientFd lines ≠ []) (hst : s.stm = some .error)
      (h : Replied requestExchange start message (requestReply .commandNotSupported) .error
        (fun _ => True) s lines)

def RefusalFollowed (s : Socks5) : Prop :=
  ∃ lines, Since start s lines ∧ (Consistent (start.stream lines) message →
    (∀ n, .socket n ∉ lines) ∧ RefusalCourse start message last s lines)

end

theorem received_append_left {fd : Int} {lines more : List Action}
    (h : receivedFrom fd lines ≠ []) : receivedFrom fd (lines ++ more) ≠ [] := by
  rw [receivedFrom_append]
  exact fun hnil => h (List.append_eq_nil_iff.mp hnil).1

theorem received_append_right {fd : Int} {lines more : List Action}
    (h : receivedFrom fd more ≠ []) : receivedFrom fd (lines ++ more) ≠ [] := by
  rw [receivedFrom_append]
  exact fun hnil => h (List.append_eq_nil_iff.mp hnil).2

theorem RefusalFollowed.ended {start s : Socks5} {message : List Byte} {last : RequestParser}
    (h : RefusalFollowed start message last s) :
    RefusalFollowed start message last { s with references := 1 } := by
  obtain ⟨lines, hsince, hcourse⟩ := h
  refine ⟨lines, ⟨hsince.log, hsince.clientFd⟩, fun hconsistent => ?_⟩
  obtain ⟨hsocket, hcourse⟩ := hcourse hconsistent
  refine ⟨hsocket, ?_⟩
  cases hcourse with
  | hearing h => exact .hearing ⟨h.state, h.unsent, h.missing, h.reading⟩
  | hungUp h => exact .hungUp h
  | sendFailed hst h => exact .sendFailed hst h
  | dropped herror hst hsent => exact .dropped herror hst hsent
  | refusing herror hreceived hstatus h =>
    exact .refusing herror hreceived hstatus ⟨h.state, h.left, h.reply, h.rest⟩
  | refused herror hreceived hst h => exact .refused herror hreceived hst h

namespace View

variable {v v' : View} {io : Io} {c : ConnId} {start : Socks5} {message : List Byte}
  {last : RequestParser} {lines more : List Action}

theorem Process.refused_command {ret : SocksState} (h : Process io c v v' ret)
    (hcmd : v.s.request.parser.request.cmd ≠ socksReqCmdConnect) :
    ∃ wb, v.s.writeBuffer.Fills (requestReply .commandNotSupported) wb ∧
      v' = v.replied .commandNotSupported wb ∧ ret = .requestWrite := by
  cases h with
  | @refused status wb hne hwb hwhy =>
    cases hwhy with
    | command => exact ⟨wb, hwb, rfl, rfl⟩
    | type hc | thread hc => exact absurd hc hcmd
  | resolve _ hc => exact absurd hc hcmd
  | connect _ _ hc => exact absurd hc hcmd

theorem Process.received_lines {v₀ : View} {ret : SocksState} {bytes : List Byte} {r : Request}
    {n : Int} (h : Process io c v₀ v' ret)
    (hv₀ : v₀.s.log = v.s.log ++ [.recv n (some bytes)] ++ [.requestProcess r])
    (hlog : (v'.advance ret).s.log = v.s.log ++ more) : receivedFrom n more = bytes := by
  have hquiet := sameBytes_of_quiet (h.lines.mono fun _ ha => ha.2)
  have hall := (advance_same v' ret).1.received n
  rw [hlog, hquiet.received, hv₀, receivedFrom_append, receivedFrom_append, receivedFrom_append,
    receivedFrom_recv, List.append_assoc] at hall
  exact (List.append_cancel_left hall).trans (List.append_nil _)

theorem advance_request {next : SocksState} (hne : next ≠ .requestRead) :
    (v.advance next).s.request = v.s.request := by
  unfold View.advance
  split
  · rfl
  · cases next <;> first | rfl | contradiction

theorem Outcome.refusal_hearing {fd : Nat} {write : Bool} {ret : SocksState}
    (h : Outcome io c v fd write v' ret) (hs : v.Shape c) (hfd : (v.fd : Int) = start.clientFd)
    (hends : requestMachine.Ends requestParserInit message last)
    (hcmd : requestIsError last.state = false → last.request.cmd ≠ socksReqCmdConnect)
    (hv : Hearing requestExchange start message v.s lines)
    (hlog : (v'.advance ret).s.log = v.s.log ++ more)
    (hconsistent : Consistent (start.stream (lines ++ more)) message) :
    (∀ n, .socket n ∉ more) ∧
      RefusalCourse start message last (v'.advance ret).s (lines ++ more) := by
  have hst : v.s.stm = some .requestRead := hv.state
  have hst' : v'.s.stm = some .requestRead := by rw [h.stm]; exact hst
  obtain ⟨v₁, heq⟩ : ∃ v₁, v' = v₁ := ⟨_, rfl⟩
  rw [heq] at h
  cases h with
  | recvFailed _ hrecv =>
    obtain rfl := lines_jump hlog (by rw [heq]; rfl) hst' (by simp) (by simp)
    rw [hfd, ← List.append_assoc]
    exact ⟨by simp, .hungUp (hv.hungUp hrecv (advance_stm ..))⟩
  | @requestMore bytes rb rb' p errored _ hr hc hdone =>
    obtain ⟨hconsume, herrored⟩ := requestConsume_spec hr.fills hr.ne hc
    cases errored with
    | true =>
      obtain rfl := lines_jump hlog (by rw [heq]; rfl) hst' (by simp) (by simp)
      rw [hfd] at hconsistent ⊢
      have hend : requestMachine.done p = true := by
        by_contra hgoing
        have := requestIsError_of_not_done (Bool.eq_false_iff.mpr hgoing)
        exact absurd (this.symm.trans herrored.symm) Bool.false_ne_true
      obtain ⟨rfl, -⟩ := hv.complete hends (by simp [receivedFrom]) hconsistent hconsume hend
      refine ⟨by simp, .dropped herrored.symm (advance_stm ..) ?_⟩
      rw [sentTo_append, hv.unsent]
      rfl
    | false =>
      obtain rfl := lines_stay hlog (by rw [heq]; rfl) hst'
      rw [hfd]
      refine ⟨by simp, .hearing ?_⟩
      simp only [Bool.false_eq_true, ↓reduceIte, advance_stay hst']
      exact hv.next hends hst' (by rw [heq]; exact hconsume)
        (by rw [heq]; exact hdone.resolve_left (by simp))
  | @requestDone bytes rb rb' p _ _ _ hr hc hdone hprocess =>
    obtain ⟨hconsume, herrored⟩ := requestConsume_spec hr.fills hr.ne hc
    have hbytes : receivedFrom v.fd more = bytes := (heq ▸ hprocess).received_lines rfl hlog
    rw [hfd] at hbytes
    obtain ⟨rfl, hrest⟩ := hv.complete hends hbytes hconsistent hconsume hdone
    obtain ⟨wb, hwb, rfl, rfl⟩ := hprocess.refused_command (hcmd herrored.symm)
    obtain rfl := lines_jump hlog (by rw [heq]; simp [replied, received]; rfl) hst' (by simp) (by simp)
    obtain ⟨-, -, -, hrb, hqueue⟩ := advance_same v' .requestWrite
    refine ⟨by simp, .refusing herrored.symm (received_append_right (by rw [hbytes]; exact hr.ne)) ?_
      (hv.replying ?_ (by simp [sentTo]) (advance_stm ..) ?_ (by simp [requestReply]))⟩
    · rw [advance_request (by simp), heq]
      rfl
    · rw [hrest, hrb, heq]
      rfl
    · rw [hqueue, heq]
      show wb.content = _
      rw [hwb.content]
      show v.s.writeBuffer.content ++ _ = _
      rw [(hs.phase_of hst).2.2.1, List.nil_append]
  | _ => simp_all

theorem Outcome.refusal_replying {fd : Nat} {write : Bool} {ret : SocksState}
    (h : Outcome io c v fd write v' ret) (hfd : (v.fd : Int) = start.clientFd)
    (herror : requestIsError last.state = false) (hreceived : receivedFrom start.clientFd lines ≠ [])
    (hstatus : v.s.request.status = .commandNotSupported)
    (hv : Replying requestExchange start message (requestReply .commandNotSupported) v.s lines)
    (hlog : (v'.advance ret).s.log = v.s.log ++ more) :
    (∀ n, .socket n ∉ more) ∧
      RefusalCourse start message last (v'.advance ret).s (lines ++ more) := by
  have hst : v.s.stm = some .requestWrite := hv.state
  have hst' : v'.s.stm = some .requestWrite := by rw [h.stm]; exact hst
  have hrb := (advance_same v' ret).2.2.2.1
  obtain ⟨v₁, heq⟩ : ∃ v₁, v' = v₁ := ⟨_, rfl⟩
  rw [heq] at h
  cases h with
  | sendFailed _ hsend =>
    obtain rfl := lines_jump hlog (by rw [heq]; rfl) hst' (by simp) (by simp)
    exact ⟨by simp, .sendFailed (advance_stm ..) (by simp [hfd])⟩
  | replyPart _ hsend hleft =>
    obtain rfl := lines_stay hlog (by rw [heq]; rfl) hst'
    rw [hfd, advance_stay hst']
    exact ⟨by simp, .refusing herror (received_append_left hreceived) (by rw [heq]; exact hstatus)
      (hv.part hsend.takes (by rw [heq]; rfl) hleft hst' (by rw [heq]; rfl))⟩
  | replySent _ _ _ hsucc =>
    rw [hstatus] at hsucc
    cases hsucc
  | replyRefused _ hsend hleft =>
    obtain rfl := lines_jump hlog (by rw [heq]; exact List.append_assoc ..) hst' (by simp) (by simp)
    rw [hfd]
    exact ⟨by simp, .refused herror (received_append_left hreceived) (advance_stm ..)
      (hv.all _ hsend.takes hleft rfl rfl (advance_stm ..) (by rw [hrb, heq]; rfl) trivial)⟩
  | _ => simp_all

theorem Outcome.refusal {fd : Nat} {write : Bool} {ret : SocksState}
    (h : Outcome io c v fd write v' ret) (hs : v.Shape c)
    (hends : requestMachine.Ends requestParserInit message last)
    (hcmd : requestIsError last.state = false → last.request.cmd ≠ socksReqCmdConnect)
    (hv : RefusalFollowed start message last v.s) :
    RefusalFollowed start message last (v'.advance ret).s := by
  refine Since.followed (K := fun s lines =>
    (∀ n, Action.socket n ∉ lines) ∧ RefusalCourse start message last s lines) hv (fun _ => h.since)
    fun lines more hne hclient hlog hconsistent hcourse => ?_
  have hfd : (v.fd : Int) = start.clientFd := hs.body.clientFd.symm.trans hclient
  obtain ⟨hsocket, hcourse⟩ := hcourse
  have hnext : (∀ n, .socket n ∉ more) ∧
      RefusalCourse start message last (v'.advance ret).s (lines ++ more) := by
    cases hcourse with
    | hearing hv => exact h.refusal_hearing hs hfd hends hcmd hv hlog hconsistent
    | refusing herror hreceived hstatus hv =>
      exact h.refusal_replying hfd herror hreceived hstatus hv hlog
    | hungUp h => exact absurd h.1 hs.stays.2
    | sendFailed h => exact absurd h hs.stays.2
    | dropped _ h => exact absurd h hs.stays.2
    | refused _ _ h => exact absurd h hs.stays.2
  refine ⟨fun n hn => ?_, hnext.2⟩
  rcases List.mem_append.mp hn with hn | hn
  · exact hsocket n hn
  · exact hnext.1 n hn

theorem Resolved.refusal {answer : Option (List AddrInfo)} {ret : SocksState}
    (h : Resolved io (v.answered answer) v' ret) (hs : v.Shape c)
    (hst : v.s.stm = some .requestResolv) (hv : RefusalFollowed start message last v.s) :
    RefusalFollowed start message last (v'.advance ret).s := by
  refine Since.followed (K := fun s lines =>
    (∀ n, Action.socket n ∉ lines) ∧ RefusalCourse start message last s lines) hv
    (fun _ => h.since) fun lines more _ _ _ _ hcourse => ?_
  cases hcourse.2 with
  | hearing h => exact absurd (hst.symm.trans h.state) (by simp [requestExchange])
  | refusing _ _ _ h => exact absurd (hst.symm.trans h.state) (by simp [requestExchange])
  | hungUp h => exact absurd h.1 hs.stays.2
  | sendFailed h => exact absurd h hs.stays.2
  | dropped _ h => exact absurd h hs.stays.2
  | refused _ _ h => exact absurd h hs.stays.2

end View

/-- The reply that is due is sent before the connection ends, and no socket was
opened. -/
def RefusedWith (start : Socks5) (message : List Byte) (status : SocksStatus) (s : Socks5)
    (lines : List Action) : Prop :=
  (∀ n, .socket n ∉ lines) ∧
    (Replying requestExchange start message (requestReply status) s lines ∨
      s.stm = some .error ∧ Replied requestExchange start message (requestReply status) .error
        (fun _ => True) s lines)

theorem RefusalCourse.not_refusedWith {start s : Socks5} {message : List Byte} {status : SocksStatus}
    {lines : List Action} (hst : s.stm = some .error) (hsent : sentTo start.clientFd lines = []) :
    ¬ RefusedWith start message status s lines := by
  rintro ⟨-, h | ⟨-, phase, rest, trailing, rfl, hreply, -⟩⟩
  · exact absurd (hst.symm.trans h.state) (by simp [requestExchange])
  · rw [sentTo_append, hreply] at hsent
    cases (List.append_eq_nil_iff.mp hsent).1

theorem Unservable.supported_iff {message : List Byte} {status : SocksStatus}
    (h : Unservable message status) :
    (∃ t, message[3]? = some t ∧ RequestParser.supported t) ↔ status = .commandNotSupported := by
  cases h with
  | command rsv d port =>
    refine ⟨fun _ => rfl, fun _ => ⟨d.type, rfl, ?_⟩⟩
    cases d <;> simp [Destination.type, RequestParser.supported]
  | type cmd rsv h =>
    refine ⟨?_, fun hstatus => by cases hstatus⟩
    rintro ⟨t, ht, hsupported⟩
    cases ht
    exact absurd hsupported h

namespace World

variable {w₀ w w' : World} {c : ConnId} {s s' : Socks5} {live : Bool} {message : List Byte}
  {status : SocksStatus} {lines : List Action}

theorem refusal_followed (h₀ : w₀.Initial) (h : Reachable w₀ w) (hc : w.conns c = some ⟨s, true⟩)
    (hst : s.stm = some .requestRead) (hfresh : s.request.parser = requestParserInit)
    {last : RequestParser} (hends : requestMachine.Ends requestParserInit message last)
    (hcmd : requestIsError last.state = false → last.request.cmd ≠ socksReqCmdConnect)
    (h' : Reachable w w') :
    ∃ conn, w'.conns c = some conn ∧ RefusalFollowed s message last conn.s := by
  refine (h.carries h₀).follow_running (J := RefusalFollowed s message last) ?_ ?_ ?_ hc ?_ ?_
    (h'.meetsOf c)
  · exact fun hs _ hv _ hout => hout.refusal hs hends hcmd hv
  · exact fun hs hst hv hres => hres.refusal hs hst hv
  · exact fun hv => hv.ended
  · exact fun hnone => Option.some_ne_none _ (hst.symm.trans hnone)
  · exact ⟨[], .refl s, fun _ => ⟨fun _ => List.not_mem_nil, .hearing (.first hst hfresh)⟩⟩

theorem unservable_ends (h : Unservable message status) :
    ∃ last, requestMachine.Ends requestParserInit message last ∧
      (requestIsError last.state = false ↔ status = .commandNotSupported) ∧
      (requestIsError last.state = false → last.request.cmd ≠ socksReqCmdConnect) := by
  cases h with
  | @command cmd rsv d port h =>
    obtain ⟨last, hends, hst, hcmd, -⟩ := request_ends cmd rsv d port
    have hok : requestIsError last.state = false := by rw [hst]; rfl
    exact ⟨last, hends, ⟨fun _ => rfl, fun _ => hok⟩, fun _ => hcmd ▸ h⟩
  | type cmd rsv h =>
    obtain ⟨last, hends, herror⟩ := Malformed.ends (.type h)
    refine ⟨last, hends, ⟨fun hok => ?_, fun hstatus => by cases hstatus⟩, fun hok => ?_⟩
    · exact absurd (hok.symm.trans herror) Bool.false_ne_true
    · exact absurd (hok.symm.trans herror) Bool.false_ne_true

/-- A request that cannot be served gets its reply when the type of its address is
a known one and some of it is received in the phase: what an earlier `recv` has left
in the read buffer is only parsed after the next one. -/
theorem unservable_answered_iff (h₀ : w₀.Initial) (h : Reachable w₀ w)
    (hc : w.conns c = some ⟨s, true⟩) (hst : s.stm = some .requestRead)
    (hfresh : s.request.parser = requestParserInit) (hmessage : Unservable message status)
    (h' : Reachable w w') (hc' : w'.conns c = some ⟨s', live⟩) (hsince : Since s s' lines)
    (hall : message <+: s.stream lines) (hsend : .sendFailed s.clientFd ∉ lines) :
    RefusedWith s message status s' lines ↔
      receivedFrom s.clientFd lines ≠ [] ∧ ∃ t, message[3]? = some t ∧ RequestParser.supported t := by
  obtain ⟨last, hends, hknown, hcmd⟩ := unservable_ends hmessage
  obtain ⟨conn, hconn, lines', hsince', hcourse⟩ :=
    refusal_followed h₀ h hc hst hfresh hends hcmd h'
  obtain rfl : conn = ⟨s', live⟩ := Option.some.inj (hconn.symm.trans hc')
  obtain rfl := hsince'.unique hsince
  obtain ⟨hsocket, hcourse⟩ := hcourse (.inr hall)
  rw [hmessage.supported_iff]
  cases hcourse with
  | hearing h =>
    have hnone := h.missing.resolve_right fun hmissing => hmissing hall
    refine ⟨?_, fun hreceived => absurd hnone hreceived.1⟩
    rintro ⟨-, hreply | ⟨hst, -⟩⟩
    · exact absurd (h.state.symm.trans hreply.state) (by simp [requestExchange])
    · exact absurd (h.state.symm.trans hst) (by simp [requestExchange])
  | hungUp h =>
    have hnone := h.missing.resolve_right fun hmissing => hmissing hall
    exact ⟨fun hrefused => absurd hrefused (RefusalCourse.not_refusedWith h.1 h.2.1),
      fun hreceived => absurd hnone hreceived.1⟩
  | sendFailed _ h => exact absurd h hsend
  | dropped herror hst hsent =>
    refine ⟨fun h => absurd h (RefusalCourse.not_refusedWith hst hsent), fun h => ?_⟩
    exact absurd ((hknown.mpr h.2).symm.trans herror) Bool.false_ne_true
  | refusing herror hreceived _ h =>
    obtain rfl := hknown.mp herror
    exact ⟨fun _ => ⟨hreceived, rfl⟩, fun _ => ⟨hsocket, .inl h⟩⟩
  | refused herror hreceived hst h =>
    obtain rfl := hknown.mp herror
    exact ⟨fun _ => ⟨hreceived, rfl⟩, fun _ => ⟨hsocket, .inr ⟨hst, h⟩⟩⟩

/-- BIND is refused with 07. -/
theorem unservable_bind : ∃ w s w' s' live lines, Reachable (startUp {}) w ∧
    w.conns 0 = some ⟨s, true⟩ ∧ Reachable w w' ∧ w'.conns 0 = some ⟨s', live⟩ ∧
    s'.stm = some .error ∧ RefusedWith s (requestBytes 2 0 (.ipv4 [127, 0, 0, 1] rfl) (0, 80))
      .commandNotSupported s' lines := by
  have hrun : staged anyEvent (startUp {}) (greets 4 0)
      [.ready 4 false { recv := some [5, 2, 0, 1, 127] },
       .ready 4 false { recv := some [0, 0, 1, 0, 80] },
       .ready 4 true { send := some 10 }]
      (fun s s' lines => decide (s.stm = some .requestRead ∧
        s.request.parser = requestParserInit ∧ s'.stm = some .error ∧
        s.stream lines = requestBytes 2 0 (.ipv4 [127, 0, 0, 1] rfl) (0, 80) ∧
        receivedFrom s.clientFd lines ≠ [] ∧ .sendFailed s.clientFd ∉ lines)) = true := by
    decide +kernel
  obtain ⟨w, s, w', s', live, lines, hreach, hc, hreach', hc', hsince, htest⟩ := runs_of_staged hrun
  obtain ⟨hst, hfresh, hst', hstream, hreceived, hsend⟩ := of_decide_eq_true htest
  refine ⟨w, s, w', s', live, lines, hreach, hc, hreach', hc', hst', ?_⟩
  exact (unservable_answered_iff (startUp_initial (by decide)) hreach hc hst hfresh
    (.command 0 (.ipv4 [127, 0, 0, 1] rfl) (0, 80) (by decide)) hreach' hc' hsince
    (hstream ▸ List.prefix_rfl) hsend).mpr ⟨hreceived, 1, rfl, .inl rfl⟩

/-- A request with the address type 2 is closed without a reply. -/
theorem unservable_dropped : ∃ w s w' s' live lines, Reachable (startUp {}) w ∧
    w.conns 0 = some ⟨s, true⟩ ∧ s.stm = some .requestRead ∧
    s.request.parser = requestParserInit ∧ Unservable [5, 1, 0, 2] .addressTypeNotSupported ∧
    Reachable w w' ∧ w'.conns 0 = some ⟨s', live⟩ ∧ Since s s' lines ∧
    s.stream lines = [5, 1, 0, 2] ∧ receivedFrom s.clientFd lines ≠ [] ∧
    .sendFailed s.clientFd ∉ lines ∧ s'.stm = some .error ∧
    ¬ RefusedWith s [5, 1, 0, 2] .addressTypeNotSupported s' lines := by
  have hrun : staged anyEvent (startUp {}) (greets 4 0) [.ready 4 false { recv := some [5, 1, 0, 2] }]
      (fun s s' lines => decide (s.stm = some .requestRead ∧
        s.request.parser = requestParserInit ∧ s'.stm = some .error ∧
        s.stream lines = [5, 1, 0, 2] ∧ receivedFrom s.clientFd lines ≠ [] ∧
        .sendFailed s.clientFd ∉ lines ∧ sentTo s.clientFd lines = [])) = true := by decide +kernel
  obtain ⟨w, s, w', s', live, lines, hreach, hc, hreach', hc', hsince, htest⟩ := runs_of_staged hrun
  obtain ⟨hst, hfresh, hst', hstream, hreceived, hsend, hsent⟩ := of_decide_eq_true htest
  exact ⟨w, s, w', s', live, lines, hreach, hc, hst, hfresh,
    .type 1 0 (by simp [RequestParser.supported, socksReqAddrtypeIpv4, socksReqAddrtypeIpv6,
      socksReqAddrtypeDomain]), hreach', hc', hsince, hstream, hreceived, hsend, hst',
    RefusalCourse.not_refusedWith hst' hsent⟩

/-- BIND in the same `recv` as the hello: the client hangs up unanswered. -/
theorem unservable_unread : ∃ w s w' s' live lines, Reachable (startUp {}) w ∧
    w.conns 0 = some ⟨s, true⟩ ∧ s.stm = some .requestRead ∧
    s.request.parser = requestParserInit ∧
    Unservable (requestBytes 2 0 (.ipv4 [127, 0, 0, 1] rfl) (0, 80)) .commandNotSupported ∧
    Reachable w w' ∧ w'.conns 0 = some ⟨s', live⟩ ∧ Since s s' lines ∧
    s.stream lines = requestBytes 2 0 (.ipv4 [127, 0, 0, 1] rfl) (0, 80) ∧
    .sendFailed s.clientFd ∉ lines ∧ s'.stm = some .error ∧
    ¬ RefusedWith s (requestBytes 2 0 (.ipv4 [127, 0, 0, 1] rfl) (0, 80)) .commandNotSupported
      s' lines := by
  have hrun : staged anyEvent (startUp {})
      [.accept 3 { answer := some (4, {}) },
       .ready 4 false { recv := some ([5, 1, 0] ++ requestBytes 2 0 (.ipv4 [127, 0, 0, 1] rfl) (0, 80)) },
       .ready 4 true { send := some 2 }]
      [.ready 4 false { recv := some [] }]
      (fun s s' lines => decide (s.stm = some .requestRead ∧
        s.request.parser = requestParserInit ∧ s'.stm = some .error ∧
        s.stream lines = requestBytes 2 0 (.ipv4 [127, 0, 0, 1] rfl) (0, 80) ∧
        .sendFailed s.clientFd ∉ lines ∧ sentTo s.clientFd lines = [])) = true := by decide +kernel
  obtain ⟨w, s, w', s', live, lines, hreach, hc, hreach', hc', hsince, htest⟩ := runs_of_staged hrun
  obtain ⟨hst, hfresh, hst', hstream, hsend, hsent⟩ := of_decide_eq_true htest
  exact ⟨w, s, w', s', live, lines, hreach, hc, hst, hfresh, .command 0 _ (0, 80) (by decide), hreach',
    hc', hsince, hstream, hsend, hst', RefusalCourse.not_refusedWith hst' hsent⟩

end World

end Socks5d
