import Socks5d.Refusals

/-!
# The address that connect gets

For a request with an address, `request_process` fills in the port and passes the
address on to `connect`; there is one attempt only, since only names have more than
one address.
-/

namespace Socks5d

def Destination.sockAddr (port : Byte × Byte) : Destination → Option SockAddr
  | ipv4 addr _ => some { family := afInet, addr, port := [port.1, port.2] }
  | ipv6 addr _ => some { family := afInet6, addr, port := [port.1, port.2] }
  | domain _ _ => none

def Action.Towards (addr : SockAddr) : Action → Prop
  | .connect _ addr' _ => addr' = addr
  | _ => True

def Aimed (s : Socks5) : Prop :=
  s.stm = some .error ∨
    s.request.parser.request.destAddrType ≠ socksReqAddrtypeDomain ∧
      ∃ st, s.stm = some st ∧ View.Past st ∧ st ≠ .requestResolv

def AimFollowed (start : Socks5) (message : List Byte) (addr : SockAddr) (s : Socks5) : Prop :=
  ∃ lines, Since start s lines ∧ (Consistent (start.stream lines) message →
    (∀ a ∈ lines, a.Towards addr) ∧ (Hearing requestExchange start message s lines ∨ Aimed s))

namespace View

variable {v v' : View} {io : Io} {c : ConnId} {start : Socks5} {message : List Byte}
  {last : RequestParser} {lines more : List Action} {addr : SockAddr}

theorem towards_of_jump {a : Action} (h : a.isJump = true) : a.Towards addr := by
  cases a <;> trivial

theorem Aims.unique {r : Request} {family family' : Nat} {addr addr' : SockAddr}
    {destAddr destAddr' : SocksAddr} (h : Aims r family addr destAddr)
    (h' : Aims r family' addr' destAddr') : addr = addr' := by
  cases h with
  | ipv4 h =>
    cases h' with
    | ipv4 => rfl
    | ipv6 h' => exact absurd (h.symm.trans h') (by decide)
  | ipv6 h =>
    cases h' with
    | ipv4 h' => exact absurd (h.symm.trans h') (by decide)
    | ipv6 => rfl

theorem Connect.towards {ret : SocksState} (h : Connect io v v' ret) :
    Adds (·.Towards v.s.originAddr) v.s.log v'.s.log ∧
      v'.s.request.parser = v.s.request.parser ∧ Past ret ∧ ret ≠ .requestResolv := by
  have hstart := Adds.refl (Action.Towards v.s.originAddr) v.s.log
  cases h with
  | noSocket =>
    exact ⟨(hstart.concat (by trivial)).concat (by trivial), rfl, by simp [Past], by simp⟩
  | noNio => exact ⟨hstart.concat (by trivial), rfl, by simp [Past], by simp⟩
  | failed | unregistered =>
    exact ⟨((hstart.concat (by trivial)).concat (by rfl)).concat (by trivial), rfl, by simp [Past],
      by simp⟩
  | pending =>
    exact ⟨(hstart.concat (by trivial)).concat (by rfl), rfl, by simp [Past], by simp⟩

theorem setRb_request (s : Socks5) (d : Side) (b : Buffer) : (s.setRb d b).request = s.request := by
  cases d <;> rfl

theorem shut_request (v : View) (d : Side) (write : Bool) :
    (v.shut d write).s.request = v.s.request := by
  cases d <;> rfl

theorem copyNext_cases (v : View) (d : Side) : v.copyNext d = .done ∨ v.copyNext d = .copy := by
  unfold copyNext
  split
  · exact .inl rfl
  · exact .inr rfl

theorem Outcome.towards (addr : SockAddr) {fd : Nat} {write : Bool} {ret st : SocksState}
    (h : Outcome io c v fd write v' ret) (hst : v.s.stm = some st) (hpast : Past st)
    (htype : v.s.request.parser.request.destAddrType ≠ socksReqAddrtypeDomain) :
    Adds (·.Towards addr) v.s.log v'.s.log ∧ v'.s.request.parser = v.s.request.parser ∧
      ret ≠ .requestResolv := by
  have hstart := Adds.refl (Action.Towards addr) v.s.log
  have hcopy {ret : SocksState} (h : ret = .done ∨ ret = .copy) : ret ≠ .requestResolv := by
    rcases h with rfl | rfl <;> simp
  cases h with
  | retried _ _ _ hdomain => exact absurd hdomain htype
  | recvFailed | sendFailed | replyPart => exact ⟨hstart.concat (by trivial), rfl, by simp⟩
  | concluded =>
    refine ⟨Adds.concat (Adds.append (hstart.concat (by trivial)) fun a ha => ?_) (by trivial), rfl,
      by simp⟩
    rw [if_neg (by exact htype)] at ha
    cases ha
  | replySent | replyRefused =>
    exact ⟨(hstart.concat (by trivial)).concat (by trivial), rfl, by simp⟩
  | copyReceived _ _ _ _ v₁ h₁ =>
    subst h₁
    refine ⟨?_, congrArg RequestSt.parser (setRb_request ..), hcopy (copyNext_cases ..)⟩
    show Adds _ v.s.log (Socks5.log (Socks5.setRb _ _ _))
    rw [setRb_log]
    exact hstart.concat (by trivial)
  | copyEnded | copyFailed =>
    refine ⟨?_, congrArg RequestSt.parser (shut_request ..), hcopy (copyNext_cases ..)⟩
    show Adds _ v.s.log (View.shut _ _ _).s.log
    rw [shut_log]
    exact ((hstart.concat (by trivial)).concat (by trivial)).concat (by trivial)
  | copySent _ _ _ v₁ v₂ h₁ h₂ =>
    subst h₁ h₂
    obtain ⟨dp, lines, heq, hl⟩ := disected_eq (v.noted _) _ _
    refine ⟨?_, ?_, hcopy (copyNext_cases ..)⟩
    · show Adds _ v.s.log (Socks5.log (Socks5.setRb _ _ _))
      rw [setRb_log, heq]
      refine Adds.append (hstart.concat (by trivial)) fun a ha => ?_
      obtain ⟨_, _, _, _, _, _, rfl⟩ := hl a ha
      trivial
    · refine (congrArg RequestSt.parser (setRb_request ..)).trans ?_
      rw [heq]
      rfl
  | _ => simp_all [Past]

theorem Outcome.aim_hearing {fd : Nat} {write : Bool} {ret : SocksState}
    (h : Outcome io c v fd write v' ret) (hfd : (v.fd : Int) = start.clientFd)
    (hends : requestMachine.Ends requestParserInit message last)
    (hcmd : last.request.cmd = socksReqCmdConnect)
    (haims : ∃ family destAddr, Aims last.request family addr destAddr)
    (hv : Hearing requestExchange start message v.s lines)
    (hlog : (v'.advance ret).s.log = v.s.log ++ more)
    (hconsistent : Consistent (start.stream (lines ++ more)) message) :
    (∀ a ∈ more, a.Towards addr) ∧
      (Hearing requestExchange start message (v'.advance ret).s (lines ++ more) ∨
        Aimed (v'.advance ret).s) := by
  have hst : v.s.stm = some .requestRead := hv.state
  have hst' : v'.s.stm = some .requestRead := by rw [h.stm]; exact hst
  obtain ⟨v₁, heq⟩ : ∃ v₁, v' = v₁ := ⟨_, rfl⟩
  rw [heq] at h
  cases h with
  | recvFailed _ hrecv =>
    obtain rfl := lines_jump hlog (by rw [heq]; rfl) hst' (by simp) (by simp)
    exact ⟨by simp [Action.Towards], .inr (.inl (advance_stm ..))⟩
  | @requestMore bytes rb rb' p errored _ hr hc hdone =>
    obtain ⟨hconsume, herrored⟩ := requestConsume_spec hr.fills hr.ne hc
    cases errored with
    | true =>
      obtain rfl := lines_jump hlog (by rw [heq]; rfl) hst' (by simp) (by simp)
      exact ⟨by simp [Action.Towards], .inr (.inl (advance_stm ..))⟩
    | false =>
      obtain rfl := lines_stay hlog (by rw [heq]; rfl) hst'
      rw [hfd]
      refine ⟨by simp [Action.Towards], .inl ?_⟩
      simp only [Bool.false_eq_true, ↓reduceIte, advance_stay hst']
      exact hv.next hends hst' (by rw [heq]; exact hconsume)
        (by rw [heq]; exact hdone.resolve_left (by simp))
  | @requestDone bytes rb rb' p _ _ _ hr hc hdone hprocess =>
    obtain ⟨hconsume, herrored⟩ := requestConsume_spec hr.fills hr.ne hc
    have hbytes : receivedFrom v.fd more = bytes := (heq ▸ hprocess).received_lines rfl hlog
    rw [hfd] at hbytes
    obtain ⟨rfl, -⟩ := hv.complete hends hbytes hconsistent hconsume hdone
    obtain ⟨family, destAddr, haims⟩ := haims
    cases hprocess with
    | refused _ _ hwhy =>
      cases hwhy with
      | command hno => exact absurd hcmd hno
      | type _ h4 h6 =>
        cases haims with
        | ipv4 h => exact absurd h h4
        | ipv6 h => exact absurd h h6
      | thread _ hd => exact absurd hd haims.type_ne
    | resolve hd => exact absurd hd haims.type_ne
    | @connect family' addr' destAddr' _ _ _ hconnect _ haims' =>
      obtain rfl := haims'.unique haims
      obtain ⟨htowards, hparser, hpast, hresolv⟩ := hconnect.towards
      have hadds : Adds (·.Towards addr') v.s.log (v'.advance ret).s.log := by
        refine Adds.trans ?_ ((advance_lines v' ret).mono fun a ha => towards_of_jump ha)
        rw [heq]
        refine Adds.trans ?_ htowards
        exact ((Adds.refl _ _).concat (by trivial)).concat (by trivial)
      rw [hlog] at hadds
      refine ⟨hadds.of_append, .inr (.inr ⟨?_, ret, advance_stm .., hpast, hresolv⟩)⟩
      rw [advance_request hpast.2.2.2.2, heq, hparser]
      exact haims.type_ne
  | _ => simp_all

theorem Outcome.aim {fd : Nat} {write : Bool} {ret : SocksState}
    (h : Outcome io c v fd write v' ret) (hs : v.Shape c)
    (hends : requestMachine.Ends requestParserInit message last)
    (hcmd : last.request.cmd = socksReqCmdConnect)
    (haims : ∃ family destAddr, Aims last.request family addr destAddr)
    (hv : AimFollowed start message addr v.s) : AimFollowed start message addr (v'.advance ret).s := by
  refine Since.followed (K := fun s lines => (∀ a ∈ lines, a.Towards addr) ∧
    (Hearing requestExchange start message s lines ∨ Aimed s)) hv (fun _ => h.since)
    fun lines more _ hclient hlog hconsistent hcourse => ?_
  have hfd : (v.fd : Int) = start.clientFd := hs.body.clientFd.symm.trans hclient
  obtain ⟨htowards, hcourse⟩ := hcourse
  have hnext : (∀ a ∈ more, a.Towards addr) ∧
      (Hearing requestExchange start message (v'.advance ret).s (lines ++ more) ∨
        Aimed (v'.advance ret).s) := by
    rcases hcourse with hv | hst | ⟨htype, st, hst, hpast, -⟩
    · exact h.aim_hearing hfd hends hcmd haims hv hlog hconsistent
    · exact absurd hst hs.stays.2
    · obtain ⟨hadds, hparser, hresolv⟩ := h.towards addr hst hpast htype
      have hall := hadds.trans ((advance_lines v' ret).mono fun a ha => towards_of_jump ha)
      rw [hlog] at hall
      have hpast' := h.past hst hpast
      refine ⟨hall.of_append, .inr (.inr ⟨?_, ret, advance_stm .., hpast', hresolv⟩)⟩
      rwa [advance_request hpast'.2.2.2.2, hparser]
  refine ⟨fun a ha => ?_, hnext.2⟩
  rcases List.mem_append.mp ha with ha | ha
  · exact htowards a ha
  · exact hnext.1 a ha

theorem Resolved.aim {answer : Option (List AddrInfo)} {ret : SocksState}
    (h : Resolved io (v.answered answer) v' ret) (hst : v.s.stm = some .requestResolv)
    (hv : AimFollowed start message addr v.s) : AimFollowed start message addr (v'.advance ret).s := by
  refine Since.followed (K := fun s lines => (∀ a ∈ lines, a.Towards addr) ∧
    (Hearing requestExchange start message s lines ∨ Aimed s)) hv (fun _ => h.since)
    fun lines more _ _ _ _ hcourse => ?_
  rcases hcourse.2 with hv | hst' | ⟨-, st, hst', -, hresolv⟩
  · exact absurd (hst.symm.trans hv.state) (by simp [requestExchange])
  · exact absurd (hst.symm.trans hst') (by simp)
  · exact absurd (Option.some.inj (hst'.symm.trans hst)) hresolv

end View

theorem AimFollowed.ended {start s : Socks5} {message : List Byte} {addr : SockAddr}
    (h : AimFollowed start message addr s) :
    AimFollowed start message addr { s with references := 1 } := by
  obtain ⟨lines, hsince, hcourse⟩ := h
  refine ⟨lines, ⟨hsince.log, hsince.clientFd⟩, fun hconsistent => ?_⟩
  obtain ⟨htowards, hcourse⟩ := hcourse hconsistent
  refine ⟨htowards, hcourse.imp (fun h => ?_) id⟩
  exact ⟨h.state, h.unsent, h.missing, h.reading⟩

theorem Destination.aims {d : Destination} {port : Byte × Byte} {addr : SockAddr}
    (h : d.sockAddr port = some addr) {r : Request} (htype : r.destAddrType = d.type)
    (hof : d.Of r.destAddr) (hport : r.destPort = [port.1, port.2]) :
    ∃ family destAddr, View.Aims r family addr destAddr := by
  cases d with
  | ipv4 bytes hlen =>
    obtain ⟨hfamily, haddr⟩ := hof
    cases h
    have heq : ({ family := afInet, addr := bytes, port := [port.1, port.2] } : SockAddr) =
        { r.destAddr.ipv4 with port := r.destPort } := by rw [← hfamily, ← haddr, ← hport]
    rw [heq]
    exact ⟨_, _, .ipv4 htype⟩
  | ipv6 bytes hlen =>
    obtain ⟨hfamily, haddr⟩ := hof
    cases h
    have heq : ({ family := afInet6, addr := bytes, port := [port.1, port.2] } : SockAddr) =
        { r.destAddr.ipv6 with port := r.destPort } := by rw [← hfamily, ← haddr, ← hport]
    rw [heq]
    exact ⟨_, _, .ipv6 htype⟩
  | domain => cases h

namespace World

variable {w₀ w w' : World} {c : ConnId} {s : Socks5}

/-- In every run a request with an address is connected to that address only. -/
theorem connects_towards (h₀ : w₀.Initial) (h : Reachable w₀ w) (hc : w.conns c = some ⟨s, true⟩)
    (hst : s.stm = some .requestRead) (hfresh : s.request.parser = requestParserInit) (rsv : Byte)
    {d : Destination} {port : Byte × Byte} {addr : SockAddr} (haddr : d.sockAddr port = some addr)
    (h' : Reachable w w') :
    ∃ conn, w'.conns c = some conn ∧
      AimFollowed s (requestBytes socksReqCmdConnect rsv d port) addr conn.s := by
  obtain ⟨last, hends, -, hcmd, htype, hof, hport⟩ := request_ends socksReqCmdConnect rsv d port
  have haims := Destination.aims haddr htype hof hport
  refine (h.carries h₀).follow_running
    (J := AimFollowed s (requestBytes socksReqCmdConnect rsv d port) addr) ?_ ?_ ?_ hc ?_ ?_
    (h'.meetsOf c)
  · exact fun hs _ hv _ hout => hout.aim hs hends hcmd haims hv
  · exact fun _ hst hv hres => hres.aim hst hv
  · exact fun hv => hv.ended
  · exact fun hnone => Option.some_ne_none _ (hst.symm.trans hnone)
  · exact ⟨[], .refl s, fun _ => ⟨fun _ ha => absurd ha List.not_mem_nil, .inl (.first hst hfresh)⟩⟩

end World

/-- The parser recognises a request at its last byte, in whatever chunks it comes,
and stops at a byte that is not accepted; an address goes to `connect` as it was
received. -/
theorem request_exact :
    (∀ (cmd rsv : Byte) (d : Destination) (port : Byte × Byte) (trailing : List Byte)
      (bs : List Buffer), contents bs = requestBytes cmd rsv d port ++ trailing →
      ∃ p b rest, requestCalls bs = (p, false, some (b, rest)) ∧ p.state = .done ∧
        p.request.cmd = cmd ∧ p.request.destAddrType = d.type ∧ d.Of p.request.destAddr ∧
        p.request.destPort = [port.1, port.2] ∧ b.content ++ contents rest = trailing) ∧
    (∀ (bad trailing : List Byte) (bs : List Buffer), Malformed bad → contents bs = bad ++ trailing →
      ∃ p b rest, requestCalls bs = (p, true, some (b, rest)) ∧
        b.content ++ contents rest = trailing) ∧
    (∀ bs : List Buffer, (requestCalls bs).2.1 = true →
      ∃ bad trailing, contents bs = bad ++ trailing ∧ Malformed bad) ∧
    ∀ (w₀ w w' : World) (c : ConnId) (s : Socks5), w₀.Initial → w₀.Reachable w →
      w.conns c = some ⟨s, true⟩ → s.stm = some .requestRead →
      s.request.parser = requestParserInit → w.Reachable w' →
      ∃ s' live lines, w'.conns c = some ⟨s', live⟩ ∧ Since s s' lines ∧
        ∀ (rsv : Byte) (d : Destination) (port : Byte × Byte) (addr : SockAddr),
          d.sockAddr port = some addr →
          Consistent (s.stream lines) (requestBytes socksReqCmdConnect rsv d port) →
          ∀ fd addr' answer, .connect fd addr' answer ∈ lines → addr' = addr := by
  refine ⟨fun cmd rsv d port trailing bs hbs => ?_, fun bad trailing bs hbad hbs => ?_,
    fun bs herrored => requestCalls_errored herrored, ?_⟩
  · obtain ⟨p, hends, hst, hcmd, htype, hof, hport⟩ := request_ends cmd rsv d port
    obtain ⟨b, rest, hcalls, hrest⟩ := requestCalls_ends hends hbs
    rw [hst] at hcalls
    exact ⟨p, b, rest, hcalls, hst, hcmd, htype, hof, hport, hrest⟩
  · obtain ⟨p, hends, herror⟩ := hbad.ends
    obtain ⟨b, rest, hcalls, hrest⟩ := requestCalls_ends hends hbs
    rw [herror] at hcalls
    exact ⟨p, b, rest, hcalls, hrest⟩
  · intro w₀ w w' c s h₀ h hc hst hfresh h'
    obtain ⟨⟨s', live⟩, hconn, lines, hsince, -⟩ := World.connects_towards h₀ h hc hst hfresh 0
      (rfl : Destination.sockAddr (0, 0) (.ipv4 [0, 0, 0, 0] rfl) = some _) h'
    refine ⟨s', live, lines, hconn, hsince, fun rsv d port addr haddr hconsistent => ?_⟩
    obtain ⟨conn, hconn', lines', hsince', htowards⟩ :=
      World.connects_towards h₀ h hc hst hfresh rsv haddr h'
    obtain rfl : conn = ⟨s', live⟩ := Option.some.inj (hconn'.symm.trans hconn)
    obtain rfl := hsince'.unique hsince
    exact fun fd addr' answer hmem => (htowards hconsistent).1 _ hmem

/-- A request for 127.0.0.1, alone and in a run. -/
theorem request_exact_loopback :
    (∃ p b rest, requestCalls [⟨requestBytes 1 0 (.ipv4 [127, 0, 0, 1] rfl) (0, 80) ++ [7], 0, 11,
        by decide, by decide⟩] = (p, false, some (b, rest)) ∧ b.content ++ contents rest = [7]) ∧
    ∃ (w : World) (s : Socks5) (lines : List Action), (World.startUp {}).Reachable w ∧
      w.conns 0 = some ⟨s, true⟩ ∧
      .connect 5 { family := afInet, addr := [127, 0, 0, 1], port := [0, 80] } (some einprogress) ∈
        lines ∧
      ∀ fd addr answer, .connect fd addr answer ∈ lines →
        addr = { family := afInet, addr := [127, 0, 0, 1], port := [0, 80] } := by
  obtain ⟨hmessage, -, -, hconnects⟩ := request_exact
  refine ⟨?_, ?_⟩
  · obtain ⟨p, b, rest, hcalls, -, -, -, -, -, hrest⟩ :=
      hmessage 1 0 (.ipv4 [127, 0, 0, 1] rfl) (0, 80) [7]
        [⟨requestBytes 1 0 (.ipv4 [127, 0, 0, 1] rfl) (0, 80) ++ [7], 0, 11, by decide, by decide⟩]
        rfl
    exact ⟨p, b, rest, hcalls, hrest⟩
  · have hrun : World.staged World.anyEvent (World.startUp {}) (World.greets 4 0)
        [.ready 4 false { recv := some [5, 1, 0, 1, 127] },
         .ready 4 false { recv := some [0, 0, 1, 0, 80], socket := some 5,
                          connect := some einprogress }]
        (fun s _ lines => decide (s.stm = some .requestRead ∧
          s.request.parser = requestParserInit ∧
          s.stream lines = requestBytes 1 0 (.ipv4 [127, 0, 0, 1] rfl) (0, 80) ∧
          .connect 5 { family := afInet, addr := [127, 0, 0, 1], port := [0, 80] }
            (some einprogress) ∈ lines)) = true := by decide +kernel
    obtain ⟨w, s, w', s', live, lines, hreach, hc, hreach', hc', hsince, htest⟩ :=
      World.runs_of_staged hrun
    obtain ⟨hst, hfresh, hstream, hmem⟩ := of_decide_eq_true htest
    obtain ⟨s₁, live₁, lines₁, hc₁, hsince₁, hall⟩ := hconnects _ _ _ _ _
      (World.startUp_initial (by decide)) hreach hc hst hfresh hreach'
    obtain ⟨rfl, rfl⟩ : s₁ = s' ∧ live₁ = live := by simpa using hc₁.symm.trans hc'
    obtain rfl := hsince₁.unique hsince
    exact ⟨w, s, lines₁, hreach, hc, hmem, hall 0 (.ipv4 [127, 0, 0, 1] rfl) (0, 80) _ rfl
      (.inl (hstream ▸ List.prefix_rfl))⟩

end Socks5d
