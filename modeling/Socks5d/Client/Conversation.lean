import Socks5d.Client.Reports
import Socks5d.Monitor.Connection

/-!
# client.c: the client and the service

`main` sends its requests one after the other, each over a connection of its own,
while others use the service. From the command line to the tables of the server
and back to what is printed: each request takes effect at one event between the
turn's beginning and its end, and `buf` says whether the report tells so.
-/

namespace Socks5d

open Lib (Reaches)

def Client.Request.Names : Client.Request → Operation → Prop
  | .get _, _ => False
  | .disector on, op => op = .toggleDisector on
  | .addProxyUser user pass, op =>
    ∃ u p : CStr, u.val = user ∧ p.val = pass ∧ op = .registerUser u p
  | .addAdminUser user token, op =>
    ∃ u t : CStr, u.val = user ∧ t.val = token ∧ op = .registerAdmin u t
  | .delProxyUser user, op => ∃ u : CStr, u.val = user ∧ op = .unregisterUser u
  | .delAdminUser user, op => ∃ u : CStr, u.val = user ∧ op = .unregisterAdmin u

namespace Client

-- ---------------------------------------------------------------------------
-- The loop of main
-- ---------------------------------------------------------------------------

/-- One turn: its connection, what `writeBuffer` and `buf` hold at its beginning,
and the results of `recv` before the 0. -/
structure Turn where
  conn : MonitorId
  writeBuffer : List Byte
  buf : List Byte
  pieces : List (List Byte)

/-- From `connect` to `close`. The service has read no more than `send` was given,
has sent its whole response and closed the connection. -/
structure Turn.Runs (t : Turn) (args : RequestArgs) (token : List Byte) (w w' : Service) : Prop where
  writeBuffer : t.writeBuffer.length = baseRequestData + maxBytesData
  buf : t.buf.length = bufSize
  fresh : w.sessions t.conn = none
  run : Reaches Service.step (Service.Spares t.conn) w w'
  closed : ∃ s, w'.sessions t.conn = some s ∧ s.live = false ∧
    s.received <+: sent args token t.writeBuffer ∧
    monitorIsDone s.conn.reading.parser.state = true ∧ s.conn.writeBuffer.content = [] ∧
    t.pieces.flatten = s.sent

inductive Loop (token : List Byte) : Service → List RequestArgs → List Turn → Service → Prop
  | ended {w w' : Service} (h : Service.Reachable w w') : Loop token w [] [] w'
  | turn {w w₁ w' : Service} {a : RequestArgs} {args : List RequestArgs} {t : Turn}
      {turns : List Turn} (h : t.Runs a token w w₁) (hrest : Loop token w₁ args turns w') :
      Loop token w (a :: args) (t :: turns) w'

-- ---------------------------------------------------------------------------
-- What the client should print
-- ---------------------------------------------------------------------------

namespace Request

def success : Request → Report
  | get _ => .nothing
  | disector on => .disector on
  | addProxyUser user _ => .user "proxy user" user "is now added to the server"
  | addAdminUser user _ => .user "admin" user "is now added in the server"
  | delProxyUser user => .user "proxy user" user "is now deleted in the server"
  | delAdminUser user => .user "admin" user "is now deleted in the server"

def outcome (r : Request) (s : Shared) (token : List Byte) (op : Operation) : Report :=
  if monitorIsAdmin s.admins token = false then
    .error MonitorStatus.errorAuth.toByte
      (some "The token of the request you have sent is incorrect!")
  else if (op.run s).2 ≠ 0 then
    .error MonitorStatus.invalidData.toByte (some (invalidDataText r.target))
  else r.success

/-- A request that takes effect on `s`, and what the client prints for it. -/
structure Takes (r : Request) (args : RequestArgs) (token : List Byte) (t : Turn) (s s' : Shared) :
    Prop where
  get : ∀ target, r = .get target → s.Same s' ∧
    (report args t.buf t.pieces = expected s token target ↔ Intact t.buf t.pieces target)
  config : r.method = .config → ∃ op, r.Names op ∧
    (if monitorIsAdmin s.admins token = true then (op.run s).1 else s).Same s' ∧
    (report args t.buf t.pieces = r.outcome s token op ↔ Survives t.buf t.pieces 0)

end Request

/-- The requests take effect one after the other, each at an event of its own. -/
inductive Points (token : List Byte) :
    Service → List Request → List RequestArgs → List Turn → Service → Prop
  | ended {w w' : Service} (h : Service.Reachable w w') : Points token w [] [] [] w'
  | point {w w₁ w₂ w' : Service} {e : Service.Event} {r : Request} {requests : List Request}
      {a : RequestArgs} {args : List RequestArgs} {t : Turn} {turns : List Turn}
      (hbefore : Service.Reachable w w₁) (hallowed : Service.Allowed w₁ e)
      (hstep : w₁.step e = some (.ok w₂)) (htakes : r.Takes a token t w₁.shared w₂.shared)
      (hrest : Points token w₂ requests args turns w') :
      Points token w (r :: requests) (a :: args) (t :: turns) w'

theorem Points.after {token : List Byte} {w w₁ w' : Service} {requests : List Request}
    {args : List RequestArgs} {turns : List Turn} (h : Service.Reachable w w₁)
    (hp : Points token w₁ requests args turns w') : Points token w requests args turns w' := by
  cases hp with
  | ended h' => exact .ended (h.trans h')
  | point hbefore hallowed hstep htakes hrest =>
    exact .point (h.trans hbefore) hallowed hstep htakes hrest

-- ---------------------------------------------------------------------------
-- What the command line leaves for the report
-- ---------------------------------------------------------------------------

theorem delete_name {user : List Byte} (hu : Name user) :
    cstr ((memcpy (List.replicate dataSize 0) userIndex user).drop userIndex) = user := by
  have hcopy : memcpy (List.replicate dataSize 0) userIndex user =
      user ++ (List.replicate dataSize (0 : Byte)).drop (0 + user.length) := rfl
  rw [hcopy, userIndex, List.drop_zero, cstr_append (not_mem_of_alnum hu.alnum).1,
    List.drop_replicate, cstr_zeros, List.append_nil]

theorem parseOption_success {r : Request} {o : Opt} {args : RequestArgs} (hr : r.Alphanumeric)
    (ho : r.Typed o) (hm : r.method = .config) (h : parseOption {} o = .ok args) :
    handleConfigOkStatus args = r.success := by
  cases r with
  | get target => cases hm
  | disector on =>
    subst ho
    cases h
    cases on <;> rfl
  | addProxyUser user pass =>
    obtain ⟨optarg, harg, rfl⟩ := ho
    obtain ⟨hu, hp, hlen⟩ := hr
    rw [parseOption, usernameWithPassword_typed hu hp hlen harg] at h
    cases h
    have hname := (userData_reads (not_mem_of_alnum hu.alnum).1 (not_mem_of_alnum hp).1 hu.length).1
    show Report.user _ (cstr ((userData user pass).drop userIndex)) _ = _
    rw [hname]
    rfl
  | addAdminUser user token =>
    obtain ⟨optarg, harg, rfl⟩ := ho
    obtain ⟨hu, ht, hlen⟩ := hr
    rw [parseOption, usernameWithToken_typed hu ht hlen harg] at h
    cases h
    have hname := (userData_reads (not_mem_of_alnum hu.alnum).1 (not_mem_of_alnum ht).1 hu.length).1
    show Report.user _ (cstr ((userData user token).drop userIndex)) _ = _
    rw [hname]
    rfl
  | delProxyUser user | delAdminUser user =>
    obtain ⟨optarg, rfl, rfl⟩ := ho
    have hmax : ¬ optarg.val.length > usernameSize := Nat.not_lt.mpr hr.length
    simp only [parseOption, stringCheck, hmax, ↓reduceIte] at h
    cases h
    show Report.user _ (cstr ((memcpy (List.replicate dataSize 0) userIndex optarg.val).drop
      userIndex)) _ = _
    rw [delete_name hr]
    rfl

-- ---------------------------------------------------------------------------
-- What the server makes of the request
-- ---------------------------------------------------------------------------

theorem received_prefix {r : Request} (hr : r.Alphanumeric) {token : List Byte}
    (ht : token.length = tokenSize) {bytes : List Byte} (hp : bytes <+: r.message token)
    (hd : monitorIsDone (Service.parsedAlone bytes).2.state = true) :
    Received r token (Service.parsedAlone bytes).2 := by
  obtain ⟨rest, hrest⟩ := hp
  have hne : bytes ≠ [] := by
    rintro rfl
    cases hd
  have hall : monitorMachine.consume ({}, monitorParserInit) (r.message token) =
      (Service.parsedAlone bytes,
        (monitorMachine.consume ({}, monitorParserInit) bytes).2 ++ rest) := by
    rw [← hrest]
    exact monitorMachine.consume_append_done hne hd rest
  by_cases hm : r.method = .config
  · obtain ⟨st', q, hends, hdone, hdecoded⟩ := config_decoded hr hm {} ht
    obtain ⟨htoken, hmethod, htarget⟩ := header_decoded ht hends.consume hdone
    have hq : (Service.parsedAlone bytes).2 = q :=
      congrArg (·.1.2) (hall.symm.trans hends.consume)
    rw [hq]
    exact ⟨hdone, htoken, hmethod, htarget, hdecoded⟩
  · obtain ⟨target, rfl⟩ : ∃ target, r = .get target := by
      cases r with
      | get target => exact ⟨target, rfl⟩
      | _ => exact absurd rfl hm
    obtain ⟨q, rest', hconsume, hdone⟩ := get_decoded target {} ht
    obtain ⟨htoken, hmethod, htarget⟩ := header_decoded ht hconsume hdone
    have hq : (Service.parsedAlone bytes).2 = q := congrArg (·.1.2) (hall.symm.trans hconsume)
    rw [hq]
    exact ⟨hdone, htoken, hmethod, htarget, trivial⟩

theorem Received.names {r : Request} {token : List Byte} {p : MonitorParser}
    (h : Received r token p) {op : Operation} (hop : p.monitor.operation = some op)
    (hm : r.method = .config) : r.Names op := by
  unfold Monitor.operation at hop
  rw [h.target] at hop
  have hdecoded := h.data
  cases r with
  | get target => cases hm
  | disector on =>
    have hvalue : p.monitor.data.disectorDataParams = if on then 1 else 0 := hdecoded
    cases hop
    rw [hvalue]
    cases on <;> rfl
  | addProxyUser user pass | addAdminUser user secret =>
    obtain ⟨huser, hsecret⟩ := hdecoded
    cases hop
    exact ⟨_, _, huser, hsecret, rfl⟩
  | delProxyUser user | delAdminUser user =>
    cases hop
    exact ⟨_, hdecoded, rfl⟩

theorem RequestServed.get {s s' : Shared} {stream response token : List Byte} {p : MonitorParser}
    {target : GetTarget} (h : RequestServed s stream s' p response) (hs : s.Valid)
    (hp : Received (.get target) token p) :
    s.Same s' ∧ response = (s.getAnswer token target.toByte).response := by
  refine ⟨h.responds.get hp.done hp.method, ?_⟩
  have hanswer : (monitorAnswer s p.monitor).2 = s.getAnswer token target.toByte := by
    have hmethod : p.monitor.method = monitorMethodGet := hp.method
    have htarget : p.monitor.target = target.toByte := hp.target
    rw [monitorAnswer, Shared.getAnswer, hp.token, htarget, if_pos hmethod]
    split <;> rfl
  obtain ⟨dlen, hdlen, hresponse⟩ := h.frame
  rw [MonitorParser.response, if_pos hp.done, hanswer] at hdlen hresponse
  have hframed := (s.getAnswer_framed hs token target.toByte).length
  have hlen : dlen = (s.getAnswer token target.toByte).dlen :=
    UInt16.toNat.inj (hdlen.trans hframed)
  rw [hresponse, hlen]
  rfl

/-- A CONFIG does its operation, if its token is that of an administrator; the
first byte of the response tells how that ended. -/
theorem RequestServed.config {s s' : Shared} {stream response token : List Byte}
    {p : MonitorParser} {r : Request} (ht : token.length = tokenSize)
    (h : RequestServed s stream s' p response) (hs : s.Valid)
    (hp : Received r token p) (hm : r.method = .config) :
    ∃ op, r.Names op ∧
      (if monitorIsAdmin s.admins token = true then (op.run s).1 else s).Same s' ∧
      byteAt response 0 = if monitorIsAdmin s.admins token = false then MonitorStatus.errorAuth.toByte
        else if (op.run s).2 ≠ 0 then MonitorStatus.invalidData.toByte
        else MonitorStatus.succeeded.toByte := by
  have hmethod : p.monitor.method = monitorMethodConfig := by
    rw [hp.method, hm]
    rfl
  have htarget : Socks5d.ConfigTarget p.monitor.target := hp.target ▸ configTarget_target hm
  obtain ⟨op, hop, hconfig⟩ := monitorConfig_eq s htarget
  obtain ⟨htokenOf, -⟩ := h.responds.header hp.done
  obtain ⟨dlen, -, hresponse⟩ := h.frame
  have hstatus : byteAt response 0 = (p.response s).1 := by
    rw [hresponse]
    rfl
  refine ⟨op, hp.names hop hm, ?_⟩
  rw [hstatus]
  have hresponse' : (p.response s).1 = (monitorAnswer s p.monitor).2.final.toByte := by
    rw [MonitorParser.response, if_pos hp.done]
  cases hadmin : monitorIsAdmin s.admins token with
  | false =>
    have hanswer : (p.response s).1 = MonitorStatus.errorAuth.toByte := by
      rw [hresponse', monitorAnswer, hp.token, if_pos hadmin]
      rfl
    rw [if_neg Bool.false_ne_true, if_pos rfl]
    exact ⟨h.responds.failed (by rw [hanswer]; decide), hanswer⟩
  | true =>
    have hne : p.monitor.method ≠ monitorMethodGet := by
      rw [hmethod]
      decide
    have hanswer : (p.response s).1 = if (op.run s).2 ≠ 0 then MonitorStatus.invalidData.toByte
        else MonitorStatus.succeeded.toByte := by
      rw [hresponse', monitorAnswer, hp.token, if_neg (by simp [hadmin]), if_neg hne, if_pos hmethod,
        hconfig, Answer.final]
      split <;> rfl
    rw [if_pos rfl, if_neg (by decide)]
    refine ⟨?_, hanswer⟩
    by_cases hzero : (op.run s).2 = 0
    · have hregistered : s.admins.Registered (tokenOf stream) := by
        rw [← htokenOf, hp.token]
        exact (hs.admins.isAdmin_iff ht).mp hadmin
      obtain ⟨op', hop', -, hsame⟩ := h.responds.config hp.done hmethod hregistered
      cases hop.symm.trans hop'
      exact hsame (by rw [hanswer, if_neg (by simp [hzero])]; rfl)
    · rw [Operation.run_failed hzero]
      exact h.responds.failed (by rw [hanswer, if_pos hzero]; decide)

-- ---------------------------------------------------------------------------
-- What the client makes of the response
-- ---------------------------------------------------------------------------

variable {args : RequestArgs} {buf : List Byte} {pieces : List (List Byte)}

theorem report_get_iff {s : Shared} (hs : s.Valid) {token : List Byte} {target : GetTarget}
    (h : pieces.flatten = (s.getAnswer token target.toByte).response) (hbuf : buf.length = bufSize) :
    report (getArgs target) buf pieces = expected s token target ↔ Intact buf pieces target := by
  unfold expected Intact
  unfold Shared.getAnswer at h
  by_cases hadmin : monitorIsAdmin s.admins token = false
  · rw [if_pos hadmin] at h ⊢
    have hstatus : byteAt pieces.flatten 0 = monitorRespStatusErrorAuth := by rw [h]; rfl
    have hne : byteAt pieces.flatten 0 ≠ monitorRespStatusOk := by
      rw [hstatus]
      decide
    exact (report_error_iff rfl hstatus (by decide)).trans
      ⟨fun hs => ⟨hs, fun hok => absurd hok hne⟩, fun hc => hc.1⟩
  · rw [if_neg hadmin] at h ⊢
    cases target with
    | historicConnections | concurrentConnections | transferredBytes =>
      exact report_number_iff rfl (fun _ => rfl) h
    | proxyUsersList =>
      refine report_names_iff rfl (fun _ => rfl) hbuf (fun name hname => ?_) hs.users.names_fit h
      obtain ⟨i, -, rfl⟩ := List.mem_map.mp hname
      exact zero_not_mem_cstr _
    | adminUsersList =>
      refine report_names_iff rfl (fun _ => rfl) hbuf (fun name hname => ?_) hs.admins.names_fit h
      obtain ⟨i, -, rfl⟩ := List.mem_map.mp hname
      exact zero_not_mem_cstr _

/-- The report on a CONFIG is decided by the byte that `buf` begins with. -/
theorem report_config (hm : args.method = .config) : report args buf pieces =
    if byteAt (lastBeyond buf pieces 0) 0 = monitorRespStatusOk then handleConfigOkStatus args
    else .error (byteAt (lastBeyond buf pieces 0) 0)
      (errorText args (byteAt (lastBeyond buf pieces 0) 0)) := by
  rw [report, processResponse, ← byteAt_recvLoop, hm]
  rfl

theorem Request.success_ne_error (r : Request) (status : Byte) (text : Option String) :
    r.success ≠ .error status text := by
  cases r <;> exact Report.noConfusion

theorem report_config_iff {r : Request} {s : Shared} {token : List Byte} {op : Operation}
    (hm : args.method = .config) (htarget : args.target = r.target)
    (hsuccess : handleConfigOkStatus args = r.success)
    (h : byteAt pieces.flatten 0 = if monitorIsAdmin s.admins token = false then
        MonitorStatus.errorAuth.toByte
      else if (op.run s).2 ≠ 0 then MonitorStatus.invalidData.toByte
      else MonitorStatus.succeeded.toByte) :
    report args buf pieces = r.outcome s token op ↔ Survives buf pieces 0 := by
  rw [report_config hm, hsuccess, Survives, h, Request.outcome]
  generalize byteAt (lastBeyond buf pieces 0) 0 = status
  have herror {st : Byte} (hst : st ≠ monitorRespStatusOk) :
      (if status = monitorRespStatusOk then r.success else .error status (errorText args status)) =
        .error st (errorText args st) ↔ status = st := by
    constructor
    · intro heq
      split at heq
      · exact (r.success_ne_error _ _ heq).elim
      · exact (Report.error.inj heq).1
    · rintro rfl
      rw [if_neg hst]
  by_cases hadmin : monitorIsAdmin s.admins token = false
  · rw [if_pos hadmin, if_pos hadmin]
    exact herror (by decide)
  · rw [if_neg hadmin, if_neg hadmin]
    by_cases hrun : (op.run s).2 ≠ 0
    · rw [if_pos hrun, if_pos hrun, ← htarget]
      exact herror (by decide)
    · rw [if_neg hrun, if_neg hrun]
      constructor
      · intro heq
        split at heq
        · assumption
        · exact (r.success_ne_error _ _ heq.symm).elim
      · exact fun heq => if_pos heq

-- ---------------------------------------------------------------------------
-- A run of the client
-- ---------------------------------------------------------------------------

structure Prepared (r : Request) (args : RequestArgs) : Prop where
  alphanumeric : r.Alphanumeric
  filled : Filled args r
  get : ∀ target, r = .get target → args = getArgs target
  success : r.method = .config → handleConfigOkStatus args = r.success

theorem parseOption_prepared {r : Request} {o : Opt} (hr : r.Alphanumeric) (ho : r.Typed o) :
    ∃ args, parseOption {} o = .ok args ∧ Prepared r args := by
  obtain ⟨args, hargs, hfilled⟩ := parseOption_typed hr ho
  refine ⟨args, hargs, hr, hfilled, ?_, fun hm => parseOption_success hr ho hm hargs⟩
  rintro target rfl
  subst ho
  exact (Except.ok.inj hargs).symm

theorem parseOptions_prepared {requests : List Request} {options : List Opt}
    (h : List.Forall₂ Request.Typed requests options) (hr : ∀ r ∈ requests, r.Alphanumeric) :
    ∃ args, options.mapM (parseOption {}) = .ok args ∧ List.Forall₂ Prepared requests args := by
  induction h with
  | nil => exact ⟨[], rfl, .nil⟩
  | @cons r o requests options ho _ ih =>
    obtain ⟨a, ha, hprepared⟩ := parseOption_prepared (hr r List.mem_cons_self) ho
    obtain ⟨args, hargs, hall⟩ := ih fun r hmem => hr r (List.mem_cons_of_mem _ hmem)
    refine ⟨a :: args, ?_, .cons hprepared hall⟩
    rw [List.mapM_cons, ha, hargs]
    rfl

theorem Turn.Runs.takes {t : Turn} {token : List Byte} {r : Request} {w w' : Service}
    (h : t.Runs args token w w') (hp : Prepared r args) (ht : token.length = tokenSize)
    (hw : w.Wired) : ∃ w₁ e w₂, Service.Reachable w w₁ ∧ Service.Allowed w₁ e ∧
      w₁.step e = some (.ok w₂) ∧ Service.Reachable w₂ w' ∧
      r.Takes args token t w₁.shared w₂.shared := by
  obtain ⟨s, hc, -, hreceived, hdone, hempty, hpieces⟩ := h.closed
  have hsent : sent args token t.writeBuffer = r.message token :=
    serializeRequest_eq hp.alphanumeric hp.filled ht h.writeBuffer
  rw [hsent] at hreceived
  have hfollows := hw.follows h.fresh h.run hc
  obtain ⟨w₁, e, w₂, hbefore, hallowed, hstep, hafter, hserved⟩ := hfollows.answered hdone
  rw [hempty, List.append_nil, ← hpieces] at hserved
  have hrequest : Received r token s.conn.reading.parser := by
    rw [hfollows.parser] at hdone ⊢
    exact received_prefix hp.alphanumeric ht hreceived hdone
  have hvalid := (hw.reaches hbefore).valid
  refine ⟨w₁, e, w₂, hbefore, hallowed, hstep, hafter, ?_, fun hm => ?_⟩
  · rintro target rfl
    obtain ⟨hsame, hresponse⟩ := RequestServed.get hserved hvalid hrequest
    rw [hp.get target rfl]
    exact ⟨hsame, report_get_iff hvalid hresponse h.buf⟩
  · obtain ⟨op, hnames, hsame, hstatus⟩ := RequestServed.config ht hserved hvalid hrequest hm
    exact ⟨op, hnames, hsame, report_config_iff (hp.filled.method.trans hm) hp.filled.target
      (hp.success hm) hstatus⟩

theorem Loop.points {token : List Byte} (ht : token.length = tokenSize) {requests : List Request}
    {args : List RequestArgs} {turns : List Turn} {w w' : Service} (hw : w.Wired)
    (hp : List.Forall₂ Prepared requests args) (h : Loop token w args turns w') :
    Points token w requests args turns w' := by
  induction h generalizing requests with
  | ended h =>
    cases hp
    exact .ended h
  | turn h hrest ih =>
    cases hp with
    | cons hprepared hall =>
      obtain ⟨w₁, e, w₂, hbefore, hallowed, hstep, hafter, htakes⟩ := h.takes hprepared ht hw
      have hrun := h.run.mono fun _ _ hspares => hspares.1
      exact .point hbefore hallowed hstep htakes ((ih (hw.reaches hrun) hall).after hafter)

/-- The client on a command line of at most `MAX_CLIENT_REQUESTS` requests, against a
service that others use at the same time: the requests take effect in the order of
the command line, each at one event of its turn, with the state that it finds; and
the report on it is the right one exactly when the bytes that it is made from are
those of the response. -/
theorem requests_take_effect {w₀ w : Service} (h₀ : w₀.Initial) (h : Service.Reachable w₀ w)
    {requests : List Request} {options : List Opt}
    (htyped : List.Forall₂ Request.Typed requests options)
    (halnum : ∀ r ∈ requests, r.Alphanumeric) (hcount : requests.length ≤ maxClientRequests)
    {token : CStr} (htoken : token.val.length = tokenSize) :
    ∃ args, parseArgs options (some token) = .ok (args, token.val) ∧
      ∀ turns w', Loop token.val w args turns w' → Points token.val w requests args turns w' := by
  obtain ⟨args, hargs, hprepared⟩ := parseOptions_prepared htyped halnum
  refine ⟨args, ?_, fun turns w' hloop => hloop.points htoken (h.wired h₀) hprepared⟩
  have htake : options.take maxClientRequests = options :=
    List.take_of_length_le (htyped.length_eq ▸ hcount)
  have hcopy : memcpy (List.replicate tokenSize 0) 0 (token.val.take tokenSize) = token.val := by
    have htake : token.val.take tokenSize = token.val := List.take_of_length_le (Nat.le_of_eq htoken)
    rw [htake, memcpy, List.take_zero, List.nil_append, Nat.zero_add, htoken,
      List.drop_of_length_le (Nat.le_of_eq List.length_replicate), List.append_nil]
  simp only [parseArgs, htake, hargs, tokenCheck, htoken, ne_eq, not_true_eq_false, ↓reduceIte, hcopy]
  rfl

/-- An administrator is added, in two parts, while another connection comes and
hangs up. -/
theorem requests_take_effect_addAdmin : ∃ args t w',
    parseArgs [.addAdminUser addAdminOption] (some rootToken) = .ok (args, rootToken.val) ∧
    Loop rootToken.val Service.startUp args [t] w' ∧ w'.shared.admins.registered = 2 ∧
    Points rootToken.val Service.startUp [.addAdminUser [0x61] (List.replicate tokenSize 0x41)] args
      [t] w' := by
  have htoken : rootToken.val.length = tokenSize := by decide
  have halnum : (Request.addAdminUser [0x61] (List.replicate tokenSize 0x41)).Alphanumeric := by
    have hletters : ∀ c ∈ List.replicate tokenSize (0x41 : Byte), isAlnum c = true := by
      intro c hc
      rw [List.eq_of_mem_replicate hc]
      decide
    exact ⟨⟨List.forall_mem_singleton.mpr (by decide), by decide, by decide⟩, hletters, rfl⟩
  have htyped : (Request.addAdminUser [0x61] (List.replicate tokenSize 0x41)).Typed
      (.addAdminUser addAdminOption) := ⟨addAdminOption, rfl, rfl⟩
  obtain ⟨args, hargs, hpoints⟩ := requests_take_effect Service.startUp_initial Reaches.start
    (.cons htyped .nil) (List.forall_mem_singleton.mpr halnum) (by decide) htoken
  -- the only request is the one that was typed
  obtain ⟨a, ha, hprepared⟩ := parseOption_prepared halnum htyped
  obtain rfl : [a] = args := by
    obtain ⟨args', hmap, hrest⟩ := Lib.bind_ok hargs
    have hone : ([.addAdminUser addAdminOption] : List Opt).take maxClientRequests =
        [.addAdminUser addAdminOption] := rfl
    rw [hone, List.mapM_cons, ha] at hmap
    cases hmap
    obtain ⟨⟨token, length⟩, -, hrest⟩ := Lib.bind_ok hrest
    exact (Prod.mk.inj (Except.ok.inj hrest)).1
  have hrun : Lib.endsIn (fun w : Service => decide (w.shared.admins.registered = 2) &&
        (w.sessions 0).any fun s => decide (s.live = false ∧ s.received = addAdminRequest ∧
          monitorIsDone s.conn.reading.parser.state = true ∧ s.conn.writeBuffer.content = [] ∧
          s.sent = [0, 0, 1, 0]))
      (Lib.play Service.step (Service.Spares 0) Service.startUp
        (Service.addsAdmin ++ [.ready 4 true { send := some 4 }])) = true := by decide +kernel
  obtain ⟨w', hplay, hend⟩ := Lib.endsIn_iff.mp hrun
  obtain ⟨hadmins, hsession⟩ := Bool.and_eq_true_iff.mp hend
  obtain ⟨s, hc, hs⟩ := (Option.any_eq_true ..).mp hsession
  obtain ⟨hl, hreceived, hdone, hempty, hsent⟩ := of_decide_eq_true hs
  let t : Turn := ⟨0, List.replicate (baseRequestData + maxBytesData) 0, List.replicate bufSize 0,
    [[0, 0, 1, 0]]⟩
  have hmessage : sent a rootToken.val t.writeBuffer = addAdminRequest :=
    (serializeRequest_eq halnum hprepared.filled htoken List.length_replicate).trans (by decide)
  have hturn : t.Runs a rootToken.val Service.startUp w' :=
    ⟨List.length_replicate, List.length_replicate, rfl, Lib.reaches_of_play hplay, s, hc, hl,
      hmessage ▸ hreceived ▸ List.prefix_rfl, hdone, hempty, hsent.symm⟩
  have hloop : Loop rootToken.val Service.startUp [a] [t] w' := .turn hturn (.ended Reaches.start)
  exact ⟨[a], t, w', hargs, hloop, of_decide_eq_true hadmins, hpoints [t] w' hloop⟩

end Client

end Socks5d
