import Socks5d.Connection.Calls

/-!
# What a handler can do to its connection

`Outcome` lists, for every state of the machine, what the handler of a ready
descriptor does and which state it returns; `Resolved` does the same for the
handler of a block event. Both are the full story: which answers of the kernel
lead to a case, and the view after it. The proofs about connections are case
analyses over these.
-/

namespace Socks5d

namespace View

variable (io : Io) (c : ConnId)

def replied (v : View) (status : SocksStatus) (wb : Buffer) : View :=
  { v with
    client := .watched opWrite
    s := { v.s with
      request := { v.s.request with status }
      writeBuffer := wb
      log := v.s.log ++ [.marshall status] } }

def socketed (v : View) (fd : Int) : View :=
  { v with s := { v.s with originFd := fd, log := v.s.log ++ [.socket fd] } }

def gaveUp (v : View) (n errno : Nat) : View :=
  { v with
    peerFd := n
    peer := .closed
    s := { v.s with
      originFd := -1
      log := v.s.log ++ [.socket n] ++ [.connect n v.s.originAddr (some errno)] } }

inductive Connect (v : View) : View → SocksState → Prop
  | noSocket {wb : Buffer} (hio : io.socket = none)
      (hwb : v.s.writeBuffer.Fills (requestReply .generalSocksServerFailure) wb) :
      Connect v ((v.socketed (-1)).replied .generalSocksServerFailure wb) .requestWrite
  | noNio {n : Nat} (hio : io.socket = some n) (hn : n ≠ v.fd) (hnio : io.nio = false) :
      Connect v { v.socketed n with peerFd := n, peer := .opened } .requestConnecting
  | failed {n errno : Nat} {wb : Buffer} (hio : io.socket = some n) (hn : n ≠ v.fd)
      (hnio : io.nio = true) (hconnect : io.connect = some errno) (hzero : errno ≠ 0)
      (herrno : errno ≠ einprogress)
      (hwb : v.s.writeBuffer.Fills (requestReply (errnoToSocks errno)) wb) :
      Connect v ((v.gaveUp n errno).replied (errnoToSocks errno) wb) .requestWrite
  | unregistered {n : Nat} {wb : Buffer} (hio : io.socket = some n) (hn : n ≠ v.fd)
      (hnio : io.nio = true) (hconnect : io.connect = some einprogress) (hlarge : fdSetSize ≤ n)
      (hwb : v.s.writeBuffer.Fills (requestReply v.s.request.status) wb) :
      Connect v ((v.gaveUp n einprogress).replied v.s.request.status wb) .requestWrite
  | pending {n : Nat} (hio : io.socket = some n) (hn : n ≠ v.fd) (hnio : io.nio = true)
      (hconnect : io.connect = some einprogress) (hlarge : n < fdSetSize) :
      Connect v { v with
        client := .watched opNoop
        peerFd := n
        peer := .watched opWrite
        s := { v.s with
          originFd := n
          references := v.s.references + 1
          log := v.s.log ++ [.socket n] ++ [.connect n v.s.originAddr (some einprogress)] } }
        .requestConnecting

inductive Refusal (r : Request) : SocksStatus → Prop
  | command (hcmd : r.cmd ≠ socksReqCmdConnect) : Refusal r .commandNotSupported
  | type (hcmd : r.cmd = socksReqCmdConnect) (h4 : r.destAddrType ≠ socksReqAddrtypeIpv4)
      (h6 : r.destAddrType ≠ socksReqAddrtypeIpv6) (hd : r.destAddrType ≠ socksReqAddrtypeDomain) :
      Refusal r .addressTypeNotSupported
  | thread (hcmd : r.cmd = socksReqCmdConnect) (hd : r.destAddrType = socksReqAddrtypeDomain) :
      Refusal r .generalSocksServerFailure

inductive Aims (r : Request) : Nat → SockAddr → SocksAddr → Prop
  | ipv4 (h : r.destAddrType = socksReqAddrtypeIpv4) :
      Aims r afInet { r.destAddr.ipv4 with port := r.destPort }
        { r.destAddr with ipv4 := { r.destAddr.ipv4 with port := r.destPort } }
  | ipv6 (h : r.destAddrType = socksReqAddrtypeIpv6) :
      Aims r afInet6 { r.destAddr.ipv6 with port := r.destPort }
        { r.destAddr with ipv6 := { r.destAddr.ipv6 with port := r.destPort } }

theorem Aims.type_ne {r : Request} {family : Nat} {addr : SockAddr} {destAddr : SocksAddr}
    (h : Aims r family addr destAddr) : r.destAddrType ≠ socksReqAddrtypeDomain := by
  cases h with
  | ipv4 h | ipv6 h =>
    rw [h]
    decide

inductive Process (v : View) : View → SocksState → Prop
  | refused {status : SocksStatus} {wb : Buffer} (hstatus : status ≠ .succeeded)
      (hwb : v.s.writeBuffer.Fills (requestReply status) wb)
      (hwhy : Refusal v.s.request.parser.request status) :
      Process v (v.replied status wb) .requestWrite
  | resolve (htype : v.s.request.parser.request.destAddrType = socksReqAddrtypeDomain)
      (hcmd : v.s.request.parser.request.cmd = socksReqCmdConnect) :
      Process v { v with
        client := .watched opNoop
        threads := v.threads ++ [⟨v.fd, c⟩] } .requestResolv
  | connect {family : Nat} {addr : SockAddr} {destAddr : SocksAddr} {v' : View} {ret : SocksState}
      (htype : v.s.request.parser.request.destAddrType ≠ socksReqAddrtypeDomain)
      (h : Connect io { v with s := { v.s with
        originDomain := family
        originAddr := addr
        request := { v.s.request with parser := { v.s.request.parser with
          request := { v.s.request.parser.request with destAddr } } } } } v' ret)
      (hcmd : v.s.request.parser.request.cmd = socksReqCmdConnect)
      (haims : Aims v.s.request.parser.request family addr destAddr) :
      Process v v' ret

def dropPeer (v : View) : View :=
  { v with
    peer := .closed
    s := { v.s with references := v.s.references - if v.peer.isWatched then 1 else 0 } }

def aimed (v : View) (current : List AddrInfo) (a : AddrInfo) : View :=
  { v with s := { v.s with
    originResolutionCurrent := current
    originDomain := a.family
    originAddr := a.addr } }

/-- `request_connecting` after the last attempt: the result is `status`, the
list of addresses is released and the reply is put in the write buffer. -/
def concluded (v : View) (fd : Nat) (status : SocksStatus) (wb : Buffer) : View :=
  let domain := v.s.request.parser.request.destAddrType = socksReqAddrtypeDomain
  { v with
    client := if fd = v.fd then .watched opNoop else .watched opWrite
    peer := if fd = v.fd then v.peer else .watched opNoop
    s := { v.s with
      originFd := if status = .succeeded then fd else v.s.originFd
      originResolution := if domain then [] else v.s.originResolution
      originResolutionCurrent := if domain then [] else v.s.originResolutionCurrent
      request := { v.s.request with status }
      writeBuffer := wb
      log := v.s.log ++ (if domain then [.freeaddrinfo v.s.originResolution] else []) ++
        [.marshall status] } }

def relaying (v : View) : View :=
  { v with
    client := .watched opRead
    peer := .watched opRead
    globals := { v.globals with
      historicConnections := v.globals.historicConnections + 1
      currentConnections := v.globals.currentConnections + 1 }
    s := { v.s with
      destAddr := v.s.request.parser.request.destAddr
      destAddrType := v.s.request.parser.request.destAddrType } }

def logged (v : View) : View :=
  v.noted (.logRequest v.s.request.status (Handler.loggedName v.globals v.s.clientUname)
    v.s.request.parser.request v.s.clientAddr v.s.originAddr)

def sideFd (v : View) : Side → Nat
  | .client => v.fd
  | .origin => v.peerFd

def shut (v : View) (d : Side) (write : Bool) : View :=
  let s := v.s.setDuplex d
    (if write then { v.s.duplex d with write := false } else { v.s.duplex d with read := false })
  { v with s := { s.setDuplex d.other
      (if write then { s.duplex d.other with read := false }
       else { s.duplex d.other with write := false }) with
    log := s.log ++ [.shutdown (v.sideFd d) write] ++ [.shutdown (v.sideFd d.other) (!write)] } }

def disected (v : View) (fd : Nat) (bytes : List Byte) : View :=
  if Handler.disectorListens v.globals v.s fd then
    let (dp, st) := disectorConsume v.s.dp bytes
    if st = .done then
      { v with s := { v.s with
        dp := disectorParserReset dp
        log := v.s.log ++ [.logCredentials (cstr (dp.user ++ dp.pass)) (cstr dp.pass)
          (Handler.loggedName v.globals v.s.clientUname) v.s.destAddrType v.s.destAddr
          v.s.originAddr] } }
    else { v with s := { v.s with dp } }
  else v

theorem disected_eq (v : View) (fd : Nat) (bytes : List Byte) :
    ∃ dp lines, v.disected fd bytes = { v with s := { v.s with dp, log := v.s.log ++ lines } } ∧
      ∀ a ∈ lines, ∃ user pass uname type addr origin,
        a = .logCredentials user pass uname type addr origin := by
  unfold disected
  by_cases hl : Handler.disectorListens v.globals v.s fd = true
  · simp only [hl, ↓reduceIte]
    by_cases hd : (disectorConsume v.s.dp bytes).2 = .done
    · simp only [hd, ↓reduceIte]
      exact ⟨_, _, rfl, fun a ha => ⟨_, _, _, _, _, _, List.mem_singleton.mp ha⟩⟩
    · simp only [hd, ↓reduceIte]
      exact ⟨_, [], by rw [List.append_nil], by simp⟩
  · simp only [hl, Bool.false_eq_true, ↓reduceIte]
    exact ⟨v.s.dp, [], by rw [List.append_nil], by simp⟩

/-- The end of `copy_r` and `copy_w`: the interests of both sides, and the
state, which is DONE when the side has no direction left. -/
def copied (v : View) (d : Side) : View :=
  { v with
    client := .watched (v.s.copyInterest .client)
    peer := .watched (v.s.copyInterest .origin)
    globals := if v.s.duplex d = opNoop then
      { v.globals with currentConnections := v.globals.currentConnections - 1 } else v.globals }

def copyNext (v : View) (d : Side) : SocksState := if v.s.duplex d = opNoop then .done else .copy

def received (v : View) (bytes : List Byte) (rb : Buffer) : View :=
  { v with s := { v.s with readBuffer := rb, log := v.s.log ++ [.recv v.fd (some bytes)] } }

def sent (v : View) (n : Nat) (wb : Buffer) : View :=
  { v with s := { v.s with
    writeBuffer := wb
    log := v.s.log ++ [.send v.fd (v.s.writeBuffer.content.take n)] } }

structure Receives (v : View) (bytes : List Byte) (rb : Buffer) : Prop where
  answer : recvAnswer io v.s.readBuffer.space = some bytes
  ne : bytes ≠ []
  fills : v.s.readBuffer.Fills bytes rb

structure Sends (v : View) (n : Nat) (wb : Buffer) : Prop where
  answer : sendAnswer io v.s.writeBuffer.content = some n
  takes : v.s.writeBuffer.Takes n wb

inductive Outcome (v : View) : Nat → Bool → View → SocksState → Prop
  | recvFailed
      (hst : v.s.stm = some .helloRead ∨ v.s.stm = some .authRead ∨ v.s.stm = some .requestRead)
      (hrecv : (recvAnswer io v.s.readBuffer.space).getD [] = []) :
      Outcome v v.fd false (v.noted (.recv v.fd (recvAnswer io v.s.readBuffer.space))) .error
  | sendFailed
      (hst : v.s.stm = some .helloWrite ∨ v.s.stm = some .authWrite ∨ v.s.stm = some .requestWrite)
      (hsend : sendAnswer io v.s.writeBuffer.content = none) :
      Outcome v v.fd true (v.noted (.sendFailed v.fd)) .error
  | helloMore {bytes : List Byte} {rb rb' : Buffer} {p : HelloParser Byte} {errored : Bool}
      (hst : v.s.stm = some .helloRead) (hr : Receives io v bytes rb)
      (hc : helloConsume (Handler.onHelloMethod v.globals.isAuthOn) rb v.s.hello = (rb', p, errored))
      (hdone : helloIsDone p.state = false) :
      Outcome v v.fd false
        { v.received bytes rb' with s := { (v.received bytes rb').s with hello := p } } .helloRead
  | helloDone {bytes : List Byte} {rb rb' wb : Buffer} {p : HelloParser Byte} {errored : Bool}
      (hst : v.s.stm = some .helloRead) (hr : Receives io v bytes rb)
      (hc : helloConsume (Handler.onHelloMethod v.globals.isAuthOn) rb v.s.hello = (rb', p, errored))
      (hdone : helloIsDone p.state = true) (hwb : v.s.writeBuffer.Fills [0x05, p.data] wb) :
      Outcome v v.fd false
        { v.received bytes rb' with
          client := .watched opWrite
          s := { (v.received bytes rb').s with hello := p, writeBuffer := wb } }
        (if errored then .error else .helloWrite)
  | helloPart {n : Nat} {wb : Buffer} (hst : v.s.stm = some .helloWrite) (hs : Sends io v n wb)
      (hleft : wb.content ≠ []) : Outcome v v.fd true (v.sent n wb) .helloWrite
  | helloSent {n : Nat} {wb : Buffer} (hst : v.s.stm = some .helloWrite) (hs : Sends io v n wb)
      (hleft : wb.content = []) :
      Outcome v v.fd true { v.sent n wb with client := .watched opRead }
        (if v.globals.isAuthOn then .authRead else .requestRead)
  | authMore {bytes : List Byte} {rb rb' : Buffer} {p : AuthParser} {errored : Bool}
      (hst : v.s.stm = some .authRead) (hr : Receives io v bytes rb)
      (hc : authConsume rb v.s.auth.parser = (rb', p, errored))
      (hdone : authIsDone p.state = false) :
      Outcome v v.fd false
        { v.received bytes rb' with s := { (v.received bytes rb').s with
          auth := { v.s.auth with parser := p } } } .authRead
  | authDone {bytes : List Byte} {rb rb' wb : Buffer} {p : AuthParser} {errored : Bool}
      {status : AuthStatus} (hst : v.s.stm = some .authRead) (hr : Receives io v bytes rb)
      (hc : authConsume rb v.s.auth.parser = (rb', p, errored))
      (hdone : authIsDone p.state = true)
      (hstatus : status = if (v.globals.users.authenticate p.auth).isSome then .succeeded
        else .failure)
      (hwb : v.s.writeBuffer.Fills [0x01, status.toByte] wb) :
      Outcome v v.fd false
        { v.received bytes rb' with
          client := .watched opWrite
          s := { (v.received bytes rb').s with
            clientUname := v.globals.users.authenticate p.auth <|> v.s.clientUname
            auth := { parser := p, status }
            writeBuffer := wb
            log := (v.received bytes rb').s.log ++ [.authProcess v.globals.users p.auth status] } }
        (if errored then .error else .authWrite)
  | authPart {n : Nat} {wb : Buffer} (hst : v.s.stm = some .authWrite) (hs : Sends io v n wb)
      (hleft : wb.content ≠ []) : Outcome v v.fd true (v.sent n wb) .authWrite
  | authSent {n : Nat} {wb : Buffer} (hst : v.s.stm = some .authWrite) (hs : Sends io v n wb)
      (hleft : wb.content = []) (hstatus : v.s.auth.status = .succeeded) :
      Outcome v v.fd true { v.sent n wb with client := .watched opRead } .requestRead
  | authRejected {n : Nat} {wb : Buffer} (hst : v.s.stm = some .authWrite) (hs : Sends io v n wb)
      (hleft : wb.content = []) (hstatus : v.s.auth.status ≠ .succeeded) :
      Outcome v v.fd true { v.sent n wb with client := .watched opNoop } .error
  | requestMore {bytes : List Byte} {rb rb' : Buffer} {p : RequestParser} {errored : Bool}
      (hst : v.s.stm = some .requestRead) (hr : Receives io v bytes rb)
      (hc : requestConsume rb v.s.request.parser = (rb', p, errored))
      (hdone : errored = true ∨ requestIsDone p.state = false) :
      Outcome v v.fd false
        { v.received bytes rb' with s := { (v.received bytes rb').s with
          request := { v.s.request with parser := p } } }
        (if errored then .error else .requestRead)
  | requestDone {bytes : List Byte} {rb rb' : Buffer} {p : RequestParser} {v' : View}
      {ret : SocksState} (hst : v.s.stm = some .requestRead) (hr : Receives io v bytes rb)
      (hc : requestConsume rb v.s.request.parser = (rb', p, false))
      (hdone : requestIsDone p.state = true)
      (h : Process io c
        { v.received bytes rb' with s := { (v.received bytes rb').s with
          request := { v.s.request with parser := p }
          log := (v.received bytes rb').s.log ++ [.requestProcess p.request] } } v' ret) :
      Outcome v v.fd false v' ret
  | concluded {fd : Nat} {status : SocksStatus} {wb : Buffer}
      (hst : v.s.stm = some .requestConnecting)
      (hstatus : (io.sockError = none ∧ status = .generalSocksServerFailure) ∨
        (io.sockError = some 0 ∧ status = .succeeded) ∨
        ∃ e, io.sockError = some e ∧ e ≠ 0 ∧ status = errnoToSocks e ∧
          (v.s.request.parser.request.destAddrType = socksReqAddrtypeDomain →
            ∃ a, v.s.originResolutionCurrent = [a]))
      (hwb : v.s.writeBuffer.Fills (requestReply status) wb) :
      Outcome v fd true ((v.noted (.sockError fd io.sockError)).concluded fd status wb)
        .requestWrite
  | retried {fd e : Nat} {a₀ a : AddrInfo} {rest : List AddrInfo} {v' : View} {ret : SocksState}
      (hst : v.s.stm = some .requestConnecting) (herr : io.sockError = some e) (he : e ≠ 0)
      (htype : v.s.request.parser.request.destAddrType = socksReqAddrtypeDomain)
      (hcur : v.s.originResolutionCurrent = a₀ :: a :: rest)
      (h : Connect io (((v.noted (.sockError fd io.sockError)).aimed (a :: rest) a).dropPeer) v' ret) :
      Outcome v fd true v' .requestConnecting
  | replyPart {n : Nat} {wb : Buffer} (hst : v.s.stm = some .requestWrite) (hs : Sends io v n wb)
      (hleft : wb.content ≠ []) : Outcome v v.fd true (v.sent n wb) .requestWrite
  | replySent {n : Nat} {wb : Buffer} (hst : v.s.stm = some .requestWrite) (hs : Sends io v n wb)
      (hleft : wb.content = []) (hstatus : v.s.request.status = .succeeded) :
      Outcome v v.fd true (v.sent n wb).relaying.logged .copy
  | replyRefused {n : Nat} {wb : Buffer} (hst : v.s.stm = some .requestWrite) (hs : Sends io v n wb)
      (hleft : wb.content = []) (hstatus : v.s.request.status ≠ .succeeded) :
      Outcome v v.fd true
        { (v.sent n wb).logged with
          client := .watched opNoop
          peer := if v.s.originFd = -1 then v.peer else .watched opNoop } .error
  | copyReceived {d : Side} {bytes : List Byte} {b : Buffer} (hst : v.s.stm = some .copy)
      (hr : recvAnswer io (v.s.rb d).space = some bytes) (hne : bytes ≠ [])
      (hb : (v.s.rb d).Fills bytes b) (v₁ : View)
      (h₁ : v₁ = { v.noted (.recv (v.sideFd d) (some bytes)) with
        s := (v.noted (.recv (v.sideFd d) (some bytes))).s.setRb d b }) :
      Outcome v (v.sideFd d) false (v₁.copied d) (v₁.copyNext d)
  | copyEnded {d : Side} (hst : v.s.stm = some .copy)
      (hr : (recvAnswer io (v.s.rb d).space).getD [] = []) :
      Outcome v (v.sideFd d) false
        (((v.noted (.recv (v.sideFd d) (recvAnswer io (v.s.rb d).space))).shut d false).copied d)
        (((v.noted (.recv (v.sideFd d) (recvAnswer io (v.s.rb d).space))).shut d false).copyNext d)
  | copySent {d : Side} {n : Nat} {b : Buffer} (hst : v.s.stm = some .copy)
      (hs : sendAnswer io (v.s.wb d).content = some n) (hb : (v.s.wb d).Takes n b) (v₁ v₂ : View)
      (h₁ : v₁ = (v.noted (.send (v.sideFd d) ((v.s.wb d).content.take n))).disected (v.sideFd d)
        ((v.s.wb d).content.take n))
      (h₂ : v₂ = { v₁ with
        s := v₁.s.setRb d.other b
        globals := { v₁.globals with
          bytesTransferred := v₁.globals.bytesTransferred + n.toUInt32 } }) :
      Outcome v (v.sideFd d) true (v₂.copied d) (v₂.copyNext d)
  | copyFailed {d : Side} (hst : v.s.stm = some .copy)
      (hs : sendAnswer io (v.s.wb d).content = none) :
      Outcome v (v.sideFd d) true
        (((v.noted (.sendFailed (v.sideFd d))).shut d true).copied d)
        (((v.noted (.sendFailed (v.sideFd d))).shut d true).copyNext d)

inductive Resolved (v : View) : View → SocksState → Prop
  | unreachable {wb : Buffer} (hlist : v.s.originResolution = [])
      (hwb : v.s.writeBuffer.Fills (requestReply .hostUnreachable) wb) :
      Resolved v (v.replied .hostUnreachable wb) .requestWrite
  | connect {a : AddrInfo} {rest : List AddrInfo} {v' : View} {ret : SocksState}
      (hlist : v.s.originResolution = a :: rest)
      (h : Connect io (v.aimed (a :: rest) a) v' ret) : Resolved v v' ret

end View

end Socks5d
