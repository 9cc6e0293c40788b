import Socks5d.Framing
import Socks5d.Method
import Socks5d.Relay

/-!
# The byte streams of a connection

What the client is sent are the replies of the handshake and then the bytes of
the origin; what the origin is sent are the bytes of the client behind its
request. There are two ways to break that. A write event of the client that
REQUEST_CONNECTING handles: such an event exists because a retry that fails at
once has put a reply into the write buffer, and it tries the next address or
marshals another reply. And a length byte of 0: the parser takes one byte more
than the message has, so the next message begins one byte late.
-/

namespace Socks5d

open Lib (Machine)

def Action.entersAuth : Action → Bool
  | .enter _ .authRead => true
  | _ => false

def wentThroughAuth (log : List Action) : Bool := log.any Action.entersAuth

/-- A write event in REQUEST_CONNECTING is not the client's. -/
def ConnectsToOrigin : World.Condition := fun _ s ce =>
  match ce with
  | .ready fd true _ => s.stm = some .requestConnecting → (fd : Int) ≠ s.clientFd
  | _ => True

/-- Once a login or a request is expected, no name and no password of the client has
the length 0. -/
def LengthsGiven : World.Condition := fun _ s ce =>
  match ce with
  | .ready _ false io => s.stm = some .authRead ∨ s.stm = some .requestRead →
      hasEmpty (wentThroughAuth s.log) (receivedFrom s.clientFd s.log ++
        (View.recvAnswer io (bufferWritePtr s.readBuffer)).getD []) = false
  | _ => True

def StreamsKept : World.Condition := fun g s ce => ConnectsToOrigin g s ce ∧ LengthsGiven g s ce

-- ---------------------------------------------------------------------------
-- The two streams
-- ---------------------------------------------------------------------------

def greeting (m st : Byte) (auth : Bool) : List Byte := [0x05, m] ++ if auth then [0x01, st] else []

/-- The bytes sent to the client: the replies, and then those of the origin. -/
def SentToClient (s : Socks5) : Prop :=
  ∃ m st status, sentTo s.clientFd s.log <+:
    greeting m st (wentThroughAuth s.log) ++ requestReply status ++ receivedFrom s.originFd s.log

def Handshake (auth : Bool) (bytes : List Byte) : Prop :=
  ∃ hello login, HelloFormat hello ∧ (if auth then LoginFormat login else login = []) ∧
    bytes = hello ++ login

/-- The bytes sent to the origin: those of the client from the byte just after
its request on. -/
def SentToOrigin (s : Socks5) : Prop :=
  sentTo s.originFd s.log = [] ∨ ∃ before request rest, Handshake (wentThroughAuth s.log) before ∧
    RequestFormat request ∧ receivedFrom s.clientFd s.log = before ++ request ++ rest ∧
    sentTo s.originFd s.log <+: rest

def replies (s : Socks5) : List Byte := sentTo s.clientFd s.log ++ s.writeBuffer.content

def OnlyClient (s : Socks5) : Prop :=
  ∀ fd, fd ≠ s.clientFd → sentTo fd s.log = [] ∧ chunksFrom fd s.log = []

namespace View

def Replies (v : View) : SocksState → Prop
  | .helloRead => replies v.s = [] ∧ wentThroughAuth v.s.log = false
  | .helloWrite => (∃ m, replies v.s = [0x05, m]) ∧ wentThroughAuth v.s.log = false
  | .authRead => (∃ m, replies v.s = [0x05, m]) ∧ wentThroughAuth v.s.log = true
  | .authWrite => (∃ m st, replies v.s = [0x05, m, 0x01, st]) ∧ wentThroughAuth v.s.log = true
  | .requestRead | .requestResolv => ∃ m st, replies v.s = greeting m st (wentThroughAuth v.s.log)
  | .requestConnecting => ∃ m st, replies v.s = greeting m st (wentThroughAuth v.s.log) ∨
      (v.peer.isWatched = false ∧ ∃ status,
        replies v.s = greeting m st (wentThroughAuth v.s.log) ++ requestReply status)
  | .requestWrite => ∃ m st status,
      replies v.s = greeting m st (wentThroughAuth v.s.log) ++ requestReply status
  | .copy => ∃ m st status, replies v.s =
      greeting m st (wentThroughAuth v.s.log) ++ requestReply status ++ receivedFrom v.s.originFd v.s.log
  | .done | .error => SentToClient v.s

def Takes (s : Socks5) : Option SocksState → Prop
  | none => OnlyClient s ∧ receivedFrom s.clientFd s.log = s.readBuffer.content
  | some .helloRead => OnlyClient s ∧ helloFormat.Reading (helloParserInit ()) []
      (receivedFrom s.clientFd s.log) s.readBuffer.content s.hello.format
  | some .helloWrite => OnlyClient s ∧ ∃ hello, HelloFormat hello ∧
      receivedFrom s.clientFd s.log = hello ++ s.readBuffer.content
  | some .authRead => OnlyClient s ∧ ∃ hello, HelloFormat hello ∧
      authMachine.Reading authParserInit hello (receivedFrom s.clientFd s.log) s.readBuffer.content
        s.auth.parser
  | some .authWrite => OnlyClient s ∧ ∃ before, Handshake true before ∧
      receivedFrom s.clientFd s.log = before ++ s.readBuffer.content
  | some .requestRead => OnlyClient s ∧ ∃ before, Handshake (wentThroughAuth s.log) before ∧
      requestMachine.Reading requestParserInit before (receivedFrom s.clientFd s.log)
        s.readBuffer.content s.request.parser
  | some .copy => ∃ before request, Handshake (wentThroughAuth s.log) before ∧
      RequestFormat request ∧ receivedFrom s.clientFd s.log =
        before ++ request ++ (sentTo s.originFd s.log ++ s.readBuffer.content)
  | some .done | some .error => SentToOrigin s
  | some _ => OnlyClient s ∧ ∃ before request, Handshake (wentThroughAuth s.log) before ∧
      RequestFormat request ∧
        receivedFrom s.clientFd s.log = before ++ request ++ s.readBuffer.content

structure Streams (v : View) (st : Option SocksState) : Prop where
  apart : v.s.originFd ≠ v.s.clientFd
  replies : v.Replies (st.getD .helloRead)
  takes : Takes v.s st

end View

-- ---------------------------------------------------------------------------
-- The log
-- ---------------------------------------------------------------------------

@[simp] theorem wentThroughAuth_append (l l' : List Action) :
    wentThroughAuth (l ++ l') = (wentThroughAuth l || wentThroughAuth l') := List.any_append

theorem wentThroughAuth_logs {l l' : List Action} (h : Logs l l') :
    wentThroughAuth l' = wentThroughAuth l := by
  obtain ⟨lines, rfl, hl⟩ := h
  have hnone : wentThroughAuth lines = false := by
    refine List.any_eq_false.mpr fun a ha => ?_
    have hjump := hl a ha
    cases a <;> first | (cases hjump; done) | exact Bool.false_ne_true
  rw [wentThroughAuth_append, hnone, Bool.or_false]

def Action.On (fd : Int) : Action → Prop
  | .recv fd' _ | .send fd' _ => fd' = fd
  | _ => True

theorem Action.on_of_isQuiet {a : Action} (h : a.isQuiet = true) (fd : Int) : a.On fd := by
  cases a <;> trivial

theorem OnlyClient.adds {s s' : Socks5} (h : OnlyClient s)
    (hlog : Adds (Action.On s.clientFd) s.log s'.log) (hfd : s'.clientFd = s.clientFd) :
    OnlyClient s' := by
  obtain ⟨lines, hlog, hlines⟩ := hlog
  intro fd hne
  rw [hfd] at hne
  have hsent : sentTo fd lines = [] := by
    refine List.flatMap_eq_nil_iff.mpr fun a ha => ?_
    have hon := hlines a ha
    cases a <;> first | rfl | exact if_neg fun heq => hne (heq.symm.trans hon)
  have hchunks : chunksFrom fd lines = [] := by
    refine List.filterMap_eq_nil_iff.mpr fun a ha => ?_
    have hon := hlines a ha
    cases a with
    | recv fd' answer =>
      cases answer with
      | none => rfl
      | some bytes => exact if_neg fun heq => hne (heq.1.symm.trans hon)
    | _ => rfl
  rw [hlog, sentTo_append, chunksFrom_append, hsent, hchunks, (h fd hne).1, (h fd hne).2]
  exact ⟨rfl, rfl⟩

theorem OnlyClient.received {s : Socks5} (h : OnlyClient s) {fd : Int} (hne : fd ≠ s.clientFd) :
    receivedFrom fd s.log = [] := by
  rw [receivedFrom_eq, (h fd hne).2]
  rfl

theorem OnlyClient.sentToOrigin {s : Socks5} (h : OnlyClient s) (hne : s.originFd ≠ s.clientFd) :
    SentToOrigin s := .inl (h _ hne).1

theorem HelloFormat.emptyLogin {hello : List Byte} (h : HelloFormat hello) {rest : List Byte}
    (hgiven : hasEmpty true (hello ++ rest) = false) : Socks5d.emptyLogin rest = false := by
  rw [hasEmpty, skipCounted_hello h] at hgiven
  exact (Bool.or_eq_false_iff.mp hgiven).1

theorem Handshake.emptyName {auth : Bool} {before : List Byte} (h : Handshake auth before)
    {rest : List Byte} (hgiven : hasEmpty auth (before ++ rest) = false) :
    Socks5d.emptyName rest = false := by
  obtain ⟨hello, login, hhello, hlogin, rfl⟩ := h
  rw [hasEmpty, List.append_assoc, skipCounted_hello hhello] at hgiven
  cases auth with
  | false =>
    rw [if_neg Bool.false_ne_true] at hlogin
    subst hlogin
    exact hgiven
  | true =>
    rw [if_pos rfl] at hlogin
    have hname := (Bool.or_eq_false_iff.mp hgiven).2
    rwa [skipCounted_login hlogin] at hname

theorem LengthsGiven.received {v : View} {io : Io} {fd : Nat} {write : Bool} {bytes : List Byte}
    {rb : Buffer} (h : LengthsGiven v.globals v.s (.ready fd write io)) (hwrite : write = false)
    (hr : View.Receives io v bytes rb)
    (hst : v.s.stm = some .authRead ∨ v.s.stm = some .requestRead) :
    hasEmpty (wentThroughAuth v.s.log) (receivedFrom v.s.clientFd v.s.log ++ bytes) = false := by
  subst hwrite
  have hgiven := h hst
  have hanswer : View.recvAnswer io (bufferWritePtr v.s.readBuffer) = some bytes := hr.answer
  rwa [hanswer] at hgiven

-- ---------------------------------------------------------------------------
-- The replies
-- ---------------------------------------------------------------------------

def Owes (s : Socks5) : Prop :=
  ∃ m st status, replies s <+: greeting m st (wentThroughAuth s.log) ++ requestReply status

theorem Owes.sentToClient {s : Socks5} (h : Owes s) : SentToClient s := by
  obtain ⟨m, st, status, hp⟩ := h
  exact ⟨m, st, status, ((List.prefix_append ..).trans hp).trans (List.prefix_append ..)⟩

theorem greeting_begins (m st : Byte) (auth : Bool) : [0x05, m] <+: greeting m st auth :=
  List.prefix_append ..

namespace View

variable {v v' : View} {io : Io} {c : ConnId}

theorem Replies.owes {st : SocksState} (h : v.Replies st)
    (hst : st ≠ .copy ∧ st ≠ .done ∧ st ≠ .error) : Owes v.s := by
  have hfirst (m st : Byte) {x : List Byte} (hx : x <+: greeting m st (wentThroughAuth v.s.log))
      (heq : replies v.s = x) : Owes v.s :=
    ⟨m, st, .succeeded, heq ▸ hx.trans (List.prefix_append ..)⟩
  cases st with
  | helloRead => exact hfirst 0 0 List.nil_prefix h.1
  | helloWrite | authRead =>
    obtain ⟨⟨m, hm⟩, -⟩ := h
    exact hfirst m 0 (greeting_begins m 0 _) hm
  | authWrite =>
    obtain ⟨⟨m, st, hm⟩, hauth⟩ := h
    refine hfirst m st ?_ hm
    rw [hauth]
    exact List.prefix_rfl
  | requestRead | requestResolv =>
    obtain ⟨m, st, hm⟩ := h
    exact hfirst m st List.prefix_rfl hm
  | requestConnecting =>
    obtain ⟨m, st, hm | ⟨-, status, hm⟩⟩ := h
    · exact hfirst m st List.prefix_rfl hm
    · exact ⟨m, st, status, hm ▸ List.prefix_rfl⟩
  | requestWrite =>
    obtain ⟨m, st, status, hm⟩ := h
    exact ⟨m, st, status, hm ▸ List.prefix_rfl⟩
  | copy => exact absurd rfl hst.1
  | done => exact absurd rfl hst.2.1
  | error => exact absurd rfl hst.2.2

theorem replies_fills {s s' : Socks5} {x bytes : List Byte} (h : replies s = x)
    (hsent : sentTo s'.clientFd s'.log = sentTo s.clientFd s.log)
    (hwb : s.writeBuffer.Fills bytes s'.writeBuffer) : replies s' = x ++ bytes := by
  rw [← h, replies, replies, hsent, hwb.content, List.append_assoc]

theorem replies_same {s s' : Socks5} {x : List Byte} (h : replies s = x)
    (hsent : sentTo s'.clientFd s'.log = sentTo s.clientFd s.log)
    (hwb : s'.writeBuffer = s.writeBuffer) : replies s' = x := by
  rw [← h, replies, replies, hsent, hwb]

theorem replies_sent (hb : v.Body) {n : Nat} {wb : Buffer} (hs : Sends io v n wb) :
    replies (v.sent n wb).s = replies v.s := helloReply_sent hb hs

theorem replies_advance (v : View) (next : SocksState) : replies (v.advance next).s = replies v.s := by
  obtain ⟨hbytes, hfd, -, -, hwb⟩ := advance_same v next
  exact replies_same rfl (by rw [hfd, hbytes.sent]) hwb

theorem wentThroughAuth_advance {next : SocksState} (h : next ≠ .authRead) :
    wentThroughAuth (v.advance next).s.log = wentThroughAuth v.s.log := by
  rw [advance_log]
  split
  · rfl
  · have hnone : wentThroughAuth [.enter v.s.stm next] = false := by
      cases next <;> first | rfl | exact absurd rfl h
    have hhook : wentThroughAuth (if next = .helloRead then
        [.helloInit v.globals.users.registered] else []) = false := by
      split <;> rfl
    rw [wentThroughAuth_append, wentThroughAuth_append, hnone, hhook, Bool.or_false, Bool.or_false]

theorem sentToClient_advance {next : SocksState} (hne : next ≠ .authRead) (h : SentToClient v.s) :
    SentToClient (v.advance next).s := by
  obtain ⟨hbytes, hfd, horigin, -⟩ := advance_same v next
  unfold SentToClient
  rw [wentThroughAuth_advance hne, hfd, horigin, hbytes.sent, hbytes.received]
  exact h

theorem Replies.advance {next : SocksState} (h : v.Replies next) (hne : next ≠ .authRead) :
    (v.advance next).Replies next := by
  have hreplies := replies_advance v next
  have hauth := wentThroughAuth_advance (v := v) hne
  obtain ⟨hbytes, -, horigin, -⟩ := advance_same v next
  have hpeer : (v.advance next).peer = v.peer := by
    unfold View.advance
    split
    · rfl
    · cases next <;> rfl
  cases next with
  | authRead => exact absurd rfl hne
  | done | error => exact sentToClient_advance hne h
  | _ =>
    simp only [Replies, hreplies, hauth, hpeer, horigin, hbytes.received]
    exact h

theorem replies_enter {m : Byte} (hst : v.s.stm ≠ some .authRead) (h : replies v.s = [0x05, m]) :
    (v.advance .authRead).Replies .authRead := by
  refine ⟨⟨m, (replies_advance ..).trans h⟩, ?_⟩
  rw [advance_log, if_neg hst]
  simp [wentThroughAuth, Action.entersAuth]

theorem replies_authRead {m : Byte} (hst : v.s.stm = some .authRead) (h : replies v.s = [0x05, m])
    (hauth : wentThroughAuth v.s.log = true) : (v.advance .authRead).Replies .authRead := by
  rw [show v.advance .authRead = v from if_pos hst]
  exact ⟨⟨m, h⟩, hauth⟩

/-- What an attempt to connect leaves: no reply, or one and no socket. -/
structure Attempted (v v' : View) (ret : SocksState) : Prop where
  readBuffer : v'.s.readBuffer = v.s.readBuffer
  originFd : v'.s.originFd ≠ v.fd
  reply : (ret = .requestConnecting ∧ v'.s.writeBuffer = v.s.writeBuffer) ∨
    (ret = .requestWrite ∧ v'.peer.isWatched = false ∧
      ∃ status, v.s.writeBuffer.Fills (requestReply status) v'.s.writeBuffer)

theorem Connect.attempted {ret : SocksState} (h : Connect io v v' ret) (hpeer : v.peer = .closed) :
    Attempted v v' ret := by
  have hnone : (-1 : Int) ≠ v.fd := by omega
  cases h with
  | noSocket hio hwb =>
    refine ⟨rfl, hnone, .inr ⟨rfl, ?_, _, hwb⟩⟩
    show v.peer.isWatched = false
    rw [hpeer]
    rfl
  | noNio hio hn => exact ⟨rfl, fun h => hn (Int.ofNat.inj h), .inl ⟨rfl, rfl⟩⟩
  | failed hio hn hnio hconnect hzero herrno hwb => exact ⟨rfl, hnone, .inr ⟨rfl, rfl, _, hwb⟩⟩
  | unregistered hio hn hnio hconnect hlarge hwb => exact ⟨rfl, hnone, .inr ⟨rfl, rfl, _, hwb⟩⟩
  | pending hio hn => exact ⟨rfl, fun h => hn (Int.ofNat.inj h), .inl ⟨rfl, rfl⟩⟩

theorem Connect.replies_kept {ret : SocksState} (h : Connect io v v' ret) (hpeer : v.peer = .closed)
    (hauth : wentThroughAuth v'.s.log = wentThroughAuth v.s.log)
    (hv : ∃ m st, replies v.s = greeting m st (wentThroughAuth v.s.log)) :
    v'.Replies ret ∧ v'.Replies .requestConnecting := by
  obtain ⟨m, st, hv⟩ := hv
  have hbytes := sameBytes_of_quiet (h.lines.mono fun _ ha => ha.2)
  have hsent : sentTo v'.s.clientFd v'.s.log = sentTo v.s.clientFd v.s.log := by
    rw [h.clientFd, hbytes.sent]
  rcases (h.attempted hpeer).reply with ⟨rfl, hwb⟩ | ⟨rfl, hwatch, status, hwb⟩
  · have hsame : v'.Replies .requestConnecting := by
      refine ⟨m, st, .inl ?_⟩
      rw [hauth]
      exact replies_same hv hsent hwb
    exact ⟨hsame, hsame⟩
  · have hreply : replies v'.s =
        greeting m st (wentThroughAuth v'.s.log) ++ requestReply status := by
      rw [hauth]
      exact replies_fills hv hsent hwb
    exact ⟨⟨m, st, status, hreply⟩, m, st, .inr ⟨hwatch, status, hreply⟩⟩

theorem Process.replies_kept {ret : SocksState} (h : Process io c v v' ret) (hpeer : v.peer = .closed)
    (hv : ∃ m st, replies v.s = greeting m st (wentThroughAuth v.s.log)) : v'.Replies ret := by
  have hauth := wentThroughAuth_logs (h.lines.mono fun _ ha => ha.1.1)
  cases h with
  | @refused status wb hstatus hwb =>
    obtain ⟨m, st, hv⟩ := hv
    refine ⟨m, st, status, ?_⟩
    rw [hauth]
    refine replies_fills hv ?_ hwb
    show sentTo v.s.clientFd (v.s.log ++ [.marshall _]) = _
    rw [sentTo_append]
    exact List.append_nil _
  | resolve htype => exact hv
  | connect htype hconnect => exact (hconnect.replies_kept hpeer hauth hv).1

theorem Copies.replies_kept {d : Side} {write : Bool} {ret : SocksState} {lines : List Action}
    {closed : Option Side} (h : Copies io v d write v' ret lines closed)
    (hauth : wentThroughAuth v'.s.log = wentThroughAuth v.s.log) (hv : v.Replies .copy) :
    v'.Replies .copy := by
  obtain ⟨m, st, status, hreplies⟩ := hv
  refine ⟨m, st, status, ?_⟩
  have hflow : v.s.writeBuffer.content ++ receivedFrom v.s.originFd lines =
      sentTo v.s.clientFd lines ++ v'.s.writeBuffer.content := h.flow .origin
  have hclient : v'.s.clientFd = v.s.clientFd := h.fd .client
  have horigin : v'.s.originFd = v.s.originFd := h.fd .origin
  rw [replies] at hreplies
  rw [replies, hclient, horigin, hauth, h.log, sentTo_append, List.append_assoc, ← hflow,
    ← List.append_assoc, hreplies, receivedFrom_append]
  simp only [List.append_assoc]

theorem Replies.sentToClient (h : v.Replies .copy) : SentToClient v.s := by
  obtain ⟨m, st, status, hreplies⟩ := h
  refine ⟨m, st, status, ?_⟩
  rw [← hreplies]
  exact List.prefix_append ..

theorem sentTo_message (v : View) (a : Action) (bytes : List Byte) (ha : sentTo v.s.clientFd [a] = []) :
    sentTo v.s.clientFd (v.s.log ++ [.recv v.fd (some bytes)] ++ [a]) = sentTo v.s.clientFd v.s.log := by
  rw [sentTo_append, sentTo_recv, ha, List.append_nil]

theorem concluded_lines (v : View) (fd : Nat) (answer : Option Nat) (status : SocksStatus) (wb : Buffer) :
    Adds (fun a => a.isQuiet = true) v.s.log
      ((v.noted (.sockError fd answer)).concluded fd status wb).s.log := by
  have hstart := Adds.refl (fun a : Action => a.isQuiet = true) v.s.log
  refine Adds.concat (Adds.append (hstart.concat (a := .sockError fd answer) rfl) fun a ha => ?_) rfl
  split at ha
  · rw [List.mem_singleton.mp ha]
    rfl
  · cases ha

theorem logged_lines (v : View) : SameBytes v.s.log v.logged.s.log :=
  sameBytes_of_quiet ((Adds.refl _ _).concat rfl)

theorem receivedFrom_sent (fd : Int) (v : View) (n : Nat) (wb : Buffer) :
    receivedFrom fd (v.sent n wb).s.log = receivedFrom fd v.s.log := by
  show receivedFrom fd (v.s.log ++ [.send _ _]) = _
  rw [receivedFrom_append]
  exact List.append_nil _

theorem Replies.ends {st : SocksState} (h : v.Replies st)
    (hst : st ≠ .copy ∧ st ≠ .done ∧ st ≠ .error) (hsame : replies v'.s = replies v.s)
    (hauth : wentThroughAuth v'.s.log = wentThroughAuth v.s.log) :
    (v'.advance .error).Replies .error := by
  refine sentToClient_advance (by simp) (Owes.sentToClient ?_)
  unfold Owes
  rw [hsame, hauth]
  exact h.owes hst

theorem replies_recvFailed (v : View) (answer : Option (List Byte)) :
    replies (v.noted (.recv v.fd answer)).s = replies v.s :=
  replies_same rfl (sentTo_recv ..) rfl

theorem replies_sendFailed (v : View) : replies (v.noted (.sendFailed v.fd)).s = replies v.s := by
  refine replies_same rfl ?_ rfl
  show sentTo v.s.clientFd (v.s.log ++ [.sendFailed _]) = _
  rw [sentTo_append]
  exact List.append_nil _

theorem Outcome.replies_helloRead {fd : Nat} {write : Bool} {ret : SocksState}
    (h : Outcome io c v fd write v' ret) (hst : v.s.stm = some .helloRead)
    (hv : v.Replies .helloRead) : (v'.advance ret).Replies ret := by
  have hauth := wentThroughAuth_logs h.logs
  cases h with
  | recvFailed => exact hv.ends (by simp) (replies_recvFailed ..) hauth
  | helloMore => exact Replies.advance ⟨replies_same hv.1 (sentTo_recv ..) rfl, hauth.trans hv.2⟩ (by simp)
  | @helloDone bytes rb rb' wb p errored _ hr hc hdone hwb =>
    have hwrite {u : View} (hsent : sentTo u.s.clientFd u.s.log = sentTo v.s.clientFd v.s.log)
        (hbuf : u.s.writeBuffer = wb) (ha : wentThroughAuth u.s.log = wentThroughAuth v.s.log) :
        u.Replies .helloWrite :=
      ⟨⟨p.data, replies_fills hv.1 hsent (hbuf ▸ hwb)⟩, ha.trans hv.2⟩
    cases errored with
    | false => exact (hwrite (sentTo_recv ..) rfl hauth).advance (by simp)
    | true => exact (hwrite (sentTo_recv ..) rfl hauth).ends (by simp) rfl rfl
  | _ => simp_all

theorem Outcome.replies_helloWrite {fd : Nat} {write : Bool} {ret : SocksState}
    (h : Outcome io c v fd write v' ret) (hb : v.Body) (hst : v.s.stm = some .helloWrite)
    (hv : v.Replies .helloWrite) : (v'.advance ret).Replies ret := by
  have hauth := wentThroughAuth_logs h.logs
  obtain ⟨⟨m, hm⟩, ha⟩ := id hv
  cases h with
  | sendFailed => exact hv.ends (by simp) (replies_sendFailed v) hauth
  | helloPart _ hsends =>
    exact Replies.advance ⟨⟨m, (replies_sent hb hsends).trans hm⟩, hauth.trans ha⟩ (by simp)
  | helloSent _ hsends hleft =>
    have hsent := (replies_sent hb hsends).trans hm
    split
    · exact replies_enter (by simp [View.sent, hst]) hsent
    · refine Replies.advance ⟨m, 0, ?_⟩ (by simp)
      rw [hauth, ha]
      exact hsent
  | _ => simp_all

theorem Outcome.replies_authRead {fd : Nat} {write : Bool} {ret : SocksState}
    (h : Outcome io c v fd write v' ret) (hst : v.s.stm = some .authRead)
    (hv : v.Replies .authRead) : (v'.advance ret).Replies ret := by
  have hauth := wentThroughAuth_logs h.logs
  obtain ⟨⟨m, hm⟩, ha⟩ := id hv
  cases h with
  | recvFailed => exact hv.ends (by simp) (replies_recvFailed ..) hauth
  | authMore =>
    refine View.replies_authRead ?_ (replies_same hm (sentTo_recv ..) rfl) (hauth.trans ha)
    exact hst
  | @authDone bytes rb rb' wb p errored status _ hr hc hdone hstatus hwb =>
    have hwrite {u : View} (hsent : sentTo u.s.clientFd u.s.log = sentTo v.s.clientFd v.s.log)
        (hbuf : u.s.writeBuffer = wb) (ha' : wentThroughAuth u.s.log = wentThroughAuth v.s.log) :
        u.Replies .authWrite :=
      ⟨⟨m, status.toByte, replies_fills hm hsent (hbuf ▸ hwb)⟩, ha'.trans ha⟩
    have hsent := sentTo_message v (.authProcess v.globals.users p.auth status) bytes rfl
    cases errored with
    | false => exact (hwrite hsent rfl hauth).advance (by simp)
    | true => exact (hwrite hsent rfl hauth).ends (by simp) rfl rfl
  | _ => simp_all

theorem Outcome.replies_authWrite {fd : Nat} {write : Bool} {ret : SocksState}
    (h : Outcome io c v fd write v' ret) (hb : v.Body) (hst : v.s.stm = some .authWrite)
    (hv : v.Replies .authWrite) : (v'.advance ret).Replies ret := by
  have hauth := wentThroughAuth_logs h.logs
  obtain ⟨⟨m, st, hm⟩, ha⟩ := id hv
  cases h with
  | sendFailed => exact hv.ends (by simp) (replies_sendFailed v) hauth
  | authPart _ hsends =>
    exact Replies.advance ⟨⟨m, st, (replies_sent hb hsends).trans hm⟩, hauth.trans ha⟩ (by simp)
  | authSent _ hsends hleft hstatus =>
    refine Replies.advance ⟨m, st, ?_⟩ (by simp)
    rw [hauth, ha]
    exact (replies_sent hb hsends).trans hm
  | authRejected _ hsends => exact hv.ends (by simp) (replies_sent hb hsends) hauth
  | _ => simp_all

theorem Outcome.replies_requestRead {fd : Nat} {write : Bool} {ret : SocksState}
    (h : Outcome io c v fd write v' ret) (hpeer : v.peer = .closed)
    (hst : v.s.stm = some .requestRead) (hv : v.Replies .requestRead) :
    (v'.advance ret).Replies ret := by
  have hauth := wentThroughAuth_logs h.logs
  obtain ⟨m, st, hm⟩ := id hv
  cases h with
  | recvFailed => exact hv.ends (by simp) (replies_recvFailed ..) hauth
  | requestMore =>
    split
    · exact hv.ends (by simp) (replies_same rfl (sentTo_recv ..) rfl) hauth
    · refine Replies.advance ⟨m, st, ?_⟩ (by simp)
      rw [hauth]
      exact replies_same hm (sentTo_recv ..) rfl
  | @requestDone bytes rb rb' p v' ret _ hr hc hdone hprocess =>
    have ha := wentThroughAuth_logs (((Logs.refl v.s.log).concat (a := .recv v.fd (some bytes)) rfl).concat
      (a := .requestProcess p.request) rfl)
    refine (hprocess.replies_kept hpeer ⟨m, st, ?_⟩).advance hprocess.past.2.2.1
    rw [← ha] at hm
    exact replies_same hm (sentTo_message v (.requestProcess p.request) _ rfl) rfl
  | _ => simp_all

theorem replies_pending {fd : Nat} (hne : (fd : Int) ≠ v.s.clientFd) (hfd : v.s.clientFd = v.fd)
    (hen : v.Enabled fd true) (hv : v.Replies .requestConnecting) :
    ∃ m st, replies v.s = greeting m st (wentThroughAuth v.s.log) := by
  obtain ⟨m, st, hm | ⟨hwatch, -⟩⟩ := hv
  · exact ⟨m, st, hm⟩
  · rcases hen.cases with ⟨rfl, -⟩ | ⟨-, -, hwants⟩
    · exact absurd hfd.symm hne
    · cases hpeer : v.peer <;> simp_all [Link.isWatched, Link.wants]

theorem Outcome.replies_connecting {fd : Nat} {write : Bool} {ret : SocksState}
    (h : Outcome io c v fd write v' ret) (hb : v.Body) (hen : v.Enabled fd write)
    (hst : v.s.stm = some .requestConnecting) (hne : write = true → (fd : Int) ≠ v.s.clientFd)
    (hv : v.Replies .requestConnecting) : (v'.advance ret).Replies ret := by
  have hauth := wentThroughAuth_logs h.logs
  cases h with
  | @concluded fd status wb _ hstatus hwb =>
    obtain ⟨m, st, hm⟩ := replies_pending (hne rfl) hb.clientFd hen hv
    refine Replies.advance ⟨m, st, status, ?_⟩ (by simp)
    rw [hauth]
    refine replies_fills hm ?_ hwb
    exact (sameBytes_of_quiet (concluded_lines v fd io.sockError status wb)).sent _
  | @retried fd e a₀ a rest v' ret _ herr he htype hcur hconnect =>
    obtain ⟨m, st, hm⟩ := replies_pending (hne rfl) hb.clientFd hen hv
    have ha := wentThroughAuth_logs ((Logs.refl v.s.log).concat (a := .sockError fd io.sockError) rfl)
    refine (hconnect.replies_kept rfl (hauth.trans ha.symm) ⟨m, st, ?_⟩).2.advance (by simp)
    rw [← ha] at hm
    refine replies_same hm ?_ rfl
    show sentTo v.s.clientFd (v.s.log ++ [.sockError _ _]) = _
    rw [sentTo_append]
    exact List.append_nil _
  | _ => simp_all

theorem Outcome.replies_requestWrite {fd : Nat} {write : Bool} {ret : SocksState}
    (h : Outcome io c v fd write v' ret) (hb : v.Body) (hst : v.s.stm = some .requestWrite)
    (hquiet : receivedFrom v.s.originFd v.s.log = []) (hv : v.Replies .requestWrite) :
    (v'.advance ret).Replies ret := by
  have hauth := wentThroughAuth_logs h.logs
  obtain ⟨m, st, status, hm⟩ := id hv
  cases h with
  | sendFailed => exact hv.ends (by simp) (replies_sendFailed v) hauth
  | replyPart _ hsends =>
    refine Replies.advance ⟨m, st, status, ?_⟩ (by simp)
    rw [hauth]
    exact (replies_sent hb hsends).trans hm
  | @replySent n wb _ hsends hleft hstatus =>
    have hlogged := logged_lines (v.sent n wb).relaying
    refine Replies.advance ⟨m, st, status, ?_⟩ (by simp)
    have hnone : receivedFrom v.s.originFd (v.sent n wb).relaying.logged.s.log = [] :=
      (hlogged.received _).trans ((receivedFrom_sent _ v n wb).trans hquiet)
    rw [hauth]
    refine Eq.trans ?_ (congrArg _ hnone.symm)
    rw [List.append_nil]
    exact replies_same ((replies_sent hb hsends).trans hm) (hlogged.sent _) rfl
  | @replyRefused n wb _ hsends hleft hstatus =>
    refine hv.ends (by simp) ?_ hauth
    exact replies_same (replies_sent hb hsends) ((logged_lines (v.sent n wb)).sent _) rfl
  | _ => simp_all

theorem Outcome.replies_copy {fd : Nat} {write : Bool} {ret : SocksState}
    (h : Outcome io c v fd write v' ret) (hs : v.Shape c) (hst : v.s.stm = some .copy)
    (hv : v.Replies .copy) : (v'.advance ret).Replies ret := by
  obtain ⟨d, lines, closed, -, hcopies⟩ := h.copies hs hst
  have hkept := hcopies.replies_kept (wentThroughAuth_logs h.logs) hv
  rcases hcopies.ret_cases with rfl | rfl
  · exact sentToClient_advance (by simp) hkept.sentToClient
  · exact hkept.advance (by simp)

theorem Outcome.replies_kept {fd : Nat} {write : Bool} {ret : SocksState}
    (h : Outcome io c v fd write v' ret) (hs : v.Shape c) (hen : v.Enabled fd write)
    (hcond : v.s.stm = some .helloRead ∨ ConnectsToOrigin v.globals v.s (.ready fd write io))
    (hquiet : v.s.stm = some .requestWrite → receivedFrom v.s.originFd v.s.log = [])
    (hv : v.Replies (v.s.stm.getD .helloRead)) : (v'.advance ret).Replies ret := by
  obtain ⟨st, hst⟩ := h.some_stm
  rw [hst] at hv
  cases st with
  | helloRead => exact h.replies_helloRead hst hv
  | helloWrite => exact h.replies_helloWrite hs.body hst hv
  | authRead => exact h.replies_authRead hst hv
  | authWrite => exact h.replies_authWrite hs.body hst hv
  | requestRead => exact h.replies_requestRead (hs.phase_of hst).2.1.1 hst hv
  | requestResolv => cases h <;> simp_all
  | requestConnecting =>
    refine h.replies_connecting hs.body hen hst (fun hwrite => ?_) hv
    subst hwrite
    exact hcond.resolve_left (by simp [hst]) hst
  | requestWrite => exact h.replies_requestWrite hs.body hst (hquiet hst) hv
  | copy => exact h.replies_copy hs hst hv
  | done => exact absurd hst hs.stays.1
  | error => exact absurd hst hs.stays.2

theorem Resolved.replies_kept {answer : Option (List AddrInfo)} {ret : SocksState}
    (h : Resolved io (v.answered answer) v' ret) (hpeer : v.peer = .closed)
    (hv : v.Replies .requestResolv) : (v'.advance ret).Replies ret := by
  have hauth := wentThroughAuth_logs h.logs
  have ha := wentThroughAuth_logs ((Logs.refl v.s.log).concat (a := .resolved (answer.getD [])) rfl)
  have hsent : sentTo v.s.clientFd (v.s.log ++ [.resolved (answer.getD [])]) =
      sentTo v.s.clientFd v.s.log := by
    rw [sentTo_append]
    exact List.append_nil _
  obtain ⟨m, st, hm⟩ := hv
  cases h with
  | @unreachable wb hlist hwb =>
    refine Replies.advance ⟨m, st, .hostUnreachable, ?_⟩ (by simp)
    rw [hauth]
    refine replies_fills hm ?_ hwb
    show sentTo v.s.clientFd (v.s.log ++ [.resolved _] ++ [.marshall _]) = _
    rw [sentTo_append, hsent]
    exact List.append_nil _
  | connect hlist hconnect =>
    have hret : ret ≠ .authRead := by cases hconnect <;> simp
    refine (hconnect.replies_kept hpeer (hauth.trans ha.symm) ⟨m, st, ?_⟩).1.advance hret
    rw [← ha] at hm
    exact replies_same hm hsent rfl

-- ---------------------------------------------------------------------------
-- The bytes of the client
-- ---------------------------------------------------------------------------

theorem receivedFrom_received (hb : v.Body) (bytes : List Byte) :
    receivedFrom v.s.clientFd (v.s.log ++ [.recv v.fd (some bytes)]) =
      receivedFrom v.s.clientFd v.s.log ++ bytes := by
  rw [receivedFrom_append, hb.clientFd]
  simp [receivedFrom]

theorem receivedFrom_message (hb : v.Body) {bytes : List Byte} {a : Action}
    (ha : receivedFrom v.s.clientFd [a] = []) :
    receivedFrom v.s.clientFd (v.s.log ++ [.recv v.fd (some bytes)] ++ [a]) =
      receivedFrom v.s.clientFd v.s.log ++ bytes := by
  rw [receivedFrom_append, receivedFrom_received hb, ha, List.append_nil]

theorem onlyClient_advance {next : SocksState} (h : OnlyClient v.s) :
    OnlyClient (v.advance next).s := by
  refine h.adds ((advance_lines v next).mono fun a ha => ?_) (advance_same v next).2.1
  cases a <;> trivial

theorem takes_advance {next : SocksState} (h : Takes v.s (some next))
    (hst : v.s.stm = some next ∨ (next ≠ .helloRead ∧ next ≠ .authRead ∧ next ≠ .requestRead)) :
    Takes (v.advance next).s (some next) := by
  by_cases hsame : v.s.stm = some next
  · rwa [show v.advance next = v from if_pos hsame]
  · obtain ⟨hhello, hauth, hrequest⟩ := hst.resolve_left hsame
    obtain ⟨hbytes, hfd, horigin, hrb, -⟩ := advance_same v next
    have hwent := wentThroughAuth_advance (v := v) hauth
    have honly : OnlyClient (v.advance next).s ↔ OnlyClient v.s := by
      unfold OnlyClient
      simp only [hbytes.sent, hbytes.chunks, hfd]
    cases next with
    | helloRead => exact absurd rfl hhello
    | authRead => exact absurd rfl hauth
    | requestRead => exact absurd rfl hrequest
    | _ =>
      simp only [Takes, SentToOrigin, hfd, horigin, hrb, hwent, hbytes.received, hbytes.sent, honly]
      exact h

theorem Outcome.on {fd : Nat} {write : Bool} {ret : SocksState} (h : Outcome io c v fd write v' ret)
    (hb : v.Body) (hst : v.s.stm ≠ some .copy) : Adds (Action.On v.s.clientFd) v.s.log v'.s.log := by
  have hstart := Adds.refl (Action.On v.s.clientFd) v.s.log
  have hrecv (answer : Option (List Byte)) :
      Adds (Action.On v.s.clientFd) v.s.log (v.s.log ++ [.recv v.fd answer]) :=
    hstart.concat hb.clientFd.symm
  have hsend (bytes : List Byte) :
      Adds (Action.On v.s.clientFd) v.s.log (v.s.log ++ [.send v.fd bytes]) :=
    hstart.concat hb.clientFd.symm
  have hquiet {l l' : List Action} (h : Adds (fun a => a.Plain ∧ a.isQuiet = true) l l') :
      Adds (Action.On v.s.clientFd) l l' := h.mono fun _ ha => Action.on_of_isQuiet ha.2 _
  cases h with
  | recvFailed | helloMore | helloDone | authMore | requestMore => exact hrecv _
  | helloPart | helloSent | authPart | authSent | authRejected | replyPart => exact hsend _
  | @authDone bytes => exact (hrecv (some bytes)).concat trivial
  | @requestDone bytes _ _ p _ _ _ _ _ _ hprocess =>
    exact ((hrecv (some bytes)).concat (a := .requestProcess p.request) trivial).trans
      (hquiet hprocess.lines)
  | @concluded fd status wb =>
    exact (concluded_lines v fd io.sockError status wb).mono fun _ ha => Action.on_of_isQuiet ha _
  | retried _ _ _ _ _ hconnect =>
    exact (hstart.concat (a := .sockError fd io.sockError) trivial).trans (hquiet hconnect.lines)
  | @replySent n | @replyRefused n => exact (hsend (v.s.writeBuffer.content.take n)).concat trivial
  | copyReceived hst' | copyEnded hst' | copySent hst' | copyFailed hst' => exact absurd hst' hst
  | sendFailed => exact hstart.concat (a := .sendFailed v.fd) trivial

theorem takes_error (h : OnlyClient v.s) (hapart : v.s.originFd ≠ v.s.clientFd) :
    Takes (v.advance .error).s (some .error) :=
  takes_advance (h.sentToOrigin hapart) (.inr (by simp))

theorem takes_past {s s' : Socks5} {before request : List Byte} {ret : SocksState}
    (hret : ret = .requestResolv ∨ ret = .requestConnecting ∨ ret = .requestWrite)
    (honly : OnlyClient s') (hbefore : Handshake (wentThroughAuth s'.log) before)
    (hrequest : RequestFormat request)
    (hgot : receivedFrom s.clientFd s.log = before ++ request ++ s.readBuffer.content)
    (hsame : receivedFrom s'.clientFd s'.log = receivedFrom s.clientFd s.log)
    (hbuf : s'.readBuffer = s.readBuffer) : Takes s' (some ret) := by
  rw [← hsame, ← hbuf] at hgot
  rcases hret with rfl | rfl | rfl <;> exact ⟨honly, before, request, hbefore, hrequest, hgot⟩

theorem takes_authRead (hst : v.s.stm ≠ some .authRead) (h : Takes v.s (some .helloWrite)) :
    Takes (v.advance .authRead).s (some .authRead) := by
  obtain ⟨honly, hello, hhello, hgot⟩ := h
  obtain ⟨hbytes, hfd, -, hrb, -⟩ := advance_same v .authRead
  refine ⟨onlyClient_advance honly, hello, hhello, ?_⟩
  have hparser : (v.advance .authRead).s.auth.parser = authParserInit := by
    unfold View.advance
    rw [if_neg hst]
    rfl
  rw [hfd, hbytes.received, hrb, hparser]
  exact .start rfl hgot

theorem takes_requestRead {before : List Byte} (hst : v.s.stm ≠ some .requestRead)
    (honly : OnlyClient v.s) (hbefore : Handshake (wentThroughAuth v.s.log) before)
    (hgot : receivedFrom v.s.clientFd v.s.log = before ++ v.s.readBuffer.content) :
    Takes (v.advance .requestRead).s (some .requestRead) := by
  obtain ⟨hbytes, hfd, -, hrb, -⟩ := advance_same v .requestRead
  refine ⟨onlyClient_advance honly, before, ?_, ?_⟩
  · rwa [wentThroughAuth_advance (by simp)]
  · have hparser : (v.advance .requestRead).s.request.parser = requestParserInit := by
      unfold View.advance
      rw [if_neg hst]
      rfl
    rw [hfd, hbytes.received, hrb, hparser]
    exact .start rfl hgot

theorem Copies.takes_kept {d : Side} {write : Bool} {ret : SocksState} {lines : List Action}
    {closed : Option Side} (h : Copies io v d write v' ret lines closed)
    (hauth : wentThroughAuth v'.s.log = wentThroughAuth v.s.log) (hv : Takes v.s (some .copy)) :
    Takes v'.s (some .copy) := by
  obtain ⟨before, request, hbefore, hrequest, hgot⟩ := hv
  refine ⟨before, request, hauth ▸ hbefore, hrequest, ?_⟩
  have hflow : v.s.readBuffer.content ++ receivedFrom v.s.clientFd lines =
      sentTo v.s.originFd lines ++ v'.s.readBuffer.content := h.flow .client
  have hclient : v'.s.clientFd = v.s.clientFd := h.fd .client
  have horigin : v'.s.originFd = v.s.originFd := h.fd .origin
  rw [hclient, horigin, h.log, receivedFrom_append, sentTo_append, hgot]
  simp only [List.append_assoc, hflow]

theorem takes_copy_sent {s : Socks5} (h : Takes s (some .copy)) : SentToOrigin s := by
  obtain ⟨before, request, hbefore, hrequest, hgot⟩ := h
  exact .inr ⟨before, request, _, hbefore, hrequest, hgot, List.prefix_append ..⟩

theorem Process.ret_cases {ret : SocksState} (h : Process io c v v' ret) :
    ret = .requestResolv ∨ ret = .requestConnecting ∨ ret = .requestWrite := by
  cases h with
  | refused | resolve => simp
  | connect _ hconnect => cases hconnect <;> simp

theorem Process.readBuffer {ret : SocksState} (h : Process io c v v' ret) :
    v'.s.readBuffer = v.s.readBuffer := by
  cases h with
  | refused | resolve => rfl
  | connect _ hconnect => cases hconnect <;> rfl

theorem Outcome.onlyClient {fd : Nat} {write : Bool} {ret : SocksState}
    (h : Outcome io c v fd write v' ret) (hb : v.Body) (hst : v.s.stm ≠ some .copy)
    (honly : OnlyClient v.s) : OnlyClient v'.s := honly.adds (h.on hb hst) h.clientFd

theorem Outcome.takes_helloRead {fd : Nat} {write : Bool} {ret : SocksState}
    (h : Outcome io c v fd write v' ret) (hb : v.Body) (hst : v.s.stm = some .helloRead)
    (hapart : v'.s.originFd ≠ v'.s.clientFd) (hv : Takes v.s (some .helloRead)) :
    Takes (v'.advance ret).s (some ret) := by
  obtain ⟨honly, hreading⟩ := hv
  have honly := h.onlyClient hb (by simp [hst]) honly
  cases h with
  | recvFailed => exact takes_error honly hapart
  | helloMore _ hr hc hdone =>
    obtain ⟨hconsume, -⟩ := helloConsume_spec hr.fills hr.ne hc
    have hmore := hreading.more (by rw [hconsume]; exact hdone)
    rw [hconsume, ← receivedFrom_received hb] at hmore
    exact takes_advance ⟨honly, hmore⟩ (.inl hst)
  | @helloDone bytes rb rb' wb p errored _ hr hc hdone hwb =>
    obtain ⟨hconsume, rfl⟩ := helloConsume_spec hr.fills hr.ne hc
    cases herror : helloIsError p.state with
    | true => exact takes_error honly hapart
    | false =>
      obtain ⟨hello, hends, hgot⟩ := hreading.ended (by rw [hconsume]; exact hdone)
      rw [hconsume, ← receivedFrom_received hb] at hgot
      rw [hconsume] at hends
      exact takes_advance ⟨honly, hello, hello_format hends herror, hgot⟩ (.inr (by simp))
  | _ => simp_all

theorem Outcome.takes_helloWrite {fd : Nat} {write : Bool} {ret : SocksState}
    (h : Outcome io c v fd write v' ret) (hb : v.Body) (hst : v.s.stm = some .helloWrite)
    (hwent : wentThroughAuth v.s.log = false) (hapart : v'.s.originFd ≠ v'.s.clientFd)
    (hv : Takes v.s (some .helloWrite)) : Takes (v'.advance ret).s (some ret) := by
  obtain ⟨honly, hello, hhello, hgot⟩ := hv
  have honly := h.onlyClient hb (by simp [hst]) honly
  have hauth := wentThroughAuth_logs h.logs
  cases h with
  | sendFailed => exact takes_error honly hapart
  | @helloPart n wb =>
    refine takes_advance ⟨honly, hello, hhello, ?_⟩ (.inl hst)
    exact (receivedFrom_sent _ v n wb).trans hgot
  | @helloSent n wb =>
    have hgot := (receivedFrom_sent _ v n wb).trans hgot
    split
    · exact View.takes_authRead (by simp [View.sent, hst]) ⟨honly, hello, hhello, hgot⟩
    · refine View.takes_requestRead (by simp [View.sent, hst]) honly ?_ hgot
      rw [hauth, hwent]
      exact ⟨hello, [], hhello, rfl, (List.append_nil _).symm⟩
  | _ => simp_all

theorem Outcome.takes_authRead {fd : Nat} {write : Bool} {ret : SocksState}
    (h : Outcome io c v fd write v' ret) (hb : v.Body) (hst : v.s.stm = some .authRead)
    (hwent : wentThroughAuth v.s.log = true)
    (hgiven : LengthsGiven v.globals v.s (.ready fd write io))
    (hapart : v'.s.originFd ≠ v'.s.clientFd) (hv : Takes v.s (some .authRead)) :
    Takes (v'.advance ret).s (some ret) := by
  obtain ⟨honly, hello, hhello, hreading⟩ := hv
  have honly := h.onlyClient hb (by simp [hst]) honly
  cases h with
  | recvFailed => exact takes_error honly hapart
  | authMore _ hr hc hdone =>
    obtain ⟨hconsume, -⟩ := authConsume_spec hr.fills hr.ne hc
    have hmore := hreading.more (by rw [hconsume]; exact hdone)
    rw [hconsume, ← receivedFrom_received hb] at hmore
    exact takes_advance ⟨honly, hello, hhello, hmore⟩ (.inl hst)
  | @authDone bytes rb rb' wb p errored status _ hr hc hdone hstatus hwb =>
    obtain ⟨hconsume, rfl⟩ := authConsume_spec hr.fills hr.ne hc
    cases herror : authIsError p.state with
    | true => exact takes_error honly hapart
    | false =>
      obtain ⟨login, hends, hgot⟩ := hreading.ended (by rw [hconsume]; exact hdone)
      rw [hconsume] at hends hgot
      have hfull : emptyLogin (login ++ rb'.content) = false := by
        have hgiven := hgiven.received rfl hr (.inl hst)
        rw [hwent, hgot, List.append_assoc] at hgiven
        exact hhello.emptyLogin hgiven
      have hlogin := (login_format hends herror rb'.content).resolve_right (Bool.eq_false_iff.mp hfull)
      rw [← receivedFrom_message hb (a := .authProcess v.globals.users p.auth status) rfl] at hgot
      refine takes_advance ⟨honly, hello ++ login, ?_, hgot⟩ (.inr (by simp))
      exact ⟨hello, login, hhello, hlogin, rfl⟩
  | _ => simp_all

theorem Outcome.takes_authWrite {fd : Nat} {write : Bool} {ret : SocksState}
    (h : Outcome io c v fd write v' ret) (hb : v.Body) (hst : v.s.stm = some .authWrite)
    (hwent : wentThroughAuth v.s.log = true) (hapart : v'.s.originFd ≠ v'.s.clientFd)
    (hv : Takes v.s (some .authWrite)) : Takes (v'.advance ret).s (some ret) := by
  obtain ⟨honly, before, hbefore, hgot⟩ := hv
  have honly := h.onlyClient hb (by simp [hst]) honly
  have hauth := wentThroughAuth_logs h.logs
  cases h with
  | sendFailed => exact takes_error honly hapart
  | @authPart n wb =>
    refine takes_advance ⟨honly, before, hbefore, ?_⟩ (.inl hst)
    exact (receivedFrom_sent _ v n wb).trans hgot
  | @authSent n wb =>
    refine View.takes_requestRead (by simp [View.sent, hst]) honly ?_
      ((receivedFrom_sent _ v n wb).trans hgot)
    rw [hauth, hwent]
    exact hbefore
  | authRejected => exact takes_error honly hapart
  | _ => simp_all

theorem Outcome.takes_requestRead {fd : Nat} {write : Bool} {ret : SocksState}
    (h : Outcome io c v fd write v' ret) (hb : v.Body) (hst : v.s.stm = some .requestRead)
    (hgiven : LengthsGiven v.globals v.s (.ready fd write io))
    (hapart : v'.s.originFd ≠ v'.s.clientFd) (hv : Takes v.s (some .requestRead)) :
    Takes (v'.advance ret).s (some ret) := by
  obtain ⟨honly, before, hbefore, hreading⟩ := hv
  have honly := h.onlyClient hb (by simp [hst]) honly
  have hauth := wentThroughAuth_logs h.logs
  cases h with
  | recvFailed => exact takes_error honly hapart
  | requestMore _ hr hc hdone =>
    obtain ⟨hconsume, rfl⟩ := requestConsume_spec hr.fills hr.ne hc
    split
    · exact takes_error honly hapart
    · have hdone := hdone.resolve_left ‹_›
      have hmore := hreading.more (by rw [hconsume]; exact hdone)
      rw [hconsume, ← receivedFrom_received hb] at hmore
      exact takes_advance ⟨honly, before, hauth ▸ hbefore, hmore⟩ (.inl hst)
  | @requestDone bytes rb rb' p v' ret _ hr hc hdone hprocess =>
    obtain ⟨hconsume, herror⟩ := requestConsume_spec hr.fills hr.ne hc
    obtain ⟨request, hends, hgot⟩ := hreading.ended (by rw [hconsume]; exact hdone)
    rw [hconsume] at hends hgot
    have hfull : emptyName (request ++ rb'.content) = false := by
      have hgiven := hgiven.received rfl hr (.inr hst)
      rw [hgot, List.append_assoc] at hgiven
      exact hbefore.emptyName hgiven
    have hrequest := (request_format hends herror.symm rb'.content).resolve_right
      (Bool.eq_false_iff.mp hfull)
    rw [← receivedFrom_message hb (a := .requestProcess p.request) rfl] at hgot
    have hbytes := sameBytes_of_quiet (hprocess.lines.mono fun _ ha => ha.2)
    refine takes_advance (takes_past hprocess.ret_cases honly (hauth ▸ hbefore) hrequest hgot ?_
      hprocess.readBuffer) ?_
    · rw [hprocess.clientFd, hbytes.received]
    · rcases hprocess.ret_cases with rfl | rfl | rfl <;> simp
  | _ => simp_all

theorem Outcome.takes_connecting {fd : Nat} {write : Bool} {ret : SocksState}
    (h : Outcome io c v fd write v' ret) (hb : v.Body) (hst : v.s.stm = some .requestConnecting)
    (hv : Takes v.s (some .requestConnecting)) : Takes (v'.advance ret).s (some ret) := by
  obtain ⟨honly, before, request, hbefore, hrequest, hgot⟩ := hv
  have honly := h.onlyClient hb (by simp [hst]) honly
  have hauth := wentThroughAuth_logs h.logs
  cases h with
  | @concluded fd status wb =>
    have hbytes := sameBytes_of_quiet (concluded_lines v fd io.sockError status wb)
    exact takes_advance (takes_past (.inr (.inr rfl)) honly (hauth ▸ hbefore) hrequest hgot
      (hbytes.received _) rfl) (.inr (by simp))
  | @retried fd e a₀ a rest v' ret _ herr he htype hcur hconnect =>
    have hlines := ((Adds.refl (fun a : Action => a.isQuiet = true) v.s.log).concat
      (a := .sockError fd io.sockError) rfl).trans (hconnect.lines.mono fun _ ha => ha.2)
    refine takes_advance (takes_past (.inr (.inl rfl)) honly (hauth ▸ hbefore) hrequest hgot ?_
      (hconnect.attempted rfl).readBuffer) (.inr (by simp))
    rw [hconnect.clientFd, (sameBytes_of_quiet hlines).received]
    rfl
  | _ => simp_all

theorem Outcome.takes_requestWrite {fd : Nat} {write : Bool} {ret : SocksState}
    (h : Outcome io c v fd write v' ret) (hb : v.Body) (hst : v.s.stm = some .requestWrite)
    (hapart : v'.s.originFd ≠ v'.s.clientFd) (hv : Takes v.s (some .requestWrite)) :
    Takes (v'.advance ret).s (some ret) := by
  obtain ⟨honly, before, request, hbefore, hrequest, hgot⟩ := hv
  have honly := h.onlyClient hb (by simp [hst]) honly
  have hauth := wentThroughAuth_logs h.logs
  cases h with
  | sendFailed | replyRefused => exact takes_error honly hapart
  | @replyPart n wb =>
    exact takes_advance (takes_past (.inr (.inr rfl)) honly (hauth ▸ hbefore) hrequest hgot
      (receivedFrom_sent _ v n wb) rfl) (.inl hst)
  | @replySent n wb =>
    refine takes_advance ⟨before, request, hauth ▸ hbefore, hrequest, ?_⟩ (.inr (by simp))
    rw [(honly _ hapart).1]
    exact ((logged_lines (v.sent n wb).relaying).received _).trans
      ((receivedFrom_sent _ v n wb).trans hgot)
  | _ => simp_all

theorem Outcome.takes_copy {fd : Nat} {write : Bool} {ret : SocksState}
    (h : Outcome io c v fd write v' ret) (hs : v.Shape c) (hst : v.s.stm = some .copy)
    (hv : Takes v.s (some .copy)) : Takes (v'.advance ret).s (some ret) := by
  obtain ⟨d, lines, closed, -, hcopies⟩ := h.copies hs hst
  have hkept := hcopies.takes_kept (wentThroughAuth_logs h.logs) hv
  rcases hcopies.ret_cases with rfl | rfl
  · exact takes_advance (takes_copy_sent hkept) (.inr (by simp))
  · exact takes_advance hkept (.inr (by simp))

theorem Outcome.takes_kept {fd : Nat} {write : Bool} {ret : SocksState}
    (h : Outcome io c v fd write v' ret) (hs : v.Shape c)
    (hwent : (v.s.stm = some .helloWrite → wentThroughAuth v.s.log = false) ∧
      (v.s.stm = some .authRead ∨ v.s.stm = some .authWrite → wentThroughAuth v.s.log = true))
    (hgiven : v.s.stm = some .helloRead ∨ LengthsGiven v.globals v.s (.ready fd write io))
    (hapart : v'.s.originFd ≠ v'.s.clientFd) (hv : Takes v.s v.s.stm) :
    Takes (v'.advance ret).s (some ret) := by
  obtain ⟨st, hst⟩ := h.some_stm
  rw [hst] at hv
  cases st with
  | helloRead => exact h.takes_helloRead hs.body hst hapart hv
  | helloWrite => exact h.takes_helloWrite hs.body hst (hwent.1 hst) hapart hv
  | authRead =>
    have hgiven := hgiven.resolve_left (by simp [hst])
    exact h.takes_authRead hs.body hst (hwent.2 (.inl hst)) hgiven hapart hv
  | authWrite => exact h.takes_authWrite hs.body hst (hwent.2 (.inr hst)) hapart hv
  | requestRead =>
    exact h.takes_requestRead hs.body hst (hgiven.resolve_left (by simp [hst])) hapart hv
  | requestResolv => cases h <;> simp_all
  | requestConnecting => exact h.takes_connecting hs.body hst hv
  | requestWrite => exact h.takes_requestWrite hs.body hst hapart hv
  | copy => exact h.takes_copy hs hst hv
  | done => exact absurd hst hs.stays.1
  | error => exact absurd hst hs.stays.2

theorem Resolved.takes_kept {answer : Option (List AddrInfo)} {ret : SocksState}
    (h : Resolved io (v.answered answer) v' ret) (hv : Takes v.s (some .requestResolv)) :
    Takes (v'.advance ret).s (some ret) := by
  have hauth := wentThroughAuth_logs h.logs
  obtain ⟨honly, before, request, hbefore, hrequest, hgot⟩ := hv
  have hquiet := h.lines.mono (Q := fun a => a.isQuiet = true) fun _ ha => ha.2
  have hret : ret = .requestResolv ∨ ret = .requestConnecting ∨ ret = .requestWrite := by
    cases h with
    | unreachable => simp
    | connect _ hconnect => cases hconnect <;> simp
  have hbuf : v'.s.readBuffer = v.s.readBuffer := by
    cases h with
    | unreachable => rfl
    | connect _ hconnect => cases hconnect <;> rfl
  refine takes_advance (takes_past hret ?_ (hauth ▸ hbefore) hrequest hgot ?_ hbuf) ?_
  · exact honly.adds (hquiet.mono fun _ ha => Action.on_of_isQuiet ha _) h.clientFd
  · rw [h.clientFd, (sameBytes_of_quiet hquiet).received]
    rfl
  · rcases hret with rfl | rfl | rfl <;> simp

-- ---------------------------------------------------------------------------
-- The descriptors
-- ---------------------------------------------------------------------------

theorem Outcome.apart {fd : Nat} {write : Bool} {ret : SocksState}
    (h : Outcome io c v fd write v' ret) (hs : v.Shape c)
    (hcond : v.s.stm = some .helloRead ∨ ConnectsToOrigin v.globals v.s (.ready fd write io))
    (hv : v.s.originFd ≠ v.s.clientFd) : v'.s.originFd ≠ v'.s.clientFd := by
  by_cases hcopy : v.s.stm = some .copy
  · obtain ⟨d, lines, closed, -, hcopies⟩ := h.copies hs hcopy
    rw [show v'.s.originFd = _ from hcopies.fd .origin, h.clientFd]
    exact hv
  rw [h.clientFd]
  cases h with
  | requestDone hst hr hc hdone hprocess =>
    cases hprocess with
    | refused | resolve => exact hv
    | connect htype hconnect =>
      rw [hs.body.clientFd]
      exact (hconnect.attempted (hs.phase_of hst).2.1.1).originFd
  | @concluded fd status wb hst =>
    have hcond : (fd : Int) ≠ v.s.clientFd := hcond.resolve_left (by simp [hst]) hst
    show (if status = .succeeded then (fd : Int) else v.s.originFd) ≠ _
    split
    · exact hcond
    · exact hv
  | retried hst herr he htype hcur hconnect =>
    rw [hs.body.clientFd]
    exact (hconnect.attempted rfl).originFd
  | copyReceived hst | copyEnded hst | copySent hst | copyFailed hst => exact absurd hst hcopy
  | _ => exact hv

theorem Resolved.apart {answer : Option (List AddrInfo)} {ret : SocksState}
    (h : Resolved io (v.answered answer) v' ret) (hpeer : v.peer = .closed) (hfd : v.s.clientFd = v.fd)
    (hv : v.s.originFd ≠ v.s.clientFd) : v'.s.originFd ≠ v'.s.clientFd := by
  rw [h.clientFd]
  cases h with
  | unreachable => exact hv
  | connect hlist hconnect =>
    rw [show (v.answered answer).s.clientFd = v.fd from hfd]
    exact (hconnect.attempted hpeer).originFd

theorem Streams.sentToClient (h : v.Streams v.s.stm) : SentToClient v.s := by
  have hreplies := h.replies
  by_cases hst : v.s.stm = some .copy ∨ v.s.stm = some .done ∨ v.s.stm = some .error
  · rcases hst with hst | hst | hst <;> rw [hst] at hreplies
    · exact hreplies.sentToClient
    · exact hreplies
    · exact hreplies
  · refine (hreplies.owes ?_).sentToClient
    cases hst' : v.s.stm with
    | none => simp
    | some st => simp_all

theorem Streams.sentToOrigin (h : v.Streams v.s.stm) : SentToOrigin v.s := by
  have htakes := h.takes
  cases hst : v.s.stm with
  | none =>
    rw [hst] at htakes
    exact htakes.1.sentToOrigin h.apart
  | some st =>
    rw [hst] at htakes
    cases st with
    | copy => exact takes_copy_sent htakes
    | done | error => exact htakes
    | _ => exact htakes.1.sentToOrigin h.apart

end View

namespace World

open View

variable {w₀ w w' : World} {c : ConnId}

theorem streams_start {v : View} (hlog : v.s.log = []) (hapart : v.s.originFd ≠ v.s.clientFd)
    (hrb : v.s.readBuffer.content = []) (hwb : v.s.writeBuffer.content = []) : v.Streams none := by
  refine ⟨hapart, ⟨?_, ?_⟩, fun fd _ => ?_, ?_⟩
  · rw [replies, hlog, hwb]
    rfl
  · rw [hlog]
    rfl
  · rw [hlog]
    exact ⟨rfl, rfl⟩
  · rw [hlog, hrb]
    rfl

theorem streams_rules :
    Rules StreamsKept (fun _ => True) fun _ v => v.Streams v.s.stm where
  start {c v fd write io} hs hst hv _ _ := by
    refine ⟨?_, trivial⟩
    rw [advance_stm]
    rw [hst] at hv
    obtain ⟨hbytes, hfd, horigin, hrb, -⟩ := advance_same v .helloRead
    refine ⟨?_, hv.replies.advance (by simp), onlyClient_advance hv.takes.1, ?_⟩
    · rw [horigin, hfd]
      exact hv.apart
    · have hparser : (v.advance .helloRead).s.hello.format = helloParserInit () := by
        unfold View.advance
        rw [if_neg (by simp [hst])]
        rfl
      rw [hfd, hbytes.received, hrb, hparser]
      exact .start rfl hv.takes.2
  outcome {c v fd write io v₁ ret} hs hen hv _ hcond hout := by
    refine ⟨?_, trivial⟩
    rw [advance_stm]
    have hcond' := hcond.imp_right And.left
    have hapart := hout.apart hs hcond' hv.apart
    refine ⟨?_, hout.replies_kept hs hen hcond' (fun hst => ?_) hv.replies,
      hout.takes_kept hs ⟨fun hst => ?_, fun hst => ?_⟩ (hcond.imp_right And.right) hapart hv.takes⟩
    · rw [(advance_same v₁ ret).2.2.1, (advance_same v₁ ret).2.1]
      exact hapart
    · have htakes := hv.takes
      rw [hst] at htakes
      exact htakes.1.received hv.apart
    · have hreplies := hv.replies
      rw [hst] at hreplies
      exact hreplies.2
    · have hreplies := hv.replies
      rcases hst with hst | hst <;> rw [hst] at hreplies <;> exact hreplies.2
  resolved {c v answer io v₁ ret} hs hst hv _ _ hres := by
    refine ⟨?_, trivial⟩
    rw [advance_stm]
    have hreplies := hv.replies
    have htakes := hv.takes
    rw [hst] at hreplies htakes
    have halone := (hs.phase_of hst).2.1
    refine ⟨?_, hres.replies_kept halone.1 hreplies, hres.takes_kept htakes⟩
    rw [(advance_same v₁ ret).2.2.1, (advance_same v₁ ret).2.1]
    exact hres.apart halone.1 hs.body.clientFd hv.apart
  ended {c v} hv := by
    refine ⟨hv.apart, ?_, ?_⟩
    · have hreplies := hv.replies
      show v.ended.Replies (v.s.stm.getD .helloRead)
      cases hst : v.s.stm.getD .helloRead with
      | requestConnecting =>
        rw [hst] at hreplies
        obtain ⟨m, st, hm | ⟨-, hm⟩⟩ := hreplies
        · exact ⟨m, st, .inl hm⟩
        · exact ⟨m, st, .inr ⟨rfl, hm⟩⟩
      | _ => rwa [hst] at hreplies
    · have htakes := hv.takes
      show Takes v.ended.s v.s.stm
      cases hst : v.s.stm with
      | none => rwa [hst] at htakes
      | some st => cases st <;> rwa [hst] at htakes
  frame {c v} g hv _ := by
    refine ⟨hv.apart, ?_, hv.takes⟩
    have hreplies := hv.replies
    show View.Replies { v with globals := g } (v.s.stm.getD .helloRead)
    cases hst : v.s.stm.getD .helloRead <;> rwa [hst] at hreplies
  fresh {c g fd} addr _ := streams_start rfl (by show (-1 : Int) ≠ fd; omega)
    (Buffer.content_bufferInit _) (Buffer.content_bufferInit _)
  turnedAway {c g fd} addr _ := streams_start rfl (by show (-1 : Int) ≠ fd; omega)
    (Buffer.content_bufferInit _) (Buffer.content_bufferInit _)

/-- The byte streams of a connection: in every run in which REQUEST_CONNECTING
handles no write event of the client and no length byte is 0, the client was sent
its replies and then bytes of the origin, the origin was sent bytes of the client
from behind its request, and in COPY what is to be relayed is what was sent and
what is still in the buffer. -/
theorem streams_intact (h₀ : w₀.Initial) (h : Runs StreamsKept w₀ w) {conn : Conn}
    (hc : w.conns c = some conn) :
    SentToClient conn.s ∧ SentToOrigin conn.s ∧
    ∀ w' conn', conn.s.stm = some .copy → Runs StreamsKept w w' → w'.conns c = some conn' →
      ∃ lines, conn'.s.log = conn.s.log ++ lines ∧ ∀ d, conn'.s.fd d = conn.s.fd d ∧
        (conn.s.rb d).content ++ receivedFrom (conn.s.fd d) lines =
          sentTo (conn.s.fd d.other) lines ++ (conn'.s.rb d).content := by
  have hcarries := reaches_carries streams_rules.kept ⟨fun _ _ h => h, fun _ _ h => h⟩ h₀ trivial h
  obtain ⟨v, hshows, -, hstreams⟩ := hcarries.view hc
  have hconn := hc
  rw [hshows.conn] at hconn
  cases hconn
  refine ⟨hstreams.sentToClient, hstreams.sentToOrigin, fun w' conn' hst hruns hc' => ?_⟩
  have hstart : Flows v.s v.s [] := by
    refine ⟨.inl hst, (List.append_nil _).symm, fun _ => rfl, fun d => ?_⟩
    simp [receivedFrom, sentTo]
  obtain ⟨conn'', hc'', lines, hflows⟩ := (h.reachable.carries h₀).follow
    (J := fun s _ => ∃ lines, Flows v.s s lines) (fun hs hJ _ hstep => hstep.flows hs hJ) hc
    ⟨[], hstart⟩ (hruns.meetsOf c)
  rw [hc'] at hc''
  cases hc''
  exact ⟨lines, hflows.log, fun d => ⟨hflows.fd d, hflows.flow d⟩⟩

instance (g : Globals) (s : Socks5) (ce : ConnEvent) : Decidable (ConnectsToOrigin g s ce) :=
  match ce with
  | .ready _ true _ => inferInstanceAs (Decidable (_ → _))
  | .ready _ false _ => inferInstanceAs (Decidable True)
  | .resolved _ _ => inferInstanceAs (Decidable True)

instance (g : Globals) (s : Socks5) (ce : ConnEvent) : Decidable (LengthsGiven g s ce) :=
  match ce with
  | .ready _ false _ => inferInstanceAs (Decidable (_ → _))
  | .ready _ true _ => inferInstanceAs (Decidable True)
  | .resolved _ _ => inferInstanceAs (Decidable True)

instance (g : Globals) (s : Socks5) (ce : ConnEvent) : Decidable (StreamsKept g s ce) :=
  inferInstanceAs (Decidable (_ ∧ _))

theorem sentToClient_length {s : Socks5} (h : SentToClient s) :
    (sentTo s.clientFd s.log).length ≤ 14 + (receivedFrom s.originFd s.log).length := by
  obtain ⟨m, st, status, hbegins⟩ := h
  have hlength := hbegins.length_le
  have hgreeting : (greeting m st (wentThroughAuth s.log)).length ≤ 4 := by
    unfold greeting
    split <;> simp
  simp only [requestReply, List.length_append, List.length_cons, List.length_nil] at hlength
  omega

/-- A client asks for a name with three addresses: the first one is refused
late, the second one at once, and the client's own socket is found refused when
it is ready for the reply. The third address accepts. -/
def thirdAddress : List Event :=
  [.accept 3 { answer := some (4, {}) },
   .ready 4 false { recv := some [5, 1, 0] },
   .ready 4 true { send := some 2 },
   .ready 4 false { recv := some [5, 1, 0, 3, 1, 97, 0, 80] },
   .resolved ⟨4, 0⟩ (some [⟨afInet, {}⟩, ⟨afInet, {}⟩, ⟨afInet, {}⟩])
     { socket := some 5, connect := some einprogress },
   .ready 5 true { sockError := some econnrefused, socket := some 5, connect := some econnrefused },
   .ready 4 true { sockError := some econnrefused, socket := some 5, connect := some einprogress },
   .ready 5 true { sockError := some 0 },
   .ready 4 true { send := some 20 }]

/-- The client is sent two replies. -/
theorem streams_two_replies : ∃ w conn, Reachable (startUp {}) w ∧ w.conns 0 = some conn ∧
    ¬ SentToClient conn.s := by
  have hrun : Lib.endsIn (fun w => (w.conns 0).any fun conn =>
        14 + (receivedFrom conn.s.originFd conn.s.log).length <
          (sentTo conn.s.clientFd conn.s.log).length)
      (play (Meets anyEvent) (startUp {}) thirdAddress) = true := by decide +kernel
  obtain ⟨w, hplay, hlong⟩ := Lib.endsIn_iff.mp hrun
  obtain ⟨conn, hc, hlong⟩ := (Option.any_eq_true ..).mp hlong
  refine ⟨w, conn, Lib.reaches_of_play hplay, hc, fun hsent => ?_⟩
  have := sentToClient_length hsent
  have := of_decide_eq_true hlong
  omega

def emptyHost : List Event :=
  [.accept 3 { answer := some (4, {}) },
   .ready 4 false { recv := some [5, 1, 0] },
   .ready 4 true { send := some 2 },
   .ready 4 false { recv := some [5, 1, 0, 3, 0, 0x30, 0, 0x50, 0x68] },
   .resolved ⟨4, 0⟩ (some [⟨afInet, {}⟩]) { socket := some 5, connect := some einprogress },
   .ready 5 true { sockError := some 0 },
   .ready 4 true { send := some 10 },
   .ready 4 false { recv := some [0x69] },
   .ready 5 true { send := some 2 }]

theorem streams_empty_name : ∃ w conn, Runs ConnectsToOrigin (startUp {}) w ∧
    w.conns 0 = some conn ∧ ¬ SentToOrigin conn.s := by
  have hrun : Lib.endsIn (fun w => (w.conns 0).any fun conn =>
        sentTo conn.s.originFd conn.s.log = [0x68, 0x69] ∧ wentThroughAuth conn.s.log = false ∧
          receivedFrom conn.s.clientFd conn.s.log =
            [5, 1, 0] ++ ([5, 1, 0, 3, 0, 0x30, 0] ++ [0x50, 0x68, 0x69]))
      (play (Meets ConnectsToOrigin) (startUp {}) emptyHost) = true := by decide +kernel
  obtain ⟨w, hplay, hend⟩ := Lib.endsIn_iff.mp hrun
  obtain ⟨conn, hc, hend⟩ := (Option.any_eq_true ..).mp hend
  obtain ⟨hsent, hauth, hgot⟩ := of_decide_eq_true hend
  refine ⟨w, conn, Lib.reaches_of_play hplay, hc, ?_⟩
  rintro (hnone | ⟨before, request, rest, ⟨hello, login, hhello, hlogin, rfl⟩, hrequest, hstream,
    hprefix⟩)
  · rw [hsent] at hnone
    cases hnone
  · rw [hauth, if_neg Bool.false_ne_true] at hlogin
    subst hlogin
    have hskip := congrArg (fun stream => skipCounted (stream.drop 1)) (hstream.symm.trans hgot)
    rw [List.append_nil, List.append_assoc] at hskip
    rw [skipCounted_hello hhello] at hskip
    rw [hsent, hrequest.rest_of_empty hskip] at hprefix
    exact absurd hprefix (by decide)

/-- A client that is connected to the address it asked for was sent its replies, and
the origin what came behind the request. -/
theorem streams_connected : ∃ w conn, Runs StreamsKept (startUp {}) w ∧
    w.conns 0 = some conn ∧ sentTo 4 conn.s.log = [5, 0] ++ requestReply .succeeded ∧
    sentTo 5 conn.s.log = [104, 105] ∧ SentToClient conn.s ∧ SentToOrigin conn.s := by
  have hrun : Lib.endsIn (fun w => (w.conns 0).any fun conn =>
        sentTo 4 conn.s.log = [5, 0] ++ requestReply .succeeded ∧ sentTo 5 conn.s.log = [104, 105])
      (play (Meets StreamsKept) (startUp {}) (connected ++
        [.ready 4 false { recv := some [104, 105] }, .ready 5 true { send := some 2 }])) = true := by
    decide +kernel
  obtain ⟨w, hplay, hsent⟩ := Lib.endsIn_iff.mp hrun
  obtain ⟨conn, hc, hsent⟩ := (Option.any_eq_true ..).mp hsent
  obtain ⟨htoClient, htoOrigin⟩ := of_decide_eq_true hsent
  have hruns := Lib.reaches_of_play hplay
  obtain ⟨hclient, horigin, -⟩ := streams_intact (startUp_initial (by decide)) hruns hc
  exact ⟨w, conn, hruns, hc, htoClient, htoOrigin, hclient, horigin⟩

end World

end Socks5d
