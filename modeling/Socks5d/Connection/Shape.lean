import Socks5d.Connection.Outcome

/-!
# The shape of a connection

`View.Shape` ties the state of the machine to the descriptors of a connection
and to their interests, and the count of references to the registered ones. It
is what a handler relies on between events.
-/

namespace Socks5d

def Link.wants (l : Link) (write : Bool) : Bool :=
  match l with
  | .watched i => if write then i.write else i.read
  | _ => false

namespace View

def Alone (v : View) : Prop := v.peer = .closed ∧ v.s.originFd = -1

def ConnectingLinks (v : View) : Prop :=
  (v.client = .watched opNoop ∧ v.peer = .watched opWrite ∧ v.s.originFd = v.peerFd) ∨
  (v.client = .watched opWrite ∧ v.Alone) ∨
  ((∃ i, v.client = .watched i) ∧ v.peer = .opened ∧ v.s.originFd = v.peerFd)

/-- The descriptors of a connection with a reply to send. In the last case
nobody will ever send it. -/
def AnsweringLinks (v : View) : Prop :=
  (v.client = .watched opWrite ∧ v.Alone ∧ v.s.request.status ≠ .succeeded) ∨
  (v.client = .watched opWrite ∧ v.peer = .watched opNoop ∧ v.s.originFd = v.peerFd) ∨
  (v.client = .watched opNoop ∧ v.peer.isWatched = false)

/-- The descriptors, buffers and threads that go with a state. -/
def Phase (c : ConnId) (v : View) : SocksState → Prop
  | .helloRead | .authRead =>
    v.client = .watched opRead ∧ v.Alone ∧ v.s.writeBuffer.content = [] ∧ v.threads = []
  | .helloWrite | .authWrite =>
    v.client = .watched opWrite ∧ v.Alone ∧ v.threads = []
  | .requestRead =>
    v.client = .watched opRead ∧ v.Alone ∧ v.s.writeBuffer.content = [] ∧ v.threads = [] ∧
      v.s.request.status ≠ .succeeded
  | .requestResolv =>
    v.client = .watched opNoop ∧ v.Alone ∧ v.s.writeBuffer.content = [] ∧
      v.threads = [⟨v.fd, c⟩] ∧ v.s.request.status ≠ .succeeded
  | .requestConnecting =>
    v.ConnectingLinks ∧ v.threads = [] ∧ v.s.request.status ≠ .succeeded ∧
      (v.s.request.parser.request.destAddrType = socksReqAddrtypeDomain →
        v.s.originResolutionCurrent ≠ [])
  | .requestWrite => v.AnsweringLinks ∧ v.threads = []
  | .copy =>
    (∃ i, v.client = .watched i) ∧ (∃ i, v.peer = .watched i) ∧ v.s.originFd = v.peerFd ∧
      v.threads = []
  | .done | .error =>
    (∃ i, v.client = .watched i) ∧
      (v.Alone ∨ (∃ i, v.peer = .watched i) ∧ v.s.originFd = v.peerFd) ∧ v.threads = []

structure Body (v : View) : Prop where
  live : v.live = true
  fd_lt : v.fd < fdSetSize
  clientFd : v.s.clientFd = v.fd
  readLimit : v.s.readBuffer.limit = rawBufferSize
  readRewound : v.s.readBuffer.Rewound
  writeLimit : v.s.writeBuffer.limit = rawBufferSize
  writeRewound : v.s.writeBuffer.Rewound
  references : v.s.references = 1 + if v.peer.isWatched then 1 else 0
  peer_ne : v.peer ≠ .closed → v.peerFd ≠ v.fd
  peer_lt : v.peer.isWatched = true → v.peerFd < fdSetSize

/-- A connection between two events. Before the first one the machine has no
state; it behaves as in HELLO_READ. -/
structure Shape (c : ConnId) (v : View) : Prop where
  body : v.Body
  phase : v.Phase c (v.s.stm.getD .helloRead)
  stays : v.s.stm ≠ some .done ∧ v.s.stm ≠ some .error

structure Ended (v : View) : Prop where
  live : v.live = false
  client : v.client = .closed
  peer : v.peer = .closed
  threads : v.threads = []

-- ---------------------------------------------------------------------------
-- The events that the selector delivers
-- ---------------------------------------------------------------------------

def Enabled (v : View) (fd : Nat) (write : Bool) : Prop := (v.link fd).wants write = true

theorem Enabled.cases {v : View} {fd : Nat} {write : Bool} (h : v.Enabled fd write) :
    (fd = v.fd ∧ v.client.wants write = true) ∨
      (fd ≠ v.fd ∧ fd = v.peerFd ∧ v.peer.wants write = true) := by
  unfold Enabled link at h
  by_cases hfd : fd = v.fd
  · rw [if_pos hfd] at h
    exact .inl ⟨hfd, h⟩
  · rw [if_neg hfd] at h
    by_cases hp : fd = v.peerFd
    · rw [if_pos hp] at h
      exact .inr ⟨hfd, hp, h⟩
    · rw [if_neg hp] at h
      cases h

theorem Enabled.client {v : View} {fd : Nat} {write : Bool} (h : v.Enabled fd write)
    (hpeer : v.peer = .closed) : fd = v.fd ∧ v.client.wants write = true := by
  rcases h.cases with h | ⟨-, -, h⟩
  · exact h
  · rw [hpeer] at h
    cases h

end View

end Socks5d
