import Socks5d.Consume

/-!
# auth.c: the parser of the username and password message
-/

namespace Socks5d

inductive AuthState
  | version | ulen | uname | plen | passwd
  | done
  | error | errorUnsupportedVersion | errorInvalid
  deriving DecidableEq, Repr

/-- The position in `enum auth_state`. -/
def AuthState.toNat : AuthState → Nat
  | .version => 0 | .ulen => 1 | .uname => 2 | .plen => 3 | .passwd => 4
  | .done => 5
  | .error => 6 | .errorUnsupportedVersion => 7 | .errorInvalid => 8

inductive AuthStatus
  | succeeded | failure
  deriving DecidableEq, Repr

def AuthStatus.toByte : AuthStatus → Byte
  | .succeeded => 0x00
  | .failure => 0x01

/-- The size of the arrays of `struct auth` and of `struct user`. -/
def credentialSize : Nat := 0xff

structure Auth where
  uname : List Byte := List.replicate credentialSize 0
  passwd : List Byte := List.replicate credentialSize 0
  deriving DecidableEq, Repr

structure AuthParser where
  auth : Auth := {}
  state : AuthState := .version
  len : UInt8 := 0
  i : UInt8 := 0
  deriving DecidableEq, Repr

namespace AuthParser

def remainingSet (p : AuthParser) (len : UInt8) : AuthParser := { p with i := 0, len }

def remainingIsDone (p : AuthParser) : Bool := p.i ≥ p.len

end AuthParser

/-- `auth_init` leaves `len` and `i` as they are; both are set before they are read. -/
def authParserInit : AuthParser := {}

/-- The `switch` of `auth_parser_feed`. -/
def authParserNext (p : AuthParser) (c : Byte) : AuthParser × AuthState :=
  match p.state with
  | .version => (p, if c = 0x01 then .ulen else .errorUnsupportedVersion)
  | .ulen => (p.remainingSet c, .uname)
  | .uname =>
    let p := { p with auth := { p.auth with uname := p.auth.uname.set p.i.toNat c }, i := p.i + 1 }
    (p, if p.remainingIsDone then .plen else .uname)
  | .plen => (p.remainingSet c, .passwd)
  | .passwd =>
    let p := { p with auth := { p.auth with passwd := p.auth.passwd.set p.i.toNat c }, i := p.i + 1 }
    (p, if p.remainingIsDone then .done else .passwd)
  | .done | .error | .errorUnsupportedVersion => (p, p.state)
  | .errorInvalid => (p, .error)

def authParserFeed (p : AuthParser) (c : Byte) : AuthParser :=
  let (p, next) := authParserNext p c
  { p with state := next }

def authIsError (st : AuthState) : Bool := st.toNat ≥ AuthState.error.toNat

def authIsDone (st : AuthState) : Bool := st.toNat ≥ AuthState.done.toNat

def authMachine : Lib.Machine AuthParser Byte where
  feed := authParserFeed
  done p := authIsDone p.state

def authConsume (b : Buffer) (p : AuthParser) : Buffer × AuthParser × Bool :=
  let (b', p) := consumeBuffer authMachine b p
  (b', p, bufferCanRead b && authIsError p.state)

def authMarshall (b : Buffer) (status : AuthStatus) : Option Buffer :=
  if bufferWritePtr b < 2 then none else some (bufferWrite (bufferWrite b 0x01) status.toByte)

theorem authMarshall_fills {b : Buffer} (status : AuthStatus) (h : 2 ≤ b.space) :
    ∃ b', authMarshall b status = some b' ∧ b.Fills [0x01, status.toByte] b' := by
  obtain ⟨hc₁, hs₁, hl₁, hr₁, hw₁⟩ := Buffer.bufferWrite_spec 0x01 (b := b) (by omega)
  obtain ⟨hc₂, hs₂, hl₂, hr₂, hw₂⟩ :=
    Buffer.bufferWrite_spec status.toByte (b := bufferWrite b 0x01) (by omega)
  refine ⟨_, if_neg (Nat.not_lt.mpr h), h, ?_, ?_, hl₂.trans hl₁, fun _ => ?_⟩
  · rw [hc₂, hc₁, List.append_assoc]
    rfl
  · simp only [List.length_cons, List.length_nil]
    omega
  · exact Buffer.rewound_of_write (hr₂.trans hr₁) (k := 2) (by omega) (by omega)

end Socks5d
