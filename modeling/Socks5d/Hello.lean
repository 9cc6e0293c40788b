import Socks5d.Consume

/-!
# hello.c: the parser of the method selection message
-/

namespace Socks5d

inductive HelloState
  | version | nmethods | methods | done | errorUnsupportedVersion
  deriving DecidableEq, Repr

def socksHelloNoAuthenticationRequired : Byte := 0x00
def socksHelloUsernamePassword : Byte := 0x02
def socksHelloNoAcceptableMethods : Byte := 0xff

structure HelloParser (δ : Type) where
  state : HelloState := .version
  remaining : UInt8 := 0
  data : δ
  deriving DecidableEq, Repr

def helloParserInit (data : δ) : HelloParser δ := { data }

/-- `onMethod` is `on_authentication_method`. -/
def helloParserFeed (onMethod : δ → Byte → δ) (p : HelloParser δ) (b : Byte) : HelloParser δ :=
  match p.state with
  | .version => { p with state := if b = 0x05 then .nmethods else .errorUnsupportedVersion }
  | .nmethods => { p with remaining := b, state := if b ≤ 0 then .done else .methods }
  | .methods =>
    let remaining := p.remaining - 1
    { p with
      data := onMethod p.data b
      remaining
      state := if remaining ≤ 0 then .done else .methods }
  | .done | .errorUnsupportedVersion => p

def helloIsError (st : HelloState) : Bool := st = .errorUnsupportedVersion

def helloIsDone (st : HelloState) : Bool := st = .done || helloIsError st

def helloMachine (onMethod : δ → Byte → δ) : Lib.Machine (HelloParser δ) Byte where
  feed := helloParserFeed onMethod
  done p := helloIsDone p.state

/-- The last component is `*errored`: it is set by the byte that leads to an error. -/
def helloConsume (onMethod : δ → Byte → δ) (b : Buffer) (p : HelloParser δ) :
    Buffer × HelloParser δ × Bool :=
  let (b', p) := consumeBuffer (helloMachine onMethod) b p
  (b', p, bufferCanRead b && helloIsError p.state)

def helloMarshall (b : Buffer) (method : Byte) : Option Buffer := bufferMarshall b [0x05, method]

end Socks5d
