import Mathlib.Algebra.GroupWithZero.Nat
import Socks5d.Basic

/-!
# disector.c: the sniffer of POP3 credentials

`accesses` is not in the source: it lists the indices used on the arrays of
`struct disector` and on the keywords.
-/

namespace Socks5d

inductive DisectorState
  | waitPop | user | userCopy | password | passwordCopy | response | done | restart | incompatible
  deriving DecidableEq, Repr

/-- The position in `enum disector_state`. -/
def DisectorState.toNat : DisectorState → Nat
  | .waitPop => 0 | .user => 1 | .userCopy => 2 | .password => 3 | .passwordCopy => 4
  | .response => 5 | .done => 6 | .restart => 7 | .incompatible => 8

def disectorFieldSize : Nat := 0xff

instance keywords_ne_zero : NeZero 4 := ⟨by decide⟩

inductive DisectorAccess
  | user (index : Int)
  | pass (index : Int)
  | keyword (k : Fin 4) (index : Int)
  deriving DecidableEq, Repr

structure DisectorParser where
  user : List Byte := List.replicate disectorFieldSize 0
  pass : List Byte := List.replicate disectorFieldSize 0
  state : DisectorState := .waitPop
  i : UInt8 := 0
  userCarry : Bool := false
  accesses : List DisectorAccess := []
  deriving DecidableEq, Repr

/-- `TO_UPPER`. -/
def toUpper (c : Byte) : Byte := if c ≥ 0x61 then c - 0x20 else c

/-- `search[k]`: "+OK", "USER ", "PASS " and "+OK". -/
def search : Fin 4 → List Byte
  | 0 => [0x2b, 0x4f, 0x4b]
  | 1 => [0x55, 0x53, 0x45, 0x52, 0x20]
  | 2 => [0x50, 0x41, 0x53, 0x53, 0x20]
  | 3 => [0x2b, 0x4f, 0x4b]

namespace DisectorParser

/-- `search[k][p->i]`; the terminator is read as 0. -/
def keyword (p : DisectorParser) (k : Fin 4) : Byte := (search k).getD p.i.toNat 0

def touch (p : DisectorParser) (a : DisectorAccess) : DisectorParser :=
  { p with accesses := p.accesses ++ [a] }

def next (p : DisectorParser) : DisectorParser := { p with i := p.i + 1 }

def remainingIsDone (p : DisectorParser) (k : Fin 4) : Bool := p.i.toNat ≥ (search k).length - 1

def storeUser (p : DisectorParser) (index : Int) (c : Byte) : DisectorParser :=
  { p with user := if 0 ≤ index then p.user.set index.toNat c else p.user }.touch (.user index)

def storePass (p : DisectorParser) (index : Int) (c : Byte) : DisectorParser :=
  { p with pass := if 0 ≤ index then p.pass.set index.toNat c else p.pass }.touch (.pass index)

/-- The states that match a keyword byte by byte; `failed` is where a mismatch
leads. -/
def matching (p : DisectorParser) (k : Fin 4) (c : Byte) (failed matched : DisectorState) :
    DisectorParser × DisectorState :=
  let p' := p.touch (.keyword k p.i.toNat)
  if c = p.keyword k then
    let p' := p'.next
    (p', if p'.remainingIsDone k then matched else p.state)
  else (p', failed)

end DisectorParser

def disectorParserReset (p : DisectorParser) : DisectorParser :=
  { p with state := .user, i := if p.userCarry then 1 else 0, userCarry := false }

def disectorParserInit : DisectorParser := {}

namespace Disector

def waitPop (c : Byte) (p : DisectorParser) : DisectorParser × DisectorState :=
  p.matching 0 c .incompatible .user

def user (c : Byte) (p : DisectorParser) : DisectorParser × DisectorState :=
  p.matching 1 (toUpper c) .restart .userCopy

def userCopy (c : Byte) (p : DisectorParser) : DisectorParser × DisectorState :=
  if c = 0x0a then (p.storeUser ((p.i.toNat : Int) - 1) 0, .password)
  else ((p.storeUser p.i.toNat c).next, .userCopy)

def password (c : Byte) (p : DisectorParser) : DisectorParser × DisectorState :=
  let (p', st) := p.matching 2 (toUpper c) .restart .passwordCopy
  if st = .restart then
    (if toUpper c = (search 1).headD 0 then { p' with userCarry := true } else p', st)
  else (p', st)

def passwordCopy (c : Byte) (p : DisectorParser) : DisectorParser × DisectorState :=
  if c = 0x0a then (p.storePass ((p.i.toNat : Int) - 1) 0, .response)
  else ((p.storePass p.i.toNat c).next, .passwordCopy)

def response (c : Byte) (p : DisectorParser) : DisectorParser × DisectorState :=
  p.matching 3 c .restart .done

end Disector

/-- The `switch` of `disector_parser_feed`. -/
def disectorParserNext (p : DisectorParser) (c : Byte) : DisectorParser × DisectorState :=
  match p.state with
  | .waitPop => Disector.waitPop c p
  | .user => Disector.user c p
  | .userCopy => Disector.userCopy c p
  | .password => Disector.password c p
  | .passwordCopy => Disector.passwordCopy c p
  | .response => Disector.response c p
  | .done | .restart => (p, p.state)
  | .incompatible => (p, .restart)

def disectorParserFeed (p : DisectorParser) (c : Byte) : DisectorParser :=
  let (p', next) := disectorParserNext p c
  { p' with i := if next = p.state then p'.i else 0, state := next }

/-- The loop of `disector_consume`; the second component is `st`. A parser that
has to restart is reset, while `st` keeps `disector_restart`. -/
def disectorConsumeLoop : DisectorParser → DisectorState → List Byte → DisectorParser × DisectorState
  | p, st, [] => (p, st)
  | p, _, c :: bytes =>
    let p := disectorParserFeed p c
    if p.state = .restart then disectorConsumeLoop (disectorParserReset p) .restart bytes
    else if p.state = .incompatible then (p, .incompatible)
    else disectorConsumeLoop p p.state bytes

def disectorConsume (p : DisectorParser) (bytes : List Byte) : DisectorParser × DisectorState :=
  disectorConsumeLoop p p.state bytes

end Socks5d
