import Socks5d.Auth

/-!
# socks5nio.c: the table of proxy users

The table is an array of `MAX_USERS` slots, each a name directly followed by a
password, and `registered_users`, the number of slots in use. `strcmp` reads
the memory from the start of a slot up to a NUL, whatever array that NUL is in.
-/

namespace Socks5d

def maxUsers : Nat := 10

structure User where
  uname : List Byte := List.replicate credentialSize 0
  passwd : List Byte := List.replicate credentialSize 0
  deriving DecidableEq, Repr

/-- `users` and `registered_users`. -/
structure Users where
  slots : List User := List.replicate maxUsers {}
  registered : Nat := 0
  deriving DecidableEq, Repr

def Users.memory (t : Users) (i : Nat) : List Byte :=
  (t.slots.drop i).flatMap fun u => u.uname ++ u.passwd

/-- `strcmp(uname, users[i].uname) == 0`. -/
def Users.sameName (t : Users) (uname : CStr) (i : Nat) : Bool := uname.val = cstr (t.memory i)

/-- `strncpy(dst, src, n)`, as the `n` bytes it leaves. -/
def strncpy (src : CStr) (n : Nat) : List Byte :=
  src.val.take n ++ List.replicate (n - src.val.length) 0

/-- `strncmp(a, b, n) == 0`. -/
def strncmpEq (a b : List Byte) (n : Nat) : Bool := cstr (a.take n) = cstr (b.take n)

def socksv5RegisterUser (t : Users) (uname passwd : CStr) : Users × Int :=
  if t.registered ≥ maxUsers then (t, 1)
  else if (List.range t.registered).any (t.sameName uname) then (t, -1)
  else
    ({ slots := t.slots.set t.registered
        { uname := strncpy uname credentialSize, passwd := strncpy passwd credentialSize }
       registered := t.registered + 1 }, 0)

def socksv5UnregisterUser (t : Users) (uname : CStr) : Users × Int :=
  match (List.range t.registered).find? (t.sameName uname) with
  | some i =>
    -- memmove of the slots behind it; the last one in use keeps its old bytes
    ({ slots := t.slots.take i ++ (t.slots.drop (i + 1)).take (t.registered - (i + 1)) ++
        t.slots.drop (t.registered - 1)
       registered := t.registered - 1 }, 0)
  | none => (t, -1)

/-- The comparison of `auth_process` with slot `i`. -/
def Users.accepts (t : Users) (auth : Auth) (i : Nat) : Bool :=
  match t.slots[i]? with
  | some u => strncmpEq auth.uname u.uname credentialSize &&
      strncmpEq auth.passwd u.passwd credentialSize
  | none => false

/-- The loop of `auth_process`: the first entry that matches. -/
def Users.authenticate (t : Users) (auth : Auth) : Option Nat :=
  (List.range t.registered).find? (t.accepts auth)

end Socks5d
