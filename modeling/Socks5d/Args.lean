import Mathlib.Algebra.Group.Int.Defs
import Socks5d.Users

/-!
# args.c: the command line of the server

`parse_args` is given what `getopt` returns, one option after the other, and the
arguments that are left. The texts that it prints before it exits are the
constructors of `Exit`. The users are registered by `main`.
-/

namespace Socks5d.Args

inductive Exit
  | usage
  | version
  | invalidPort (s : List Byte)
  | missingPassword (user : List Byte)
  | missingUsername (password : List Byte)
  | tooManyUsers
  | missingValue (option : Byte)
  | invalidOption (option : Byte)
  | argumentsNotAccepted (arguments : List CStr)
  deriving DecidableEq

/-- What `getopt` returns. -/
inductive Opt
  /-- -h. -/
  | help
  /-- -l. -/
  | socksAddr (optarg : CStr)
  /-- -L. -/
  | mngAddr (optarg : CStr)
  /-- -N. -/
  | disableDisectors
  /-- -p. -/
  | socksPort (optarg : CStr)
  /-- -P. -/
  | mngPort (optarg : CStr)
  /-- -u. -/
  | user (optarg : CStr)
  /-- -v. -/
  | version
  | missingValue (option : Byte)
  | unknown (option : Byte)

def defaultSocksAddr : CStr := ⟨[0x30, 0x2e, 0x30, 0x2e, 0x30, 0x2e, 0x30], by decide⟩

def defaultConfAddr : CStr := ⟨[0x31, 0x32, 0x37, 0x2e, 0x30, 0x2e, 0x30, 0x2e, 0x31], by decide⟩

/-- `struct socks5args`; `users` are the entries whose name is not NULL. -/
structure Socks5Args where
  socksAddr : CStr := defaultSocksAddr
  isDefaultSocksAddr : Bool := true
  socksPort : UInt16 := 1080
  mngAddr : CStr := defaultConfAddr
  isDefaultMngAddr : Bool := true
  mngPort : UInt16 := 8080
  disectorsEnabled : Bool := true
  users : List (CStr × CStr) := []

-- ---------------------------------------------------------------------------
-- The values
-- ---------------------------------------------------------------------------

def isSpace (c : Byte) : Bool := c = 0x20 || (0x09 ≤ c && c ≤ 0x0d)
def isDigit (c : Byte) : Bool := 0x30 ≤ c && c ≤ 0x39

def longMax : Int := 2 ^ 63 - 1
def longMin : Int := -2 ^ 63

/-- The sign that `strtol` accepts, and what follows it. -/
def sign : List Byte → Bool × List Byte
  | 0x2d :: rest => (true, rest)
  | 0x2b :: rest => (false, rest)
  | s => (false, s)

/-- `strtol(s, &end, 10)`: the value, and the bytes from `end` on. -/
def strtol (s : List Byte) : Int × List Byte :=
  let (negative, rest) := sign (s.dropWhile isSpace)
  let digits := rest.takeWhile isDigit
  if digits = [] then (0, s)
  else
    let n : Int := digits.foldl (fun n c => n * 10 + ((c - 0x30).toNat : Int)) 0
    (max longMin (min longMax (if negative then -n else n)), rest.drop digits.length)

/-- A value that `strtol` cut to fit is out of the range of a port, so `errno` does
not matter. -/
def port (s : CStr) : Except Exit UInt16 :=
  let (sl, stop) := strtol s.val
  if stop = s.val ∨ stop ≠ [] ∨ sl < 0 ∨ sl > 65535 then .error (.invalidPort s.val)
  else .ok sl.toNat.toUInt16

def colon : Byte := 0x3a

/-- `strchr(s, ':')`, as an index. -/
def strchr (s : List Byte) : Option Nat := s.findIdx? (· = colon)

def user (s : CStr) : Except Exit (CStr × CStr) :=
  match strchr s.val with
  | none => .error (.missingPassword s.val)
  | some i =>
    if s.val.head? = some colon then .error (.missingUsername (s.val.drop (i + 1)))
    else .ok (⟨s.val.take i, fun h => s.property (List.mem_of_mem_take h)⟩,
      ⟨s.val.drop (i + 1), fun h => s.property (List.mem_of_mem_drop h)⟩)

-- ---------------------------------------------------------------------------
-- The options
-- ---------------------------------------------------------------------------

/-- The `switch` of `parse_args`. -/
def parseOption (args : Socks5Args) : Opt → Except Exit Socks5Args
  | .help => .error .usage
  | .socksAddr optarg => .ok { args with socksAddr := optarg, isDefaultSocksAddr := false }
  | .mngAddr optarg => .ok { args with mngAddr := optarg, isDefaultMngAddr := false }
  | .disableDisectors => .ok { args with disectorsEnabled := false }
  | .socksPort optarg => do
    let socksPort ← port optarg
    return { args with socksPort }
  | .mngPort optarg => do
    let mngPort ← port optarg
    return { args with mngPort }
  | .user optarg =>
    if args.users.length ≥ maxUsers then .error .tooManyUsers
    else do
      let u ← user optarg
      return { args with users := args.users ++ [u] }
  | .version => .error .version
  | .missingValue option => .error (.missingValue option)
  | .unknown option => .error (.invalidOption option)

def parseArgs (options : List Opt) (arguments : List CStr) : Except Exit Socks5Args := do
  let args ← options.foldlM parseOption {}
  if arguments ≠ [] then .error (.argumentsNotAccepted arguments) else return args

def registerProxyUsers (t : Users) (users : List (CStr × CStr)) : Users :=
  users.foldl (fun t u => (socksv5RegisterUser t u.1 u.2).1) t

-- ---------------------------------------------------------------------------
-- The users of the command line
-- ---------------------------------------------------------------------------

theorem user_ok {s name pass : CStr} (h : user s = .ok (name, pass)) :
    name.val ≠ [] ∧ colon ∉ name.val ∧ s.val = name.val ++ colon :: pass.val := by
  unfold user at h
  split at h
  · cases h
  · rename_i i hi
    split at h
    · cases h
    · rename_i hhead
      cases h
      obtain ⟨hlt, hcolon, hfirst⟩ := List.findIdx?_eq_some_iff_getElem.mp hi
      have hcolon : s.val[i] = colon := of_decide_eq_true hcolon
      refine ⟨fun hnil => ?_, fun hmem => ?_, ?_⟩
      · obtain rfl : i = 0 := by
          rcases List.take_eq_nil_iff.mp hnil with hi | hs
          · exact hi
          · rw [hs] at hlt
            exact absurd hlt (Nat.not_lt_zero _)
        rw [List.head?_eq_getElem?, List.getElem?_eq_getElem hlt, hcolon] at hhead
        exact hhead rfl
      · obtain ⟨j, hj, heq⟩ := List.mem_take_iff_getElem.mp hmem
        have hno := hfirst j (by omega)
        rw [heq] at hno
        simp at hno
      · show s.val = s.val.take i ++ colon :: s.val.drop (i + 1)
        rw [← hcolon, ← List.drop_eq_getElem_cons hlt, List.take_append_drop]

theorem parseOption_users {args args' : Socks5Args} {o : Opt} (h : parseOption args o = .ok args') :
    ∀ u ∈ args'.users, u ∈ args.users ∨ u.1.val ≠ [] := by
  have hsame (heq : args'.users = args.users) : ∀ u ∈ args'.users, u ∈ args.users ∨ u.1.val ≠ [] :=
    fun u hu => .inl (heq ▸ hu)
  cases o with
  | socksAddr | mngAddr | disableDisectors =>
    cases h
    exact hsame rfl
  | socksPort optarg | mngPort optarg =>
    simp only [parseOption] at h
    cases hport : port optarg with
    | error e =>
      rw [hport] at h
      cases h
    | ok n =>
      rw [hport] at h
      cases h
      exact hsame rfl
  | user optarg =>
    simp only [parseOption] at h
    split at h
    · cases h
    · cases hu : user optarg with
      | error e =>
        rw [hu] at h
        cases h
      | ok u =>
        rw [hu] at h
        cases h
        intro u' hmem
        rcases List.mem_append.mp hmem with hmem | hmem
        · exact .inl hmem
        · rw [List.mem_singleton.mp hmem]
          exact .inr (user_ok hu).1
  | help | version | missingValue | unknown => cases h

theorem parseArgs_users {options : List Opt} {arguments : List CStr} {args : Socks5Args}
    (h : parseArgs options arguments = .ok args) : ∀ u ∈ args.users, u.1.val ≠ [] := by
  have hrun (options : List Opt) (args₀ args : Socks5Args)
      (h : options.foldlM parseOption args₀ = .ok args) (h₀ : ∀ u ∈ args₀.users, u.1.val ≠ []) :
      ∀ u ∈ args.users, u.1.val ≠ [] := by
    induction options generalizing args₀ with
    | nil =>
      cases h
      exact h₀
    | cons o options ih =>
      rw [List.foldlM_cons] at h
      cases hstep : parseOption args₀ o with
      | error e =>
        rw [hstep] at h
        cases h
      | ok args₁ =>
        rw [hstep] at h
        refine ih args₁ h fun u hu => ?_
        rcases parseOption_users hstep u hu with hold | hnew
        · exact h₀ u hold
        · exact hnew
  unfold parseArgs at h
  cases hfold : options.foldlM parseOption {} with
  | error e =>
    rw [hfold] at h
    cases h
  | ok args₁ =>
    rw [hfold] at h
    have hargs : args = args₁ := by
      by_cases harguments : arguments = []
      · subst harguments
        cases h
        rfl
      · simp only [bind, Except.bind, ne_eq, harguments, not_false_eq_true, ↓reduceIte] at h
        cases h
    rw [hargs]
    exact hrun options {} args₁ hfold fun u hu => absurd hu List.not_mem_nil

end Socks5d.Args
