import Socks5d.Args
import Socks5d.Daemon
import Socks5d.Lib.Stages
import Socks5d.Monitor.Admins
import Socks5d.Selector.Seen

/-!
# server.c: main

`start` goes from the command line to the first call of `selector_select`, and
`final` is the way out. The answers of the environment are in `Kernel`. A server
that starts is where the runs of the process begin; one that does not start has
closed what it opened, but for a socket that could not be bound
(`start_outcome`). The texts of `fprintf` are left out.
-/

namespace Socks5d

open Lib (Stage)

namespace Main

inductive Passive
  | serverV4 | monitorV4 | serverV6 | monitorV6
  deriving DecidableEq, Repr

/-- The `fd_handler`s `socksv5` and `monitor`. -/
inductive PassiveHandler
  | socksv5 | monitor
  deriving DecidableEq, Repr

def Passive.handler : Passive → PassiveHandler
  | .serverV4 | .serverV6 => .socksv5
  | .monitorV4 | .monitorV6 => .monitor

def defaultSocksAddrV6 : CStr := ⟨[0x3a, 0x3a, 0x30], by decide⟩

def defaultConfAddrV6 : CStr := ⟨[0x3a, 0x3a, 0x31], by decide⟩

structure Kernel where
  /-- The descriptors that are open when the process begins. -/
  inherited : Nat → Bool
  inetPtonV4 : CStr → Bool
  inetPtonV6 : CStr → Bool
  socket : Passive → Option Nat
  bind : Passive → Bool
  listen : Passive → Bool
  nio : Passive → Bool
  selectorInit : Bool
  /-- Whether `malloc` and `calloc` succeed. -/
  alloc : Bool
  /-- `getenv("MONITOR_ROOT_TOKEN")`. -/
  rootToken : Option CStr

/-- The variables of `main` that its end looks at, and the open descriptors.
`fd` has `none` for `FD_UNUSED`. -/
structure Locals where
  files : Nat → Bool
  fd : Passive → Option Nat := fun _ => none
  errMsg : Option String := none
  ss : SelectorStatus := .success

inductive Stop
  | fault (f : Fault)
  /-- A call of `exit`. -/
  | exit (status : Int) (m : Locals)
  /-- `goto finally`. -/
  | final (m : Locals)

/-- What the loop of `main` starts with. -/
structure Server where
  m : Locals
  selector : Selector PassiveHandler Empty
  globals : Globals
  admins : Admins

-- ---------------------------------------------------------------------------
-- The sockets
-- ---------------------------------------------------------------------------

def Locals.openFile (m : Locals) (n : Nat) : Except Stop Locals :=
  if m.files n then .error (.fault .kernel)
  else .ok { m with files := Function.update m.files n true }

/-- `bind_ipv4_socket` and `bind_ipv6_socket`; -1 is `none`. Without a socket
`bind` is given -1, and fails. -/
def bindSocket (k : Kernel) (p : Passive) (m : Locals) : Except Stop (Locals × Option Nat) :=
  match k.socket p with
  | none => .ok (m, none)
  | some n => do
    let m ← m.openFile n
    return (m, if k.bind p && k.listen p then some n else none)

def passiveSocket (k : Kernel) (p : Passive) (wanted : Bool) (message : String) (m : Locals) :
    Except Stop Locals :=
  if wanted then do
    let (m, fd) ← bindSocket k p m
    match fd with
    | none => throw (.final { m with errMsg := message })
    | some n => return { m with fd := Function.update m.fd p n }
  else return m

def passiveSockets (k : Kernel) (args : Args.Socks5Args) (m : Locals) : Except Stop Locals := do
  let m ← passiveSocket k .serverV4 (k.inetPtonV4 args.socksAddr)
    "unable to create IPv4 socks socket" m
  let m ← passiveSocket k .monitorV4 (k.inetPtonV4 args.mngAddr)
    "unable to create IPv4 monitor socket" m
  let text := if args.isDefaultSocksAddr then defaultSocksAddrV6 else args.socksAddr
  let m ← passiveSocket k .serverV6
    (((m.fd .serverV4).isNone || args.isDefaultSocksAddr) && k.inetPtonV6 text)
    "unable to create IPv6 socket" m
  let text := if args.isDefaultMngAddr then defaultConfAddrV6 else args.mngAddr
  let m ← passiveSocket k .monitorV6
    (((m.fd .monitorV4).isNone || args.isDefaultMngAddr) && k.inetPtonV6 text)
    "unable to create IPv6 socket" m
  -- no message is set
  if (m.fd .serverV4).isNone && (m.fd .serverV6).isNone then throw (.final m)
  if (m.fd .monitorV4).isNone && (m.fd .monitorV6).isNone then throw (.final m)
  return m

/-- `selector_fd_set_nio` of a passive socket that is used. -/
def setNio (k : Kernel) (m : Locals) (p : Passive) (message : String) : Except Stop Unit :=
  if (m.fd p).isSome && !k.nio p then .error (.final { m with errMsg := message }) else .ok ()

-- ---------------------------------------------------------------------------
-- The selector
-- ---------------------------------------------------------------------------

/-- `selector_register` of a passive socket that is used. -/
def registerSocket (k : Kernel) (m : Locals) (p : Passive) (message : String)
    (s : Selector PassiveHandler Empty) : Except Stop (Selector PassiveHandler Empty) :=
  match m.fd p with
  | none => .ok s
  | some n =>
    match selectorRegister k.alloc s n p.handler opRead none with
    | .error f => .error (.fault f)
    | .ok (s, ss) =>
      if ss ≠ .success then .error (.final { m with errMsg := message, ss }) else .ok s

/-- From `selector_init` to the last `selector_register`. -/
def newSelector (k : Kernel) (m : Locals) : Except Stop (Selector PassiveHandler Empty) := do
  if k.selectorInit = false then throw (.final { m with errMsg := "initializing selector" })
  match selectorNew k.alloc 1024 with
  | none => throw (.final { m with errMsg := "unable to create selector" })
  | some s =>
    let s ← registerSocket k m .serverV4 "registering IPv4 socks fd" s
    let s ← registerSocket k m .serverV6 "registering IPv6 socks fd" s
    let s ← registerSocket k m .monitorV4 "registering IPv4 monitor fd" s
    registerSocket k m .monitorV6 "registering IPv6 monitor fd" s

-- ---------------------------------------------------------------------------
-- From the command line to the loop
-- ---------------------------------------------------------------------------

/-- What is open when the first socket is asked for: `main` closes the standard
input. -/
def Kernel.opened (k : Kernel) : Nat → Bool := Function.update k.inherited 0 false

/-- `-v` ends the process with 0, and everything else that `parse_args` does not
take with 1. -/
def exitStatus : Args.Exit → Int
  | .version => 0
  | _ => 1

/-- The results of `monitor_register_admin` and `socksv5_register_user` are not
looked at, or only printed. -/
def start (k : Kernel) (options : List Args.Opt) (arguments : List CStr) : Except Stop Server :=
  match Args.parseArgs options arguments with
  | .error e => .error (.exit (exitStatus e) { files := k.inherited })
  | .ok args => do
    let m ← passiveSockets k args { files := k.opened }
    setNio k m .serverV4 "getting socks server ipv4 socket flags"
    setNio k m .serverV6 "getting socks server ipv6 socket flags"
    setNio k m .monitorV4 "getting monitor server ipv4 socket flags"
    setNio k m .monitorV6 "getting monitor server ipv6 socket flags"
    let selector ← newSelector k m
    match k.rootToken with
    | none => throw (.exit 1 m)
    | some token =>
      let users := Args.registerProxyUsers {} args.users
      let isDisectorOn := args.disectorsEnabled
      return {
        m
        selector
        globals := { users, isDisectorOn }
        admins := (monitorRegisterAdmin {} defaultAdminUname token).1 }

-- ---------------------------------------------------------------------------
-- The way out
-- ---------------------------------------------------------------------------

/-- `ret`; `none` when it was not set, since `goto` passes over its
initialization. -/
def Locals.status (m : Locals) : Option Int :=
  if m.ss ≠ .success then some 2 else if m.errMsg.isSome then some 1 else none

def Locals.closeSocket (m : Locals) (p : Passive) : Locals :=
  match m.fd p with
  | none => m
  | some n => { m with files := Function.update m.files n false }

/-- The label `finally`. The handlers of the passive sockets have no
`handle_close`, and the pools are empty. -/
def Locals.final (m : Locals) : Locals :=
  [Passive.serverV4, .serverV6, .monitorV4, .monitorV6].foldl Locals.closeSocket m

/-- After the loop, which `selector_select` or a signal ended. -/
def Locals.afterLoop (m : Locals) (ss : SelectorStatus) : Locals :=
  if ss ≠ .success then { m with ss, errMsg := some "serving" }
  else { m with errMsg := some "closing" }

-- ---------------------------------------------------------------------------
-- The process that starts to serve
-- ---------------------------------------------------------------------------

def PassiveHandler.ofWorld : PassiveHandler → Option FdHandler
  | .socksv5 => some .passive
  | .monitor => none

def PassiveHandler.ofService : PassiveHandler → Option MonitorHandler
  | .socksv5 => some .proxy
  | .monitor => some .passive

def Server.daemon (d : Server) : Daemon where
  world := {
    globals := d.globals
    sel := d.selector.seenAs PassiveHandler.ofWorld
    files := fun n => if d.m.files n then some .system else none }
  service := {
    shared := { globals := d.globals, admins := d.admins }
    sel := d.selector.seenAs PassiveHandler.ofService
    files := fun n => if d.m.files n then some .others else none }
  same := rfl

def Server.process (d : Server) : Process where
  world := d.daemon.world

-- ---------------------------------------------------------------------------
-- What main has, and how it stops
-- ---------------------------------------------------------------------------

structure Held (k : Kernel) (m : Locals) : Prop where
  fresh : ∀ {p n}, m.fd p = some n → k.opened n = false
  distinct : ∀ {p q n}, m.fd p = some n → m.fd q = some n → p = q
  files : ∀ n, m.files n = true ↔ k.opened n = true ∨ ∃ p, m.fd p = some n
  quiet : m.errMsg = none ∧ m.ss = .success

def Kernel.Unparsed (k : Kernel) (isDefault : Bool) (addr defaultV6 : CStr) : Prop :=
  k.inetPtonV4 addr = false ∧ k.inetPtonV6 (if isDefault then defaultV6 else addr) = false

def NoAddress (k : Kernel) (args : Args.Socks5Args) : Prop :=
  k.Unparsed args.isDefaultSocksAddr args.socksAddr defaultSocksAddrV6 ∨
    k.Unparsed args.isDefaultMngAddr args.mngAddr defaultConfAddrV6

inductive Stopped (k : Kernel) (options : List Args.Opt) (arguments : List CStr) : Stop → Prop
  | kernel : Stopped k options arguments (.fault .kernel)
  | refused {e : Args.Exit} (h : Args.parseArgs options arguments = .error e) :
      Stopped k options arguments (.exit (exitStatus e) { files := k.inherited })
  | noSocket {m : Locals} {p : Passive} {message : String} (hm : Held k m) (hp : m.fd p = none)
      (h : k.socket p = none) :
      Stopped k options arguments (.final { m with errMsg := some message })
  | notBound {m : Locals} {p : Passive} {n : Nat} {message : String} (hm : Held k m)
      (hp : m.fd p = none) (h : k.socket p = some n) (hn : m.files n = false)
      (hrefused : k.bind p = false ∨ k.listen p = false) :
      Stopped k options arguments
        (.final { m with files := Function.update m.files n true, errMsg := some message })
  | noAddress {m : Locals} {args : Args.Socks5Args} (hm : Held k m)
      (hargs : Args.parseArgs options arguments = .ok args) (h : NoAddress k args) :
      Stopped k options arguments (.final m)
  | blocking {m : Locals} {p : Passive} {n : Nat} {message : String} (hm : Held k m)
      (hp : m.fd p = some n) (h : k.nio p = false) :
      Stopped k options arguments (.final { m with errMsg := some message })
  | noSelector {m : Locals} {message : String} (hm : Held k m)
      (h : k.selectorInit = false ∨ k.alloc = false) :
      Stopped k options arguments (.final { m with errMsg := some message })
  | tooLarge {m : Locals} {p : Passive} {n : Nat} {message : String} (hm : Held k m)
      (hp : m.fd p = some n) (hn : fdSetSize ≤ n) :
      Stopped k options arguments (.final { m with errMsg := some message, ss := .iargs })
  | noToken {m : Locals} (hm : Held k m) (h : k.rootToken = none) :
      Stopped k options arguments (.exit 1 m)

-- ---------------------------------------------------------------------------
-- The sockets
-- ---------------------------------------------------------------------------

variable {k : Kernel} {options : List Args.Opt} {arguments : List CStr} {m m' : Locals}

structure Bound (k : Kernel) (m : Locals) (p : Passive) (wanted : Bool) (m' : Locals) : Prop where
  held : Held k m'
  others : ∀ q, q ≠ p → m'.fd q = m.fd q
  used : m'.fd p = none ↔ wanted = false

theorem held_start : Held k { files := k.opened } := by
  constructor
  · intro p n hp
    cases hp
  · intro p q n hp
    cases hp
  · intro n
    simp
  · exact ⟨rfl, rfl⟩

theorem Held.store (hm : Held k m) {p : Passive} (hp : m.fd p = none) {n : Nat}
    (hn : m.files n = false) :
    Held k { m with files := Function.update m.files n true, fd := Function.update m.fd p n } := by
  have hclosed : ¬ (k.opened n = true ∨ ∃ q, m.fd q = some n) := by
    rw [← hm.files, hn]
    exact Bool.false_ne_true
  have hcases {q : Passive} {j : Nat} (hq : Function.update m.fd p (some n) q = some j) :
      (q = p ∧ j = n) ∨ (q ≠ p ∧ m.fd q = some j) := by
    by_cases heq : q = p
    · rw [heq, Function.update_self] at hq
      exact .inl ⟨heq, (Option.some.inj hq).symm⟩
    · rw [Function.update_of_ne heq] at hq
      exact .inr ⟨heq, hq⟩
  constructor
  · intro q j hq
    rcases hcases hq with ⟨-, rfl⟩ | ⟨-, hq⟩
    · exact Bool.eq_false_iff.mpr fun h => hclosed (.inl h)
    · exact hm.fresh hq
  · intro q r j hq hr
    rcases hcases hq with ⟨rfl, rfl⟩ | ⟨-, hq'⟩
    · rcases hcases hr with ⟨rfl, -⟩ | ⟨-, hr⟩
      · rfl
      · exact (hclosed (.inr ⟨r, hr⟩)).elim
    · rcases hcases hr with ⟨rfl, rfl⟩ | ⟨-, hr⟩
      · exact (hclosed (.inr ⟨q, hq'⟩)).elim
      · exact hm.distinct hq' hr
  · intro j
    by_cases hj : j = n
    · subst hj
      simp only [Function.update_self, true_iff]
      exact .inr ⟨p, Function.update_self ..⟩
    · simp only [Function.update_of_ne hj, hm.files]
      apply or_congr Iff.rfl
      constructor
      · rintro ⟨q, hq⟩
        have hne : q ≠ p := by
          rintro rfl
          rw [hp] at hq
          cases hq
        exact ⟨q, (Function.update_of_ne hne ..).trans hq⟩
      · rintro ⟨q, hq⟩
        rcases hcases hq with ⟨-, h⟩ | ⟨-, hq⟩
        · exact (hj h).elim
        · exact ⟨q, hq⟩
  · exact hm.quiet

theorem passiveSocket_stage (hm : Held k m) {p : Passive} (hp : m.fd p = none) (wanted : Bool)
    (message : String) :
    Stage (Stopped k options arguments) (Bound k m p wanted) (passiveSocket k p wanted message m) := by
  apply Stage.ite
  · intro hwanted
    cases hsocket : k.socket p with
    | none =>
      simp only [bindSocket, hsocket]
      exact .error (.noSocket hm hp hsocket)
    | some n =>
      simp only [bindSocket, hsocket, Locals.openFile]
      cases hn : m.files n with
      | true => exact .error .kernel
      | false =>
        cases hbound : k.bind p && k.listen p with
        | false => exact .error (.notBound hm hp hsocket hn (Bool.and_eq_false_iff.mp hbound))
        | true =>
          refine .ok ⟨hm.store hp hn, ?_, ?_⟩
          · intro q hq
            exact Function.update_of_ne hq ..
          · have hused : Function.update m.fd p (some n) p ≠ none := by
              rw [Function.update_self]
              exact Option.some_ne_none n
            rw [hwanted]
            exact iff_of_false hused Bool.true_eq_false.mp
  · intro hwanted
    exact .ok ⟨hm, fun q _ => rfl, iff_of_true hp (Bool.eq_false_iff.mpr hwanted)⟩

theorem unparsed_iff {v4 v6 : Option Nat} {isDefault : Bool} {addr defaultV6 : CStr}
    (h4 : v4 = none ↔ k.inetPtonV4 addr = false)
    (h6 : v6 = none ↔
      ((v4.isNone || isDefault) && k.inetPtonV6 (if isDefault then defaultV6 else addr)) = false) :
    (v4.isNone && v6.isNone) = true ↔ k.Unparsed isDefault addr defaultV6 := by
  rw [Bool.and_eq_true, Option.isNone_iff_eq_none, Option.isNone_iff_eq_none, Kernel.Unparsed, h6, ← h4]
  constructor
  · rintro ⟨rfl, hv6⟩
    exact ⟨rfl, by simpa using hv6⟩
  · rintro ⟨rfl, hv6⟩
    rw [hv6]
    exact ⟨rfl, Bool.and_false _⟩

def Listens (m : Locals) : Prop :=
  ∀ handler : PassiveHandler, ∃ p n, p.handler = handler ∧ m.fd p = some n

theorem listens_of (hs : ((m.fd .serverV4).isNone && (m.fd .serverV6).isNone) = false)
    (hm : ((m.fd .monitorV4).isNone && (m.fd .monitorV6).isNone) = false) : Listens m := by
  have hsome {p : Passive} (h : (m.fd p).isNone = false) : ∃ n, m.fd p = some n := by
    rw [← Option.isSome_iff_exists, ← Option.not_isNone, h]
    rfl
  intro handler
  cases handler with
  | socksv5 =>
    rcases Bool.and_eq_false_iff.mp hs with h | h
    · obtain ⟨n, hn⟩ := hsome h
      exact ⟨.serverV4, n, rfl, hn⟩
    · obtain ⟨n, hn⟩ := hsome h
      exact ⟨.serverV6, n, rfl, hn⟩
  | monitor =>
    rcases Bool.and_eq_false_iff.mp hm with h | h
    · obtain ⟨n, hn⟩ := hsome h
      exact ⟨.monitorV4, n, rfl, hn⟩
    · obtain ⟨n, hn⟩ := hsome h
      exact ⟨.monitorV6, n, rfl, hn⟩

theorem passiveSockets_stage {args : Args.Socks5Args}
    (hargs : Args.parseArgs options arguments = .ok args) :
    Stage (Stopped k options arguments) (fun m => Held k m ∧ Listens m)
      (passiveSockets k args { files := k.opened }) := by
  refine (passiveSocket_stage held_start rfl _ _).bind fun m₁ h₁ => ?_
  refine (passiveSocket_stage h₁.held (h₁.others .monitorV4 nofun) _ _).bind fun m₂ h₂ => ?_
  have hv6 : m₂.fd .serverV6 = none :=
    (h₂.others .serverV6 nofun).trans (h₁.others .serverV6 nofun)
  refine (passiveSocket_stage h₂.held hv6 _ _).bind fun m₃ h₃ => ?_
  have hv6 : m₃.fd .monitorV6 = none :=
    (h₃.others .monitorV6 nofun).trans
      ((h₂.others .monitorV6 nofun).trans (h₁.others .monitorV6 nofun))
  refine (passiveSocket_stage h₃.held hv6 _ _).bind fun m₄ h₄ => ?_
  -- the later sockets leave the earlier ones
  have hs4 : m₄.fd .serverV4 = m₂.fd .serverV4 :=
    (h₄.others .serverV4 nofun).trans (h₃.others .serverV4 nofun)
  have hm4 : m₄.fd .monitorV4 = m₃.fd .monitorV4 := h₄.others .monitorV4 nofun
  have hsocks : ((m₄.fd .serverV4).isNone && (m₄.fd .serverV6).isNone) = true ↔
      k.Unparsed args.isDefaultSocksAddr args.socksAddr defaultSocksAddrV6 := by
    rw [hs4, h₄.others .serverV6 nofun]
    exact unparsed_iff (h₂.others .serverV4 nofun ▸ h₁.used) h₃.used
  have hmonitor : ((m₄.fd .monitorV4).isNone && (m₄.fd .monitorV6).isNone) = true ↔
      k.Unparsed args.isDefaultMngAddr args.mngAddr defaultConfAddrV6 := by
    rw [hm4]
    exact unparsed_iff (h₃.others .monitorV4 nofun ▸ h₂.used) h₄.used
  apply Stage.ite
  · intro h
    exact .error (.noAddress h₄.held hargs (.inl (hsocks.mp h)))
  · intro h
    apply Stage.ite
    · intro h'
      exact .error (.noAddress h₄.held hargs (.inr (hmonitor.mp h')))
    · intro h'
      exact .ok ⟨h₄.held, listens_of (Bool.eq_false_iff.mpr h) (Bool.eq_false_iff.mpr h')⟩

-- ---------------------------------------------------------------------------
-- The selector
-- ---------------------------------------------------------------------------

theorem setNio_stage (hm : Held k m) (p : Passive) (message : String) :
    Stage (Stopped k options arguments) (fun _ => True) (setNio k m p message) := by
  apply Stage.ite
  · intro h
    obtain ⟨hused, hnio⟩ := Bool.and_eq_true_iff.mp h
    obtain ⟨n, hp⟩ := Option.isSome_iff_exists.mp hused
    exact .error (.blocking hm hp (Bool.not_eq_true' _ ▸ hnio))
  · intro _
    exact .ok trivial

structure Registered (m : Locals) (ps : List Passive) (s : Selector PassiveHandler Empty) : Prop where
  bounded : s.Bounded
  size : s.fds.length = fdSetSize + 1
  item : ∀ {n item}, s.entry n = some item →
    ∃ p ∈ ps, m.fd p = some n ∧ item.handler = some p.handler ∧ item.interest = opRead
  entry : ∀ {p n}, p ∈ ps → m.fd p = some n → ∃ item, s.entry n = some item

variable {ps : List Passive} {s s' : Selector PassiveHandler Empty} {p : Passive} {n : Nat}

theorem Registered.skip (hs : Registered m ps s) (hp : m.fd p = none) : Registered m (p :: ps) s := by
  refine ⟨hs.bounded, hs.size, ?_, ?_⟩
  · intro j item he
    obtain ⟨q, hq, hitem⟩ := hs.item he
    exact ⟨q, List.mem_cons_of_mem p hq, hitem⟩
  · intro q j hq hj
    rcases List.mem_cons.mp hq with rfl | hq
    · cases hp.symm.trans hj
    · exact hs.entry hq hj

theorem Registered.free (hs : Registered m ps s) (hm : Held k m) (hp : p ∉ ps) (hfd : m.fd p = some n) :
    s.entry n = none := by
  cases he : s.entry n with
  | none => rfl
  | some item =>
    obtain ⟨q, hq, hqn, -⟩ := hs.item he
    exact (hp (hm.distinct hqn hfd ▸ hq)).elim

theorem Registered.add (hs : Registered m ps s) (hfd : m.fd p = some n) {serial : Nat}
    (hbounded : s'.Bounded) (hsize : s'.fds.length = s.fds.length)
    (hself : s'.entry n = some ⟨n, opRead, some p.handler, none, serial⟩)
    (hother : ∀ j, j ≠ n → s'.entry j = s.entry j) : Registered m (p :: ps) s' := by
  refine ⟨hbounded, hsize.trans hs.size, ?_, ?_⟩
  · intro j item he
    by_cases hj : j = n
    · subst hj
      rw [hself] at he
      cases he
      exact ⟨p, List.mem_cons_self, hfd, rfl, rfl⟩
    · rw [hother j hj] at he
      obtain ⟨q, hq, hitem⟩ := hs.item he
      exact ⟨q, List.mem_cons_of_mem p hq, hitem⟩
  · intro q j hq hj
    by_cases hjn : j = n
    · subst hjn
      exact ⟨_, hself⟩
    · rw [hother j hjn]
      rcases List.mem_cons.mp hq with rfl | hq
      · rw [hfd] at hj
        exact (hjn (Option.some.inj hj).symm).elim
      · exact hs.entry hq hj

theorem registerSocket_stage (hm : Held k m) (hs : Registered m ps s) (hp : p ∉ ps) (message : String) :
    Stage (Stopped k options arguments) (Registered m (p :: ps)) (registerSocket k m p message s) := by
  unfold registerSocket
  cases hfd : m.fd p with
  | none => exact .ok (hs.skip hfd)
  | some n =>
    by_cases hn : n < fdSetSize
    · have hsize : n < s.fds.length := by
        rw [hs.size]
        exact Nat.lt_succ_of_lt hn
      obtain ⟨s', hreg, -, hlen, -, -, hself, hother⟩ := Selector.register_spec hs.bounded.ok hn
        hsize (hs.free hm hp hfd) k.alloc p.handler opRead none
      have hbounded := hs.bounded.register hreg
      simp only [hreg]
      exact .ok (hs.add hfd hbounded hlen hself hother)
    · have hinvalid : invalidFd n = true := by
        rw [Selector.invalidFd_natCast]
        exact decide_eq_true (Nat.not_lt.mp hn)
      simp only [Selector.register_invalid s hinvalid]
      exact .error (.tooLarge hm hfd (Nat.not_lt.mp hn))

theorem registered_new : Registered m [] { fds := List.replicate (nextCapacity 1024) {} } := by
  have hbounded := Selector.bounded_new (η := PassiveHandler) (δ := Empty) (Nat.le_refl fdSetSize)
    (Selector.selectorNew_eq 1024 (Nat.le_refl _))
  refine ⟨hbounded, ?_, ?_, ?_⟩
  · rw [List.length_replicate]
    simp [nextCapacity, shiftCount, itemsMaxSize, fdSetSize]
  · intro n item he
    rw [Selector.entry_empty] at he
    cases he
  · intro p n hp
    cases hp

theorem newSelector_stage (hm : Held k m) :
    Stage (Stopped k options arguments)
      (Registered m [.monitorV6, .monitorV4, .serverV6, .serverV4]) (newSelector k m) := by
  apply Stage.ite
  · intro h
    exact .error (.noSelector hm (.inl h))
  · intro _
    cases halloc : k.alloc with
    | false => exact .error (.noSelector hm (.inr halloc))
    | true =>
      rw [Selector.selectorNew_eq 1024 (Nat.le_refl _)]
      have hs := registered_new (m := m)
      refine (registerSocket_stage hm hs (by decide) _).bind fun s₁ h₁ => ?_
      refine (registerSocket_stage hm h₁ (by decide) _).bind fun s₂ h₂ => ?_
      refine (registerSocket_stage hm h₂ (by decide) _).bind fun s₃ h₃ => ?_
      exact registerSocket_stage hm h₃ (by decide) _

-- ---------------------------------------------------------------------------
-- The way out
-- ---------------------------------------------------------------------------

theorem closeSockets_files (ps : List Passive) (m : Locals) (n : Nat) :
    (ps.foldl Locals.closeSocket m).files n = true ↔
      m.files n = true ∧ ∀ p ∈ ps, m.fd p ≠ some n := by
  induction ps generalizing m with
  | nil => simp
  | cons p ps ih =>
    rw [List.foldl_cons, ih, Locals.closeSocket]
    cases hp : m.fd p with
    | none => simp [hp]
    | some j =>
      by_cases hj : n = j
      · simp [hp, hj]
      · simp [hp, Function.update_of_ne hj, Ne.symm hj]

theorem final_files (m : Locals) (n : Nat) :
    m.final.files n = true ↔ m.files n = true ∧ ∀ p, m.fd p ≠ some n := by
  rw [Locals.final, closeSockets_files]
  apply and_congr Iff.rfl
  constructor
  · intro h p
    cases p <;> exact h _ (by decide)
  · intro h p _
    exact h p

theorem Held.final_opened (hm : Held k m) {n : Nat} (hn : m'.final.files n = true)
    (h : m'.fd = m.fd) (hfiles : m'.files n = m.files n) : k.opened n = true := by
  obtain ⟨hopen, hnone⟩ := (final_files m' n).mp hn
  rw [hfiles, hm.files] at hopen
  rcases hopen with hopen | ⟨p, hp⟩
  · exact hopen
  · exact (hnone p (h ▸ hp)).elim

theorem Held.final_files (hm : Held k m) : m.final.files = k.opened := by
  funext n
  rw [Bool.eq_iff_iff]
  constructor
  · intro hn
    exact hm.final_opened hn rfl rfl
  · intro hn
    rw [Main.final_files, hm.files]
    refine ⟨.inl hn, ?_⟩
    intro p hp
    exact Bool.false_ne_true ((hm.fresh hp).symm.trans hn)

/-- What is left open, and the status of the process, when `main` stops before
its loop. -/
structure Left (k : Kernel) (options : List Args.Opt) (arguments : List CStr) (m : Locals) : Prop where
  files : ∀ n, m.final.files n = true → k.opened n = true ∨
    ∃ p, k.socket p = some n ∧ (k.bind p = false ∨ k.listen p = false)
  status : m.status = some 1 ∨ m.status = some 2 ∨ m.status = none ∧
    ∃ args, Args.parseArgs options arguments = .ok args ∧ NoAddress k args

theorem Stopped.left (h : Stopped k options arguments (.final m)) : Left k options arguments m := by
  have hstatus {m : Locals} (hm : Held k m) (message : String) :
      { m with errMsg := some message }.status = some 1 := by
    unfold Locals.status
    rw [if_neg (not_not.mpr hm.quiet.2)]
    rfl
  cases h with
  | noSocket hm hp hsocket =>
    exact ⟨fun n hn => .inl (hm.final_opened hn rfl rfl), .inl (hstatus hm _)⟩
  | @notBound m p j message hm hp hsocket hj hrefused =>
    refine ⟨?_, .inl (hstatus hm _)⟩
    intro n hn
    by_cases hnj : n = j
    · exact .inr ⟨p, hnj ▸ hsocket, hrefused⟩
    · exact .inl (hm.final_opened hn rfl (Function.update_of_ne hnj ..))
  | noAddress hm hargs hno =>
    refine ⟨fun n hn => .inl (hm.final_opened hn rfl rfl), .inr (.inr ⟨?_, _, hargs, hno⟩)⟩
    unfold Locals.status
    rw [hm.quiet.2, hm.quiet.1]
    rfl
  | blocking hm hp hnio =>
    exact ⟨fun n hn => .inl (hm.final_opened hn rfl rfl), .inl (hstatus hm _)⟩
  | noSelector hm hfailed =>
    exact ⟨fun n hn => .inl (hm.final_opened hn rfl rfl), .inl (hstatus hm _)⟩
  | tooLarge hm hp hn =>
    exact ⟨fun n hn => .inl (hm.final_opened hn rfl rfl), .inr (.inl rfl)⟩

-- ---------------------------------------------------------------------------
-- The server that starts
-- ---------------------------------------------------------------------------

/-- A server that starts: what the command line and the environment ask for, the
sockets in the selector, and the states that the runs of the process begin with. -/
structure Serves (k : Kernel) (options : List Args.Opt) (arguments : List CStr) (d : Server) :
    Prop where
  asked : ∃ args token, Args.parseArgs options arguments = .ok args ∧ k.rootToken = some token ∧
    d.globals = { users := Args.registerProxyUsers {} args.users, isDisectorOn := args.disectorsEnabled } ∧
    d.admins = rootAdmins token
  listens : Listens d.m
  registered : ∀ n handler, (∃ item, d.selector.entry n = some item ∧ item.handler = some handler) ↔
    ∃ p : Passive, p.handler = handler ∧ d.m.fd p = some n
  daemon : d.daemon.Initial
  process : d.process.Initial
  closes : ∀ ss, (d.m.afterLoop ss).final.files = k.opened ∧
    (d.m.afterLoop ss).status = some (if ss = .success then 1 else 2)

theorem registerProxyUsers_whole {t : Users} (ht : t.Whole) (users : List (CStr × CStr)) :
    (Args.registerProxyUsers t users).Whole := by
  induction users generalizing t with
  | nil => exact ht
  | cons u users ih => exact ih (ht.register u.1 u.2)

section

variable {d : Server}

theorem Registered.world (h : Registered d.m ps d.selector) (hm : Held k d.m)
    {users : Users} {isDisectorOn : Bool} (hglobals : d.globals = { users, isDisectorOn })
    (husers : d.globals.users.Whole) : d.daemon.world.Initial := by
  refine ⟨?_, h.bounded.ok.seenAs, ?_, fun _ => rfl, rfl, ⟨rfl, rfl⟩, ?_, rfl, rfl, ?_, ?_,
    husers.registered⟩
  · exact (List.length_map ..).trans h.size
  · intro n item' he
    obtain ⟨item, hitem, hseen⟩ := Selector.entry_seenAs he
    obtain ⟨p, -, hp, hhandler, -⟩ := h.item hitem
    obtain ⟨handler, handler', -, hview, hh⟩ := hseen.handler
    refine ⟨?_, hseen.data, if_pos ((hm.files n).mpr (.inr ⟨p, hp⟩))⟩
    rw [hh]
    cases handler with
    | socksv5 => exact hview.symm
    | monitor => cases hview
  · intro n c
    show (if d.m.files n then some Owner.system else none) ≠ _
    split <;> exact nofun
  · show d.globals.isAuthOn = true
    rw [hglobals]
  · show d.globals.historicConnections = 0 ∧ d.globals.currentConnections = 0 ∧
      d.globals.bytesTransferred = 0
    rw [hglobals]
    exact ⟨rfl, rfl, rfl⟩

theorem Registered.service (h : Registered d.m ps d.selector) (husers : d.globals.users.Whole)
    (hadmins : d.admins.Valid) : d.daemon.service.Initial := by
  refine ⟨?_, h.bounded.ok.seenAs, ?_, fun _ => rfl, rfl, ⟨rfl, rfl⟩, ?_, husers, hadmins⟩
  · exact (List.length_map ..).trans h.size
  · intro n item' he
    obtain ⟨item, -, hseen⟩ := Selector.entry_seenAs he
    obtain ⟨handler, handler', -, hview, hh⟩ := hseen.handler
    rw [hh]
    cases handler with
    | socksv5 => exact .inr hview.symm
    | monitor => exact .inl hview.symm
  · intro n c
    show (if d.m.files n then some MonitorOwner.others else none) ≠ _
    split <;> exact nofun

theorem Registered.process (h : Registered d.m ps d.selector) (hworld : d.daemon.world.Initial) :
    d.process.Initial := by
  refine ⟨hworld, h.bounded.seenAs, ?_, rfl, rfl, rfl, rfl, rfl, rfl, rfl⟩
  intro n item' he
  obtain ⟨item, hitem, hseen⟩ := Selector.entry_seenAs he
  obtain ⟨p, -, -, -, hinterest⟩ := h.item hitem
  exact hseen.interest.trans hinterest

end

theorem Registered.entry_iff (h : Registered m ps s) (hm : Held k m) (hall : ∀ p, p ∈ ps) (n : Nat)
    (handler : PassiveHandler) :
    (∃ item, s.entry n = some item ∧ item.handler = some handler) ↔
      ∃ p : Passive, p.handler = handler ∧ m.fd p = some n := by
  constructor
  · rintro ⟨item, he, hh⟩
    obtain ⟨p, -, hp, hitem, -⟩ := h.item he
    exact ⟨p, Option.some.inj (hitem.symm.trans hh), hp⟩
  · rintro ⟨p, rfl, hp⟩
    obtain ⟨item, he⟩ := h.entry (hall p) hp
    obtain ⟨q, -, hq, hitem, -⟩ := h.item he
    cases hm.distinct hq hp
    exact ⟨item, he, hitem⟩

theorem Held.afterLoop (hm : Held k m) (ss : SelectorStatus) :
    (m.afterLoop ss).final.files = k.opened ∧
      (m.afterLoop ss).status = some (if ss = .success then 1 else 2) := by
  have hfinal : (m.afterLoop ss).final.files = m.final.files := by
    funext n
    rw [Bool.eq_iff_iff, Main.final_files, Main.final_files, Locals.afterLoop]
    split <;> rfl
  rw [hfinal]
  refine ⟨hm.final_files, ?_⟩
  unfold Locals.afterLoop Locals.status
  by_cases hss : ss = .success
  · subst hss
    simp [hm.quiet.2]
  · simp [hss]

theorem start_stage (k : Kernel) (options : List Args.Opt) (arguments : List CStr) :
    Stage (Stopped k options arguments) (Serves k options arguments) (start k options arguments) := by
  unfold start
  cases hargs : Args.parseArgs options arguments with
  | error e => exact .error (.refused hargs)
  | ok args =>
    refine (passiveSockets_stage hargs).bind fun m ⟨hm, hlistens⟩ => ?_
    refine (setNio_stage hm _ _).bind fun _ _ => ?_
    refine (setNio_stage hm _ _).bind fun _ _ => ?_
    refine (setNio_stage hm _ _).bind fun _ _ => ?_
    refine (setNio_stage hm _ _).bind fun _ _ => ?_
    refine (newSelector_stage hm).bind fun selector hregistered => ?_
    cases htoken : k.rootToken with
    | none => exact .error (.noToken hm htoken)
    | some token =>
      have husers : (Args.registerProxyUsers {} args.users).Whole :=
        registerProxyUsers_whole .empty args.users
      have hadmins : (rootAdmins token).Valid := Admins.Valid.empty.register defaultAdminUname token
      let d : Server := ⟨m, selector, { users := Args.registerProxyUsers {} args.users
                                        isDisectorOn := args.disectorsEnabled }, rootAdmins token⟩
      have hworld : d.daemon.world.Initial := hregistered.world hm rfl husers
      have hservice : d.daemon.service.Initial := hregistered.service husers hadmins
      have hprocess : d.process.Initial := hregistered.process hworld
      have hentry := hregistered.entry_iff hm (by intro p; cases p <;> decide)
      exact .ok ⟨⟨args, token, hargs, htoken, rfl, rfl⟩, hlistens, hentry, ⟨hworld, hservice⟩,
        hprocess, hm.afterLoop⟩

/-- Every start of the server. Either it stops in one of the ways of `Stopped`, and
where it does so by itself it has closed its sockets, up to one that could not be
bound; or it listens for both services, and its state is one that the runs of
the process begin with. -/
theorem start_outcome (k : Kernel) (options : List Args.Opt) (arguments : List CStr) :
    (∀ stop, start k options arguments = .error stop → Stopped k options arguments stop) ∧
    (∀ m, start k options arguments = .error (.final m) → Left k options arguments m) ∧
    ∀ d, start k options arguments = .ok d → Serves k options arguments d := by
  have hstage := start_stage k options arguments
  refine ⟨hstage.stops, ?_, hstage.ends⟩
  intro m hm
  exact (hstage.stops _ hm).left

-- ---------------------------------------------------------------------------
-- The token of the root administrator
-- ---------------------------------------------------------------------------

theorem rootAdmins_short {token : CStr} (h : token.val.length ≠ tokenSize) : rootAdmins token = {} := by
  unfold rootAdmins monitorRegisterAdmin
  rw [if_neg (by decide)]
  exact congrArg Prod.fst (if_pos h)

theorem not_registered {t : Admins} (h : t.registered = 0) (token : List Byte) : ¬ t.Registered token := by
  rintro ⟨i, a, hi, -⟩
  rw [h] at hi
  exact Nat.not_lt_zero i hi

theorem served_without_admins {s s' : Shared} {stream response : List Byte} {p : MonitorParser}
    (h : RequestServed s stream s' p response) (hs : s.admins.registered = 0) :
    (p.response s).1 ≠ 0 ∧ (p.response s).2 = [0] ∧ s.Drifts s' := by
  obtain ⟨hstatus, hdata⟩ := h.responds.unauthorised (not_registered hs _)
  exact ⟨hstatus, hdata, (h.responds.failed hstatus).drifts⟩

theorem chain_without_admins {s s' : Shared} {served : List Service.Request}
    (h : Lib.Chain monitorProtocol s served s') (hs : s.admins.registered = 0) :
    (s'.admins.registered = 0 ∧ s.Drifts s') ∧ ∀ r ∈ served, r.before.admins.registered = 0 := by
  have hdrifts {t t' : Shared} (ht : t.admins.registered = 0 ∧ s.Drifts t) (hd : t.Drifts t') :
      t'.admins.registered = 0 ∧ s.Drifts t' := ⟨hd.admins ▸ ht.1, ht.2.trans hd⟩
  have hserves {t t' : Shared} {stream response : List Byte}
      (ht : t.admins.registered = 0 ∧ s.Drifts t) (h : monitorProtocol.serves t stream t' response) :
      t'.admins.registered = 0 ∧ s.Drifts t' := by
    obtain ⟨p, hp⟩ := h
    exact hdrifts ht (served_without_admins hp ht.1).2.2
  obtain ⟨hend, hall⟩ := h.invariant hdrifts hserves ⟨hs, .refl s⟩
  refine ⟨hend, ?_⟩
  intro r hr
  exact (hall r hr).1

/-- The token of the environment decides who can use the monitor, since the result
of `monitor_register_admin` is not looked at. With one of the right length the root
administrator is there in every run, and whoever sends the token is let in. With any
other the server starts all the same; nobody can ever ask for anything, and the
users and the disector stay as the command line has them. -/
theorem root_token_decides {d : Server} (h : start k options arguments = .ok d) {d' : Daemon}
    (hr : Daemon.Reachable d.daemon d') :
    ∃ token, k.rootToken = some token ∧ ∃ served : List Service.Request,
      Lib.Chain monitorProtocol d.daemon.service.shared served d'.service.shared ∧
      (∀ r ∈ served, d.daemon.service.ServedIn d'.service r) ∧
      (∀ c s, d'.service.sessions c = some s → s.view.Recorded served c) ∧
      (token.val.length = tokenSize → d'.service.shared.admins.Rooted (rootAdmin token) ∧
        (∀ r ∈ served, Service.Lets token r) ∧
        ∀ c s, d'.service.sessions c = some s → tokenOf s.received = token.val →
          s.sent.head? ≠ some MonitorStatus.errorAuth.toByte) ∧
      (token.val.length ≠ tokenSize → d'.service.shared.admins.registered = 0 ∧
        d.globals.Tables d'.world.globals ∧
        ∀ r ∈ served, ∃ p, RequestServed r.before r.request r.after p r.response ∧
          (p.response r.before).1 ≠ 0 ∧ (p.response r.before).2 = [0]) := by
  have hserves := (start_stage k options arguments).ends d h
  obtain ⟨args, token, -, htoken, hglobals, hadmins⟩ := hserves.asked
  obtain ⟨-, hservice⟩ := Daemon.runs_project hserves.daemon hr
  have hwired := hservice.wired hserves.daemon.service
  obtain ⟨served, hlinear, hserved⟩ := hserves.daemon.service.runs hservice
  have hrecorded : ∀ c s, d'.service.sessions c = some s → s.view.Recorded served c :=
    fun c s hc => hlinear.recorded (Service.desk_sessions hc)
  refine ⟨token, htoken, served, hlinear.chain, hserved, hrecorded, ?_, ?_⟩
  · intro hlen
    have hroot : d.daemon.service.shared.admins.Rooted (rootAdmin token) := by
      show d.admins.Rooted (rootAdmin token)
      rw [hadmins]
      exact Admins.rooted_rootAdmins hlen
    obtain ⟨hend, hall⟩ := Service.root_authorised hlen hroot hlinear.chain
    exact ⟨hend, hall, fun c s hc ht => hwired.lets hc (hrecorded c s hc) hall ht⟩
  · intro hlen
    have hnone : d.daemon.service.shared.admins.registered = 0 := by
      show d.admins.registered = 0
      rw [hadmins, rootAdmins_short hlen]
    -- nobody is there to change anything
    obtain ⟨⟨hend, hdrift⟩, hall⟩ := chain_without_admins hlinear.chain hnone
    refine ⟨hend, ?_, ?_⟩
    · rw [← d'.same]
      exact ⟨hdrift.users, hdrift.isDisectorOn⟩
    · intro r hmem
      obtain ⟨-, -, -, -, ⟨p, hp⟩, -⟩ := hlinear.chain.split hmem
      obtain ⟨hstatus, hdata, -⟩ := served_without_admins hp (hall r hmem)
      exact ⟨p, hp, hstatus, hdata⟩

-- ---------------------------------------------------------------------------
-- A concrete start
-- ---------------------------------------------------------------------------

def plainKernel (token : CStr) : Kernel where
  inherited n := n ≤ 2
  inetPtonV4 text := text = Args.defaultSocksAddr || text = Args.defaultConfAddr
  inetPtonV6 text := text = defaultSocksAddrV6 || text = defaultConfAddrV6
  socket
    | .serverV4 => some 0
    | .monitorV4 => some 3
    | .serverV6 => some 4
    | .monitorV6 => some 5
  bind _ := true
  listen _ := true
  nio _ := true
  selectorInit := true
  alloc := true
  rootToken := some token

def shortToken : CStr := ⟨[0x61], by decide⟩

def asksForAnother : List Daemon.Event :=
  [.monitor (.accept 3 { answer := some 6 }), .monitor (.ready 6 false { recv := some addAdminRequest }),
    .monitor (.ready 6 true { send := some 1 })]

theorem start_outcome_plain : ∃ d, start (plainKernel shortToken) [] [] = .ok d ∧
    Serves (plainKernel shortToken) [] [] d := by
  have hrun : (start (plainKernel shortToken) [] []).toBool = true := by decide +kernel
  cases hd : start (plainKernel shortToken) [] [] with
  | error stop =>
    rw [hd] at hrun
    cases hrun
  | ok d => exact ⟨d, rfl, (start_outcome (plainKernel shortToken) [] []).2.2 d hd⟩

theorem plain_run (token : CStr) (p : MonitorSession → Bool)
    (h : (start (plainKernel token) [] []).toOption.any (fun d =>
      Lib.endsIn (fun d' : Daemon => (d'.service.sessions 0).any p)
        (Lib.play Daemon.step Daemon.Allowed d.daemon asksForAnother)) = true) :
    ∃ d d' s, start (plainKernel token) [] [] = .ok d ∧ Daemon.Reachable d.daemon d' ∧
      d'.service.sessions 0 = some s ∧ p s = true := by
  cases hd : start (plainKernel token) [] [] with
  | error stop =>
    rw [hd] at h
    cases h
  | ok d =>
    rw [hd] at h
    obtain ⟨d', hplay, hend⟩ := Lib.endsIn_iff.mp h
    obtain ⟨s, hc, hs⟩ := (Option.any_eq_true ..).mp hend
    exact ⟨d, d', s, rfl, Lib.reaches_of_play hplay, hc, hs⟩

/-- The request of the root administrator, with a short token and with the right one. -/
theorem root_token_decides_plain :
    (∃ d d' s, start (plainKernel shortToken) [] [] = .ok d ∧ Daemon.Reachable d.daemon d' ∧
      d'.service.sessions 0 = some s ∧ s.received = addAdminRequest ∧
      s.sent.head? = some MonitorStatus.errorAuth.toByte ∧
      d'.service.shared.admins.registered = 0 ∧ d.globals.Tables d'.world.globals) ∧
    ∃ d d' s, start (plainKernel rootToken) [] [] = .ok d ∧ Daemon.Reachable d.daemon d' ∧
      d'.service.sessions 0 = some s ∧ tokenOf s.received = rootToken.val ∧
      s.sent.head? = some MonitorStatus.succeeded.toByte ∧
      s.sent.head? ≠ some MonitorStatus.errorAuth.toByte ∧
      d'.service.shared.admins.Rooted (rootAdmin rootToken) ∧ ∃ served : List Service.Request,
        Lib.Chain monitorProtocol d.daemon.service.shared served d'.service.shared ∧
        ∃ r ∈ served, d.daemon.service.ServedIn d'.service r ∧ r.request = addAdminRequest ∧
          Service.Lets rootToken r := by
  constructor
  · obtain ⟨d, d', s, hd, hreach, hc, hs⟩ := plain_run shortToken (fun s =>
      decide (s.received = addAdminRequest ∧ s.sent.head? = some MonitorStatus.errorAuth.toByte))
      (by decide +kernel)
    obtain ⟨hreceived, hsent⟩ := of_decide_eq_true hs
    obtain ⟨token, htoken, served, -, -, -, -, hshort⟩ := root_token_decides hd hreach
    cases htoken
    obtain ⟨hnone, htables, -⟩ := hshort (by decide)
    exact ⟨d, d', s, hd, hreach, hc, hreceived, hsent, hnone, htables⟩
  · obtain ⟨d, d', s, hd, hreach, hc, hs⟩ := plain_run rootToken (fun s =>
      decide (s.received = addAdminRequest ∧ s.sent.head? = some MonitorStatus.succeeded.toByte))
      (by decide +kernel)
    obtain ⟨hreceived, hsent⟩ := of_decide_eq_true hs
    obtain ⟨token, htoken, served, hchain, hserved, hrecorded, hroot, -⟩ := root_token_decides hd hreach
    cases htoken
    obtain ⟨hrooted, hlets, hsents⟩ := hroot (by decide)
    have ht : tokenOf s.received = rootToken.val := by
      rw [hreceived]
      decide
    refine ⟨d, d', s, hd, hreach, hc, ht, hsent, hsents 0 s hc ht, hrooted, served, hchain, ?_⟩
    -- what was sent belongs to a request of the run
    have hserves := (start_stage (plainKernel rootToken) [] []).ends d hd
    have hwired := (Daemon.runs_project hserves.daemon hreach).2.wired hserves.daemon.service
    rcases hwired.sent hc (hrecorded 0 s hc) with hnone | ⟨r, hr, -, hreq, -⟩
    · rw [hnone] at hsent
      cases hsent
    · exact ⟨r, hr, hserved r hr, hreq.trans hreceived, hlets r hr⟩

end Main

end Socks5d
