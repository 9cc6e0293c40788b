import Socks5d.Args
import Socks5d.Login
import Socks5d.Monitor.Requests

/-!
# Users and their logins

Users come from the command line and from the monitor. Neither lets an empty name
through, and both let an empty password through; but the parser of AUTH compares the
length of a field only after it stored a byte of it, so a client that sends an empty
password is not answered.
-/

namespace Socks5d

open Lib (Machine)

-- ---------------------------------------------------------------------------
-- The names that the monitor accepts
-- ---------------------------------------------------------------------------

/-- A parser that was fed some bytes. Other connections may have changed the statics
in between. -/
inductive MonitorParser.Fed : MonitorParser → Prop
  | init : Fed monitorParserInit
  | feed (st : Statics) {p : MonitorParser} (c : Byte) (h : Fed p) : Fed (monitorParserFeed st p c).2

def MonitorParser.Named (p : MonitorParser) : Prop :=
  ∃ c rest, p.monitor.data.user = c :: rest ∧ c ≠ 0

structure MonitorParser.Naming (p : MonitorParser) : Prop where
  early : p.state.toNat < MonitorState.dlen.toNat ∨
    p.state = .dlen ∧ p.monitor.target = monitorTargetConfigAddProxyuser →
      p.monitor.data.user ≠ [] ∧ p.separated = false
  data : p.state = .data → p.monitor.target = monitorTargetConfigAddProxyuser →
    p.monitor.data.user ≠ [] ∧ p.i = 0 ∧ p.separated = false ∨ p.i ≠ 0 ∧ p.i < p.len ∧ p.Named
  done : p.state = .done → p.monitor.method = monitorMethodConfig →
    p.monitor.target = monitorTargetConfigAddProxyuser → p.Named

namespace MonitorParser

variable {p : MonitorParser}

theorem Named.storeUser (h : p.Named) {i : UInt16} (hi : i ≠ 0) (c : Byte) :
    ∃ a rest, p.monitor.data.user.set i.toNat c = a :: rest ∧ a ≠ 0 := by
  obtain ⟨a, rest, huser, ha⟩ := h
  have hpos : i.toNat ≠ 0 := fun h0 => hi (UInt16.toNat_inj.mp h0)
  obtain ⟨k, hk⟩ := Nat.exists_eq_succ_of_ne_zero hpos
  exact ⟨a, rest.set k c, by rw [huser, hk]; rfl, ha⟩

theorem next_lt {i len : UInt16} (h : i = 0 ∨ i < len) (hmore : ¬ i + 1 ≥ len) :
    i + 1 ≠ 0 ∧ i + 1 < len := by
  have hlen := len.toNat_lt
  rw [ge_iff_le, UInt16.le_iff_toNat_le, Nat.not_le] at hmore
  have hnext : (i + 1).toNat = i.toNat + 1 := by
    rcases h with rfl | h
    · rfl
    · rw [UInt16.lt_iff_toNat_lt] at h
      rw [UInt16.toNat_add, UInt16.toNat_one]
      omega
  refine ⟨fun h0 => ?_, UInt16.lt_iff_toNat_lt.mpr hmore⟩
  rw [h0] at hnext
  cases hnext

theorem Naming.of_early {q : MonitorParser} {state : MonitorState} (hdata : state ≠ .data)
    (hdone : state ≠ .done) (h : q.monitor.data.user ≠ [] ∧ q.separated = false) :
    Naming { q with state } :=
  ⟨fun _ => h, fun heq => absurd heq hdata, fun heq => absurd heq hdone⟩

theorem Naming.of_error {q : MonitorParser} {state : MonitorState}
    (h : MonitorState.done.toNat < state.toNat) : Naming { q with state } := by
  have hlt : MonitorState.dlen.toNat < state.toNat := Nat.lt_trans (by decide) h
  have hne {st : MonitorState} (hle : st.toNat ≤ MonitorState.done.toNat) : state ≠ st := by
    rintro rfl
    exact Nat.not_lt.mpr hle h
  refine ⟨fun hearly => ?_, fun heq => absurd heq (hne (by decide)),
    fun heq => absurd heq (hne (by decide))⟩
  rcases hearly with hearly | hearly
  · exact absurd hlt (Nat.lt_asymm hearly)
  · exact absurd hearly.1 (hne (by decide))

theorem Naming.of_data {q : MonitorParser} (h : q.monitor.target = monitorTargetConfigAddProxyuser →
    q.monitor.data.user ≠ [] ∧ q.i = 0 ∧ q.separated = false ∨ q.i ≠ 0 ∧ q.i < q.len ∧ q.Named) :
    Naming { q with state := .data } := by
  refine ⟨fun hearly => ?_, fun _ => h, fun heq => ?_⟩
  · rcases hearly with hearly | hearly
    · exact absurd hearly (by simp [MonitorState.toNat])
    · cases hearly.1
  · cases heq

theorem Naming.of_done {q : MonitorParser} (h : q.monitor.method = monitorMethodConfig →
    q.monitor.target = monitorTargetConfigAddProxyuser → q.Named) : Naming { q with state := .done } := by
  refine ⟨fun hearly => ?_, fun heq => ?_, fun _ => h⟩
  · rcases hearly with hearly | hearly
    · exact absurd hearly (by simp [MonitorState.toNat])
    · cases hearly.1
  · cases heq

inductive NameStep (q : MonitorParser) : MonitorState → Prop
  | bad : NameStep q .errorInvalidData
  | more (hne : q.i ≠ 0) (hlt : q.i < q.len) (h : q.Named) : NameStep q .data
  | done (h : q.Named) : NameStep q .done

theorem NameStep.naming {q : MonitorParser} {state : MonitorState} (h : NameStep q state) :
    Naming { q with state } := by
  cases h with
  | bad => exact .of_error (by decide)
  | more hne hlt h => exact .of_data fun _ => .inr ⟨hne, hlt, h⟩
  | done h => exact .of_done fun _ _ => h

theorem NameStep.of_stored {q : MonitorParser} (hp : p.i = 0 ∨ p.i < p.len) (hi : q.i = p.i + 1)
    (hlen : q.len = p.len) (hnamed : q.Named) {st : Statics} {r : Statics × MonitorParser × MonitorState}
    (hr : (if q.remainingIsDone then (st, { storePass q q.i.toNat 0 with separated := false }, .done)
      else (st, q, .data)) = r) : NameStep r.2.1 r.2.2 := by
  split at hr
  · subst hr
    exact .done hnamed
  · rename_i hmore
    subst hr
    simp only [remainingIsDone, decide_eq_true_eq, hi, hlen] at hmore
    obtain ⟨hne, hlt⟩ := next_lt hp hmore
    exact .more (hi ▸ hne) (by rw [hi, hlen]; exact hlt) hnamed

theorem Naming.addState (h : p.Naming) (hs : p.state = .data)
    (ht : p.monitor.target = monitorTargetConfigAddProxyuser) (st : Statics) (c : Byte) :
    NameStep (Monitor.addState .proxyUser storePass c st p).2.1
      (Monitor.addState .proxyUser storePass c st p).2.2 := by
  have hp : p.i = 0 ∨ p.i < p.len := (h.data hs ht).imp (·.2.1) (·.2.1)
  unfold Monitor.addState
  split
  · exact .bad
  · rename_i hzero
    split
    · rename_i hc
      have hc0 : c ≠ 0 := by
        rintro rfl
        exact absurd hc (by decide)
      refine NameStep.of_stored hp ?_ ?_ ?_ rfl
      · split <;> rfl
      · split <;> rfl
      · rcases h.data hs ht with ⟨huser, hi, hsep⟩ | ⟨hi, -, hnamed⟩
        · obtain ⟨a, rest, huser⟩ := List.exists_cons_of_ne_nil huser
          rw [if_pos hsep]
          refine ⟨c, rest, ?_, hc0⟩
          show p.monitor.data.user.set p.i.toNat c = _
          rw [hi, huser]
          rfl
        · split
          · exact hnamed.storeUser hi c
          · exact hnamed
    · split
      · rename_i hsep
        obtain ⟨rfl, -⟩ := hsep
        refine NameStep.of_stored (q := { (p.storeUser .proxyUser p.i.toNat 0).next with
          separated := true }) hp rfl rfl ?_ rfl
        rcases h.data hs ht with ⟨-, hi, -⟩ | ⟨hi, -, hnamed⟩
        · exact absurd ⟨hi, rfl⟩ hzero
        · exact hnamed.storeUser hi 0
      · exact .bad

theorem Naming.of_other {r : Statics × MonitorParser × MonitorState} (hr : KeepsHeader p r)
    (ht : p.monitor.target ≠ monitorTargetConfigAddProxyuser) :
    Naming { r.2.1 with state := r.2.2 } := by
  rw [← hr.header.target] at ht
  refine ⟨fun h => ?_, fun _ h => absurd h ht, fun _ _ h => absurd h ht⟩
  rcases h with h | h
  · exact absurd h (Nat.not_lt.mpr hr.state)
  · exact absurd h.2 ht

theorem Naming.dataState (h : p.Naming) (hs : p.state = .data) (st : Statics) (c : Byte) :
    Naming { (Monitor.dataState c st p).2.1 with state := (Monitor.dataState c st p).2.2 } := by
  by_cases ht : p.monitor.target = monitorTargetConfigAddProxyuser
  · rw [addProxyuser_adding.data st p c ht]
    exact (h.addState hs ht st c).naming
  · exact .of_other (dataState_header c st p) ht

theorem Naming.dlenState (h : p.Naming) (hs : p.state = .dlen) (st : Statics) (c : Byte) :
    Naming { (Monitor.dlenState c st p).2.1 with state := (Monitor.dlenState c st p).2.2 } := by
  by_cases ht : p.monitor.target = monitorTargetConfigAddProxyuser
  · obtain ⟨huser, hsep⟩ := h.early (.inr ⟨hs, ht⟩)
    obtain ⟨r, hr⟩ : ∃ r, Monitor.dlenState c st p = r := ⟨_, rfl⟩
    rw [hr]
    have hadd : (p.storing .combinedlen p.i.toNat).next.monitor.target =
        monitorTargetConfigAddProxyuser := ht
    have hpop : monitorTargetConfigAddProxyuser ≠ monitorTargetConfigPop3disector := by decide
    simp only [Monitor.dlenState, hadd, if_neg hpop, true_or, ↓reduceIte] at hr
    split at hr
    · subst hr
      exact .of_data fun _ => .inl ⟨huser, rfl, hsep⟩
    · subst hr
      exact .of_early (by simp) (by simp) ⟨huser, hsep⟩
  · exact .of_other (dlenState_header c st p) ht

theorem Naming.targetState (h : p.Naming) (hs : p.state = .target) (c : Byte) :
    Naming { (Monitor.targetState c p).1 with state := (Monitor.targetState c p).2 } := by
  have hearly := h.early (.inl (by rw [hs]; decide))
  unfold Monitor.targetState
  split
  · rename_i hget
    split
    · exact .of_done fun hconfig => absurd (hget.symm.trans hconfig) (by decide)
    · exact .of_error (by simp [MonitorState.toNat])
  · split
    · split
      · exact .of_early (by simp) (by simp) hearly
      · exact .of_error (by simp [MonitorState.toNat])
    · exact .of_error (by simp [MonitorState.toNat])

theorem Naming.feed (h : p.Naming) (st : Statics) (c : Byte) :
    (monitorParserFeed st p c).2.Naming := by
  rw [monitorParserFeed_eq]
  cases hs : p.state with
  | version =>
    have hearly := h.early (.inl (by rw [hs]; decide))
    simp only [monitorParserNext, hs, Monitor.versionState]
    split
    · exact .of_early (by simp) (by simp) hearly
    · exact .of_error (by simp [MonitorState.toNat])
  | token =>
    have hearly := h.early (.inl (by rw [hs]; decide))
    simp only [monitorParserNext, hs, Monitor.tokenState]
    split <;> exact .of_early (by simp) (by simp) hearly
  | method =>
    have hearly := h.early (.inl (by rw [hs]; decide))
    simp only [monitorParserNext, hs]
    obtain ⟨r, hr⟩ : ∃ r, Monitor.methodState c p = r := ⟨_, rfl⟩
    rw [hr]
    unfold Monitor.methodState at hr
    split at hr
    · subst hr
      exact .of_early (by simp) (by simp) hearly
    · subst hr
      exact .of_error (by simp [MonitorState.toNat])
  | target =>
    simp only [monitorParserNext, hs]
    exact h.targetState hs c
  | dlen =>
    simp only [monitorParserNext, hs]
    exact h.dlenState hs st c
  | data =>
    simp only [monitorParserNext, hs]
    exact h.dataState hs st c
  | _ =>
    simp only [monitorParserNext, hs]
    rw [← hs]
    exact h

theorem Fed.naming (h : p.Fed) : p.Naming := by
  induction h with
  | init =>
    have huser : monitorParserInit.monitor.data.user ≠ [] :=
      List.ne_nil_of_length_pos (Nat.lt_of_lt_of_eq (by decide) List.length_replicate.symm)
    exact .of_early (by decide) (by decide) ⟨huser, rfl⟩
  | feed st c _ ih => exact ih.feed st c

theorem Fed.proxyUser_ne_nil (h : p.Fed) (hdone : p.state = .done)
    (hmethod : p.monitor.method = monitorMethodConfig)
    (htarget : p.monitor.target = monitorTargetConfigAddProxyuser) : p.monitor.proxyUser.val ≠ [] := by
  obtain ⟨c, rest, huser, hc⟩ := h.naming.done hdone hmethod htarget
  show cstr (p.monitor.data.user ++ p.monitor.data.pass) ≠ []
  rw [huser, List.cons_append, cstr, List.takeWhile_cons_of_pos (by simpa using hc)]
  exact List.cons_ne_nil _ _

end MonitorParser

-- ---------------------------------------------------------------------------
-- Users
-- ---------------------------------------------------------------------------

inductive Source (u p : CStr) : Prop
  | option {options : List Args.Opt} {arguments : List CStr} {args : Args.Socks5Args}
      (h : Args.parseArgs options arguments = .ok args) (hmem : (u, p) ∈ args.users)
  | monitor {q : MonitorParser} (h : q.Fed) (hdone : q.state = .done)
      (hmethod : q.monitor.method = monitorMethodConfig)
      (htarget : q.monitor.target = monitorTargetConfigAddProxyuser)
      (hu : q.monitor.proxyUser = u) (hp : q.monitor.proxyPass = p)

theorem Source.name_ne_nil {u p : CStr} (h : Source u p) : u.val ≠ [] := by
  cases h with
  | option h hmem => exact Args.parseArgs_users h _ hmem
  | monitor h hdone hmethod htarget hu hp =>
    rw [← hu]
    exact h.proxyUser_ne_nil hdone hmethod htarget

/-- The table has the entry that `socksv5_register_user` makes. -/
def Users.Registered (t : Users) (u p : CStr) : Prop :=
  { uname := strncpy u credentialSize, passwd := strncpy p credentialSize } ∈ t.slots.take t.registered

instance (t : Users) (u p : CStr) : Decidable (t.Registered u p) :=
  inferInstanceAs (Decidable (_ ∈ _))

theorem Users.Whole.registered_of_zero {t : Users} (h : t.Whole) {u p : CStr}
    (hzero : (socksv5RegisterUser t u p).2 = 0) : (socksv5RegisterUser t u p).1.Registered u p := by
  obtain ⟨r, hr⟩ : ∃ r, socksv5RegisterUser t u p = r := ⟨_, rfl⟩
  rw [hr] at hzero ⊢
  unfold socksv5RegisterUser at hr
  split at hr
  · subst hr
    cases hzero
  · rename_i hfree
    split at hr
    · subst hr
      cases hzero
    · subst hr
      have hlt : t.registered < t.slots.length := h.slots ▸ Nat.lt_of_not_ge hfree
      rw [Users.Registered, List.mem_take_iff_getElem]
      refine ⟨t.registered, ?_, by simp⟩
      simp only [List.length_set]
      omega

theorem Users.Registered.register {t : Users} {u p : CStr} (h : t.Registered u p) (u' p' : CStr) :
    (socksv5RegisterUser t u' p').1.Registered u p := by
  unfold socksv5RegisterUser
  split
  · exact h
  split
  · exact h
  · obtain ⟨k, hk, heq⟩ := List.mem_take_iff_getElem.mp h
    rw [Users.Registered, List.mem_take_iff_getElem]
    refine ⟨k, by simp only [List.length_set]; omega, ?_⟩
    rw [List.getElem_set_ne (by omega)]
    exact heq

/-- The loop of `main`: what it registers with the result 0 stays in the table. -/
theorem registerProxyUsers_registered {t : Users} (ht : t.Whole) {before after : List (CStr × CStr)}
    {u p : CStr} (hzero : (socksv5RegisterUser (Args.registerProxyUsers t before) u p).2 = 0) :
    (Args.registerProxyUsers t (before ++ (u, p) :: after)).Registered u p := by
  have hwhole : (Args.registerProxyUsers t before).Whole := by
    clear hzero
    induction before generalizing t with
    | nil => exact ht
    | cons a before ih => exact ih (ht.register a.1 a.2)
  have hlast {t : Users} (h : t.Registered u p) : (Args.registerProxyUsers t after).Registered u p := by
    induction after generalizing t with
    | nil => exact h
    | cons a after ih => exact ih (h.register a.1 a.2)
  rw [Args.registerProxyUsers, List.foldl_append]
  exact hlast (hwhole.registered_of_zero hzero)

theorem Users.Registered.authenticate {t : Users} {u p : CStr} (h : t.Registered u p)
    (hu : u.val.length ≤ 255) (hp : p.val.length ≤ 255) :
    (t.authenticate (loginAuth u.val p.val)).isSome = true := by
  rw [Option.isSome_iff_ne_none]
  intro hnone
  rw [authenticate_none_iff hu hp] at hnone
  obtain ⟨k, hk, heq⟩ := List.mem_take_iff_getElem.mp h
  refine hnone k ⟨by omega, _, List.getElem?_eq_getElem (by omega), ?_⟩
  have hfield {l : CStr} (hl : l.val.length ≤ credentialSize) :
      cstr ((strncpy l credentialSize).take credentialSize) = cstr l.val := by
    rw [List.take_of_length_le (Nat.le_of_eq (length_strncpy ..)), cstr_strncpy_le hl,
      cstr_eq_self l.property]
  rw [heq]
  exact ⟨hfield hu, hfield hp⟩

-- ---------------------------------------------------------------------------
-- The table that the credentials were looked for in
-- ---------------------------------------------------------------------------

/-- The user is in the table whenever something arrives in AUTH_READ. -/
def StillRegistered (u p : CStr) : World.Condition := fun g s _ =>
  s.stm = some .authRead → g.users.Registered u p

instance (u p : CStr) (g : Globals) (s : Socks5) (ce : ConnEvent) :
    Decidable (StillRegistered u p g s ce) := inferInstanceAs (Decidable (_ → _))

def Action.LooksIn (P : Users → Prop) (a : Action) : Prop :=
  ∀ users auth status, a = .authProcess users auth status → P users

theorem Action.LooksIn.of_not_process {P : Users → Prop} {a : Action} (h : a.isProcess = false) :
    a.LooksIn P := by
  rintro users auth status rfl
  cases h

namespace View

variable {v v' : View} {io : Io} {c : ConnId} {P : Users → Prop}

theorem Outcome.looksIn {fd : Nat} {write : Bool} {ret : SocksState}
    (h : Outcome io c v fd write v' ret) (hP : v.s.stm = some .authRead → P v.globals.users) :
    Adds (Action.LooksIn P) v.s.log v'.s.log := by
  have hother {a : Action} (ha : a.isProcess = false) : a.LooksIn P := .of_not_process ha
  have hfirst {a : Action} (ha : a.isProcess = false) : Adds (Action.LooksIn P) v.s.log (v.s.log ++ [a]) :=
    (Adds.refl _ _).concat (hother ha)
  by_cases hprocess : v.s.stm = some .authRead ∨ v.s.stm = some .requestRead
  · cases h with
    | recvFailed | sendFailed | authMore | requestMore => exact hfirst rfl
    | authDone hst =>
      refine (hfirst rfl).concat ?_
      rintro users auth status heq
      cases heq
      exact hP hst
    | requestDone hst hr hc hdone hprocess =>
      exact ((hfirst rfl).concat (by rintro _ _ _ ⟨⟩)).trans
        (hprocess.lines.mono fun _ ha => hother (isProcess_of_isQuiet ha.2))
    | _ => simp_all
  · exact h.lines.mono fun _ ha => hother (Bool.eq_false_iff.mpr fun hp => hprocess (ha.process hp))

theorem advance_looksIn (v : View) (next : SocksState) :
    Adds (Action.LooksIn P) v.s.log (v.advance next).s.log :=
  (advance_lines v next).mono fun a ha => .of_not_process (by cases a <;> first | rfl | cases ha)

end View

-- ---------------------------------------------------------------------------
-- Logins
-- ---------------------------------------------------------------------------

/-- The message of RFC 1929, for credentials whose lengths have a byte. -/
def IsLogin (uname passwd message : List Byte) : Prop :=
  uname.length ≤ 255 ∧ passwd.length ≤ 255 ∧ message = loginBytes uname passwd

section

variable (start : Socks5) (message : List Byte)

/-- All of 01 00 was sent, or what is left of it waits for the client to read. -/
def LoggedIn (s : Socks5) (lines : List Action) : Prop :=
  Replying authExchange start message [0x01, 0x00] s lines ∨
    Replied authExchange start message [0x01, 0x00] .requestRead (fun _ => True) s lines

def Looked (P : Users → Prop) (s : Socks5) : Prop :=
  ∃ lines, Since start s lines ∧ ∀ a ∈ lines, a.LooksIn P

end

variable {start s : Socks5} {message : List Byte} {lines : List Action} {P : Users → Prop}

theorem Looked.adds {s' : Socks5} (h : Looked start P s) (hadds : Adds (Action.LooksIn P) s.log s'.log)
    (hfd : s'.clientFd = s.clientFd) : Looked start P s' := by
  obtain ⟨lines, hsince, hlines⟩ := h
  obtain ⟨more, hmore, hP⟩ := hadds
  refine ⟨lines ++ more, hsince.append hmore hfd, fun a ha => ?_⟩
  rcases List.mem_append.mp ha with ha | ha
  · exact hlines a ha
  · exact hP a ha

theorem LoginCourse.loggedIn {auth : Auth} (h : LoginCourse start message auth s lines)
    (hP : ∀ users, P users → (users.authenticate auth).isSome = true)
    (hlooks : ∀ a ∈ lines, a.LooksIn P) (hall : message <+: start.stream lines)
    (hreceived : receivedFrom start.clientFd lines ≠ [])
    (hsends : .sendFailed start.clientFd ∉ lines) : LoggedIn start message s lines := by
  have hfound {users : Users} {status : AuthStatus} (hmem : .authProcess users auth status ∈ lines) :
      (users.authenticate auth).isSome = true := hP users (hlooks _ hmem users auth status rfl)
  cases h with
  | hearing _ h => exact (h.missing.elim hreceived (· hall)).elim
  | hungUp h => exact (h.missing.elim hreceived (· hall)).elim
  | sendFailed _ h => exact absurd h hsends
  | replying hp _ _ h =>
    rw [judged, if_pos (hfound hp)] at h
    exact .inl h
  | accepted hp hk h =>
    obtain ⟨phase, rest, trailing, hlines, hsent, hstream, hlast⟩ := h
    exact .inr ⟨phase, rest, trailing, hlines, hsent, hstream,
      fun hnil => ⟨(hlast hnil).1, (hlast hnil).2.1, trivial⟩⟩
  | rejected hp hnone _ h =>
    have hsome := hfound hp
    rw [hnone] at hsome
    cases hsome

theorem LoggedIn.not_of_silent (hst : s.stm ≠ some .authWrite)
    (hunsent : sentTo start.clientFd lines = []) : ¬ LoggedIn start message s lines := by
  rintro (h | ⟨phase, rest, trailing, rfl, hsent, -, -⟩)
  · exact hst h.state
  · rw [sentTo_append, hsent] at hunsent
    cases hunsent

theorem LoginCourse.not_loggedIn {auth : Auth} {c : Byte}
    (h : LoginCourse start (message ++ [c]) auth s lines) (hall : start.stream lines = message)
    (hsends : .sendFailed start.clientFd ∉ lines) : ¬ LoggedIn start message s lines := by
  have hshort (rest : List Byte) (heq : start.stream lines = message ++ [c] ++ rest) : False := by
    have hlength := congrArg List.length (hall.symm.trans heq)
    simp only [List.length_append, List.length_singleton] at hlength
    omega
  have hreplied {reply : List Byte} {next : SocksState} {Q : Socks5 → Prop}
      (h : Replied authExchange start (message ++ [c]) reply next Q s lines) : False := by
    obtain ⟨phase, rest, trailing, rfl, -, hstream, -⟩ := h
    refine hshort (trailing ++ receivedFrom start.clientFd (.enter (some .authWrite) next :: rest)) ?_
    rw [stream_append, hstream, List.append_assoc _ trailing]
    rfl
  cases h with
  | hearing _ h =>
    refine LoggedIn.not_of_silent (fun hst => ?_) h.unsent
    exact absurd (h.state.symm.trans hst) (by simp [authExchange])
  | hungUp h =>
    refine LoggedIn.not_of_silent (fun hst => ?_) h.2.1
    exact absurd (h.1.symm.trans hst) (by simp)
  | sendFailed _ h => exact absurd h hsends
  | replying _ _ _ h => exact (hshort _ h.rest).elim
  | accepted _ _ h => exact (hreplied h).elim
  | rejected _ _ _ h => exact (hreplied h).elim

theorem unpassworded_ends {uname : List Byte} (hu : 0 < uname.length ∧ uname.length ≤ 255) (c : Byte) :
    ∃ q, authMachine.Ends authParserInit (loginBytes uname [] ++ [c]) q ∧
      authIsError q.state = false := by
  obtain ⟨q, hreads, hst, hi, hlen, hauth⟩ := uname_reads hu.1 hu.2 ([] : List Byte).length.toUInt8
  obtain ⟨before, last, q', hbytes, hreads', -, hstate⟩ := AuthParser.field_fed (f := .passwd) [c] hst hi
    (by rw [hauth]; exact Nat.le_trans (by simp) (Nat.le_of_eq length_zeros.symm)) (by rw [hlen]; rfl)
  refine ⟨authMachine.feed q' last, ?_, by rw [hstate]; rfl⟩
  have hends : authMachine.Ends q [c] (authMachine.feed q' last) :=
    hbytes ▸ hreads'.ends rfl (by show authIsDone _ = true; rw [hstate]; rfl)
  have hall := hreads.append_ends hends
  rwa [← List.append_nil ([0x01, uname.length.toUInt8] ++ uname ++ [_])] at hall

namespace World

variable {w₀ w w' : World} {c : ConnId} {s : Socks5} {u p : CStr}

theorem looked_followed (h₀ : w₀.Initial) (h : Reachable w₀ w) (hc : w.conns c = some ⟨s, true⟩)
    (hst : s.stm = some .authRead)
    (h' : Lib.Reaches World.step (MeetsOf c (StillRegistered u p)) w w') :
    ∃ conn, w'.conns c = some conn ∧ Looked s (·.Registered u p) conn.s := by
  refine (h.carries h₀).follow_running (J := Looked s (·.Registered u p)) ?_ ?_ ?_ hc ?_ ?_ h'
  · intro v fd write io v₁ ret hs hen hv hcond hout
    have hP : v.s.stm = some .authRead → v.globals.users.Registered u p := by
      intro hread
      rcases hcond with hhello | hcond
      · rw [hhello] at hread
        cases hread
      · exact hcond hread
    exact hv.adds ((hout.looksIn hP).trans (View.advance_looksIn v₁ ret))
      ((View.advance_same v₁ ret).2.1.trans hout.clientFd)
  · intro v answer io v₁ ret hs hst hv hres
    have hlines := hres.lines.mono fun a ha =>
      Action.LooksIn.of_not_process (P := (·.Registered u p)) (isProcess_of_isQuiet ha.2)
    exact hv.adds (hlines.trans (View.advance_looksIn v₁ ret))
      ((View.advance_same v₁ ret).2.1.trans hres.clientFd)
  · rintro s ⟨lines, hsince, hlines⟩
    exact ⟨lines, ⟨hsince.log, hsince.clientFd⟩, hlines⟩
  · exact fun hnone => Option.some_ne_none _ (hst.symm.trans hnone)
  · exact ⟨[], .refl s, fun _ ha => absurd ha List.not_mem_nil⟩

/-- A registered user that sends its credentials and nothing else is answered with
01 00, unless its password is empty. -/
theorem registered_login_iff (h₀ : w₀.Initial) (h : Reachable w₀ w)
    (hc : w.conns c = some ⟨s, true⟩) (hst : s.stm = some .authRead)
    (hfresh : s.auth.parser = authParserInit) (hsource : Source u p) {message : List Byte}
    (hlogin : IsLogin u.val p.val message)
    (h' : Lib.Reaches World.step (MeetsOf c (StillRegistered u p)) w w') :
    (∀ t : Users, t.Whole → (socksv5RegisterUser t u p).2 = 0 →
      (socksv5RegisterUser t u p).1.Registered u p) ∧
    ∃ s' live lines, w'.conns c = some ⟨s', live⟩ ∧ Since s s' lines ∧
      (s.stream lines = message → receivedFrom s.clientFd lines ≠ [] →
        .sendFailed s.clientFd ∉ lines → (LoggedIn s message s' lines ↔ p.val ≠ [])) := by
  refine ⟨fun t ht hzero => ht.registered_of_zero hzero, ?_⟩
  obtain ⟨hu, hp, rfl⟩ := hlogin
  have hreach : Reachable w w' := h'.mono fun _ _ _ _ _ _ _ _ => trivial
  have hname : 0 < u.val.length ∧ u.val.length ≤ 255 :=
    ⟨List.length_pos_iff.mpr hsource.name_ne_nil, hu⟩
  obtain ⟨⟨s', live⟩, hconn, lines, hsince, hlooks⟩ := looked_followed h₀ h hc hst h'
  refine ⟨s', live, lines, hconn, hsince, fun hstream hreceived hsends => ?_⟩
  -- the course of a message in the same run
  have hcourse {message : List Byte} {last : AuthParser}
      (hends : authMachine.Ends authParserInit message last)
      (herror : authIsError last.state = false) (hconsistent : Consistent (s.stream lines) message) :
      LoginCourse s message last.auth s' lines := by
    obtain ⟨conn, hconn', lines', hsince', hcourse⟩ :=
      login_followed h₀ h hc hst hfresh hends herror hreach
    obtain rfl : conn = ⟨s', live⟩ := Option.some.inj (hconn'.symm.trans hconn)
    obtain rfl := hsince'.unique hsince
    exact hcourse hconsistent
  by_cases hempty : p.val = []
  · rw [hempty] at hstream ⊢
    obtain ⟨last, hends, herror⟩ := unpassworded_ends hname 0
    have hwaits := hcourse hends herror (.inl (hstream ▸ List.prefix_append ..))
    exact iff_of_false (hwaits.not_loggedIn hstream hsends) fun hne => hne rfl
  · obtain ⟨last, hends, herror, hauth⟩ := login_ends hname ⟨List.length_pos_iff.mpr hempty, hp⟩
    have hall : loginBytes u.val p.val <+: s.stream lines := hstream ▸ List.prefix_rfl
    have hends := hcourse hends herror (.inr hall)
    rw [hauth] at hends
    refine iff_of_true (hends.loggedIn ?_ hlooks hall hreceived hsends) hempty
    exact fun users hreg => hreg.authenticate hu hp

theorem someName_source : Source someName someName := by
  have hparse : Args.parseArgs [.user ⟨[117, 0x3a, 117], by decide⟩] [] =
      .ok { users := [(someName, someName)] } := rfl
  exact .option hparse (List.mem_singleton.mpr rfl)

/-- The credentials of a user arrive in two pieces, and half of the reply is sent. -/
theorem registered_login_accepted : ∃ w s w' s' live lines, Reachable (startUp {}) w ∧
    w.conns 0 = some ⟨s, true⟩ ∧ Reachable w w' ∧ w'.conns 0 = some ⟨s', live⟩ ∧
    s.stream lines = loginBytes [117] [117] ∧ sentTo s.clientFd lines = [0x01] ∧
    LoggedIn s (loginBytes [117] [117]) s' lines := by
  have hrun : staged (StillRegistered someName someName) (startUp {})
      (.registerUser someName someName :: greets 4 2)
      [.ready 4 false { recv := some [1, 1, 117] },
       .ready 4 false { recv := some [1, 117] },
       .ready 4 true { send := some 1 }]
      (fun s _ lines => decide (s.stm = some .authRead ∧ s.auth.parser = authParserInit ∧
        s.stream lines = loginBytes [117] [117] ∧ sentTo s.clientFd lines = [0x01] ∧
        receivedFrom s.clientFd lines ≠ [] ∧ .sendFailed s.clientFd ∉ lines)) = true := by
    decide +kernel
  obtain ⟨w, s, w', s', live, lines, hreach, hc, hreach', hc', hsince, htest⟩ := runs_of_staged hrun
  obtain ⟨hst, hfresh, hstream, hsent, hreceived, hsends⟩ := of_decide_eq_true htest
  have hlogin : IsLogin someName.val someName.val (loginBytes [117] [117]) := ⟨by decide, by decide, rfl⟩
  obtain ⟨-, s₁, live₁, lines₁, hc₁, hsince₁, hiff⟩ :=
    registered_login_iff (startUp_initial (by decide)) hreach hc hst hfresh someName_source hlogin
      (hreach'.meetsOf 0)
  obtain ⟨rfl, rfl⟩ : s₁ = s' ∧ live₁ = live := by simpa using hc₁.symm.trans hc'
  obtain rfl := hsince₁.unique hsince
  exact ⟨w, s, w', s₁, live₁, lines₁, hreach, hc, hreach'.reachable, hc₁, hstream, hsent,
    (hiff hstream hreceived hsends).mpr (by decide)⟩

def noPassword : CStr := ⟨[], by decide⟩

/-- The option `-u u:` registers a user that is not answered. -/
theorem empty_password_unanswered : Source someName noPassword ∧
    (socksv5RegisterUser {} someName noPassword).2 = 0 ∧
    ∃ w s w' s' live lines, Reachable (startUp {}) w ∧ w.conns 0 = some ⟨s, true⟩ ∧
      s.stm = some .authRead ∧ s.auth.parser = authParserInit ∧
      Runs (StillRegistered someName noPassword) w w' ∧ w'.conns 0 = some ⟨s', live⟩ ∧
      Since s s' lines ∧ s.stream lines = loginBytes someName.val noPassword.val ∧
      s'.stm = some .authRead ∧ ¬ LoggedIn s (loginBytes someName.val noPassword.val) s' lines := by
  have hparse : Args.parseArgs [.user ⟨[117, 0x3a], by decide⟩] [] =
      .ok { users := [(someName, noPassword)] } := rfl
  have hsource : Source someName noPassword := .option hparse (List.mem_singleton.mpr rfl)
  have hrun : staged (StillRegistered someName noPassword) (startUp {})
      (.registerUser someName noPassword :: greets 4 2)
      [.ready 4 false { recv := some [1, 1, 117] },
       .ready 4 false { recv := some [0] }]
      (fun s s' lines => decide (s.stm = some .authRead ∧ s.auth.parser = authParserInit ∧
        s.stream lines = loginBytes someName.val noPassword.val ∧ s'.stm = some .authRead ∧
        sentTo s.clientFd lines = [])) = true := by
    decide +kernel
  obtain ⟨w, s, w', s', live, lines, hreach, hc, hreach', hc', hsince, htest⟩ := runs_of_staged hrun
  obtain ⟨hst, hfresh, hstream, hst', hsent⟩ := of_decide_eq_true htest
  refine ⟨hsource, by decide +kernel, w, s, w', s', live, lines, hreach, hc, hst, hfresh, hreach', hc',
    hsince, hstream, hst', LoggedIn.not_of_silent (fun hwrite => ?_) hsent⟩
  rw [hst'] at hwrite
  cases hwrite

end World

end Socks5d
