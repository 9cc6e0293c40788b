import Socks5d.Authentication
import Socks5d.Connection.Copy
import Socks5d.Users.Map

/-!
# The names in the log

A connection remembers its user as a pointer to a slot of the table, and prints
whatever the slot holds when a line is written. The line names the user that
authenticated as long as no edit of the table touches the slot of a connection
in use, the name ends in its slot, and `is_auth_on` is still set.
-/

namespace Socks5d

open Lib (Justified)

/-- The name and the password as `strncmp` reads them. -/
def Auth.name (auth : Auth) : List Byte := cstr (auth.uname.take credentialSize)
def Auth.password (auth : Auth) : List Byte := cstr (auth.passwd.take credentialSize)

def Auth.Ends (auth : Auth) : Prop := auth.name.length < credentialSize ∨ auth.password = []

def Action.grants : Action → Option Auth
  | .authProcess _ auth .succeeded => some auth
  | _ => none

/-- The credentials that were accepted. -/
def granted (log : List Action) : List Auth := log.filterMap Action.grants

/-- The user name in a line that `log_request` or `log_credentials` writes. -/
def Action.uname : Action → Option LoggedName
  | .logRequest _ uname .. => some uname
  | .logCredentials _ _ uname .. => some uname
  | _ => none

def NamesUser (past : List Action) (a : Action) : Prop :=
  ∀ auth ∈ granted past, ∀ name ∈ a.uname, name = .name auth.name

@[simp] theorem granted_append (l l' : List Action) : granted (l ++ l') = granted l ++ granted l' :=
  List.filterMap_append

-- ---------------------------------------------------------------------------
-- The slot of a user
-- ---------------------------------------------------------------------------

def Users.Names (t : Users) (k : Nat) (name : List Byte) : Prop :=
  ∃ u, t.slots[k]? = some u ∧ (0 : Byte) ∈ u.uname ++ u.passwd ∧ cstr (u.uname ++ u.passwd) = name

theorem Users.Names.memory {t : Users} {k : Nat} {name : List Byte} (h : t.Names k name) :
    cstr (t.memory k) = name := by
  obtain ⟨u, hu, hzero, rfl⟩ := h
  obtain ⟨hk, hget⟩ := List.getElem?_eq_some_iff.mp hu
  rw [Users.memory, List.drop_eq_getElem_cons hk, List.flatMap_cons, hget]
  exact cstr_append_of_mem hzero _

theorem Users.names_of_authenticate {t : Users} (hs : t.Sized) {auth : Auth} {k : Nat}
    (h : t.authenticate auth = some k) (hends : auth.Ends) : t.Names k auth.name := by
  have haccepts := List.find?_some h
  unfold Users.accepts at haccepts
  split at haccepts
  · rename_i u hu
    obtain ⟨hun, hpn⟩ := hs u (List.mem_of_getElem? hu)
    simp only [strncmpEq, Bool.and_eq_true, decide_eq_true_eq] at haccepts
    obtain ⟨hname, hpass⟩ := haccepts
    rw [List.take_of_length_le (l := u.uname) (Nat.le_of_eq hun)] at hname
    rw [List.take_of_length_le (l := u.passwd) (Nat.le_of_eq hpn)] at hpass
    change auth.name = _ at hname
    change auth.password = _ at hpass
    by_cases hzero : (0 : Byte) ∈ u.uname
    · refine ⟨u, hu, List.mem_append_left _ hzero, ?_⟩
      rw [cstr_append_of_mem hzero, hname]
    · -- the name fills its array, so the password behind it is empty
      have hfull : auth.name = u.uname := hname.trans (cstr_eq_self hzero)
      have hempty : cstr u.passwd = [] := by
        refine hpass.symm.trans (hends.resolve_left ?_)
        rw [hfull, hun]
        exact Nat.lt_irrefl _
      have hzero' : (0 : Byte) ∈ u.passwd := by
        refine length_cstr_lt ?_
        rw [hempty, hpn]
        decide
      refine ⟨u, hu, List.mem_append_right _ hzero', ?_⟩
      rw [cstr_append hzero, hempty, List.append_nil, hfull]
  · cases haccepts

-- ---------------------------------------------------------------------------
-- Edits of the table
-- ---------------------------------------------------------------------------

def Users.SparesRegister (t : Users) (uname : CStr) (k : Nat) : Prop :=
  t.registered = k → (List.range t.registered).any (t.sameName uname) = true ∨
    (uname.val.length < credentialSize ∧ uname.val = cstr (t.memory k))

def Users.SparesUnregister (t : Users) (uname : CStr) (k : Nat) : Prop :=
  ∀ i ∈ (List.range t.registered).find? (t.sameName uname), k < i ∨ t.registered ≤ k + 1

theorem Users.Names.register {t : Users} {k : Nat} {name : List Byte} (h : t.Names k name)
    {uname : CStr} (hspares : t.SparesRegister uname k) (passwd : CStr) :
    (socksv5RegisterUser t uname passwd).1.Names k name := by
  have hmemory := h.memory
  obtain ⟨u, hu, hzero, hname⟩ := h
  unfold socksv5RegisterUser
  split
  · exact ⟨u, hu, hzero, hname⟩
  split
  · exact ⟨u, hu, hzero, hname⟩
  · rename_i habsent
    by_cases hk : t.registered = k
    · obtain ⟨hshort, hsame⟩ := (hspares hk).resolve_left habsent
      subst hk
      have hlt := (List.getElem?_eq_some_iff.mp hu).1
      refine ⟨_, List.getElem?_set_self hlt, ?_, ?_⟩
      · obtain ⟨n, hn⟩ : ∃ n, credentialSize - uname.val.length = n + 1 :=
          ⟨credentialSize - uname.val.length - 1, by omega⟩
        simp [strncpy, hn, List.replicate_succ]
      · rw [cstr_strncpy_lt hshort, hsame, hmemory]
    · exact ⟨u, (List.getElem?_set_ne hk).trans hu, hzero, hname⟩

theorem Users.Names.unregister {t : Users} {k : Nat} {name : List Byte} (h : t.Names k name)
    {uname : CStr} (hspares : t.SparesUnregister uname k) :
    (socksv5UnregisterUser t uname).1.Names k name := by
  obtain ⟨u, hu, hzero, hname⟩ := h
  have hlt := (List.getElem?_eq_some_iff.mp hu).1
  unfold socksv5UnregisterUser
  split
  · rename_i i hfind
    refine ⟨u, ?_, hzero, hname⟩
    have hi : i < t.registered := List.mem_range.mp (List.mem_of_find?_eq_some hfind)
    rcases hspares i hfind with hki | hlast
    · -- in front of the hole
      rw [List.append_assoc, List.getElem?_append_left (by rw [List.length_take]; omega),
        List.getElem?_take_of_lt hki, hu]
    · -- behind the slots that move
      have hlen : (t.slots.take i ++ (t.slots.drop (i + 1)).take (t.registered - (i + 1))).length =
          t.registered - 1 := by
        simp only [List.length_append, List.length_take, List.length_drop]
        omega
      rw [List.getElem?_append_right (by omega), hlen, List.getElem?_drop, ← hu]
      congr 1
      omega
  · exact ⟨u, hu, hzero, hname⟩

-- ---------------------------------------------------------------------------
-- One event
-- ---------------------------------------------------------------------------

def Action.Silent (a : Action) : Prop := a.grants = none ∧ a.uname = none

namespace View

variable {v v' : View} {io : Io} {c : ConnId}

theorem Connect.silent {ret : SocksState} (h : Connect io v v' ret) :
    Adds Action.Silent v.s.log v'.s.log ∧ v'.s.clientUname = v.s.clientUname := by
  have hstart := Adds.refl Action.Silent v.s.log
  cases h with
  | noSocket => exact ⟨(hstart.concat ⟨rfl, rfl⟩).concat ⟨rfl, rfl⟩, rfl⟩
  | noNio => exact ⟨hstart.concat ⟨rfl, rfl⟩, rfl⟩
  | failed => exact ⟨((hstart.concat ⟨rfl, rfl⟩).concat ⟨rfl, rfl⟩).concat ⟨rfl, rfl⟩, rfl⟩
  | unregistered =>
    exact ⟨((hstart.concat ⟨rfl, rfl⟩).concat ⟨rfl, rfl⟩).concat ⟨rfl, rfl⟩, rfl⟩
  | pending => exact ⟨(hstart.concat ⟨rfl, rfl⟩).concat ⟨rfl, rfl⟩, rfl⟩

theorem Process.silent {ret : SocksState} (h : Process io c v v' ret) :
    Adds Action.Silent v.s.log v'.s.log ∧ v'.s.clientUname = v.s.clientUname := by
  cases h with
  | refused => exact ⟨(Adds.refl _ _).concat ⟨rfl, rfl⟩, rfl⟩
  | resolve => exact ⟨.refl _ _, rfl⟩
  | connect htype hconnect => exact hconnect.silent

theorem Resolved.silent {answer : Option (List AddrInfo)} {ret : SocksState}
    (h : Resolved io (v.answered answer) v' ret) :
    Adds Action.Silent v.s.log v'.s.log ∧ v'.s.clientUname = v.s.clientUname := by
  have hanswer : Adds Action.Silent v.s.log (v.answered answer).s.log :=
    (Adds.refl _ _).concat ⟨rfl, rfl⟩
  cases h with
  | unreachable => exact ⟨hanswer.concat ⟨rfl, rfl⟩, rfl⟩
  | connect hlist hconnect => exact ⟨hanswer.trans hconnect.silent.1, hconnect.silent.2⟩

/-- A line that names a user is written in REQUEST_WRITE or COPY, with the name
that is in the slot at that moment. -/
def Speaks (v : View) (a : Action) : Prop :=
  a.grants = none ∧ ∀ name ∈ a.uname, (v.s.stm = some .requestWrite ∨ v.s.stm = some .copy) ∧
    name = Handler.loggedName v.globals v.s.clientUname

theorem speaks_of_silent {a : Action} (h : a.Silent) : v.Speaks a :=
  ⟨h.1, by simp [h.2]⟩

theorem setRb_clientUname (s : Socks5) (d : Side) (b : Buffer) :
    (s.setRb d b).clientUname = s.clientUname := by
  cases d <;> rfl

theorem shut_clientUname (v : View) (d : Side) (write : Bool) :
    (v.shut d write).s.clientUname = v.s.clientUname := by
  cases d <;> rfl

theorem disected_speaks (v : View) (fd : Nat) (bytes : List Byte) (hst : v.s.stm = some .copy) :
    Adds v.Speaks v.s.log (v.disected fd bytes).s.log := by
  unfold disected
  split
  · simp only
    split
    · exact (Adds.refl _ _).concat ⟨rfl, by simp [Action.uname, hst]⟩
    · exact .refl _ _
  · exact .refl _ _

/-- Credentials are accepted in AUTH_READ; nothing else changes the user of a
connection. -/
theorem Outcome.speaks {fd : Nat} {write : Bool} {ret : SocksState}
    (h : Outcome io c v fd write v' ret) :
    (v'.s.clientUname = v.s.clientUname ∧ Adds v.Speaks v.s.log v'.s.log) ∨
    (v.s.stm = some .authRead ∧ ∃ auth status, Adds Action.Silent v.s.log (v'.s.log.dropLast) ∧
      v'.s.log = v'.s.log.dropLast ++ [.authProcess v.globals.users auth status] ∧
      (status = .succeeded → ∃ k, v.globals.users.authenticate auth = some k ∧
        v'.s.clientUname = some k)) := by
  have hstart := Adds.refl v.Speaks v.s.log
  have hline {a : Action} (ha : a.Silent) : v.Speaks a := speaks_of_silent ha
  have hsilent {l l' : List Action} (h : Adds Action.Silent l l') : Adds v.Speaks l l' :=
    h.mono fun _ => hline
  cases h with
  | @authDone bytes rb rb' wb p errored status hst hr hc hdone hstatus hwb =>
    refine .inr ⟨hst, p.auth, status, ?_⟩
    simp only [received, List.dropLast_concat]
    refine ⟨(Adds.refl _ _).concat ⟨rfl, rfl⟩, trivial, fun hsucc => ?_⟩
    cases hfound : v.globals.users.authenticate p.auth with
    | none => simp [hfound, hsucc] at hstatus
    | some k => exact ⟨k, rfl, rfl⟩
  | requestDone hst hr hc hdone hprocess =>
    exact .inl ⟨hprocess.silent.2, Adds.trans ((hstart.concat (hline ⟨rfl, rfl⟩)).concat
      (hline ⟨rfl, rfl⟩)) (hsilent hprocess.silent.1)⟩
  | concluded hst hstatus hwb =>
    refine .inl ⟨rfl, Adds.concat (Adds.append (hstart.concat (hline ⟨rfl, rfl⟩)) ?_)
      (hline ⟨rfl, rfl⟩)⟩
    intro a ha
    split at ha
    · rw [List.mem_singleton.mp ha]
      exact hline ⟨rfl, rfl⟩
    · cases ha
  | retried hst herr he htype hcur hconnect =>
    exact .inl ⟨hconnect.silent.2, Adds.trans (hstart.concat (hline ⟨rfl, rfl⟩))
      (hsilent hconnect.silent.1)⟩
  | replySent hst =>
    refine .inl ⟨rfl, (hstart.concat (hline ⟨rfl, rfl⟩)).concat ⟨rfl, fun name hname => ?_⟩⟩
    cases hname
    exact ⟨.inl hst, rfl⟩
  | replyRefused hst =>
    refine .inl ⟨rfl, (hstart.concat (hline ⟨rfl, rfl⟩)).concat ⟨rfl, fun name hname => ?_⟩⟩
    cases hname
    exact ⟨.inl hst, rfl⟩
  | copyReceived hst hr hne hb v₁ h₁ =>
    subst h₁
    refine .inl ⟨setRb_clientUname .., ?_⟩
    show Adds _ v.s.log (Socks5.log (Socks5.setRb _ _ _))
    rw [setRb_log]
    exact hstart.concat (hline ⟨rfl, rfl⟩)
  | copyEnded | copyFailed =>
    refine .inl ⟨shut_clientUname .., ?_⟩
    show Adds _ v.s.log (View.shut _ _ _).s.log
    rw [shut_log]
    exact ((hstart.concat (hline ⟨rfl, rfl⟩)).concat (hline ⟨rfl, rfl⟩)).concat (hline ⟨rfl, rfl⟩)
  | @copySent d n b hst hs hb v₁ v₂ h₁ h₂ =>
    subst h₁ h₂
    obtain ⟨dp, lines, heq, -⟩ := disected_eq
      (v.noted (.send (v.sideFd d) ((v.s.wb d).content.take n))) (v.sideFd d)
      ((v.s.wb d).content.take n)
    refine .inl ⟨(setRb_clientUname ..).trans (by rw [heq]; rfl), ?_⟩
    show Adds _ v.s.log (Socks5.log (Socks5.setRb _ _ _))
    rw [setRb_log]
    exact Adds.trans (hstart.concat (hline ⟨rfl, rfl⟩)) (disected_speaks _ _ _ hst)
  | _ => exact .inl ⟨rfl, hstart.concat (hline ⟨rfl, rfl⟩)⟩

theorem settle_silent (v : View) (ret : SocksState) :
    Adds Action.Silent v.s.log (v.settle ret).s.log ∧
      (v.settle ret).s.clientUname = v.s.clientUname ∧
      (v.settle ret).globals.users = v.globals.users := by
  refine ⟨?_, ?_⟩
  · rw [settle_log, advance_log]
    split
    · exact .refl _ _
    · refine ((Adds.refl _ _).concat ⟨rfl, rfl⟩).append fun a ha => ?_
      split at ha
      · rw [List.mem_singleton.mp ha]
        exact ⟨rfl, rfl⟩
      · cases ha
  · have hadvance : (v.advance ret).s.clientUname = v.s.clientUname ∧
        (v.advance ret).globals.users = v.globals.users := by
      unfold View.advance
      split
      · exact ⟨rfl, rfl⟩
      · cases ret with
        | helloRead => by_cases hzero : v.globals.users.registered = 0 <;> simp [arrive, enter, hzero]
        | _ => exact ⟨rfl, rfl⟩
    unfold settle
    split <;> exact hadvance

theorem started_silent (v : View) : Adds Action.Silent v.s.log v.started.s.log ∧
    v.started.s.clientUname = v.s.clientUname ∧ v.started.globals.users = v.globals.users := by
  unfold started
  split
  · exact settle_silent v .helloRead
  · exact ⟨.refl _ _, rfl, rfl⟩

theorem Outcome.users {fd : Nat} {write : Bool} {ret : SocksState}
    (h : Outcome io c v fd write v' ret) (hs : v.Shape c) : v'.globals.users = v.globals.users := by
  by_cases hst : v.s.stm = some .copy
  · obtain ⟨d, lines, closed, -, hcopies⟩ := h.copies hs hst
    rw [hcopies.globals]
  · rw [(h.uncopied hst).2]
    split <;> rfl

theorem Step.users {ce : ConnEvent} (h : Step c v ce v') (hs : v.Shape c) :
    v'.globals.users = v.globals.users := by
  cases h with
  | @ready fd write io v₁ ret hen hout =>
    rw [(settle_silent v₁ ret).2.2, hout.users hs.started, (started_silent v).2.2]
  | @resolved answer io v₁ ret hst hres =>
    rw [(settle_silent v₁ ret).2.2, hres.globals]
    rfl

end View

-- ---------------------------------------------------------------------------
-- The user of a connection
-- ---------------------------------------------------------------------------

def Named (t : Users) (s : Socks5) : Prop :=
  ∀ auth ∈ granted s.log, auth.Ends → ∃ k, s.clientUname = some k ∧ t.Names k auth.name

theorem granted_adds {P : Action → Prop} {l l' : List Action} (h : Adds P l l')
    (hP : ∀ a, P a → a.grants = none) : granted l' = granted l := by
  obtain ⟨lines, rfl, hl⟩ := h
  have hnone : granted lines = [] :=
    List.filterMap_eq_nil_iff.mpr fun a ha => hP a (hl a ha)
  rw [granted_append, hnone, List.append_nil]

/-- The log grows by lines that accept no credentials and name the right user. -/
theorem justified_adds {P : Action → Prop} {l l' : List Action} (hj : Justified NamesUser l)
    (h : Adds P l l') (hgrants : ∀ a, P a → a.grants = none)
    (hnames : ∀ a, P a → ∀ past, granted past = granted l → NamesUser past a) :
    Justified NamesUser l' := by
  obtain ⟨lines, rfl, hl⟩ := h
  induction lines generalizing l with
  | nil => rwa [List.append_nil]
  | cons a lines ih =>
    rw [List.append_cons]
    have hsame : granted (l ++ [a]) = granted l :=
      granted_adds ((Adds.refl P l).concat (hl a List.mem_cons_self)) hgrants
    refine ih (hj.concat (hnames a (hl a List.mem_cons_self) l rfl)) ?_ fun b hb =>
      hl b (List.mem_cons_of_mem a hb)
    exact fun b hb past hpast => hnames b hb past (hpast.trans hsame)

theorem justified_silent {l l' : List Action} (hj : Justified NamesUser l)
    (h : Adds Action.Silent l l') : Justified NamesUser l' :=
  justified_adds hj h (fun _ ha => ha.1) fun a ha past _ auth _ name hname => by
    rw [ha.2] at hname
    cases hname

theorem Named.of_same {t : Users} {s s' : Socks5} (h : Named t s)
    (hlog : Adds Action.Silent s.log s'.log) (huname : s'.clientUname = s.clientUname) :
    Named t s' := by
  intro auth hauth hends
  rw [granted_adds hlog fun _ ha => ha.1] at hauth
  rw [huname]
  exact h auth hauth hends

namespace View

variable {v v' : View} {io : Io} {c : ConnId}

def Ungranted (v : View) : SocksState → Prop
  | .helloRead | .helloWrite | .authRead => granted v.s.log = []
  | _ => True

theorem Outcome.ungranted {fd : Nat} {write : Bool} {ret : SocksState}
    (h : Outcome io c v fd write v' ret) (hv : v.Ungranted (v.s.stm.getD .helloRead)) :
    v'.Ungranted ret := by
  cases h with
  | helloMore hst =>
    rw [hst] at hv
    exact (granted_append ..).trans (by rw [hv]; rfl)
  | helloDone hst =>
    rw [hst] at hv
    split
    · trivial
    · exact (granted_append ..).trans (by rw [hv]; rfl)
  | helloPart hst =>
    rw [hst] at hv
    exact (granted_append ..).trans (by rw [hv]; rfl)
  | helloSent hst =>
    rw [hst] at hv
    split
    · exact (granted_append ..).trans (by rw [hv]; rfl)
    · trivial
  | authMore hst =>
    rw [hst] at hv
    exact (granted_append ..).trans (by rw [hv]; rfl)
  | authDone | requestMore => split <;> trivial
  | requestDone hst hr hc hdone hprocess =>
    cases hprocess with
    | connect htype hconnect => cases hconnect <;> trivial
    | _ => trivial
  | copyReceived | copyEnded | copySent | copyFailed =>
    unfold copyNext
    split <;> trivial
  | _ => trivial

theorem Resolved.ungranted {ret : SocksState} (h : Resolved io v v' ret) : v'.Ungranted ret := by
  cases h with
  | unreachable => trivial
  | connect hlist hconnect => cases hconnect <;> trivial

theorem Ungranted.advance {next : SocksState} (h : v.Ungranted next) :
    (v.advance next).Ungranted next := by
  have hlog : granted (v.advance next).s.log = granted v.s.log := by
    rw [← settle_log]
    exact granted_adds (settle_silent v next).1 fun _ ha => ha.1
  cases next <;> first | trivial | exact hlog.trans h

/-- One event keeps the name of the connection, and the lines it writes name the
user. -/
theorem Step.named {ce : ConnEvent} (h : Step c v ce v')
    (hv : v.Ungranted (v.s.stm.getD .helloRead)) (hsized : v.globals.users.Sized)
    (hn : Named v.globals.users v.s) (hj : Justified NamesUser v.s.log)
    (hcond : v.s.stm = some .requestWrite ∨ v.s.stm = some .copy →
      ∀ auth ∈ granted v.s.log, auth.Ends ∧ v.globals.isAuthOn = true) :
    Named v.globals.users v'.s ∧ Justified NamesUser v'.s.log := by
  cases h with
  | @resolved answer io v₁ ret hst hres =>
    have hlog := hres.silent.1.trans (settle_silent v₁ ret).1
    exact ⟨hn.of_same hlog ((settle_silent v₁ ret).2.1.trans hres.silent.2), justified_silent hj hlog⟩
  | @ready fd write io v₁ ret hen hout =>
    obtain ⟨hlog₀, huname₀, husers₀⟩ := started_silent v
    obtain ⟨hlog₂, huname₂, -⟩ := settle_silent v₁ ret
    have hn₀ := hn.of_same hlog₀ huname₀
    have hj₀ := justified_silent hj hlog₀
    rcases hout.speaks with ⟨huname, hlog⟩ | ⟨hst, auth, status, hlog, hlast, hfound⟩
    · have hgranted := granted_adds hlog fun _ ha => ha.1
      refine ⟨Named.of_same (s := v₁.s) ?_ hlog₂ huname₂, justified_silent ?_ hlog₂⟩
      · intro auth hauth hends
        rw [hgranted] at hauth
        rw [huname]
        exact hn₀ auth hauth hends
      · refine justified_adds hj₀ hlog (fun _ ha => ha.1) fun a ha past hpast auth hauth name hname => ?_
        obtain ⟨hst, rfl⟩ := ha.2 name hname
        -- the machine was started before, so the hook of HELLO_READ did not run
        have hsame : v.started = v := by
          unfold started
          split
          · rename_i hnone
            rw [started, if_pos hnone, advance_stm] at hst
            rcases hst with h | h <;> cases h
          · rfl
        rw [hsame] at hst hpast ⊢
        rw [hpast] at hauth
        obtain ⟨hends, hon⟩ := hcond hst auth hauth
        obtain ⟨k, hk, hnames⟩ := hn auth hauth hends
        simp only [Handler.loggedName, hon, ↓reduceIte, hk, hnames.memory]
    · have hnone : granted v.started.s.log = [] := by
        have hempty : v.started.Ungranted (v.started.s.stm.getD .helloRead) := by
          unfold started
          split
          · rename_i hst'
            rw [hst'] at hv
            rw [advance_stm]
            exact hv.advance
          · exact hv
        rw [hst] at hempty
        exact hempty
      have hgranted : granted v₁.s.log.dropLast = [] :=
        (granted_adds hlog fun _ ha => ha.1).trans hnone
      refine ⟨Named.of_same (s := v₁.s) ?_ hlog₂ huname₂, justified_silent ?_ hlog₂⟩
      · intro auth' hauth' hends
        rw [hlast, granted_append, hgranted, List.nil_append] at hauth'
        cases status with
        | failure => cases hauth'
        | succeeded =>
          obtain rfl : auth' = auth := List.mem_singleton.mp hauth'
          obtain ⟨k, hk, hclient⟩ := hfound rfl
          rw [husers₀] at hk
          exact ⟨k, hclient, Users.names_of_authenticate hsized hk hends⟩
      · rw [hlast]
        refine (justified_silent hj₀ hlog).concat fun auth' _ name hname => ?_
        cases hname

end View

namespace World

open View
open Lib (Reaches)

variable {w₀ w w' : World} {c : ConnId}

/-- The condition on an edit of the table: what it asks of the slot of every
connection in use. -/
def Spares (w : World) (P : Nat → Prop) : Prop :=
  ∀ c < w.allocated, ∀ conn ∈ w.conns c, conn.live = true → ∀ k ∈ conn.s.clientUname, P k

/-- An event of a connection in REQUEST_WRITE or COPY finds that the name it
authenticated with ends in its slot, and that no HELLO_READ was initialised
without users. -/
def Nameable (w : World) : Condition := fun _ s _ =>
  s.stm = some .requestWrite ∨ s.stm = some .copy → ∀ auth ∈ granted s.log, auth.Ends ∧ ¬ w.Opened

/-- No edit of the table touches the slot of a connection in use, and lines are
written in time. -/
def NamesKept (w : World) : Event → Prop
  | .registerUser uname _ => w.Spares (w.globals.users.SparesRegister uname)
  | .unregisterUser uname => w.Spares (w.globals.users.SparesUnregister uname)
  | e => Meets w.Nameable w e

structure LogsNamed (w : World) : Prop where
  carries : Carries (fun _ => True) (fun _ v => v.Ungranted (v.s.stm.getD .helloRead)) w
  opened : w.globals.isAuthOn = false → w.Opened
  sized : w.globals.users.Sized
  named : ∀ c conn, w.conns c = some conn → conn.live = true → Named w.globals.users conn.s
  log : ∀ c conn, w.conns c = some conn → Justified NamesUser conn.s.log

theorem ungranted_rules : Rules anyEvent (fun _ => True)
    fun _ v => v.Ungranted (v.s.stm.getD .helloRead) where
  start hs hst hv _ _ := by
    rw [advance_stm]
    rw [hst] at hv
    exact ⟨Ungranted.advance hv, trivial⟩
  outcome hs hen hv _ _ hout := by
    rw [advance_stm]
    exact ⟨(hout.ungranted hv).advance, trivial⟩
  resolved hs hst hv _ _ hres := by
    rw [advance_stm]
    exact ⟨hres.ungranted.advance, trivial⟩
  ended {c v} hv := by
    show View.Ungranted v.ended (v.s.stm.getD .helloRead)
    cases hst : v.s.stm.getD .helloRead <;> rw [hst] at hv <;> exact hv
  frame {c v} g hv _ := by
    show View.Ungranted { v with globals := g } (v.s.stm.getD .helloRead)
    cases hst : v.s.stm.getD .helloRead <;> rw [hst] at hv <;> exact hv
  fresh addr _ := rfl
  turnedAway addr _ := rfl

/-- An edit of the table that spares the slots of the connections in use. -/
theorem LogsNamed.edit (h : w.LogsNamed) {users : Users} (hsized : users.Sized) {P : Nat → Prop}
    (hspares : w.Spares P)
    (hnames : ∀ {k name}, w.globals.users.Names k name → P k → users.Names k name) :
    LogsNamed { w with globals := { w.globals with users } } := by
  refine ⟨h.carries.setGlobals ungranted_rules.kept trivial, h.opened, hsized,
    fun c conn hc hlive auth hauth hends => ?_, h.log⟩
  obtain ⟨k, hk, hn⟩ := h.named c conn hc hlive auth hauth hends
  exact ⟨k, hk, hnames hn (hspares c (h.carries.wired.lt_allocated hc) conn hc hlive k hk)⟩

theorem LogsNamed.other (h : w.LogsNamed) {e : Event}
    (hok : Meets w.Nameable w e) (hs : w.step e = some (.ok w'))
    (husers : Outside w w' → w'.globals.users = w.globals.users) : w'.LogsNamed := by
  have hkept := ungranted_rules.kept
  have hcarries := h.carries.step hkept ⟨fun _ _ h => h, fun _ _ h => h⟩
    (fun _ _ _ _ _ => trivial) hs
  have hopened := h.carries.opened hkept h.opened hs hcarries.wired
  rcases h.carries.step_cases hkept hs with
    ⟨c', v, ce, v', hcon, hshows, hshape, hv, hstep, hrel⟩ | houtside
  · have hsame : w'.globals.users = w.globals.users := by
      rw [hrel.shows.globals, hstep.users hshape, hshows.globals]
    have hlive := hshows.conn
    rw [hshape.body.live] at hlive
    have hnext : Named w.globals.users v'.s ∧ Justified NamesUser v'.s.log := by
      rw [hshows.globals]
      refine hstep.named hv (hshows.globals ▸ h.sized) (hshows.globals ▸ h.named c' _ hlive rfl)
        (h.log c' _ hlive) fun hst auth hauth => ?_
      obtain ⟨hends, hclosed⟩ := hok c' ce v.s hcon hlive hst auth hauth
      refine ⟨hends, ?_⟩
      by_contra hoff
      exact hclosed (h.opened (hshows.globals ▸ (by simpa using hoff)))
    refine ⟨hcarries, hopened, hsame ▸ h.sized, fun c conn hc hlive => ?_, fun c conn hc => ?_⟩
    · rw [hsame]
      by_cases hne : c = c'
      · subst hne
        rw [hrel.shows.conn] at hc
        cases hc
        exact hnext.1
      · exact h.named c conn ((hrel.others.conns c hne).symm.trans hc) hlive
    · by_cases hne : c = c'
      · subst hne
        rw [hrel.shows.conn] at hc
        cases hc
        exact hnext.2
      · exact h.log c conn ((hrel.others.conns c hne).symm.trans hc)
  · have hsame := husers houtside
    refine ⟨hcarries, hopened, hsame ▸ h.sized, fun c conn hc hlive => ?_, fun c conn hc => ?_⟩
    · rw [hsame]
      by_cases hlt : c < w.allocated
      · exact h.named c conn ((houtside.same h.carries hlt).1.symm.trans hc) hlive
      · intro auth hauth
        rw [(houtside.fresh c conn (Nat.not_lt.mp hlt) hc).2] at hauth
        cases hauth
    · by_cases hlt : c < w.allocated
      · exact h.log c conn ((houtside.same h.carries hlt).1.symm.trans hc)
      · rw [(houtside.fresh c conn (Nat.not_lt.mp hlt) hc).2]
        exact Lib.justified_nil

theorem LogsNamed.step (h : w.LogsNamed) {e : Event} (hok : w.NamesKept e)
    (hs : w.step e = some (.ok w')) : w'.LogsNamed := by
  cases e with
  | registerUser uname passwd =>
    obtain rfl : _ = w' := by simpa [World.step] using hs
    exact h.edit (h.sized.register uname passwd) hok fun hn hk => hn.register hk passwd
  | unregisterUser uname =>
    obtain rfl : _ = w' := by simpa [World.step] using hs
    exact h.edit (h.sized.unregister uname) hok fun hn hk => hn.unregister hk
  | toggleDisector value =>
    refine h.other hok hs fun _ => ?_
    obtain rfl : _ = w' := by simpa [World.step] using hs
    rfl
  | accept fd a =>
    refine h.other hok hs fun _ => ?_
    rcases h.carries.accept ungranted_rules.kept a with ⟨w₁, hw₁, -, hadmits⟩ | hk
    · rw [step_accept hs] at hw₁
      cases hw₁
      rw [hadmits.globals]
    · rw [step_accept hs] at hk
      cases hk
  | ready fd write io =>
    refine h.other hok hs fun _ => ?_
    obtain ⟨c, v, -, hshows, hshape, -, -, hd⟩ := h.carries.ready hs
    cases hd with
    | ok hstep hrel => rw [hrel.shows.globals, hstep.users hshape, hshows.globals]
  | resolved key answer io =>
    refine h.other hok hs fun _ => ?_
    obtain ⟨v, hshows, hshape, -, -, hd⟩ := h.carries.resolved hs
    cases hd with
    | ok hstep hrel => rw [hrel.shows.globals, hstep.users hshape, hshows.globals]

/-- The log names the right user: in every run in which no edit of the table
touches the slot of a connection in use, names end in their slots and no
HELLO_READ was initialised without users before a line is written, every line
of a connection that authenticated has the name it authenticated with. -/
theorem log_names_user (h₀ : w₀.Initial) (hsized : w₀.globals.users.Sized)
    (h : Reaches World.step NamesKept w₀ w) {conn : Conn} (hc : w.conns c = some conn)
    {past rest : List Action} {a : Action} (hlog : conn.s.log = past ++ a :: rest) {auth : Auth}
    (hauth : auth ∈ granted past) {name : LoggedName} (hname : a.uname = some name) :
    name = .name auth.name := by
  have hinv : w.LogsNamed := by
    refine h.invariant (I := World.LogsNamed) ⟨h₀.carries trivial, ?_, hsized, fun c conn hc => ?_,
      fun c conn hc => ?_⟩ fun _ _ _ hw hok hs => hw.step hok hs
    · simp [h₀.isAuthOn]
    · simp [h₀.conns c] at hc
    · simp [h₀.conns c] at hc
  exact hinv.log c conn hc past a rest hlog auth hauth name hname

instance (auth : Auth) : Decidable auth.Ends := inferInstanceAs (Decidable (_ ∨ _))

instance (t : Users) (uname : CStr) (k : Nat) : Decidable (t.SparesRegister uname k) :=
  inferInstanceAs (Decidable (_ → (_ ∨ (_ ∧ _))))

instance (t : Users) (uname : CStr) (k : Nat) : Decidable (t.SparesUnregister uname k) :=
  inferInstanceAs (Decidable (∀ i ∈ (List.range t.registered).find? (t.sameName uname), _))

instance (w : World) (P : Nat → Prop) [DecidablePred P] : Decidable (w.Spares P) :=
  inferInstanceAs (Decidable (∀ c, c < w.allocated → ∀ conn ∈ w.conns c, conn.live = true → _))

instance (w : World) (g : Globals) (s : Socks5) (ce : ConnEvent) : Decidable (w.Nameable g s ce) :=
  inferInstanceAs (Decidable (_ → ∀ auth ∈ granted s.log, _))

instance (w : World) (e : Event) : Decidable (w.NamesKept e) :=
  match e with
  | .registerUser uname _ =>
    inferInstanceAs (Decidable (w.Spares (w.globals.users.SparesRegister uname)))
  | .unregisterUser uname =>
    inferInstanceAs (Decidable (w.Spares (w.globals.users.SparesUnregister uname)))
  | .ready fd write io => inferInstanceAs (Decidable (Meets w.Nameable w (.ready fd write io)))
  | .accept fd a => inferInstanceAs (Decidable (Meets w.Nameable w (.accept fd a)))
  | .resolved key answer io =>
    inferInstanceAs (Decidable (Meets w.Nameable w (.resolved key answer io)))
  | .toggleDisector value =>
    inferInstanceAs (Decidable (Meets w.Nameable w (.toggleDisector value)))

def otherName : CStr := ⟨[118], by decide⟩

def asksAsFirst : List Event :=
  [.registerUser someName someName, .registerUser otherName otherName] ++ greets 4 2 ++
  [.ready 4 false { recv := some [1, 1, 117, 1, 117] },
   .ready 4 true { send := some 2 },
   .ready 4 false { recv := some [5, 1, 0, 1, 127, 0, 0, 1, 0, 80], socket := some 5,
                    connect := some einprogress },
   .ready 5 true { sockError := some 0 }]

def namesInLog (someone name : List Byte) (log : List Action) : Bool :=
  (log.drop 20).head?.any fun a => decide (a.uname = some (.name name)) &&
    (granted (log.take 20)).any fun auth => decide (auth.name = someone)

theorem of_namesInLog {someone name : List Byte} {log : List Action}
    (h : namesInLog someone name log = true) : ∃ past a rest auth, log = past ++ a :: rest ∧
      auth ∈ granted past ∧ auth.name = someone ∧ a.uname = some (.name name) := by
  unfold namesInLog at h
  obtain ⟨a, ha, h⟩ := (Option.any_eq_true ..).mp h
  simp only [Bool.and_eq_true, decide_eq_true_eq, List.any_eq_true] at h
  obtain ⟨hname, auth, hauth, hsomeone⟩ := h
  obtain ⟨rest, hrest⟩ := List.head?_eq_some_iff.mp ha
  exact ⟨log.take 20, a, rest, auth, by rw [← hrest, List.take_append_drop], hauth, hsomeone, hname⟩

/-- The first user is removed before the line is written: it names the second. -/
theorem log_names_another : ∃ w conn past a rest auth, Reachable (startUp {}) w ∧
    w.conns 0 = some conn ∧ conn.s.log = past ++ a :: rest ∧ auth ∈ granted past ∧
    auth.name = someName.val ∧ a.uname = some (.name otherName.val) := by
  have hrun : Lib.endsIn (fun w => (w.conns 0).any fun conn =>
      namesInLog someName.val otherName.val conn.s.log)
      (play (Meets anyEvent) (startUp {}) (asksAsFirst ++
        [.unregisterUser someName, .ready 4 true { send := some 10 }])) = true := by decide +kernel
  obtain ⟨w, hplay, hw⟩ := Lib.endsIn_iff.mp hrun
  obtain ⟨conn, hc, hlog⟩ := (Option.any_eq_true ..).mp hw
  obtain ⟨past, a, rest, auth, hsplit, hauth, hsomeone, hname⟩ := of_namesInLog hlog
  exact ⟨w, conn, past, a, rest, auth, Lib.reaches_of_play hplay, hc, hsplit, hauth, hsomeone, hname⟩

/-- The second user is removed: the line names the first. -/
theorem log_names_first : ∃ w conn past a rest auth, Reaches World.step NamesKept (startUp {}) w ∧
    w.conns 0 = some conn ∧ conn.s.log = past ++ a :: rest ∧ auth ∈ granted past ∧
    auth.name = someName.val ∧ a.uname = some (.name auth.name) := by
  have hrun : Lib.endsIn (fun w => (w.conns 0).any fun conn =>
      namesInLog someName.val someName.val conn.s.log)
      (play NamesKept (startUp {}) (asksAsFirst ++
        [.unregisterUser otherName, .ready 4 true { send := some 10 }])) = true := by decide +kernel
  obtain ⟨w, hplay, hw⟩ := Lib.endsIn_iff.mp hrun
  obtain ⟨conn, hc, hlog⟩ := (Option.any_eq_true ..).mp hw
  obtain ⟨past, a, rest, auth, hsplit, hauth, hsomeone, hname⟩ := of_namesInLog hlog
  have hreach := Lib.reaches_of_play hplay
  have hsized : (startUp {}).globals.users.Sized := by
    intro u hu
    rw [List.eq_of_mem_replicate hu]
    exact ⟨List.length_replicate, List.length_replicate⟩
  have hfirst := log_names_user (startUp_initial (by decide)) hsized hreach hc hsplit hauth hname
  exact ⟨w, conn, past, a, rest, auth, hreach, hc, hsplit, hauth, hsomeone, hfirst ▸ hname⟩

end World

end Socks5d
