import Socks5d.Auth.Format
import Socks5d.Authentication
import Socks5d.Exchange

/-!
# Logging in

The phase AUTH from its first byte to its last one. `auth_process` looks for the
credentials in the table of users as it is when the last byte of the message
arrives; the reply and the next state follow from what it finds.
-/

namespace Socks5d

open Lib (Machine)

def authExchange : Exchange AuthParser where
  machine := authMachine
  init := authParserInit
  parser s := s.auth.parser
  read := .authRead
  write := .authWrite
  going := rfl

def judged (users : Users) (auth : Auth) : AuthStatus :=
  if (users.authenticate auth).isSome then .succeeded else .failure

section

variable (start : Socks5) (message : List Byte) (auth : Auth)

/-- What became of a message with the credentials `auth`; `users` is the table
that they were looked for in. -/
inductive LoginCourse (s : Socks5) (lines : List Action) : Prop
  | hearing (huname : s.clientUname = start.clientUname)
      (h : Hearing authExchange start message s lines)
  | hungUp (h : HungUp authExchange start message s lines)
  | sendFailed (hst : s.stm = some .error) (h : .sendFailed start.clientFd ∈ lines)
  | replying {users : Users} (hp : .authProcess users auth (judged users auth) ∈ lines)
      (hstatus : s.auth.status = judged users auth)
      (huname : s.clientUname = (users.authenticate auth <|> start.clientUname))
      (h : Replying authExchange start message [0x01, (judged users auth).toByte] s lines)
  | accepted {users : Users} {k : Nat} (hp : .authProcess users auth .succeeded ∈ lines)
      (hk : users.authenticate auth = some k)
      (h : Replied authExchange start message [0x01, 0x00] .requestRead
        (fun s => s.clientUname = some k) s lines)
  | rejected {users : Users} (hp : .authProcess users auth .failure ∈ lines)
      (hnone : users.authenticate auth = none) (hst : s.stm = some .error)
      (h : Replied authExchange start message [0x01, 0x01] .error (fun _ => True) s lines)

def LoginFollowed (s : Socks5) : Prop :=
  ∃ lines, Since start s lines ∧
    (Consistent (start.stream lines) message → LoginCourse start message auth s lines)

end

theorem LoginFollowed.ended {start s : Socks5} {message : List Byte} {auth : Auth}
    (h : LoginFollowed start message auth s) :
    LoginFollowed start message auth { s with references := 1 } := by
  obtain ⟨lines, hsince, hcourse⟩ := h
  refine ⟨lines, ⟨hsince.log, hsince.clientFd⟩, fun hconsistent => ?_⟩
  cases hcourse hconsistent with
  | hearing huname h => exact .hearing huname ⟨h.state, h.unsent, h.missing, h.reading⟩
  | hungUp h => exact .hungUp h
  | sendFailed hst h => exact .sendFailed hst h
  | replying hp hstatus huname h =>
    exact .replying hp hstatus huname ⟨h.state, h.left, h.reply, h.rest⟩
  | accepted hp hk h => exact .accepted hp hk h
  | rejected hp hnone hst h => exact .rejected hp hnone hst h

namespace View

variable {v v' : View} {io : Io} {c : ConnId} {start : Socks5} {message : List Byte}
  {last : AuthParser} {lines more : List Action}

theorem advance_clientUname (v : View) (next : SocksState) :
    (v.advance next).s.clientUname = v.s.clientUname := by
  unfold View.advance
  split
  · rfl
  · cases next <;> rfl

theorem advance_auth {next : SocksState} (hne : next ≠ .authRead) :
    (v.advance next).s.auth = v.s.auth := by
  unfold View.advance
  split
  · rfl
  · cases next <;> first | rfl | contradiction

theorem Outcome.login_hearing {fd : Nat} {write : Bool} {ret : SocksState}
    (h : Outcome io c v fd write v' ret) (hs : v.Shape c) (hfd : (v.fd : Int) = start.clientFd)
    (hends : authMachine.Ends authParserInit message last) (herror : authIsError last.state = false)
    (huname : v.s.clientUname = start.clientUname)
    (hv : Hearing authExchange start message v.s lines)
    (hlog : (v'.advance ret).s.log = v.s.log ++ more)
    (hconsistent : Consistent (start.stream (lines ++ more)) message) :
    LoginCourse start message last.auth (v'.advance ret).s (lines ++ more) := by
  have hst : v.s.stm = some .authRead := hv.state
  obtain ⟨v₁, heq⟩ : ∃ v₁, v' = v₁ := ⟨_, rfl⟩
  rw [heq] at h
  cases h with
  | recvFailed _ hrecv =>
    obtain rfl := lines_jump hlog (by rw [heq]; rfl) (by rw [heq]; exact hst) (by simp) (by simp)
    rw [hfd, ← List.append_assoc]
    exact .hungUp (hv.hungUp hrecv (advance_stm ..))
  | @authMore bytes rb rb' p errored _ hr hc hdone =>
    have hst' : v'.s.stm = some .authRead := by rw [heq]; exact hst
    obtain rfl := lines_stay hlog (by rw [heq]; rfl) hst'
    have hconsume := (authConsume_spec hr.fills hr.ne hc).1
    rw [advance_stay hst', hfd]
    exact .hearing (by rw [heq]; exact huname)
      (hv.next hends hst' (by rw [heq]; exact hconsume) (by rw [heq]; exact hdone))
  | @authDone bytes rb rb' wb p errored status _ hr hc hdone hstatus hwb =>
    obtain ⟨hconsume, herrored⟩ := authConsume_spec hr.fills hr.ne hc
    have hst' : v'.s.stm = some .authRead := by rw [heq]; exact hst
    obtain rfl := lines_jump hlog (by rw [heq]; exact List.append_assoc ..) hst'
      (by split <;> simp) (by split <;> simp)
    rw [hfd] at hconsistent ⊢
    obtain ⟨rfl, hrest⟩ := hv.complete hends (by simp [receivedFrom]) hconsistent hconsume hdone
    obtain rfl : errored = false := herrored.trans herror
    obtain rfl : status = judged v.globals.users p.auth := hstatus
    simp only [Bool.false_eq_true, ↓reduceIte] at hrest ⊢
    obtain ⟨-, -, -, hrb, hqueue⟩ := advance_same v' .authWrite
    have hp : .authProcess v.globals.users p.auth (judged v.globals.users p.auth) ∈
        lines ++ ([.recv start.clientFd (some bytes)] ++
          [.authProcess v.globals.users p.auth (judged v.globals.users p.auth)] ++
          [.enter (some .authRead) .authWrite]) := by simp
    refine .replying hp ?_ ?_ (hv.replying ?_ (by simp [sentTo]) (advance_stm ..) ?_ (by simp))
    · rw [advance_auth (by simp), heq]
    · rw [advance_clientUname, heq, ← huname]
    · rw [hrest, hrb, heq]
      rfl
    · rw [hqueue, heq]
      show wb.content = _
      rw [hwb.content, (hs.phase_of hst).2.2.1, List.nil_append]
  | _ => simp_all

theorem Outcome.login_replying {fd : Nat} {write : Bool} {ret : SocksState} {auth : Auth}
    {users : Users} (h : Outcome io c v fd write v' ret) (hfd : (v.fd : Int) = start.clientFd)
    (hp : .authProcess users auth (judged users auth) ∈ lines)
    (hstatus : v.s.auth.status = judged users auth)
    (huname : v.s.clientUname = (users.authenticate auth <|> start.clientUname))
    (hv : Replying authExchange start message [0x01, (judged users auth).toByte] v.s lines)
    (hlog : (v'.advance ret).s.log = v.s.log ++ more) :
    LoginCourse start message auth (v'.advance ret).s (lines ++ more) := by
  have hst : v.s.stm = some .authWrite := hv.state
  have hp' : .authProcess users auth (judged users auth) ∈ lines ++ more :=
    List.mem_append_left _ hp
  obtain ⟨v₁, heq⟩ : ∃ v₁, v' = v₁ := ⟨_, rfl⟩
  rw [heq] at h
  have hst' : v'.s.stm = some .authWrite := by rw [heq, h.stm]; exact hst
  have hrb := (advance_same v' ret).2.2.2.1
  cases h with
  | sendFailed _ hsend =>
    obtain rfl := lines_jump hlog (by rw [heq]; rfl) hst' (by simp) (by simp)
    exact .sendFailed (advance_stm ..) (by simp [hfd])
  | authPart _ hsend hleft =>
    obtain rfl := lines_stay hlog (by rw [heq]; rfl) hst'
    rw [hfd] at hp' ⊢
    rw [advance_stay hst']
    exact .replying hp' (by rw [heq]; exact hstatus) (by rw [heq]; exact huname)
      (hv.part hsend.takes (by rw [heq]; rfl) hleft hst' (by rw [heq]; rfl))
  | authSent _ hsend hleft hsucc =>
    obtain rfl := lines_jump hlog (by rw [heq]; rfl) hst' (by simp) (by simp)
    cases hfound : users.authenticate auth with
    | none => simp [judged, hfound, hsucc] at hstatus
    | some k =>
      simp only [judged, hfound, Option.isSome_some, ↓reduceIte] at hp' hv
      rw [hfd] at hp' ⊢
      refine .accepted hp' hfound ?_
      exact hv.all [] hsend.takes hleft rfl rfl (advance_stm ..) (by rw [hrb, heq]; rfl)
        (by rw [advance_clientUname, heq]; exact huname.trans (by rw [hfound]; rfl))
  | authRejected _ hsend hleft hfail =>
    obtain rfl := lines_jump hlog (by rw [heq]; rfl) hst' (by simp) (by simp)
    cases hfound : users.authenticate auth with
    | some k => simp [judged, hfound, hfail] at hstatus
    | none =>
      simp only [judged, hfound, Option.isSome_none, Bool.false_eq_true, ↓reduceIte] at hp' hv
      rw [hfd] at hp' ⊢
      refine .rejected hp' hfound (advance_stm ..) ?_
      exact hv.all [] hsend.takes hleft rfl rfl (advance_stm ..) (by rw [hrb, heq]; rfl) trivial
  | _ => simp_all

theorem Outcome.login {fd : Nat} {write : Bool} {ret : SocksState}
    (h : Outcome io c v fd write v' ret) (hs : v.Shape c)
    (hends : authMachine.Ends authParserInit message last) (herror : authIsError last.state = false)
    (hv : LoginFollowed start message last.auth v.s) :
    LoginFollowed start message last.auth (v'.advance ret).s := by
  refine Since.followed hv (fun _ => h.since)
    fun lines more hne hclient hlog hconsistent hcourse => ?_
  have hfd : (v.fd : Int) = start.clientFd := hs.body.clientFd.symm.trans hclient
  cases hcourse with
  | hearing huname hv => exact h.login_hearing hs hfd hends herror huname hv hlog hconsistent
  | replying hp hstatus huname hv => exact h.login_replying hfd hp hstatus huname hv hlog
  | hungUp h => exact absurd h.1 hs.stays.2
  | sendFailed h => exact absurd h hs.stays.2
  | accepted hp hk h => exact .accepted (List.mem_append_left _ hp) hk (h.append hne)
  | rejected _ _ h => exact absurd h hs.stays.2

theorem Resolved.login {answer : Option (List AddrInfo)} {ret : SocksState} {auth : Auth}
    (h : Resolved io (v.answered answer) v' ret) (hs : v.Shape c)
    (hst : v.s.stm = some .requestResolv) (hv : LoginFollowed start message auth v.s) :
    LoginFollowed start message auth (v'.advance ret).s := by
  refine Since.followed hv (fun _ => h.since) fun lines more hne _ _ _ hcourse => ?_
  cases hcourse with
  | hearing _ h => exact absurd (hst.symm.trans h.state) (by simp [authExchange])
  | replying _ _ _ h => exact absurd (hst.symm.trans h.state) (by simp [authExchange])
  | hungUp h => exact absurd h.1 hs.stays.2
  | sendFailed h => exact absurd h hs.stays.2
  | accepted hp hk h => exact .accepted (List.mem_append_left _ hp) hk (h.append hne)
  | rejected _ _ h => exact absurd h hs.stays.2

end View

-- ---------------------------------------------------------------------------
-- The entries
-- ---------------------------------------------------------------------------

/-- The entry `k` has this name and this password, each up to its first NUL. -/
def Users.Matches (t : Users) (uname passwd : List Byte) (k : Nat) : Prop :=
  k < t.registered ∧ ∃ u, t.slots[k]? = some u ∧
    cstr (u.uname.take credentialSize) = cstr uname ∧
    cstr (u.passwd.take credentialSize) = cstr passwd

theorem cstr_padded (l : List Byte) (n : Nat) : cstr (l ++ List.replicate n 0) = cstr l := by
  by_cases h : (0 : Byte) ∈ l
  · exact cstr_append_of_mem h _
  · rw [cstr_append h, cstr_zeros, List.append_nil, cstr_eq_self h]

theorem strncmpEq_field {bytes : List Byte} (h : bytes.length ≤ 255) (stored : List Byte) :
    strncmpEq (overwrite (List.replicate credentialSize 0) bytes) stored credentialSize = true ↔
      cstr (stored.take credentialSize) = cstr bytes := by
  have htake : (overwrite (List.replicate credentialSize 0) bytes).take credentialSize =
      bytes ++ List.replicate (credentialSize - bytes.length) 0 := by
    rw [overwrite, List.drop_replicate]
    refine List.take_of_length_le ?_
    rw [List.length_append, List.length_replicate]
    show _ ≤ 255
    show _ + (255 - _) ≤ _
    omega
  rw [strncmpEq, htake, cstr_padded, decide_eq_true_eq]
  exact eq_comm

theorem accepts_iff {uname passwd : List Byte} (hu : uname.length ≤ 255) (hp : passwd.length ≤ 255)
    (t : Users) (k : Nat) :
    t.accepts (loginAuth uname passwd) k = true ↔ ∃ u, t.slots[k]? = some u ∧
      cstr (u.uname.take credentialSize) = cstr uname ∧
      cstr (u.passwd.take credentialSize) = cstr passwd := by
  unfold Users.accepts
  cases t.slots[k]? with
  | none => simp
  | some u =>
    simp only [Bool.and_eq_true, Option.some.injEq, exists_eq_left']
    exact and_congr (strncmpEq_field hu _) (strncmpEq_field hp _)

theorem authenticate_iff {uname passwd : List Byte} (hu : uname.length ≤ 255)
    (hp : passwd.length ≤ 255) (t : Users) (k : Nat) :
    t.authenticate (loginAuth uname passwd) = some k ↔
      t.Matches uname passwd k ∧ ∀ j < k, ¬ t.Matches uname passwd j := by
  rw [Users.authenticate, List.find?_range_eq_some]
  constructor
  · rintro ⟨haccepts, hk, hfirst⟩
    refine ⟨⟨List.mem_range.mp hk, (accepts_iff hu hp t k).mp haccepts⟩, fun j hj hm => ?_⟩
    have hno := hfirst j hj
    rw [(accepts_iff hu hp t j).mpr hm.2] at hno
    cases hno
  · rintro ⟨⟨hk, hm⟩, hfirst⟩
    refine ⟨(accepts_iff hu hp t k).mpr hm, List.mem_range.mpr hk, fun j hj => ?_⟩
    rw [Bool.not_eq_true', Bool.eq_false_iff]
    exact fun haccepts => hfirst j hj ⟨Nat.lt_trans hj hk, (accepts_iff hu hp t j).mp haccepts⟩

theorem authenticate_none_iff {uname passwd : List Byte} (hu : uname.length ≤ 255)
    (hp : passwd.length ≤ 255) (t : Users) :
    t.authenticate (loginAuth uname passwd) = none ↔ ∀ k, ¬ t.Matches uname passwd k := by
  rw [Users.authenticate, List.find?_eq_none]
  refine forall_congr' fun k => ?_
  rw [List.mem_range, accepts_iff hu hp t k, Users.Matches, not_and]

namespace World

variable {w₀ w w' : World} {c : ConnId} {s : Socks5} {message : List Byte}

theorem login_followed (h₀ : w₀.Initial) (h : Reachable w₀ w) (hc : w.conns c = some ⟨s, true⟩)
    (hst : s.stm = some .authRead) (hfresh : s.auth.parser = authParserInit) {last : AuthParser}
    (hends : authMachine.Ends authParserInit message last) (herror : authIsError last.state = false)
    (h' : Reachable w w') :
    ∃ conn, w'.conns c = some conn ∧ LoginFollowed s message last.auth conn.s := by
  refine (h.carries h₀).follow_running (J := LoginFollowed s message last.auth) ?_ ?_ ?_ hc ?_ ?_
    (h'.meetsOf c)
  · exact fun hs _ hv _ hout => hout.login hs hends herror hv
  · exact fun hs hst hv hres => hres.login hs hst hv
  · exact fun hv => hv.ended
  · exact fun hnone => Option.some_ne_none _ (hst.symm.trans hnone)
  · exact ⟨[], .refl s, fun _ => .hearing rfl (.first hst hfresh)⟩

/-- AUTH accepts the credentials of an entry and nothing else. -/
theorem login_exact (h₀ : w₀.Initial) (h : Reachable w₀ w) (hc : w.conns c = some ⟨s, true⟩)
    (hst : s.stm = some .authRead) (hfresh : s.auth.parser = authParserInit)
    {uname passwd : List Byte} (hu : 0 < uname.length ∧ uname.length ≤ 255)
    (hp : 0 < passwd.length ∧ passwd.length ≤ 255) (h' : Reachable w w') :
    (∃ s' live lines, w'.conns c = some ⟨s', live⟩ ∧ Since s s' lines ∧
      (Consistent (s.stream lines) (loginBytes uname passwd) →
        LoginCourse s (loginBytes uname passwd) (loginAuth uname passwd) s' lines)) ∧
    ∀ users : Users,
      (∀ k, users.authenticate (loginAuth uname passwd) = some k ↔
        users.Matches uname passwd k ∧ ∀ j < k, ¬ users.Matches uname passwd j) ∧
      (users.authenticate (loginAuth uname passwd) = none ↔ ∀ k, ¬ users.Matches uname passwd k) := by
  obtain ⟨last, hends, herror, hauth⟩ := login_ends hu hp
  obtain ⟨⟨s', live⟩, hconn, lines, hsince, hcourse⟩ :=
    login_followed h₀ h hc hst hfresh hends herror h'
  rw [hauth] at hcourse
  exact ⟨⟨s', live, lines, hconn, hsince, hcourse⟩,
    fun users => ⟨authenticate_iff hu.2 hp.2 users, authenticate_none_iff hu.2 hp.2 users⟩⟩

/-- A user whose credentials arrive in two pieces, with the first byte of a request. -/
theorem login_exact_accepted : ∃ w s w' s' live lines, Reachable (startUp {}) w ∧
    w.conns 0 = some ⟨s, true⟩ ∧ s.stm = some .authRead ∧ Reachable w w' ∧
    w'.conns 0 = some ⟨s', live⟩ ∧ s'.stm = some .requestRead ∧
    LoginCourse s (loginBytes [117] [117]) (loginAuth [117] [117]) s' lines := by
  have hrun : staged anyEvent (startUp {}) (.registerUser someName someName :: greets 4 2)
      [.ready 4 false { recv := some [1, 1, 117] },
       .ready 4 false { recv := some [1, 117, 5] },
       .ready 4 true { send := some 1 },
       .ready 4 true { send := some 1 }]
      (fun s s' lines => decide (s.stm = some .authRead ∧ s.auth.parser = authParserInit ∧
        s'.stm = some .requestRead ∧ s.stream lines = loginBytes [117] [117] ++ [5])) = true := by
    decide +kernel
  obtain ⟨w, s, w', s', live, lines, hreach, hc, hreach', hc', hsince, htest⟩ := runs_of_staged hrun
  obtain ⟨hst, hfresh, hst', hstream⟩ := of_decide_eq_true htest
  have hlength : 0 < ([117] : List Byte).length ∧ ([117] : List Byte).length ≤ 255 := by decide
  obtain ⟨⟨s₁, live₁, lines₁, hc₁, hsince₁, hcourse⟩, -⟩ :=
    login_exact (startUp_initial (by decide)) hreach hc hst hfresh hlength hlength hreach'
  obtain ⟨rfl, rfl⟩ : s₁ = s' ∧ live₁ = live := by simpa using hc₁.symm.trans hc'
  obtain rfl := hsince₁.unique hsince
  exact ⟨w, s, w', s₁, live₁, lines₁, hreach, hc, hst, hreach', hc₁, hst',
    hcourse (.inr ⟨[5], hstream.symm⟩)⟩

end World

end Socks5d
