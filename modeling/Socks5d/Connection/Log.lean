import Socks5d.Connection.Step

/-!
# What an event adds to the log

A handler only adds to the log, and leaves the lines about the state of the
machine to `jump`.
-/

namespace Socks5d

/-- The lines of the machine: a new state, and the hook of the first one. -/
def Action.isJump : Action → Bool
  | .enter _ _ | .helloInit _ => true
  | _ => false

def Adds (P : Action → Prop) (l l' : List Action) : Prop :=
  ∃ lines, l' = l ++ lines ∧ ∀ a ∈ lines, P a

namespace Adds

variable {P Q : Action → Prop} {l l' l'' : List Action}

theorem refl (P : Action → Prop) (l : List Action) : Adds P l l := ⟨[], by simp, by simp⟩

theorem append {lines : List Action} (h : Adds P l l') (hl : ∀ a ∈ lines, P a) :
    Adds P l (l' ++ lines) := by
  obtain ⟨more, rfl, hm⟩ := h
  refine ⟨more ++ lines, List.append_assoc .., fun a ha => ?_⟩
  rcases List.mem_append.mp ha with ha | ha
  · exact hm a ha
  · exact hl a ha

theorem concat (h : Adds P l l') {a : Action} (ha : P a) : Adds P l (l' ++ [a]) :=
  h.append fun _ hb => List.mem_singleton.mp hb ▸ ha

theorem trans (h : Adds P l l') (h' : Adds P l' l'') : Adds P l l'' := by
  obtain ⟨lines, rfl, hl⟩ := h'
  exact h.append hl

theorem mono (h : Adds P l l') (hPQ : ∀ a, P a → Q a) : Adds Q l l' := by
  obtain ⟨lines, rfl, hl⟩ := h
  exact ⟨lines, rfl, fun a ha => hPQ a (hl a ha)⟩

theorem of_append {lines : List Action} (h : Adds P l (l ++ lines)) : ∀ a ∈ lines, P a := by
  obtain ⟨more, hmore, hl⟩ := h
  rwa [List.append_cancel_left hmore]

theorem grows (h : Adds P l l') : l <+: l' := by
  obtain ⟨lines, rfl, -⟩ := h
  exact List.prefix_append ..

end Adds

abbrev Logs (l l' : List Action) : Prop := Adds (fun a => a.isJump = false) l l'

theorem Logs.refl (l : List Action) : Logs l l := Adds.refl _ l

def Action.isCredentials : Action → Bool
  | .logCredentials .. => true
  | _ => false

def Action.Plain (a : Action) : Prop := a.isJump = false ∧ a.isCredentials = false

def Action.isProcess : Action → Bool
  | .authProcess .. | .requestProcess _ => true
  | _ => false

def Action.isQuiet : Action → Bool
  | .recv .. | .send .. | .authProcess .. | .requestProcess _ => false
  | _ => true

theorem isProcess_of_isQuiet {a : Action} (h : a.isQuiet = true) : a.isProcess = false := by
  cases a <;> first | rfl | cases h

def Action.isMarshall : Action → Bool
  | .marshall _ => true
  | _ => false

def marshalled (log : List Action) : Nat := log.countP Action.isMarshall

@[simp] theorem marshalled_append (l l' : List Action) :
    marshalled (l ++ l') = marshalled l + marshalled l' := List.countP_append

@[simp] theorem marshalled_nil : marshalled [] = 0 := rfl

@[simp] theorem marshalled_cons (a : Action) (l : List Action) :
    marshalled (a :: l) = (if a.isMarshall then 1 else 0) + marshalled l := by
  unfold marshalled
  rw [List.countP_cons, Nat.add_comm]

namespace View

variable {v v' : View} {io : Io} {c : ConnId}

theorem Connect.lines {ret : SocksState} (h : Connect io v v' ret) :
    Adds (fun a => a.Plain ∧ a.isQuiet = true) v.s.log v'.s.log := by
  have hstart := Adds.refl (fun a => a.Plain ∧ a.isQuiet = true) v.s.log
  cases h with
  | noSocket => exact (hstart.concat ⟨⟨rfl, rfl⟩, rfl⟩).concat ⟨⟨rfl, rfl⟩, rfl⟩
  | noNio => exact hstart.concat ⟨⟨rfl, rfl⟩, rfl⟩
  | failed | unregistered =>
    exact ((hstart.concat ⟨⟨rfl, rfl⟩, rfl⟩).concat ⟨⟨rfl, rfl⟩, rfl⟩).concat
      ⟨⟨rfl, rfl⟩, rfl⟩
  | pending => exact (hstart.concat ⟨⟨rfl, rfl⟩, rfl⟩).concat ⟨⟨rfl, rfl⟩, rfl⟩

theorem Process.lines {ret : SocksState} (h : Process io c v v' ret) :
    Adds (fun a => a.Plain ∧ a.isQuiet = true) v.s.log v'.s.log := by
  cases h with
  | refused => exact (Adds.refl _ _).concat ⟨⟨rfl, rfl⟩, rfl⟩
  | resolve => exact .refl _ _
  | connect htype hconnect => exact hconnect.lines

theorem setRb_log (s : Socks5) (d : Side) (b : Buffer) : (s.setRb d b).log = s.log := by
  cases d <;> rfl

theorem setRb_fds (s : Socks5) (d : Side) (b : Buffer) :
    (s.setRb d b).clientFd = s.clientFd ∧ (s.setRb d b).originFd = s.originFd := by
  cases d <;> exact ⟨rfl, rfl⟩

theorem shut_fds (v : View) (d : Side) (write : Bool) : (v.shut d write).s.clientFd = v.s.clientFd ∧
    (v.shut d write).s.originFd = v.s.originFd := by
  cases d <;> exact ⟨rfl, rfl⟩

theorem shut_log (v : View) (d : Side) (write : Bool) : (v.shut d write).s.log =
    v.s.log ++ [.shutdown (v.sideFd d) write] ++ [.shutdown (v.sideFd d.other) (!write)] := by
  cases d <;> rfl

structure Line (st : Option SocksState) (a : Action) : Prop where
  jump : a.isJump = false
  credentials : a.isCredentials = true → st = some .copy
  process : a.isProcess = true → st = some .authRead ∨ st = some .requestRead

theorem Line.of_plain {st : Option SocksState} {a : Action} (h : a.Plain) (hp : a.isProcess = false) :
    Line st a :=
  ⟨h.1, fun hc => by simp [h.2] at hc, fun hc => by simp [hp] at hc⟩

theorem Line.of_quiet {st : Option SocksState} {a : Action} (h : a.Plain ∧ a.isQuiet = true) :
    Line st a := .of_plain h.1 (isProcess_of_isQuiet h.2)

theorem Outcome.lines {fd : Nat} {write : Bool} {ret : SocksState}
    (h : Outcome io c v fd write v' ret) : Adds (Line v.s.stm) v.s.log v'.s.log := by
  have hstart := Adds.refl (Line v.s.stm) v.s.log
  have hplain {a : Action} (ha : a.Plain) (hp : a.isProcess = false) : Line v.s.stm a := .of_plain ha hp
  cases h with
  | authDone hst =>
    refine (hstart.concat (hplain ⟨rfl, rfl⟩ rfl)).concat ?_
    exact ⟨rfl, fun hcred => (by cases hcred), fun _ => .inl hst⟩
  | requestDone hst hr hc hdone hprocess =>
    refine Adds.trans ((hstart.concat (hplain ⟨rfl, rfl⟩ rfl)).concat ?_)
      (hprocess.lines.mono fun _ => Line.of_quiet)
    exact ⟨rfl, fun hcred => (by cases hcred), fun _ => .inr hst⟩
  | concluded hst hstatus hwb =>
    refine Adds.concat (Adds.append (hstart.concat (hplain ⟨rfl, rfl⟩ rfl)) ?_)
      (hplain ⟨rfl, rfl⟩ rfl)
    intro a ha
    split at ha
    · rw [List.mem_singleton.mp ha]
      exact hplain ⟨rfl, rfl⟩ rfl
    · cases ha
  | retried hst herr he htype hcur hconnect =>
    exact Adds.trans (hstart.concat (hplain ⟨rfl, rfl⟩ rfl))
      (hconnect.lines.mono fun _ => Line.of_quiet)
  | replySent | replyRefused =>
    exact (hstart.concat (hplain ⟨rfl, rfl⟩ rfl)).concat (hplain ⟨rfl, rfl⟩ rfl)
  | copyReceived hst hr hne hb v₁ h₁ =>
    subst h₁
    show Adds _ v.s.log (Socks5.log (Socks5.setRb _ _ _))
    rw [setRb_log]
    exact hstart.concat (hplain ⟨rfl, rfl⟩ rfl)
  | copyEnded | copyFailed =>
    show Adds _ v.s.log (View.shut _ _ _).s.log
    rw [shut_log]
    exact ((hstart.concat (hplain ⟨rfl, rfl⟩ rfl)).concat (hplain ⟨rfl, rfl⟩ rfl)).concat
      (hplain ⟨rfl, rfl⟩ rfl)
  | copySent hst hs hb v₁ v₂ h₁ h₂ =>
    subst h₁ h₂
    obtain ⟨dp, lines, heq, hl⟩ := disected_eq (v.noted _) _ _
    show Adds _ v.s.log (Socks5.log (Socks5.setRb _ _ _))
    rw [setRb_log, heq]
    refine Adds.append (hstart.concat (hplain ⟨rfl, rfl⟩ rfl)) fun a ha => ?_
    obtain ⟨user, pass, uname, type, addr, origin, rfl⟩ := hl a ha
    exact ⟨rfl, fun _ => hst, fun hc => by cases hc⟩
  | _ => exact hstart.concat (hplain ⟨rfl, rfl⟩ rfl)

theorem Outcome.logs {fd : Nat} {write : Bool} {ret : SocksState}
    (h : Outcome io c v fd write v' ret) : Logs v.s.log v'.s.log :=
  h.lines.mono fun _ ha => ha.jump

theorem Outcome.log_lt {fd : Nat} {write : Bool} {ret : SocksState}
    (h : Outcome io c v fd write v' ret) : v.s.log.length < v'.s.log.length := by
  have hone {a : Action} {l : List Action} (hl : v.s.log ++ [a] <+: l) : v.s.log.length < l.length := by
    have := hl.length_le
    rw [List.length_append, List.length_singleton] at this
    omega
  cases h with
  | @requestDone bytes rb rb' p _ _ _ _ _ _ hprocess =>
    have hgrows : v.s.log ++ [.recv v.fd (some bytes)] ++ [.requestProcess p.request] <+: v'.s.log :=
      hprocess.lines.grows
    exact hone ((List.prefix_append ..).trans hgrows)
  | concluded =>
    show _ < (v.s.log ++ [_] ++ _ ++ [_]).length
    simp
  | retried _ _ _ _ _ hconnect => exact hone hconnect.lines.grows
  | replySent | replyRefused => exact hone (List.prefix_append ..)
  | authDone => exact hone (List.prefix_append ..)
  | copyReceived hst hr hne hb v₁ h₁ =>
    subst h₁
    show _ < (Socks5.log (Socks5.setRb _ _ _)).length
    rw [setRb_log]
    exact hone List.prefix_rfl
  | copyEnded | copyFailed =>
    show _ < (View.shut _ _ _).s.log.length
    rw [shut_log, List.append_assoc]
    exact hone (List.prefix_append ..)
  | copySent hst hs hb v₁ v₂ h₁ h₂ =>
    subst h₁ h₂
    obtain ⟨dp, lines, heq, hl⟩ := disected_eq (v.noted _) _ _
    show _ < (Socks5.log (Socks5.setRb _ _ _)).length
    rw [setRb_log, heq]
    exact hone (List.prefix_append ..)
  | _ => exact hone List.prefix_rfl

theorem Outcome.plain {fd : Nat} {write : Bool} {ret : SocksState}
    (h : Outcome io c v fd write v' ret) (hst : v.s.stm ≠ some .copy) :
    Adds Action.Plain v.s.log v'.s.log :=
  h.lines.mono fun _ ha => ⟨ha.jump, Bool.eq_false_iff.mpr fun hc => hst (ha.credentials hc)⟩

theorem Resolved.lines {answer : Option (List AddrInfo)} {ret : SocksState}
    (h : Resolved io (v.answered answer) v' ret) :
    Adds (fun a => a.Plain ∧ a.isQuiet = true) v.s.log v'.s.log := by
  have hanswer : Adds (fun a => a.Plain ∧ a.isQuiet = true) v.s.log (v.answered answer).s.log :=
    (Adds.refl _ _).concat ⟨⟨rfl, rfl⟩, rfl⟩
  cases h with
  | unreachable => exact hanswer.concat ⟨⟨rfl, rfl⟩, rfl⟩
  | connect hlist hconnect => exact hanswer.trans hconnect.lines

theorem Resolved.log_lt {answer : Option (List AddrInfo)} {ret : SocksState}
    (h : Resolved io (v.answered answer) v' ret) : v.s.log.length < v'.s.log.length := by
  have hanswer : (v.answered answer).s.log.length = v.s.log.length + 1 := List.length_append
  rw [Nat.lt_iff_add_one_le, ← hanswer]
  cases h with
  | unreachable => exact (List.prefix_append ..).length_le
  | connect hlist hconnect => exact hconnect.lines.grows.length_le

theorem Resolved.plain {answer : Option (List AddrInfo)} {ret : SocksState}
    (h : Resolved io (v.answered answer) v' ret) : Adds Action.Plain v.s.log v'.s.log :=
  h.lines.mono fun _ ha => ha.1

theorem Resolved.logs {answer : Option (List AddrInfo)} {ret : SocksState}
    (h : Resolved io (v.answered answer) v' ret) : Logs v.s.log v'.s.log :=
  h.plain.mono fun _ ha => ha.1

theorem advance_log (v : View) (next : SocksState) :
    (v.advance next).s.log = if v.s.stm = some next then v.s.log else
      v.s.log ++ [.enter v.s.stm next] ++
        if next = .helloRead then [.helloInit v.globals.users.registered] else [] := by
  unfold advance
  split
  · rfl
  · cases next <;> simp [enter, arrive]

theorem advance_lines (v : View) (next : SocksState) :
    Adds (fun a => a.isJump = true) v.s.log (v.advance next).s.log := by
  rw [advance_log]
  split
  · exact .refl _ _
  · refine Adds.append ((Adds.refl _ _).concat rfl) fun a ha => ?_
    split at ha
    · rw [List.mem_singleton.mp ha]
      rfl
    · cases ha

theorem marshalled_advance (v : View) (next : SocksState) :
    marshalled (v.advance next).s.log = marshalled v.s.log := by
  unfold advance
  split
  · rfl
  · cases next <;> simp [enter, arrive, Action.isMarshall]

theorem settle_log (v : View) (next : SocksState) : (v.settle next).s.log = (v.advance next).s.log := by
  unfold settle
  split <;> rfl

theorem advance_grows (v : View) (next : SocksState) : v.s.log <+: (v.advance next).s.log := by
  rw [advance_log]
  split
  · exact List.prefix_rfl
  · rw [List.append_assoc]
    exact List.prefix_append ..

theorem Step.grows {ce : ConnEvent} (h : Step c v ce v') : v.s.log <+: v'.s.log := by
  cases h with
  | @ready fd write io v₁ ret hen hout =>
    rw [settle_log]
    have hstart : v.s.log <+: v.started.s.log := by
      unfold started
      split
      · exact advance_grows v _
      · exact List.prefix_rfl
    exact (hstart.trans hout.logs.grows).trans (advance_grows v₁ ret)
  | @resolved answer io v₁ ret hst hres =>
    rw [settle_log]
    exact hres.logs.grows.trans (advance_grows v₁ ret)

end View

end Socks5d
