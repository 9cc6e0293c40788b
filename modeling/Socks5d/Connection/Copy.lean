import Socks5d.Connection.Log

/-!
# One event in COPY

`Copies` is what the four outcomes in COPY have in common: a direction is the
bytes read from a side and written to the other one. An event moves bytes along
a direction or closes one, and the connection is done when both are closed.
-/

namespace Socks5d

def receivedFrom (fd : Int) (log : List Action) : List Byte :=
  log.flatMap fun
    | .recv fd' (some bytes) => if fd' = fd then bytes else []
    | _ => []

def sentTo (fd : Int) (log : List Action) : List Byte :=
  log.flatMap fun
    | .send fd' bytes => if fd' = fd then bytes else []
    | _ => []

@[simp] theorem receivedFrom_append (fd : Int) (l l' : List Action) :
    receivedFrom fd (l ++ l') = receivedFrom fd l ++ receivedFrom fd l' := List.flatMap_append

@[simp] theorem sentTo_append (fd : Int) (l l' : List Action) :
    sentTo fd (l ++ l') = sentTo fd l ++ sentTo fd l' := List.flatMap_append

theorem Side.other_other (d : Side) : d.other.other = d := by cases d <;> rfl

theorem Side.other_ne (d : Side) : d.other ≠ d := by cases d <;> decide

theorem Side.eq_or_other (d d' : Side) : d' = d ∨ d' = d.other := by
  cases d <;> cases d' <;> simp [Side.other]

instance {p : Side → Prop} [DecidablePred p] : Decidable (∀ d, p d) :=
  decidable_of_iff (p .client ∧ p .origin)
    ⟨fun h d => by cases d <;> simp [h], fun h => ⟨h .client, h .origin⟩⟩

namespace Socks5

theorem rb_setRb (s : Socks5) (d d' : Side) (b : Buffer) :
    (s.setRb d b).rb d' = if d' = d then b else s.rb d' := by
  cases d <;> cases d' <;> rfl

theorem fd_setRb (s : Socks5) (d d' : Side) (b : Buffer) : (s.setRb d b).fd d' = s.fd d' := by
  cases d <;> cases d' <;> rfl

theorem duplex_setRb (s : Socks5) (d d' : Side) (b : Buffer) :
    (s.setRb d b).duplex d' = s.duplex d' := by
  cases d <;> cases d' <;> rfl

end Socks5

namespace View

variable {v v' : View} {io : Io} {c : ConnId}

structure Copies (io : Io) (v : View) (d : Side) (write : Bool) (v' : View) (ret : SocksState)
    (lines : List Action) (closed : Option Side) : Prop where
  log : v'.s.log = v.s.log ++ lines
  fd : ∀ d', v'.s.fd d' = v.s.fd d'
  flow : ∀ d', (v.s.rb d').content ++ receivedFrom (v.s.fd d') lines =
    sentTo (v.s.fd d'.other) lines ++ (v'.s.rb d').content
  reads : ∀ d', (v'.s.duplex d').read = ((v.s.duplex d').read && decide (closed ≠ some d'))
  writes : ∀ d', (v'.s.duplex d').write = ((v.s.duplex d').write && decide (closed ≠ some d'.other))
  receives : ∀ d', receivedFrom (v.s.fd d') lines ≠ [] → write = false ∧ d = d' ∧ closed = none
  cause : ∀ d', closed = some d' →
    (write = false ∧ d = d' ∧ (recvAnswer io (v.s.rb d).space).getD [] = []) ∨
      (write = true ∧ d = d'.other ∧ io.send = none)
  next : ret = if v'.s.duplex d = opNoop then .done else .copy
  client : v'.fd = v.fd ∧ v'.client = .watched (v'.s.copyInterest .client)
  peer : v'.peerFd = v.peerFd ∧ v'.peer = .watched (v'.s.copyInterest .origin)
  globals : v'.globals = { v.globals with
    currentConnections := if ret = .done then v.globals.currentConnections - 1
      else v.globals.currentConnections
    bytesTransferred := v.globals.bytesTransferred +
      ((sentTo v.s.clientFd lines).length + (sentTo v.s.originFd lines).length).toUInt32 }

theorem Copying.fd_ne (h : v.Copying) (d : Side) : v.s.fd d ≠ v.s.fd d.other := by
  have hne := h.peer_ne
  rw [h.fd_eq, h.fd_eq]
  cases d <;> simp only [sideFd, Side.other] <;> omega

structure SameSides (s s' : Socks5) : Prop where
  fd : ∀ d, s'.fd d = s.fd d
  rb : ∀ d, s'.rb d = s.rb d
  duplex : ∀ d, s'.duplex d = s.duplex d

theorem SameSides.logged (s : Socks5) (dp : DisectorParser) (log : List Action) :
    SameSides s { s with dp, log } where
  fd d := by cases d <;> rfl
  rb d := by cases d <;> rfl
  duplex d := by cases d <;> rfl

theorem Copying.flow_received (h : v.Copying) {s : Socks5} (hsame : SameSides v.s s) {d : Side}
    {bytes : List Byte} {b : Buffer} (hb : (v.s.rb d).Fills bytes b) (d' : Side) :
    (v.s.rb d').content ++ receivedFrom (v.s.fd d') [.recv (v.s.fd d) (some bytes)] =
      sentTo (v.s.fd d'.other) [.recv (v.s.fd d) (some bytes)] ++ ((s.setRb d b).rb d').content := by
  rw [Socks5.rb_setRb, hsame.rb]
  rcases Side.eq_or_other d d' with rfl | rfl
  · simp [receivedFrom, sentTo, hb.content]
  · simp [receivedFrom, sentTo, h.fd_ne d, Side.other_ne]

theorem Copying.flow_sent (h : v.Copying) {s : Socks5} (hsame : SameSides v.s s) {d : Side} {n : Nat}
    {b : Buffer} (hb : (v.s.wb d).Takes n b) (d' : Side) :
    (v.s.rb d').content ++ receivedFrom (v.s.fd d') [.send (v.s.fd d) ((v.s.wb d).content.take n)] =
      sentTo (v.s.fd d'.other) [.send (v.s.fd d) ((v.s.wb d).content.take n)] ++
        ((s.setRb d.other b).rb d').content := by
  rw [Socks5.rb_setRb, hsame.rb]
  rcases Side.eq_or_other d d' with rfl | rfl
  · simp [receivedFrom, sentTo, h.fd_ne d', (Side.other_ne d').symm]
  · simp [receivedFrom, sentTo, Side.other_other, hb.content, Socks5.wb]

theorem shut_spec (v : View) (d : Side) (write : Bool) (d' : Side) :
    (v.shut d write).s.fd d' = v.s.fd d' ∧ (v.shut d write).s.rb d' = v.s.rb d' ∧
    ((v.shut d write).s.duplex d').read =
      ((v.s.duplex d').read && decide (some (if write then d.other else d) ≠ some d')) ∧
    ((v.shut d write).s.duplex d').write =
      ((v.s.duplex d').write && decide (some (if write then d.other else d) ≠ some d'.other)) := by
  cases d <;> cases d' <;> cases write <;>
    simp [shut, Socks5.setDuplex, Socks5.duplex, Socks5.fd, Socks5.rb, Side.other]

theorem copied_globals (v : View) (d : Side) : (v.copied d).globals = { v.globals with
    currentConnections := if v.copyNext d = .done then v.globals.currentConnections - 1
      else v.globals.currentConnections } := by
  unfold copied copyNext
  by_cases h : v.s.duplex d = opNoop
  · simp [h]
  · simp [h]

theorem receivedFrom_nil {fd fd' : Int} {answer : Option (List Byte)} (h : answer.getD [] = []) :
    receivedFrom fd [.recv fd' answer] = [] := by
  cases answer with
  | none => rfl
  | some bytes =>
    obtain rfl : bytes = [] := h
    simp [receivedFrom]

theorem copies_shut (d : Side) (write : Bool) {a : Action}
    (hrecv : ∀ fd, receivedFrom fd [a] = []) (hsent : ∀ fd, sentTo fd [a] = [])
    (hcause : (write = false ∧ (recvAnswer io (v.s.rb d).space).getD [] = []) ∨
      (write = true ∧ io.send = none)) :
    Copies io v d write (((v.noted a).shut d write).copied d) (((v.noted a).shut d write).copyNext d)
      [a, .shutdown (v.sideFd d) write, .shutdown (v.sideFd d.other) (!write)]
      (some (if write then d.other else d)) := by
  have hspec := shut_spec (v.noted a) d write
  have hsame := SameSides.logged v.s v.s.dp (v.s.log ++ [a])
  have hlines (fd : Int) : receivedFrom fd [a, .shutdown (v.sideFd d) write,
      .shutdown (v.sideFd d.other) (!write)] = receivedFrom fd [a] := by simp [receivedFrom]
  have hlines' (fd : Int) : sentTo fd [a, .shutdown (v.sideFd d) write,
      .shutdown (v.sideFd d.other) (!write)] = sentTo fd [a] := by simp [sentTo]
  refine ⟨?_, fun d' => (hspec d').1.trans (hsame.fd d'), fun d' => ?_, fun d' => ?_, fun d' => ?_,
    fun d' hd' => absurd ((hlines _).trans (hrecv _)) hd', fun d' hd' => ?_, rfl,
    ⟨rfl, rfl⟩, ⟨rfl, rfl⟩, ?_⟩
  · rw [show (((v.noted a).shut d write).copied d).s.log = ((v.noted a).shut d write).s.log from rfl,
      shut_log]
    simp [noted, sideFd]
  · rw [hlines, hlines', hrecv, hsent, List.append_nil, List.nil_append]
    exact congrArg Buffer.content ((hspec d').2.1.trans (hsame.rb d')).symm
  · exact (hspec d').2.2.1.trans (by rw [show (v.noted a).s.duplex d' = _ from hsame.duplex d'])
  · exact (hspec d').2.2.2.trans (by rw [show (v.noted a).s.duplex d' = _ from hsame.duplex d'])
  · rw [Option.some.injEq] at hd'
    rcases hcause with ⟨rfl, hr⟩ | ⟨rfl, hs⟩
    · exact .inl ⟨rfl, hd', hr⟩
    · exact .inr ⟨rfl, by rw [← hd', if_pos rfl, Side.other_other], hs⟩
  · rw [copied_globals, hlines', hlines', hsent, hsent]
    simp [noted, shut]

theorem Outcome.copies {fd : Nat} {write : Bool} {ret : SocksState}
    (h : Outcome io c v fd write v' ret) (hs : v.Shape c) (hst : v.s.stm = some .copy) :
    ∃ d lines closed, (fd : Int) = v.s.fd d ∧ Copies io v d write v' ret lines closed := by
  obtain ⟨hcopying, -⟩ := hs.copying hst
  cases h with
  | @copyReceived d bytes b _ hr hne hb v₁ h₁ =>
    have hfd := hcopying.fd_eq d
    have hsame := SameSides.logged v.s v.s.dp (v.s.log ++ [.recv (v.s.fd d) (some bytes)])
    rw [← hfd] at h₁
    subst h₁
    refine ⟨d, [.recv (v.s.fd d) (some bytes)], none, hfd.symm, setRb_log .., fun d' => ?_,
      hcopying.flow_received hsame hb, fun d' => ?_, fun d' => ?_, fun d' hd' => ?_, by simp, rfl,
      ⟨rfl, rfl⟩, ⟨rfl, rfl⟩, ?_⟩
    · exact (Socks5.fd_setRb ..).trans (hsame.fd d')
    · have hd := (Socks5.duplex_setRb _ d d' b).trans (hsame.duplex d')
      exact (congrArg Interest.read hd).trans (by simp)
    · have hd := (Socks5.duplex_setRb _ d d' b).trans (hsame.duplex d')
      exact (congrArg Interest.write hd).trans (by simp)
    · refine ⟨rfl, ?_, rfl⟩
      rcases Side.eq_or_other d d' with rfl | rfl
      · rfl
      · simp [receivedFrom, hcopying.fd_ne d] at hd'
    · rw [copied_globals]
      simp [noted, sentTo]
  | @copyEnded d _ hr =>
    exact ⟨d, _, _, (hcopying.fd_eq d).symm,
      copies_shut d false (fun _ => receivedFrom_nil hr) (fun _ => rfl) (.inl ⟨rfl, hr⟩)⟩
  | @copySent d n b _ hsend hb v₁ v₂ h₁ h₂ =>
    have hfd := hcopying.fd_eq d
    rw [← hfd] at h₁
    obtain ⟨dp, lines, heq, hl⟩ := disected_eq
      (v.noted (.send (v.s.fd d) ((v.s.wb d).content.take n))) (v.sideFd d)
      ((v.s.wb d).content.take n)
    have hquiet (fd : Int) : receivedFrom fd lines = [] ∧ sentTo fd lines = [] := by
      simp only [receivedFrom, sentTo, List.flatMap_eq_nil_iff]
      refine ⟨fun a ha => ?_, fun a ha => ?_⟩ <;>
        obtain ⟨user, pass, uname, type, addr, origin, rfl⟩ := hl a ha <;> rfl
    rw [heq] at h₁
    subst h₁ h₂
    have hsame := SameSides.logged v.s dp
      (v.s.log ++ [.send (v.s.fd d) ((v.s.wb d).content.take n)] ++ lines)
    refine ⟨d, .send (v.s.fd d) ((v.s.wb d).content.take n) :: lines, none, hfd.symm, ?_,
      fun d' => ?_, fun d' => ?_, fun d' => ?_, fun d' => ?_, fun d' hd' => ?_, by simp, rfl, ⟨rfl, rfl⟩,
      ⟨rfl, rfl⟩, ?_⟩
    · exact (setRb_log ..).trans (by simp [noted])
    · exact (Socks5.fd_setRb ..).trans (hsame.fd d')
    · rw [← List.singleton_append, receivedFrom_append, sentTo_append, (hquiet _).1, (hquiet _).2,
        List.append_nil, List.append_nil]
      exact hcopying.flow_sent hsame hb d'
    · have hd := (Socks5.duplex_setRb _ d.other d' b).trans (hsame.duplex d')
      exact (congrArg Interest.read hd).trans (by simp)
    · have hd := (Socks5.duplex_setRb _ d.other d' b).trans (hsame.duplex d')
      exact (congrArg Interest.write hd).trans (by simp)
    · rw [← List.singleton_append, receivedFrom_append, (hquiet _).1] at hd'
      exact absurd rfl hd'
    · rw [copied_globals, ← List.singleton_append, sentTo_append, sentTo_append, (hquiet _).2,
        (hquiet _).2]
      have hlen : (((v.s.wb d).content.take n).length) = n := List.length_take_of_le hb.le
      have hne := hcopying.fd_ne .client
      have htotal : (sentTo v.s.clientFd [.send (v.s.fd d) ((v.s.wb d).content.take n)] ++ []).length +
          (sentTo v.s.originFd [.send (v.s.fd d) ((v.s.wb d).content.take n)] ++ []).length = n := by
        cases d with
        | client => simp [sentTo, Socks5.fd, hlen, show v.s.clientFd ≠ v.s.originFd from hne]
        | origin => simp [sentTo, Socks5.fd, hlen, (show v.s.clientFd ≠ v.s.originFd from hne).symm]
      rw [htotal]
      rfl
  | @copyFailed d _ hsend =>
    refine ⟨d, _, _, (hcopying.fd_eq d).symm,
      copies_shut d true (fun _ => rfl) (fun _ => rfl) (.inr ⟨rfl, ?_⟩)⟩
    simpa [sendAnswer] using hsend
  | recvFailed hst' =>
    rcases hst' with h | h | h <;> rw [hst] at h <;> cases h
  | sendFailed hst' =>
    rcases hst' with h | h | h <;> rw [hst] at h <;> cases h
  | _ => simp_all

theorem Outcome.uncopied {fd : Nat} {write : Bool} {ret : SocksState}
    (h : Outcome io c v fd write v' ret) (hst : v.s.stm ≠ some .copy) :
    ret ≠ .done ∧ v'.globals = if ret = .copy then { v.globals with
      historicConnections := v.globals.historicConnections + 1
      currentConnections := v.globals.currentConnections + 1 } else v.globals := by
  cases h with
  | helloDone | helloSent | authDone | requestMore => split <;> exact ⟨by simp, rfl⟩
  | requestDone hst' hr hc hdone hprocess =>
    cases hprocess with
    | connect htype hconnect => cases hconnect <;> exact ⟨by simp, rfl⟩
    | _ => exact ⟨by simp, rfl⟩
  | retried hst' herr he htype hcur hconnect =>
    rw [hconnect.globals]
    exact ⟨by simp, rfl⟩
  | copyReceived hst' | copyEnded hst' | copySent hst' | copyFailed hst' => exact absurd hst' hst
  | _ => exact ⟨by simp, rfl⟩

end View

def Socks5.Symmetric (s : Socks5) : Prop := ∀ d, (s.duplex d).write = (s.duplex d.other).read

namespace View

variable {v v' : View} {io : Io} {d : Side} {write : Bool} {ret : SocksState} {lines : List Action}
  {closed : Option Side}

theorem Copies.ret_cases (h : Copies io v d write v' ret lines closed) : ret = .done ∨ ret = .copy := by
  rw [h.next]
  split
  · exact .inl rfl
  · exact .inr rfl

theorem Copies.symmetric (h : Copies io v d write v' ret lines closed) (hs : v.s.Symmetric) :
    v'.s.Symmetric := by
  intro d'
  rw [h.writes, h.reads, hs]

theorem Copies.done_iff (h : Copies io v d write v' ret lines closed) (hs : v.s.Symmetric) :
    ret = .done ↔ ∀ d', (v'.s.duplex d').read = false := by
  have hsym := h.symmetric hs
  have hnoop : v'.s.duplex d = opNoop ↔ ∀ d', (v'.s.duplex d').read = false := by
    constructor
    · intro hd d'
      rcases Side.eq_or_other d d' with rfl | rfl
      · rw [hd]
        rfl
      · rw [← hsym, hd]
        rfl
    · intro hall
      have hwrite : (v'.s.duplex d).write = false := (hsym d).trans (hall d.other)
      have hread := hall d
      cases hd : v'.s.duplex d
      rw [hd] at hread hwrite
      simp_all [opNoop]
  rw [h.next]
  split
  · simp_all
  · simp_all

end View

end Socks5d
