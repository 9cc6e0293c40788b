import Socks5d.Monitor.Serving

/-!
# One connection of the service

What the events of a run do to the struct of one connection. Where the others
leave alone what its parser relies on (`Undisturbed`), the parser has made of its
bytes what it would have made of them alone, and `Answered` finds the event that
served its request.
-/

namespace Socks5d.Service

open Lib (Reaches)

variable {w w' w₀ : Service} {c c' : MonitorId} {s : MonitorSession} {n : Nat}
  {item : Item MonitorHandler MonitorId}

-- ---------------------------------------------------------------------------
-- What an event does to a struct
-- ---------------------------------------------------------------------------

structure Reading (w w' : Service) (s s' : MonitorSession) (bytes : List Byte) : Prop where
  live : s.live = true
  waits : s.conn.Waits s.received
  sent : s.sent = []
  nonempty : bytes ≠ []
  fits : bytes.length ≤ 0xffff
  runs : monitorRead bytes w.shared s.conn = .ok (w'.shared, s'.conn)
  received : s'.received = s.received ++ bytes
  same : s'.live = true ∧ s'.sent = []

structure Writing (s s' : MonitorSession) : Prop where
  received : s'.received = s.received
  reading : s'.conn.reading = s.conn.reading
  response : s'.sent ++ s'.conn.writeBuffer.content = s.sent ++ s.conn.writeBuffer.content
  stage : s'.live = false ∨ monitorIsDone s.conn.reading.parser.state = true

inductive SessionStep (w w' : Service) (c : MonitorId) : Prop
  | kept (h : w'.sessions c = w.sessions c)
  | opened {s : MonitorSession} (hc : w.sessions c = none) (hc' : w'.sessions c = some s)
      (hreceived : s.received = []) (hconn : s.conn = {})
  | reads {s s' : MonitorSession} {bytes : List Byte} (hc : w.sessions c = some s)
      (hc' : w'.sessions c = some s') (h : Reading w w' s s' bytes)
  | writes {s s' : MonitorSession} (hc : w.sessions c = some s) (hc' : w'.sessions c = some s')
      (h : Writing s s')

theorem SessionStep.of_update (hc : w.sessions c = some s) {t : MonitorSession}
    (hw' : w'.sessions = Function.update w.sessions c (some t)) (h : Writing s t) (c' : MonitorId) :
    SessionStep w w' c' := by
  by_cases hcc : c' = c
  · subst hcc
    exact .writes hc (by rw [hw', Function.update_self]) h
  · exact .kept (by rw [hw', Function.update_of_ne hcc])

theorem Wired.read_step (h : w.Wired) (hc : w.sessions c = some s) (hl : s.live = true)
    (ho : w.Owns c s n item) (hw : s.conn.Waits s.received) (hf : s.conn.finished = false)
    (hsent : s.sent = []) {io : Io} (hr : w.handleRead io ⟨n, c⟩ = .ok w') (c' : MonitorId) :
    SessionStep w w' c' := by
  obtain ⟨s₁, hs₁, hr⟩ := Lib.bind_ok hr
  cases (deref_eq hc hl).symm.trans hs₁
  have hsame : w.setSession c s = w := by
    unfold setSession
    rw [← hc, Function.update_eq_self]
  cases hrecv : io.recv with
  | none =>
    -- `recv` failed
    rw [hrecv] at hr
    have hfinish : (w.setSession c s).monitorFinish c = .ok (w.finished c s n item) :=
      h.monitorFinish_eq ho hl rfl
    rw [hsame] at hfinish
    cases hfinish.symm.trans hr
    exact .of_update (t := { s with live := false }) hc rfl ⟨rfl, rfl, rfl, .inl rfl⟩ c'
  | some chunk =>
    rw [hrecv] at hr
    obtain ⟨⟨shared, conn⟩, hread, hr⟩ := Lib.bind_ok hr
    dsimp only at hr
    by_cases hb : chunk.take (bufferWritePtr s.conn.reading.readBuffer) = []
    · -- the end of the stream
      rw [monitorRead, if_pos hb] at hread
      cases hread
      rw [if_pos rfl, hb, List.append_nil] at hr
      let s' : MonitorSession := { s with conn := { s.conn with finished := true } }
      have hfinish : (w.setSession c s').monitorFinish c = .ok (w.finished c s' n item) :=
        h.monitorFinish_eq ho hl rfl
      cases hfinish.symm.trans hr
      exact .of_update (t := { s' with live := false }) hc rfl ⟨rfl, rfl, rfl, .inl rfl⟩ c'
    · have hheard := hw.heard h.valid hb
      rw [hread] at hheard
      have hfinished : conn.finished = false := by
        generalize hx : Except.ok (shared, conn) = x at hheard
        cases hheard with
        | more _ hf' =>
          cases hx
          exact hf'.trans hf
        | served hf' _ =>
          cases hx
          exact hf'.trans hf
      rw [hfinished, if_neg Bool.false_ne_true] at hr
      have hresult : w'.shared = shared ∧ w'.sessions = Function.update w.sessions c (some { s with
          conn, received := s.received ++ chunk.take (bufferWritePtr s.conn.reading.readBuffer) }) := by
        split at hr
        · obtain ⟨⟨sel, st⟩, -, hr⟩ := Lib.bind_ok hr
          cases hr
          exact ⟨rfl, rfl⟩
        · cases hr
          exact ⟨rfl, rfl⟩
      obtain ⟨rfl, hsessions⟩ := hresult
      by_cases hcc : c' = c
      · subst hcc
        have hself := congrFun hsessions c'
        rw [Function.update_self] at hself
        refine .reads hc hself ⟨hl, hw, hsent, hb, ?_, ?_, rfl, hl, hsent⟩
        · exact Nat.le_trans (List.length_take_le ..) (Nat.le_of_eq hw.room)
        · rwa [monitorRead_take]
      · exact .kept (by rw [hsessions, Function.update_of_ne hcc])

theorem Wired.write_step (h : w.Wired) (hc : w.sessions c = some s) (hl : s.live = true)
    (ho : w.Owns c s n item) (hd : monitorIsDone s.conn.reading.parser.state = true) {io : Io}
    (hr : w.handleWrite io ⟨n, c⟩ = .ok w') (c' : MonitorId) : SessionStep w w' c' := by
  cases hsend : io.send with
  | none =>
    -- `send` failed
    have hrun : w.handleWrite io ⟨n, c⟩ = .ok (w.finished c
        { s with conn := { s.conn with finished := true } } n item) := by
      unfold Service.handleWrite
      rw [deref_eq hc hl]
      simp only [Bind.bind, Except.bind, hsend, Option.map_none, monitorWrite, List.append_nil,
        ↓reduceIte]
      exact h.monitorFinish_eq ho hl rfl
    cases hrun.symm.trans hr
    exact .of_update (t := { s with conn := { s.conn with finished := true }, live := false }) hc rfl
      ⟨rfl, rfl, rfl, .inl rfl⟩ c'
  | some k =>
    obtain ⟨s', htakes, hrun⟩ := h.handleWrite_sent hc hl ho hsend
    have hresponse : s'.sent ++ s'.conn.writeBuffer.content =
        s.sent ++ s.conn.writeBuffer.content := by
      rw [htakes.sent, htakes.rest, List.append_assoc, List.take_append_drop]
    split at hrun
    · -- that was all
      cases hrun.symm.trans hr
      exact .of_update (t := { s' with live := false }) hc rfl
        ⟨htakes.received, htakes.reading, hresponse, .inl rfl⟩ c'
    · cases hrun.1.symm.trans hr
      exact .of_update (t := s') hc rfl ⟨htakes.received, htakes.reading, hresponse, .inr hd⟩ c'

theorem deref_ok (h : w.deref c = .ok s) : w.sessions c = some s := by
  unfold deref at h
  split at h
  · rename_i s' hs
    split at h
    · cases h
      exact hs
    · cases h
  · cases h

theorem connectionDestroy_sessions (h : w.connectionDestroy c = .ok w') :
    ∃ s, w.sessions c = some s ∧
      w'.sessions = Function.update w.sessions c (some { s with live := false }) := by
  obtain ⟨s, hs, h⟩ := Lib.bind_ok h
  refine ⟨s, deref_ok hs, ?_⟩
  cases h
  split <;> rfl

theorem close_sessions (w : Service) (fd : Int) : (w.close fd).sessions = w.sessions := by
  unfold close
  split <;> rfl

theorem Wired.accept_step (h : w.Wired) {a : MonitorAccept} (hr : w.monitorPassiveAccept a = .ok w')
    (c' : MonitorId) : SessionStep w w' c' := by
  unfold monitorPassiveAccept at hr
  cases ha : a.answer with
  | none =>
    rw [ha] at hr
    cases hr
    exact .kept rfl
  | some client =>
    rw [ha] at hr
    obtain ⟨w₁, hopen, hr⟩ := Lib.bind_ok hr
    have hw₁ : w₁.sessions = w.sessions ∧ w₁.allocated = w.allocated := by
      unfold openFile at hopen
      split at hopen
      · cases hopen
        exact ⟨rfl, rfl⟩
      · cases hopen
    split at hr
    · cases hr
      exact .kept ((congrFun (close_sessions ..) c').trans (congrFun hw₁.1 c'))
    · cases hnew : w₁.connectionNew a.malloc client with
      | none =>
        simp only [hnew] at hr
        cases hr
        exact .kept ((congrFun (close_sessions ..) c').trans (congrFun hw₁.1 c'))
      | some r =>
        obtain ⟨w₂, c⟩ := r
        have hw₂ : w₂.sessions = Function.update w.sessions w.allocated (some { clientFd := client }) ∧
            c = w.allocated := by
          unfold connectionNew at hnew
          split at hnew
          · cases hnew
          · cases hnew
            exact ⟨by rw [hw₁.1, hw₁.2], hw₁.2⟩
        obtain ⟨hsessions, rfl⟩ := hw₂
        simp only [hnew] at hr
        obtain ⟨⟨sel, st⟩, -, hr⟩ := Lib.bind_ok hr
        -- the new struct is in use, or already released
        have hstruct : ∃ live, w'.sessions =
            Function.update w.sessions w.allocated (some { clientFd := client, live }) := by
          dsimp only at hr
          split at hr
          · cases hr
            exact ⟨true, hsessions⟩
          · obtain ⟨s, hs, hw'⟩ := connectionDestroy_sessions hr
            rw [close_sessions] at hs hw'
            dsimp only at hs hw'
            rw [hsessions, Function.update_self, Option.some.injEq] at hs
            subst hs
            exact ⟨false, by rw [hw', hsessions, Function.update_idem]⟩
        obtain ⟨live, hw'⟩ := hstruct
        by_cases hc : c' = w.allocated
        · subst hc
          have hself := congrFun hw' w.allocated
          rw [Function.update_self] at hself
          exact .opened (h.unallocated (Nat.le_refl _)) hself rfl rfl
        · exact .kept (by rw [hw', Function.update_of_ne hc])

theorem Wired.proxy_step (h : w.Wired) {call : ProxyCall} (ho : w.OwnCall call)
    (hr : w.proxy call = .ok w') : w'.sessions = w.sessions := by
  cases call with
  | register | setInterest =>
    obtain ⟨⟨sel, st⟩, -, hr⟩ := Lib.bind_ok hr
    cases hr
    rfl
  | unregister fd =>
    obtain ⟨⟨w₁, st⟩, hrun, hr⟩ := Lib.bind_ok hr
    cases hr
    rcases h.found fd with hreg | ⟨n, item, rfl, he, hreg⟩
    · simp only [unregister, hreg, Bind.bind, Except.bind] at hrun
      cases hrun
      rfl
    · have hproxy := OwnCall.handler ho rfl he
      simp only [unregister, hreg, Bind.bind, Except.bind, handleClose, hproxy] at hrun
      cases hrun
      rfl
  | openFile n =>
    unfold Service.proxy openFile at hr
    dsimp only at hr
    split at hr
    · cases hr
      rfl
    · cases hr
  | close n =>
    cases hr
    exact close_sessions ..
  | globals =>
    cases hr
    rfl

theorem Wired.session_step (h : w.Wired) {e : Event} (hallowed : Allowed w e)
    (hs : w.step e = some (.ok w')) (c : MonitorId) : SessionStep w w' c := by
  cases e with
  | ready fd write io =>
    obtain ⟨c₀, s, item, hc, hl, ho, hst, hwants, hr⟩ := h.ready hs
    generalize item.interest = i at hst hwants
    cases hst with
    | waiting hw hf hsent =>
      cases write with
      | false => exact h.read_step hc hl ho hw hf hsent hr.symm c
      | true => cases hwants
    | answering hd =>
      cases write with
      | false => cases hwants
      | true => exact h.write_step hc hl ho hd hr.symm c
  | accept fd a =>
    cases ht : w.target fd false with
    | none =>
      simp only [Service.step, ht] at hs
      cases hs
    | some item =>
      simp only [Service.step, ht, Option.bind_eq_bind, Option.bind_some] at hs
      split at hs
      · exact h.accept_step (Option.some.inj hs) c
      · cases hs
  | proxy call => exact .kept (congrFun (h.proxy_step hallowed (Option.some.inj hs)) c)

-- ---------------------------------------------------------------------------
-- A connection that is left alone
-- ---------------------------------------------------------------------------

def Undisturbed (c : MonitorId) (w w' : Service) : Prop :=
  match w.sessions c, w'.sessions c with
  | some s, some s' => s.live = true → s'.received = s.received →
    Agrees s.conn.reading.parser w'.shared.statics w.shared.statics
  | _, _ => True

def Spares (c : MonitorId) (w : Service) (e : Event) : Prop :=
  Allowed w e ∧ ∀ w', w.step e = some (.ok w') → Undisturbed c w w'

instance (p : MonitorParser) (st st' : Statics) : Decidable (Agrees p st st') :=
  have : Decidable p.AwaitsLen := inferInstanceAs (Decidable (_ ∧ _))
  have : Decidable p.AwaitsSecret := inferInstanceAs (Decidable (_ ∧ _))
  decidable_of_iff ((p.AwaitsLen → st.combinedlen.1 = st'.combinedlen.1) ∧
    (p.AwaitsSecret → st.usernameLenWithNull = st'.usernameLenWithNull))
    ⟨fun h => ⟨h.1, h.2⟩, fun h => ⟨h.len, h.secret⟩⟩

instance (c : MonitorId) (w w' : Service) : Decidable (Undisturbed c w w') := by
  unfold Undisturbed
  split <;> infer_instance

instance (c : MonitorId) (w : Service) (e : Event) : Decidable (Spares c w e) :=
  match hs : w.step e with
  | some (.ok w') => decidable_of_iff (Allowed w e ∧ Undisturbed c w w') (by simp [Spares, hs])
  | some (.error _) => decidable_of_iff (Allowed w e) (by simp [Spares, hs])
  | none => decidable_of_iff (Allowed w e) (by simp [Spares, hs])

def parsedAlone (bytes : List Byte) : Statics × MonitorParser :=
  (monitorMachine.consume ({}, monitorParserInit) bytes).1

def Answered (w₀ w : Service) (s : MonitorSession) : Prop :=
  ∃ w₁ e w₂, Reachable w₀ w₁ ∧ Allowed w₁ e ∧ w₁.step e = some (.ok w₂) ∧
    Reachable w₂ w ∧ RequestServed w₁.shared s.received w₂.shared s.conn.reading.parser
      (s.sent ++ s.conn.writeBuffer.content)

/-- The parser of the connection has made of its bytes what it would have made of
them alone. -/
structure Follows (w₀ w : Service) (s : MonitorSession) : Prop where
  parser : s.conn.reading.parser = (parsedAlone s.received).2
  relies : s.live = true → monitorIsDone s.conn.reading.parser.state = false →
    SameParser (w.shared.statics, s.conn.reading.parser) (parsedAlone s.received)
  answered : monitorIsDone s.conn.reading.parser.state = true → Answered w₀ w s

theorem Answered.next (h : Answered w₀ w s) {e : Event} (hallowed : Allowed w e)
    (hs : w.step e = some (.ok w')) : Answered w₀ w' s := by
  obtain ⟨w₁, e₁, w₂, hbefore, hok, hstep, hafter, hserved⟩ := h
  exact ⟨w₁, e₁, w₂, hbefore, hok, hstep, .next hafter hallowed hs, hserved⟩

theorem Reading.parsed {s s' : MonitorSession} {bytes : List Byte} (h : Reading w w' s s' bytes) :
    s'.conn.reading.parser =
        (monitorMachine.consume (w.shared.statics, s.conn.reading.parser) bytes).1.2 ∧
      (monitorIsDone s'.conn.reading.parser.state = false → w'.shared.statics =
        (monitorMachine.consume (w.shared.statics, s.conn.reading.parser) bytes).1.1) := by
  obtain ⟨k₁, hp, -, hrun⟩ := h.waits.read_eq w.shared w.shared.statics h.nonempty h.fits
  have hread := hrun.symm.trans h.runs
  cases hd : monitorIsDone k₁.parser.state with
  | false =>
    rw [hd, if_neg Bool.false_ne_true, Except.ok.injEq, Prod.mk.injEq] at hread
    obtain ⟨hshared, hconn⟩ := hread
    rw [← hshared, ← hconn]
    exact ⟨hp, fun _ => rfl⟩
  | true =>
    rw [hd, if_pos rfl] at hread
    obtain ⟨⟨shared, k⟩, hrespond, hread⟩ := Lib.bind_ok hread
    have hreading := (monitorRespond_keeps hrespond).1
    have hconn := (Prod.mk.inj (Except.ok.inj hread)).2
    have hparser : s'.conn.reading = k₁ := by
      rw [← hconn]
      exact hreading
    rw [hparser, hd]
    exact ⟨hp, fun hfalse => by cases hfalse⟩

theorem Reading.heard {s s' : MonitorSession} {bytes : List Byte} (hv : w.shared.Valid)
    (h : Reading w w' s s' bytes) :
    (monitorIsDone s'.conn.reading.parser.state = false ∧ w.shared.Same w'.shared) ∨
      RequestServed w.shared s'.received w'.shared s'.conn.reading.parser
        s'.conn.writeBuffer.content := by
  have hroom : bytes.take (bufferWritePtr s.conn.reading.readBuffer) = bytes :=
    List.take_of_length_le (by rw [h.waits.room]; exact h.fits)
  have htaken : bytes.take (bufferWritePtr s.conn.reading.readBuffer) ≠ [] := by
    rw [hroom]
    exact h.nonempty
  have hheard := h.waits.heard hv htaken
  rw [hroom, h.runs, ← h.received] at hheard
  generalize hx : Except.ok (w'.shared, s'.conn) = x at hheard
  cases hheard with
  | more hwaits =>
    obtain ⟨hshared, hconn⟩ := Prod.mk.inj (Except.ok.inj hx)
    rw [hshared, hconn]
    exact .inl ⟨hwaits.parsing, rfl, rfl⟩
  | served _ hserved =>
    obtain ⟨hshared, hconn⟩ := Prod.mk.inj (Except.ok.inj hx)
    rw [hshared, hconn]
    exact .inr hserved

theorem Follows.read {s' : MonitorSession} {bytes : List Byte} (hw : w.Wired)
    (h : Follows w₀ w s) (hr : Reading w w' s s' bytes) (hbefore : Reachable w₀ w) {e : Event}
    (hallowed : Allowed w e) (hs : w.step e = some (.ok w')) : Follows w₀ w' s' := by
  have hd := hr.waits.parsing
  have hsame := h.relies hr.live hd
  have halone : parsedAlone s'.received = (monitorMachine.consume (parsedAlone s.received) bytes).1 := by
    unfold parsedAlone
    rw [hr.received, monitorMachine.consume_append]
    show monitorIsDone (parsedAlone s.received).2.state = false
    rw [← h.parser]
    exact hd
  have hafter := monitorMachine.consume_related sameParser_feed hsame bytes
  rw [← halone] at hafter
  obtain ⟨hparser, hstatics⟩ := hr.parsed
  refine ⟨hparser.trans hafter.1, fun _ hgoing => ?_, fun hdone => ?_⟩
  · rw [hstatics hgoing, hparser]
    exact hafter
  · -- the response is in the write buffer
    rcases hr.heard hw.valid with ⟨hgoing, -⟩ | hserved
    · exact absurd (hgoing.symm.trans hdone) Bool.false_ne_true
    · refine ⟨w, e, w', hbefore, hallowed, hs, Reaches.start, ?_⟩
      rw [hr.same.2, List.nil_append]
      exact hserved

theorem Follows.write {s' : MonitorSession} (h : Follows w₀ w s) (hr : Writing s s') {e : Event}
    (hallowed : Allowed w e) (hs : w.step e = some (.ok w')) : Follows w₀ w' s' := by
  refine ⟨?_, fun hl hd => ?_, fun hd => ?_⟩
  · rw [hr.reading, hr.received]
    exact h.parser
  · rw [hr.reading] at hd
    rcases hr.stage with hover | hdone
    · exact absurd (hover.symm.trans hl) Bool.false_ne_true
    · exact absurd (hd.symm.trans hdone) Bool.false_ne_true
  · rw [hr.reading] at hd
    have hanswered := (h.answered hd).next hallowed hs
    unfold Answered at hanswered ⊢
    rwa [hr.received, hr.reading, hr.response]

theorem Follows.opened (hreceived : s.received = []) (hconn : s.conn = {}) : Follows w₀ w s := by
  have hsame : SameParser (w.shared.statics, monitorParserInit) ({}, monitorParserInit) :=
    ⟨rfl, monitorParserInit_shaped, ⟨fun h => (nomatch h.1), fun h => (nomatch h.1)⟩⟩
  refine ⟨?_, fun _ _ => ?_, fun hd => ?_⟩
  · rw [hconn, hreceived]
    rfl
  · rw [hconn, hreceived]
    exact hsame
  · rw [hconn] at hd
    cases hd

theorem Wired.follows (h₀ : w₀.Wired) (hnone : w₀.sessions c = none)
    (h : Reaches Service.step (Spares c) w₀ w) {s : MonitorSession} (hc : w.sessions c = some s) :
    Follows w₀ w s := by
  have hinv : w.Wired ∧ Reachable w₀ w ∧ ∀ s, w.sessions c = some s → Follows w₀ w s := by
    refine h.invariant (I := fun w => w.Wired ∧ Reachable w₀ w ∧
      ∀ s, w.sessions c = some s → Follows w₀ w s) ⟨h₀, Reaches.start, fun s hc => ?_⟩ ?_
    · rw [hnone] at hc
      cases hc
    · rintro w e w' ⟨hw, hreach, hfollows⟩ ⟨hallowed, hspares⟩ hs
      refine ⟨?_, .next hreach hallowed hs, fun s' hc' => ?_⟩
      · cases hw.step hallowed hs with
        | ok hw' | served hw' => exact hw'
      · cases hw.session_step hallowed hs c with
        | kept hkept =>
          -- another connection, or none
          have hc := hkept ▸ hc'
          have hold := hfollows s' hc
          refine ⟨hold.parser, fun hl hd => ?_, fun hd => (hold.answered hd).next hallowed hs⟩
          obtain ⟨hparser, hshaped, hagrees⟩ := hold.relies hl hd
          have hundisturbed := hspares w' hs
          rw [Undisturbed, hc, hc'] at hundisturbed
          exact ⟨hparser, hshaped, (hundisturbed hl rfl).trans hagrees⟩
        | opened _ hnew hreceived hconn =>
          cases hc'.symm.trans hnew
          exact .opened hreceived hconn
        | reads hc hnew hr =>
          cases hc'.symm.trans hnew
          exact (hfollows _ hc).read hw hr hreach hallowed hs
        | writes hc hnew hr =>
          cases hc'.symm.trans hnew
          exact (hfollows _ hc).write hr hallowed hs
  exact hinv.2.2 s hc

end Socks5d.Service
