import Socks5d.Monitor.Desk

/-!
# The service refines its sessions

`Service.Wired` is what every reachable state of the service keeps: the items of
the monitor, its connections in use and their descriptors belong together one to
one, and the interest of an item says whether its connection is read or answered.
Each event is then a few steps of `Lib.Sessions`.
-/

namespace Socks5d

open Lib (Session Sessions)

-- ---------------------------------------------------------------------------
-- What the clients see
-- ---------------------------------------------------------------------------

inductive MonitorSession.Stands (s : MonitorSession) : Interest → Prop
  | waiting (h : s.conn.Waits s.received) (hf : s.conn.finished = false) (hsent : s.sent = []) :
      Stands s opRead
  | answering (hd : monitorIsDone s.conn.reading.parser.state = true)
      (hf : s.conn.finished = false) (hrest : s.conn.writeBuffer.content ≠ []) : Stands s opWrite

def MonitorSession.view (s : MonitorSession) : Session Byte :=
  if s.live = false then .closed s.received s.sent
  else if monitorIsDone s.conn.reading.parser.state then
    .answering s.received s.sent s.conn.writeBuffer.content
  else .waiting s.received

theorem MonitorSession.view_waiting {s : MonitorSession} (hl : s.live = true)
    (h : s.conn.Waits s.received) : s.view = .waiting s.received := by
  rw [view, if_neg (by simp [hl]), if_neg (by simp [h.parsing])]

theorem MonitorSession.view_answering {s : MonitorSession} (hl : s.live = true)
    (hd : monitorIsDone s.conn.reading.parser.state = true) :
    s.view = .answering s.received s.sent s.conn.writeBuffer.content := by
  rw [view, if_neg (by simp [hl]), if_pos hd]

theorem MonitorSession.view_received (s : MonitorSession) : s.view.received = s.received := by
  unfold view
  split_ifs <;> rfl

namespace Service

def desk (w : Service) : Sessions MonitorId Shared Byte :=
  ⟨w.shared, fun c => (w.sessions c).map MonitorSession.view⟩

theorem desk_setSession (w : Service) (c : MonitorId) (s : MonitorSession) :
    (w.setSession c s).desk = w.desk.set c s.view := by
  unfold desk setSession Sessions.set
  congr 1
  funext c'
  by_cases h : c' = c
  · subst h
    simp
  · simp [Function.update_of_ne h]

-- ---------------------------------------------------------------------------
-- Wiring
-- ---------------------------------------------------------------------------

structure Owns (w : Service) (c : MonitorId) (s : MonitorSession) (n : Nat)
    (item : Item MonitorHandler MonitorId) : Prop where
  clientFd : s.clientFd = n
  entry : w.sel.entry n = some item
  handler : item.handler = some .monitor
  data : item.data = some c
  file : w.files n = some (.connection c)

structure Wired (w : Service) : Prop where
  size : w.sel.fds.length = fdSetSize + 1
  sel : w.sel.Ok
  valid : w.shared.Valid
  handler : ∀ {n item}, w.sel.entry n = some item → item.handler ≠ none
  item : ∀ {n item}, w.sel.entry n = some item → item.handler = some .monitor →
    ∃ c s, w.sessions c = some s ∧ s.live = true ∧ w.Owns c s n item
  live : ∀ {c s}, w.sessions c = some s → s.live = true →
    ∃ n item, w.Owns c s n item ∧ s.Stands item.interest
  file : ∀ {n c}, w.files n = some (.connection c) →
    ∃ s, w.sessions c = some s ∧ s.live = true ∧ s.clientFd = n
  unallocated : ∀ {c}, w.allocated ≤ c → w.sessions c = none
  pooled : ∀ c ∈ w.pool, ∃ s, w.sessions c = some s ∧ s.live = false
  nodup : w.pool.Nodup
  poolSize : w.pool.length ≤ w.poolSize ∧ w.poolSize ≤ maxPool

variable {w w' : Service} {c : MonitorId} {s s' : MonitorSession} {n : Nat}
  {item : Item MonitorHandler MonitorId}

theorem Initial.wired (h : w.Initial) : w.Wired where
  size := h.size
  sel := h.sel
  valid := ⟨h.users, h.admins⟩
  handler he hn := by
    rcases h.items he with hh | hh <;> rw [hn] at hh <;> cases hh
  item he hm := by
    rcases h.items he with hh | hh <;> rw [hm] at hh <;> cases hh
  live hc := by
    rw [h.sessions] at hc
    cases hc
  file hf := absurd hf (h.files _ _)
  unallocated _ := h.sessions _
  pooled c hc := by
    rw [h.pool.1] at hc
    cases hc
  nodup := h.pool.1 ▸ List.nodup_nil
  poolSize := by
    rw [h.pool.1, h.pool.2]
    exact ⟨Nat.le_refl _, Nat.zero_le _⟩

theorem Owns.unique {c' : MonitorId} {item' : Item MonitorHandler MonitorId}
    (ho : w.Owns c s n item) (ho' : w.Owns c' s' n item') : c = c' := by
  cases ho.entry.symm.trans ho'.entry
  exact Option.some.inj (ho.data.symm.trans ho'.data)

namespace Wired

theorem registered (h : w.Wired) (hn : n < fdSetSize) : w.sel.registered n = .ok (w.sel.entry n) := by
  refine Selector.registered_eq _ hn ?_
  rw [h.size]
  omega

theorem register_cases (h : w.Wired) (fd : Int) (handler : MonitorHandler) (i : Interest)
    (data : Option MonitorId) :
    (∃ st, selectorRegister true w.sel fd handler i data = .ok (w.sel, st) ∧ st ≠ .success) ∨
    ∃ n : Nat, fd = n ∧ w.sel.entry n = none ∧
      ∃ sel, selectorRegister true w.sel fd handler i data = .ok (sel, .success) ∧ sel.Ok ∧
        sel.fds.length = w.sel.fds.length ∧
        sel.entry n = some ⟨n, i, some handler, data, w.sel.serial⟩ ∧
        ∀ m, m ≠ n → sel.entry m = w.sel.entry m := by
  rcases Selector.fd_cases fd with hinvalid | ⟨n, rfl, hn⟩
  · exact .inl ⟨_, Selector.register_invalid _ hinvalid .., by decide⟩
  · cases he : w.sel.entry n with
    | some item => exact .inl ⟨_, Selector.register_inUse h.sel he .., by decide⟩
    | none =>
      have hsize : n < w.sel.fds.length := by
        rw [h.size]
        omega
      obtain ⟨sel, hreg, hsel, hlen, -, -, hself, hother⟩ :=
        Selector.register_spec h.sel hn hsize he true handler i data
      exact .inr ⟨n, rfl, he, sel, hreg, hsel, hlen, hself, hother⟩

theorem setShared (h : w.Wired) {shared : Shared} (hv : shared.Valid) :
    Wired { w with shared } where
  size := h.size
  sel := h.sel
  valid := hv
  handler := h.handler
  item he hm := by
    obtain ⟨c, s, hc, hl, ho⟩ := h.item he hm
    exact ⟨c, s, hc, hl, ho.clientFd, ho.entry, ho.handler, ho.data, ho.file⟩
  live hc hl := by
    obtain ⟨n, item, ho, hst⟩ := h.live hc hl
    exact ⟨n, item, ⟨ho.clientFd, ho.entry, ho.handler, ho.data, ho.file⟩, hst⟩
  file := h.file
  unallocated := h.unallocated
  pooled := h.pooled
  nodup := h.nodup
  poolSize := h.poolSize

theorem update (h : w.Wired) (hc : w.sessions c = some s) (hl : s.live = true)
    (ho : w.Owns c s n item)
    {sel : Selector MonitorHandler MonitorId} {i : Interest} (s' : MonitorSession) (hsel : sel.Ok)
    (hsize : sel.fds.length = w.sel.fds.length)
    (hself : sel.entry n = some { item with interest := i })
    (hother : ∀ m, m ≠ n → sel.entry m = w.sel.entry m) (hl' : s'.live = true)
    (hfd : s'.clientFd = s.clientFd) (hst : s'.Stands i) :
    Wired { w.setSession c s' with sel } where
  size := hsize.trans h.size
  sel := hsel
  valid := h.valid
  handler {m it} he := by
    by_cases hm : m = n
    · subst hm
      cases hself.symm.trans he
      exact ho.handler.trans_ne (by simp)
    · exact h.handler (hother m hm ▸ he)
  item {m it} he hmon := by
    by_cases hm : m = n
    · subst hm
      cases hself.symm.trans he
      exact ⟨c, s', Function.update_self .., hl', hfd.trans ho.clientFd, hself, ho.handler, ho.data,
        ho.file⟩
    · obtain ⟨c', s₁, hc', hl₁, ho'⟩ := h.item (hother m hm ▸ he) hmon
      have hne : c' ≠ c := by
        rintro rfl
        cases hc.symm.trans hc'
        exact hm (Int.ofNat.inj (ho'.clientFd.symm.trans ho.clientFd))
      exact ⟨c', s₁, (Function.update_of_ne hne ..).trans hc', hl₁, ho'.clientFd, he, ho'.handler,
        ho'.data, ho'.file⟩
  live {c' s₁} hc' hl₁ := by
    by_cases hcc : c' = c
    · subst hcc
      cases (Function.update_self ..).symm.trans hc'
      exact ⟨n, _, ⟨hfd.trans ho.clientFd, hself, ho.handler, ho.data, ho.file⟩, hst⟩
    · obtain ⟨m, it, ho', hst'⟩ := h.live ((Function.update_of_ne hcc ..).symm.trans hc') hl₁
      have hm : m ≠ n := by
        rintro rfl
        exact hcc (ho'.unique ho)
      exact ⟨m, it, ⟨ho'.clientFd, (hother m hm).trans ho'.entry, ho'.handler, ho'.data, ho'.file⟩,
        hst'⟩
  file {m c'} hf := by
    obtain ⟨s₁, hc', hl₁, hfd₁⟩ := h.file hf
    by_cases hcc : c' = c
    · subst hcc
      cases hc.symm.trans hc'
      exact ⟨s', Function.update_self .., hl', hfd.trans hfd₁⟩
    · exact ⟨s₁, (Function.update_of_ne hcc ..).trans hc', hl₁, hfd₁⟩
  unallocated {c'} hle := by
    have hcc : c' ≠ c := by
      rintro rfl
      cases hc.symm.trans (h.unallocated hle)
    exact (Function.update_of_ne hcc ..).trans (h.unallocated hle)
  pooled c' hmem := by
    obtain ⟨s₁, hc', hl₁⟩ := h.pooled c' hmem
    have hcc : c' ≠ c := by
      rintro rfl
      cases hc.symm.trans hc'
      exact absurd (hl.symm.trans hl₁) (by decide)
    exact ⟨s₁, (Function.update_of_ne hcc ..).trans hc', hl₁⟩
  nodup := h.nodup
  poolSize := h.poolSize

end Wired

-- ---------------------------------------------------------------------------
-- The end of a connection
-- ---------------------------------------------------------------------------

theorem deref_eq (hc : w.sessions c = some s) (hl : s.live = true) : w.deref c = .ok s := by
  unfold deref
  rw [hc]
  exact if_pos hl

def pooledWith (w : Service) (c : MonitorId) : List MonitorId × Nat :=
  if w.poolSize < maxPool then (c :: w.pool, w.poolSize + 1) else (w.pool, w.poolSize)

theorem connectionDestroy_eq (hc : w.sessions c = some s) (hl : s.live = true) :
    w.connectionDestroy c = .ok { w.setSession c { s with live := false } with
      pool := (w.pooledWith c).1, poolSize := (w.pooledWith c).2 } := by
  unfold connectionDestroy pooledWith
  rw [deref_eq hc hl]
  by_cases hp : w.poolSize < maxPool
  · simp only [Bind.bind, Except.bind, setSession, if_pos hp]
    exact congrArg Except.ok (if_pos hp)
  · simp only [Bind.bind, Except.bind, setSession, if_neg hp]
    exact congrArg Except.ok (if_neg hp)

def finished (w : Service) (c : MonitorId) (s : MonitorSession) (n : Nat)
    (item : Item MonitorHandler MonitorId) : Service :=
  { w.setSession c { s with live := false } with
    sel := w.sel.release n item
    pool := (w.pooledWith c).1
    poolSize := (w.pooledWith c).2
    files := Function.update w.files n none }

theorem Wired.monitorFinish_eq (h : w.Wired) (ho : w.Owns c s n item) (hl' : s'.live = true)
    (hfd : s'.clientFd = s.clientFd) :
    (w.setSession c s').monitorFinish c = .ok (w.finished c s' n item) := by
  have hn := h.sel.lt ho.entry
  have hc' : (w.setSession c s').sessions c = some s' := Function.update_self ..
  have hunregister : (w.setSession c s').unregister n =
      .ok ({ w.finished c s' n item with files := w.files }, .success) := by
    unfold unregister
    have hreg : (w.setSession c s').sel.registered n = .ok (some item) :=
      (h.registered hn).trans (congrArg _ ho.entry)
    rw [hreg]
    simp only [Bind.bind, Except.bind, handleClose, ho.handler, ho.data,
      connectionDestroy_eq hc' hl']
    simp only [Pure.pure, Except.pure, finished, pooledWith, setSession, Function.update_idem]
    rfl
  unfold monitorFinish
  rw [deref_eq hc' hl']
  simp only [Bind.bind, Except.bind, hfd, ho.clientFd, hunregister]
  rfl

theorem pooledWith_sound (hnot : c ∉ w.pool) (hnodup : w.pool.Nodup)
    (hsize : w.pool.length ≤ w.poolSize ∧ w.poolSize ≤ maxPool) :
    (∀ c' ∈ (w.pooledWith c).1, c' = c ∨ c' ∈ w.pool) ∧ (w.pooledWith c).1.Nodup ∧
      (w.pooledWith c).1.length ≤ (w.pooledWith c).2 ∧ (w.pooledWith c).2 ≤ maxPool := by
  unfold pooledWith
  split
  · refine ⟨fun c' hc' => List.mem_cons.mp hc', List.nodup_cons.mpr ⟨hnot, hnodup⟩, ?_, ?_⟩
    · simpa using hsize.1
    · omega
  · exact ⟨fun c' hc' => .inr hc', hnodup, hsize.1, hsize.2⟩

namespace Wired

theorem not_pooled (h : w.Wired) (hc : w.sessions c = some s) (hl : s.live = true) : c ∉ w.pool := by
  intro hmem
  obtain ⟨s₁, hc', hl₁⟩ := h.pooled c hmem
  cases hc.symm.trans hc'
  exact absurd (hl.symm.trans hl₁) (by decide)

theorem finished (h : w.Wired) (hc : w.sessions c = some s) (hl : s.live = true)
    (ho : w.Owns c s n item) (s' : MonitorSession) : (w.finished c s' n item).Wired := by
  obtain ⟨hsel, hsize, -, -, hself, hother⟩ := Selector.release_spec h.sel ho.entry
  obtain ⟨hpool, hnodup, hle⟩ := pooledWith_sound (h.not_pooled hc hl) h.nodup h.poolSize
  have hsome {m : Nat} {it : Item MonitorHandler MonitorId}
      (he : (w.sel.release n item).entry m = some it) : m ≠ n ∧ w.sel.entry m = some it := by
    have hm : m ≠ n := by
      rintro rfl
      cases hself.symm.trans he
    exact ⟨hm, hother m hm ▸ he⟩
  have hfiles {m : Nat} (hm : m ≠ n) : (w.finished c s' n item).files m = w.files m :=
    Function.update_of_ne hm ..
  refine ⟨hsize.trans h.size, hsel, h.valid, fun he => h.handler (hsome he).2, fun {m it} he hmon => ?_,
    fun {c' s₁} hc' hl₁ => ?_, fun {m c'} hf => ?_, fun {c'} hle => ?_, fun c' hmem => ?_, hnodup, hle⟩
  · obtain ⟨hm, he'⟩ := hsome he
    obtain ⟨c', s₁, hc', hl₁, ho'⟩ := h.item he' hmon
    have hcc : c' ≠ c := by
      rintro rfl
      cases hc.symm.trans hc'
      exact hm (Int.ofNat.inj (ho'.clientFd.symm.trans ho.clientFd))
    exact ⟨c', s₁, (Function.update_of_ne hcc ..).trans hc', hl₁, ho'.clientFd, he, ho'.handler,
      ho'.data, (hfiles hm).trans ho'.file⟩
  · have hcc : c' ≠ c := by
      rintro rfl
      cases (Function.update_self ..).symm.trans hc'
      cases hl₁
    obtain ⟨m, it, ho', hst⟩ := h.live ((Function.update_of_ne hcc ..).symm.trans hc') hl₁
    have hm : m ≠ n := by
      rintro rfl
      exact hcc (ho'.unique ho)
    exact ⟨m, it, ⟨ho'.clientFd, (hother m hm).trans ho'.entry, ho'.handler, ho'.data,
      (hfiles hm).trans ho'.file⟩, hst⟩
  · have hm : m ≠ n := by
      rintro rfl
      cases (Function.update_self ..).symm.trans hf
    obtain ⟨s₁, hc', hl₁, hfd₁⟩ := h.file (hfiles hm ▸ hf)
    have hcc : c' ≠ c := by
      rintro rfl
      cases hc.symm.trans hc'
      exact hm (Int.ofNat.inj (hfd₁.symm.trans ho.clientFd))
    exact ⟨s₁, (Function.update_of_ne hcc ..).trans hc', hl₁, hfd₁⟩
  · have hcc : c' ≠ c := by
      rintro rfl
      cases hc.symm.trans (h.unallocated hle)
    exact (Function.update_of_ne hcc ..).trans (h.unallocated hle)
  · by_cases hcc : c' = c
    · subst hcc
      exact ⟨_, Function.update_self .., rfl⟩
    · obtain ⟨s₁, hc', hl₁⟩ := h.pooled c' ((hpool c' hmem).resolve_left hcc)
      exact ⟨s₁, (Function.update_of_ne hcc ..).trans hc', hl₁⟩

end Wired

-- ---------------------------------------------------------------------------
-- The handlers
-- ---------------------------------------------------------------------------

/-- A request that the service served. -/
abbrev Request : Type := Lib.Request MonitorId Shared Byte

/-- The request is what its connection has sent when the event is over, and it was
answered by what the parser of the connection has made of it. -/
structure Serves (w w' : Service) (r : Request) : Prop where
  before : r.before = w.shared
  after : r.after = w'.shared
  session : ∃ s, w'.sessions r.session = some s ∧ s.received = r.request ∧
    s.sent ++ s.conn.writeBuffer.content = r.response ∧
    RequestServed r.before r.request r.after s.conn.reading.parser r.response

/-- The result of an event: no fault but a wrong answer of the kernel, and steps
of the sessions. -/
inductive Next (w : Service) : Except Fault Service → Prop
  | kernel : Next w (.error .kernel)
  | ok {w' : Service} (h : w'.Wired) (hmoves : w.desk.Moves monitorProtocol w'.desk) : Next w (.ok w')
  | served {w' : Service} (h : w'.Wired) {r : Request} {received : List Byte}
      (hc : w.desk.sessions r.session = some (.waiting received)) (hr : w.Serves w' r)
      (hdesk : w'.desk = w.desk.serve r) : Next w (.ok w')

theorem desk_sessions (hc : w.sessions c = some s) : w.desk.sessions c = some s.view := by
  simp [desk, hc]

theorem desk_finished (w : Service) (c : MonitorId) (s : MonitorSession) (n : Nat)
    (item : Item MonitorHandler MonitorId) :
    (w.finished c s n item).desk = w.desk.set c (.closed s.received s.sent) :=
  w.desk_setSession c { s with live := false }

theorem Next.finish {w₁ : Service} (s' : MonitorSession) (h : w₁.Wired) (hc : w₁.sessions c = some s)
    (hl : s.live = true)
    (ho : w₁.Owns c s n item) (hl' : s'.live = true) (hfd : s'.clientFd = s.clientFd)
    (hruns : w.desk.Moves monitorProtocol (w₁.desk.set c (.closed s'.received s'.sent))) :
    w.Next ((w₁.setSession c s').monitorFinish c) := by
  rw [h.monitorFinish_eq ho hl' hfd]
  exact .ok (h.finished hc hl ho s') (by rwa [desk_finished])

theorem Wired.handleRead (h : w.Wired) (hc : w.sessions c = some s) (hl : s.live = true)
    (ho : w.Owns c s n item) (hw : s.conn.Waits s.received) (hf : s.conn.finished = false)
    (hsent : s.sent = []) (hi : item.interest = opRead) (io : Io) :
    w.Next (w.handleRead io ⟨n, c⟩) := by
  have hview : w.desk.sessions c = some (.waiting s.received) := by
    rw [desk_sessions hc, MonitorSession.view_waiting hl hw]
  have hcloses : w.desk.Moves monitorProtocol (w.desk.set c (.closed s.received s.sent)) :=
    .single (hsent ▸ .closes hview)
  have hsame : w.setSession c s = w := by
    unfold setSession
    rw [← hc, Function.update_eq_self]
  unfold Service.handleRead
  rw [deref_eq hc hl]
  simp only [Bind.bind, Except.bind]
  cases hrecv : io.recv with
  | none =>
    -- `recv` failed
    have hfinish := Next.finish s h hc hl ho hl rfl hcloses
    rwa [hsame] at hfinish
  | some chunk =>
    by_cases hb : chunk.take (bufferWritePtr s.conn.reading.readBuffer) = []
    · -- the end of the stream
      have hend : monitorRead chunk w.shared s.conn =
          .ok (w.shared, { s.conn with finished := true }) := by
        rw [monitorRead, if_pos hb]
        rfl
      simp only [hend, hb, List.append_nil, ↓reduceIte]
      exact Next.finish { s with conn := { s.conn with finished := true } } h hc hl ho hl rfl
        hcloses
    · have hheard := hw.heard h.valid hb
      generalize hread : monitorRead chunk w.shared s.conn = r at hheard
      generalize hbytes : chunk.take (bufferWritePtr s.conn.reading.readBuffer) = bytes at hheard
      cases hheard with
      | @more statics k' hw' hf' =>
        -- the request goes on
        have hfinished : k'.finished = false := hf'.trans hf
        simp only [hread, hbytes, hfinished, hw'.parsing, Bool.false_eq_true, ↓reduceIte]
        let w₁ : Service := { w with shared := { w.shared with statics } }
        have hw₁ : w₁.Wired := h.setShared ⟨h.valid.users, h.valid.admins⟩
        have hview₁ : w₁.desk.sessions c = some (.waiting s.received) := hview
        let s' : MonitorSession := { s with conn := k', received := s.received ++ bytes }
        have hst : s'.Stands item.interest := by
          rw [hi]
          exact .waiting hw' hfinished hsent
        refine .ok (hw₁.update hc hl ⟨ho.clientFd, ho.entry, ho.handler, ho.data, ho.file⟩ s'
          h.sel rfl ho.entry (fun _ _ => rfl) hl rfl hst) ?_
        have hview' : s'.view = .waiting s'.received := MonitorSession.view_waiting hl hw'
        show w.desk.Moves _ (w₁.setSession c s').desk
        rw [desk_setSession, hview']
        have hdrift : w.desk.Move monitorProtocol w₁.desk := .drift ⟨rfl, rfl, rfl⟩
        exact .tail (.single hdrift) (.hears hview₁ bytes)
      | @served shared' k' hf' hserved =>
        -- the response is in the write buffer
        have hfinished : k'.finished = false := hf'.trans hf
        simp only [hread, hbytes, hfinished, hserved.done, Bool.false_eq_true, ↓reduceIte]
        obtain ⟨sel, hset, hsel, hsize, -, -, -, hself, hother⟩ :=
          Selector.setInterest_spec h.sel ho.entry opWrite
        have hset' : selectorSetInterest (Service.setSession { w with shared := shared' } c
            { s with conn := k', received := s.received ++ bytes }).sel n opWrite =
              .ok (sel, .success) := hset
        rw [hset']
        have hw₁ := h.setShared hserved.responds.valid
        have hrest : k'.writeBuffer.content ≠ [] := by
          obtain ⟨dlen, -, hframe⟩ := hserved.frame
          rw [hframe]
          exact List.cons_ne_nil _ _
        let s' : MonitorSession := { s with conn := k', received := s.received ++ bytes }
        let r : Request := ⟨c, w.shared, shared', s'.received, k'.writeBuffer.content⟩
        refine .served (r := r) (hw₁.update hc hl ⟨ho.clientFd, ho.entry, ho.handler, ho.data, ho.file⟩
          s' hsel hsize hself hother hl rfl (.answering hserved.done hfinished hrest)) hview
          ⟨rfl, rfl, s', Function.update_self .., rfl, ?_, hserved⟩ ?_
        · rw [show s'.sent = [] from hsent]
          rfl
        · have hview' : s'.view = .answering s'.received s'.sent k'.writeBuffer.content :=
            MonitorSession.view_answering hl hserved.done
          show (Service.setSession { w with shared := shared' } c s').desk = _
          rw [desk_setSession, hview', show s'.sent = [] from hsent]
          rfl

structure Takes (s : MonitorSession) (k : Nat) (s' : MonitorSession) : Prop where
  clientFd : s'.clientFd = s.clientFd
  live : s'.live = s.live
  received : s'.received = s.received
  reading : s'.conn.reading = s.conn.reading
  sent : s'.sent = s.sent ++ s.conn.writeBuffer.content.take k
  rest : s'.conn.writeBuffer.content = s.conn.writeBuffer.content.drop k

theorem Wired.handleWrite_sent (h : w.Wired) (hc : w.sessions c = some s) (hl : s.live = true)
    (ho : w.Owns c s n item) {io : Io} {k : Nat} (hsend : io.send = some k) : ∃ s', Takes s k s' ∧
      if s.conn.writeBuffer.content.drop k = [] then
        w.handleWrite io ⟨n, c⟩ = .ok (w.finished c s' n item)
      else w.handleWrite io ⟨n, c⟩ = .ok (w.setSession c s') ∧ s'.conn.finished = false := by
  obtain ⟨b, hwrite, hcontent⟩ := monitorWrite_takes k s.conn
  let s' : MonitorSession := { s with
    conn := { s.conn with writeBuffer := b, finished := !bufferCanRead b }
    sent := s.sent ++ s.conn.writeBuffer.content.take k }
  have hrun : w.handleWrite io ⟨n, c⟩ = if !bufferCanRead b then (w.setSession c s').monitorFinish c
      else .ok (w.setSession c s') := by
    unfold Service.handleWrite
    rw [deref_eq hc hl]
    simp only [Bind.bind, Except.bind, hsend, Option.map_some, hwrite]
    rfl
  refine ⟨s', ⟨rfl, rfl, rfl, rfl, rfl, hcontent⟩, ?_⟩
  rw [← hcontent, hrun]
  by_cases hrest : b.content = []
  · have hread : bufferCanRead b = false := (Buffer.canRead_eq_false_iff b).mpr hrest
    have hfinish : (w.setSession c s').monitorFinish c = .ok (w.finished c s' n item) :=
      h.monitorFinish_eq ho hl rfl
    rw [if_pos hrest, hread, ← hfinish]
    rfl
  · have hread : bufferCanRead b = true := (Buffer.canRead_iff b).mpr hrest
    rw [if_neg hrest, hread]
    exact ⟨rfl, by simp [s', hread]⟩

theorem Wired.handleWrite (h : w.Wired) (hc : w.sessions c = some s) (hl : s.live = true)
    (ho : w.Owns c s n item) (hd : monitorIsDone s.conn.reading.parser.state = true)
    (hi : item.interest = opWrite) (io : Io) :
    w.Next (w.handleWrite io ⟨n, c⟩) := by
  have hview : w.desk.sessions c =
      some (.answering s.received s.sent s.conn.writeBuffer.content) := by
    rw [desk_sessions hc, MonitorSession.view_answering hl hd]
  cases hsend : io.send with
  | none =>
    -- `send` failed
    unfold Service.handleWrite
    rw [deref_eq hc hl]
    simp only [Bind.bind, Except.bind, hsend, Option.map_none, monitorWrite, List.append_nil,
      ↓reduceIte]
    exact Next.finish { s with conn := { s.conn with finished := true } } h hc hl ho hl rfl
      (.single (.closes hview))
  | some k =>
    obtain ⟨s', htakes, hrun⟩ := h.handleWrite_sent hc hl ho hsend
    have hl' : s'.live = true := htakes.live.trans hl
    have hd' : monitorIsDone s'.conn.reading.parser.state = true := htakes.reading ▸ hd
    have hdelivers : w.desk.Move monitorProtocol
        (w.desk.set c (.answering s.received s'.sent s'.conn.writeBuffer.content)) := by
      rw [htakes.sent]
      refine .delivers (hview.trans ?_)
      rw [htakes.rest, List.take_append_drop]
    split at hrun
    · -- that was all
      rw [hrun]
      refine .ok (h.finished hc hl ho s') ?_
      rw [desk_finished, htakes.received]
      have hcloses := Sessions.Move.closes (p := monitorProtocol) (Sessions.set_self (a := w.desk)
        (c := c) (.answering s.received s'.sent s'.conn.writeBuffer.content))
      rw [Sessions.set_set] at hcloses
      exact .tail (.single hdelivers) hcloses
    · rename_i hrest
      rw [hrun.1]
      have hst : s'.Stands item.interest := by
        rw [hi]
        exact .answering hd' hrun.2 (htakes.rest ▸ hrest)
      refine .ok (h.update hc hl ho s' h.sel rfl ho.entry (fun _ _ => rfl) hl' htakes.clientFd hst) ?_
      show w.desk.Moves _ (w.setSession c s').desk
      rw [desk_setSession, MonitorSession.view_answering hl' hd', htakes.received]
      exact .single hdelivers

-- ---------------------------------------------------------------------------
-- A new connection
-- ---------------------------------------------------------------------------

def handedOut (w : Service) (s : MonitorSession) : Service :=
  { w with
    pool := w.pool.tail
    allocated := w.allocated + 1
    sessions := Function.update w.sessions w.allocated (some s) }

theorem Wired.ne_allocated (h : w.Wired) (hc : w.sessions c = some s) : c ≠ w.allocated := by
  rintro rfl
  cases hc.symm.trans (h.unallocated (Nat.le_refl _))

theorem desk_handedOut (w : Service) (s : MonitorSession) :
    (w.handedOut s).desk = w.desk.set w.allocated s.view := w.desk_setSession w.allocated s

theorem Wired.opens (h : w.Wired) (hl : s.live = true) (hw : s.conn.Waits s.received)
    (hr : s.received = []) : w.desk.Move monitorProtocol (w.handedOut s).desk := by
  rw [desk_handedOut, MonitorSession.view_waiting hl hw, hr]
  refine .opens ?_
  simp [desk, h.unallocated (Nat.le_refl _)]

theorem Wired.admitted (h : w.Wired) {sel : Selector MonitorHandler MonitorId} (hsel : sel.Ok)
    (hsize : sel.fds.length = w.sel.fds.length) (hself : sel.entry n = some item)
    (hother : ∀ m, m ≠ n → sel.entry m = w.sel.entry m) (hfile : w.files n = none)
    (hh : item.handler = some .monitor) (hd : item.data = some w.allocated) (hl : s.live = true)
    (hfd : s.clientFd = n) (hst : s.Stands item.interest) :
    Wired { w.handedOut s with
      sel, files := Function.update w.files n (some (.connection w.allocated)) } := by
  have hne {m : Nat} {c : MonitorId} (hf : w.files m = some (.connection c)) : m ≠ n := by
    rintro rfl
    cases hfile.symm.trans hf
  refine ⟨hsize.trans h.size, hsel, h.valid, fun {m it} he => ?_, fun {m it} he hmon => ?_,
    fun {c s₁} hc hl₁ => ?_, fun {m c} hf => ?_, fun {c} hle => ?_, fun c hmem => ?_, ?_, ?_⟩
  · by_cases hm : m = n
    · subst hm
      cases hself.symm.trans he
      simp [hh]
    · exact h.handler (hother m hm ▸ he)
  · by_cases hm : m = n
    · subst hm
      cases hself.symm.trans he
      exact ⟨_, s, Function.update_self .., hl, hfd, hself, hh, hd, Function.update_self ..⟩
    · obtain ⟨c, s₁, hc, hl₁, ho⟩ := h.item (hother m hm ▸ he) hmon
      exact ⟨c, s₁, (Function.update_of_ne (h.ne_allocated hc) ..).trans hc, hl₁, ho.clientFd, he,
        ho.handler, ho.data, (Function.update_of_ne hm ..).trans ho.file⟩
  · by_cases hcc : c = w.allocated
    · subst hcc
      cases (Function.update_self ..).symm.trans hc
      exact ⟨n, item, ⟨hfd, hself, hh, hd, Function.update_self ..⟩, hst⟩
    · obtain ⟨m, it, ho, hst'⟩ := h.live ((Function.update_of_ne hcc ..).symm.trans hc) hl₁
      have hm := hne ho.file
      exact ⟨m, it, ⟨ho.clientFd, (hother m hm).trans ho.entry, ho.handler, ho.data,
        (Function.update_of_ne hm ..).trans ho.file⟩, hst'⟩
  · by_cases hm : m = n
    · subst hm
      cases (Function.update_self ..).symm.trans hf
      exact ⟨s, Function.update_self .., hl, hfd⟩
    · obtain ⟨s₁, hc, hl₁, hfd₁⟩ := h.file ((Function.update_of_ne hm ..).symm.trans hf)
      exact ⟨s₁, (Function.update_of_ne (h.ne_allocated hc) ..).trans hc, hl₁, hfd₁⟩
  · have hlt : w.allocated < c := hle
    exact (Function.update_of_ne (Nat.ne_of_gt hlt) ..).trans (h.unallocated (Nat.le_of_lt hlt))
  · obtain ⟨s₁, hc, hl₁⟩ := h.pooled c (List.mem_of_mem_tail hmem)
    exact ⟨s₁, (Function.update_of_ne (h.ne_allocated hc) ..).trans hc, hl₁⟩
  · exact h.nodup.tail
  · have hpool := h.poolSize
    refine ⟨?_, hpool.2⟩
    show w.pool.tail.length ≤ w.poolSize
    rw [List.length_tail]
    omega

theorem Wired.turnedAway (h : w.Wired) (s : MonitorSession) :
    Wired { w.handedOut { s with live := false } with
      pool := ((w.handedOut s).pooledWith w.allocated).1
      poolSize := ((w.handedOut s).pooledWith w.allocated).2 } := by
  have hnot : w.allocated ∉ w.pool.tail := by
    intro hmem
    obtain ⟨s₁, hc, -⟩ := h.pooled _ (List.mem_of_mem_tail hmem)
    exact h.ne_allocated hc rfl
  have hsize : w.pool.tail.length ≤ w.poolSize ∧ w.poolSize ≤ maxPool := by
    have hpool := h.poolSize
    rw [List.length_tail]
    omega
  obtain ⟨hpool, hnodup, hle⟩ := pooledWith_sound (w := w.handedOut s) hnot h.nodup.tail hsize
  have hmem : ∀ c ∈ ((w.handedOut s).pooledWith w.allocated).1, c = w.allocated ∨ c ∈ w.pool :=
    fun c hc => (hpool c hc).imp_right List.mem_of_mem_tail
  refine ⟨h.size, h.sel, h.valid, h.handler, fun he hmon => ?_, fun {c s₁} hc hl₁ => ?_,
    fun {m c} hf => ?_, fun {c} hle => ?_, fun c hc => ?_, hnodup, hle⟩
  · obtain ⟨c, s₁, hc, hl₁, ho⟩ := h.item he hmon
    exact ⟨c, s₁, (Function.update_of_ne (h.ne_allocated hc) ..).trans hc, hl₁, ho.clientFd, ho.entry,
      ho.handler, ho.data, ho.file⟩
  · have hcc : c ≠ w.allocated := by
      rintro rfl
      cases (Function.update_self ..).symm.trans hc
      cases hl₁
    obtain ⟨m, it, ho, hst⟩ := h.live ((Function.update_of_ne hcc ..).symm.trans hc) hl₁
    exact ⟨m, it, ⟨ho.clientFd, ho.entry, ho.handler, ho.data, ho.file⟩, hst⟩
  · obtain ⟨s₁, hc, hl₁, hfd₁⟩ := h.file hf
    exact ⟨s₁, (Function.update_of_ne (h.ne_allocated hc) ..).trans hc, hl₁, hfd₁⟩
  · have hlt : w.allocated < c := hle
    exact (Function.update_of_ne (Nat.ne_of_gt hlt) ..).trans (h.unallocated (Nat.le_of_lt hlt))
  · by_cases hcc : c = w.allocated
    · subst hcc
      exact ⟨_, Function.update_self .., rfl⟩
    · obtain ⟨s₁, hc', hl₁⟩ := h.pooled c ((hmem c hc).resolve_left hcc)
      exact ⟨s₁, (Function.update_of_ne hcc ..).trans hc', hl₁⟩

theorem close_opened (hn : w.files n = none) (owner : MonitorOwner) :
    Service.close { w with files := Function.update w.files n (some owner) } n = w := by
  unfold close
  rw [if_neg (by omega)]
  simp only [Int.toNat_natCast, Function.update_idem]
  rw [← hn, Function.update_eq_self]

theorem Wired.accept (h : w.Wired) (a : MonitorAccept) : w.Next (w.monitorPassiveAccept a) := by
  unfold monitorPassiveAccept
  cases a.answer with
  | none => exact .ok h .refl
  | some client =>
    dsimp only
    cases hfile : w.files client with
    | some owner =>
      simp only [openFile, hfile]
      exact .kernel
    | none =>
      simp only [openFile, hfile, Bind.bind, Except.bind]
      obtain ⟨w₁, hw₁⟩ : ∃ w₁ : Service, w₁ = { w with
          files := Function.update w.files client (some (.connection w.allocated)) } := ⟨_, rfl⟩
      have hclose : w₁.close client = w := hw₁ ▸ close_opened hfile _
      rw [← hw₁, hclose]
      by_cases hnio : a.nio = false
      · rw [if_pos hnio]
        exact .ok h .refl
      · rw [if_neg hnio]
        by_cases hnew : w₁.pool = [] ∧ a.malloc = false
        · have hnone : w₁.connectionNew a.malloc client = none := if_pos hnew
          rw [hnone]
          exact .ok h .refl
        · have hsome : w₁.connectionNew a.malloc client =
              some (w₁.handedOut { clientFd := client }, w₁.allocated) := if_neg hnew
          rw [hsome]
          subst hw₁
          dsimp only
          let s₀ : MonitorSession := { clientFd := client }
          have hwaits : s₀.conn.Waits s₀.received := MonitorConnection.waits_new
          have hopens : w.desk.Move monitorProtocol (w.handedOut s₀).desk := h.opens rfl hwaits rfl
          have hsel : ∀ files, (Service.handedOut { w with files } s₀).sel = w.sel := fun _ => rfl
          rw [hsel]
          rcases h.register_cases client .monitor opRead (some w.allocated) with
            ⟨st, hreg, hst⟩ | ⟨n, hn, -, sel, hreg, hok, hsize, hself, hother⟩
          · rw [hreg]
            simp only [hst, ↓reduceIte]
            have hclosed : Service.close { Service.handedOut { w with
                files := Function.update w.files client (some (.connection w.allocated)) } s₀ with
                sel := w.sel } client = w.handedOut s₀ := congrArg (Service.handedOut · s₀) hclose
            rw [hclosed, connectionDestroy_eq (Function.update_self ..) rfl]
            have hw' := h.turnedAway s₀
            have hdesk : (w.handedOut { s₀ with live := false }).desk =
                w.desk.set w.allocated (.closed [] []) := desk_handedOut ..
            have hset : (w.handedOut s₀).setSession w.allocated { s₀ with live := false } =
                w.handedOut { s₀ with live := false } := by
              simp only [handedOut, setSession, Function.update_idem]
            have hcloses : (w.handedOut s₀).desk.Move monitorProtocol
                (w.handedOut { s₀ with live := false }).desk := by
              have hview : (w.handedOut s₀).desk.sessions w.allocated = some (.waiting []) := by
                rw [desk_handedOut, Sessions.set_self, MonitorSession.view_waiting rfl hwaits]
              have hstep := Sessions.Move.closes (p := monitorProtocol) hview
              rw [desk_handedOut, Sessions.set_set] at hstep
              rw [desk_handedOut, hdesk]
              exact hstep
            rw [hset]
            exact .ok hw' (.tail (.single hopens) hcloses)
          · cases Int.ofNat.inj hn
            rw [hreg]
            simp only [↓reduceIte]
            exact .ok (h.admitted hok hsize hself hother hfile rfl rfl rfl rfl
              (.waiting hwaits rfl rfl)) (.single hopens)

-- ---------------------------------------------------------------------------
-- The proxy
-- ---------------------------------------------------------------------------

/-- The selector and the descriptors change where the monitor has nothing. -/
theorem Wired.aside (h : w.Wired) {sel : Selector MonitorHandler MonitorId}
    {files : Nat → Option MonitorOwner} (hsel : sel.Ok) (hsize : sel.fds.length = w.sel.fds.length)
    (hitems : ∀ {n item}, sel.entry n = some item →
      w.sel.entry n = some item ∨ item.handler = some .proxy)
    (hown : ∀ {n item}, w.sel.entry n = some item → item.handler = some .monitor →
      sel.entry n = some item)
    (hfiles : ∀ n c, files n = some (.connection c) ↔ w.files n = some (.connection c)) :
    Wired { w with sel, files } where
  size := hsize.trans h.size
  sel := hsel
  valid := h.valid
  handler he := by
    rcases hitems he with he' | hp
    · exact h.handler he'
    · simp [hp]
  item he hmon := by
    rcases hitems he with he' | hp
    · obtain ⟨c, s, hc, hl, ho⟩ := h.item he' hmon
      exact ⟨c, s, hc, hl, ho.clientFd, he, ho.handler, ho.data, (hfiles _ _).mpr ho.file⟩
    · cases hmon.symm.trans hp
  live hc hl := by
    obtain ⟨n, item, ho, hst⟩ := h.live hc hl
    exact ⟨n, item, ⟨ho.clientFd, hown ho.entry ho.handler, ho.handler, ho.data,
      (hfiles _ _).mpr ho.file⟩, hst⟩
  file hf := h.file ((hfiles _ _).mp hf)
  unallocated := h.unallocated
  pooled := h.pooled
  nodup := h.nodup
  poolSize := h.poolSize

theorem OwnCall.handler {fd : Int} (hp : w.ProxyItem fd) (hfd : fd = n)
    (he : w.sel.entry n = some item) : item.handler = some .proxy := by
  subst hfd
  refine hp item ?_ (Selector.used_of_entry he)
  rw [Int.toNat_natCast, Option.mem_def]
  exact Selector.getElem?_of_entry he

theorem Wired.found (h : w.Wired) (fd : Int) :
    w.sel.registered fd = .ok none ∨ ∃ (n : Nat) (item : Item MonitorHandler MonitorId),
      fd = n ∧ w.sel.entry n = some item ∧ w.sel.registered fd = .ok (some item) := by
  rcases Selector.fd_cases fd with hinvalid | ⟨n, rfl, hn⟩
  · exact .inl (Selector.registered_invalid _ hinvalid)
  · have hreg := h.registered hn
    cases he : w.sel.entry n with
    | none => exact .inl (he ▸ hreg)
    | some item => exact .inr ⟨n, item, rfl, he, he ▸ hreg⟩

theorem Wired.proxy (h : w.Wired) {call : ProxyCall} (ho : w.OwnCall call) :
    w.Next (w.proxy call) := by
  unfold Service.proxy
  cases call with
  | register fd i =>
    rcases h.register_cases fd .proxy i none with
      ⟨st, hreg, -⟩ | ⟨n, -, hnone, sel, hreg, hok, hsize, hself, hother⟩
    · simp only [hreg]
      exact .ok h .refl
    · simp only [hreg]
      refine .ok (h.aside hok hsize (fun {m it} he => ?_) (fun {m it} he _ => ?_) fun _ _ => .rfl) .refl
      · by_cases hm : m = n
        · subst hm
          cases hself.symm.trans he
          exact .inr rfl
        · exact .inl (hother m hm ▸ he)
      · have hm : m ≠ n := by
          rintro rfl
          cases hnone.symm.trans he
        exact (hother m hm).trans he
  | unregister fd =>
    rcases h.found fd with hreg | ⟨n, item, rfl, he, hreg⟩
    · simp only [unregister, hreg]
      exact .ok h .refl
    · have hproxy := OwnCall.handler ho rfl he
      obtain ⟨hok, hsize, -, -, hself, hother⟩ := Selector.release_spec h.sel he
      simp only [unregister, hreg, Bind.bind, Except.bind, handleClose, hproxy]
      refine .ok (h.aside hok hsize (fun {m it} he' => ?_) (fun {m it} he' hmon => ?_)
        fun _ _ => .rfl) .refl
      · have hm : m ≠ n := by
          rintro rfl
          cases hself.symm.trans he'
        exact .inl (hother m hm ▸ he')
      · have hm : m ≠ n := by
          rintro rfl
          cases he.symm.trans he'
          cases hmon.symm.trans hproxy
        exact (hother m hm).trans he'
  | setInterest fd i =>
    rcases h.found fd with hreg | ⟨n, item, rfl, he, hreg⟩
    · simp only [Selector.setInterest_unregistered hreg]
      exact .ok h .refl
    · have hproxy := OwnCall.handler ho rfl he
      obtain ⟨sel, hset, hok, hsize, -, -, -, hself, hother⟩ := Selector.setInterest_spec h.sel he i
      simp only [hset]
      refine .ok (h.aside hok hsize (fun {m it} he' => ?_) (fun {m it} he' hmon => ?_)
        fun _ _ => .rfl) .refl
      · by_cases hm : m = n
        · subst hm
          cases hself.symm.trans he'
          exact .inr hproxy
        · exact .inl (hother m hm ▸ he')
      · have hm : m ≠ n := by
          rintro rfl
          cases he.symm.trans he'
          cases hmon.symm.trans hproxy
        exact (hother m hm).trans he'
  | openFile n =>
    cases hn : w.files n with
    | some owner =>
      simp only [openFile, hn]
      exact .kernel
    | none =>
      simp only [openFile, hn]
      refine .ok (h.aside h.sel rfl (fun he => .inl he) (fun he _ => he) fun m c => ?_) .refl
      by_cases hm : m = n
      · subst hm
        simp [hn]
      · rw [Function.update_of_ne hm]
  | close n =>
    have hn : w.files n = some .others := ho
    have hclose : w.close n = { w with files := Function.update w.files n none } :=
      if_neg (by omega)
    simp only [hclose]
    refine .ok (h.aside h.sel rfl (fun he => .inl he) (fun he _ => he) fun m c => ?_) .refl
    by_cases hm : m = n
    · subst hm
      simp [hn]
    · rw [Function.update_of_ne hm]
  | globals isAuthOn historic current transferred =>
    exact .ok (h.setShared ⟨h.valid.users, h.valid.admins⟩) (.single (.drift ⟨rfl, rfl, rfl⟩))

-- ---------------------------------------------------------------------------
-- Events
-- ---------------------------------------------------------------------------

theorem target_iff {write : Bool} :
    w.target n write = some item ↔ w.sel.entry n = some item ∧
      (if write then item.interest.write else item.interest.read) = true := by
  unfold target Selector.entry
  rw [Option.filter_eq_some_iff]
  cases w.sel.fds[n]? with
  | none => simp
  | some item' =>
    simp only [Option.bind_eq_bind, Option.bind_some, Option.ite_none_right_eq_some,
      Option.some.injEq]
    constructor
    · rintro ⟨⟨hused, hwants⟩, rfl⟩
      exact ⟨⟨rfl, hused⟩, hwants⟩
    · rintro ⟨⟨rfl, hused⟩, hwants⟩
      exact ⟨⟨hused, hwants⟩, rfl⟩

/-- An event of a descriptor is one of a connection in use, and its stage tells
which handler is called. -/
theorem Wired.ready (h : w.Wired) {fd : Nat} {write : Bool} {io : Io} {r : Except Fault Service}
    (hs : w.step (.ready fd write io) = some r) :
    ∃ c s item, w.sessions c = some s ∧ s.live = true ∧ w.Owns c s fd item ∧
      s.Stands item.interest ∧
      (if write then item.interest.write else item.interest.read) = true ∧
      r = if write then w.handleWrite io ⟨fd, c⟩ else w.handleRead io ⟨fd, c⟩ := by
  cases ht : w.target fd write with
  | none =>
    simp only [step, ht] at hs
    cases hs
  | some item =>
    obtain ⟨he, hwants⟩ := target_iff.mp ht
    simp only [step, ht, Option.bind_eq_bind, Option.bind_some] at hs
    split at hs
    · rename_i c hh hd
      obtain ⟨c', s, hc, hl, ho⟩ := h.item he hh
      cases hd.symm.trans ho.data
      obtain ⟨n, item', ho', hst⟩ := h.live hc hl
      have hn : n = fd := Int.ofNat.inj (ho'.clientFd.symm.trans ho.clientFd)
      subst hn
      cases ho.entry.symm.trans ho'.entry
      refine ⟨c, s, item, hc, hl, ho, hst, hwants, ?_⟩
      rw [h.sel.fd_eq he] at hs
      exact (Option.some.inj hs).symm
    · cases hs

theorem Wired.step (h : w.Wired) {e : Event} {r : Except Fault Service} (hallowed : Allowed w e)
    (hs : w.step e = some r) : w.Next r := by
  cases e with
  | ready fd write io =>
    obtain ⟨c, s, item, hc, hl, ho, hst, hwants, rfl⟩ := h.ready hs
    generalize hi : item.interest = i at hst hwants
    cases hst with
    | waiting hw hf hsent =>
      cases write with
      | false => exact h.handleRead hc hl ho hw hf hsent hi io
      | true => cases hwants
    | answering hd hf hrest =>
      cases write with
      | false => cases hwants
      | true => exact h.handleWrite hc hl ho hd hi io
  | accept fd a =>
    cases ht : w.target fd false with
    | none =>
      simp only [Service.step, ht] at hs
      cases hs
    | some item =>
      simp only [Service.step, ht, Option.bind_eq_bind, Option.bind_some] at hs
      split at hs
      · cases hs
        exact h.accept a
      · cases hs
  | proxy call =>
    cases hs
    exact h.proxy hallowed

end Service

end Socks5d
