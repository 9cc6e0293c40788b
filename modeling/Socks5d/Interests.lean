import Socks5d.Relay

/-!
# The interests in COPY

A side is watched for reading while its direction is open and the buffer behind
it has room, and for writing while the other direction is open and there are
bytes to write. `copy_compute_interests` says so after every event. On entry
`request_write` watches both sides for reading only, which is the same when the
client has sent nothing behind its request.

An empty buffer is rewound, so a buffer without room has bytes to write, and no
direction that is open waits for nothing.
-/

namespace Socks5d

/-- The last byte of a success reply is sent while the read buffer is empty. -/
def EntersDrained : World.Condition := fun _ s ce =>
  match ce with
  | .ready _ true io => s.stm = some .requestWrite → s.request.status = .succeeded →
      (∃ n, n ∈ io.send ∧ s.writeBuffer.content.length ≤ n) → s.readBuffer.content = []
  | _ => True

/-- The selector delivers read (or write) events of the descriptor. -/
def World.Watches (w : World) (fd : Int) (write : Bool) : Prop :=
  ∃ n : Nat, fd = n ∧ (w.target n write).isSome = true

namespace View

variable {v v' : View} {io : Io} {c : ConnId}

def sideLink (v : View) : Side → Link
  | .client => v.client
  | .origin => v.peer

theorem Copying.link_eq (h : v.Copying) (d : Side) : v.link (v.sideFd d) = v.sideLink d := by
  have hne := h.peer_ne
  cases d with
  | client => exact if_pos rfl
  | origin => rw [sideFd, link, if_neg hne, if_pos rfl, sideLink]

def ExactLinks (v : View) : Prop := ∀ d, v.sideLink d = .watched (v.s.copyInterest d)

def EntryLinks (v : View) : Prop := ∀ d, v.sideLink d = .watched opRead

-- ---------------------------------------------------------------------------
-- The way into COPY
-- ---------------------------------------------------------------------------

theorem Outcome.copy_cases {fd : Nat} {write : Bool} {ret : SocksState}
    (h : Outcome io c v fd write v' ret) (hret : ret = .copy) :
    v.s.stm = some .copy ∨ ∃ n wb, write = true ∧ v.s.stm = some .requestWrite ∧ Sends io v n wb ∧
      wb.content = [] ∧ v.s.request.status = .succeeded ∧ v' = (v.sent n wb).relaying.logged := by
  cases h with
  | replySent hst hs hleft hstatus => exact .inr ⟨_, _, rfl, hst, hs, hleft, hstatus, rfl⟩
  | copyReceived hst | copyEnded hst | copySent hst | copyFailed hst => exact .inl hst
  | helloDone | helloSent | authDone | requestMore => split at hret <;> cases hret
  | requestDone hst hr hc hdone hprocess =>
    cases hprocess with
    | connect htype hconnect => cases hconnect <;> cases hret
    | _ => cases hret
  | _ => cases hret

theorem Resolved.ne_copy {ret : SocksState} (h : Resolved io v v' ret) : ret ≠ .copy := by
  cases h with
  | unreachable => simp
  | connect _ hconnect => cases hconnect <;> simp

theorem relaying_links (n : Nat) (wb : Buffer) (hst : v.s.stm = some .requestWrite) :
    let v₁ := ((v.sent n wb).relaying.logged).advance .copy
    v₁.EntryLinks ∧ (∀ d, v₁.s.duplex d = ⟨true, true⟩) ∧ v₁.s.readBuffer = v.s.readBuffer ∧
      v₁.s.writeBuffer = wb := by
  have hne : (v.sent n wb).relaying.logged.s.stm ≠ some .copy := by
    show v.s.stm ≠ some .copy
    simp [hst]
  have heq : (v.sent n wb).relaying.logged.advance .copy =
      ((v.sent n wb).relaying.logged.enter .copy).arrive .copy := if_neg hne
  rw [heq]
  refine ⟨fun d => ?_, fun d => ?_, ?_, ?_⟩
  · cases d <;> rfl
  · cases d <;> rfl
  · simp only [arrive, enter, logged, noted, relaying, sent]
  · simp only [arrive, enter, logged, noted, relaying, sent]

theorem Body.space_of_empty_rb (hb : v.Body) {d : Side} (h : (v.s.rb d).content = []) :
    0 < (v.s.rb d).space := by
  cases d with
  | client =>
    rw [show v.s.rb .client = v.s.readBuffer from rfl, hb.readRewound.space_of_empty h, hb.readLimit]
    decide
  | origin =>
    rw [show v.s.rb .origin = v.s.writeBuffer from rfl, hb.writeRewound.space_of_empty h, hb.writeLimit]
    decide

theorem exact_of_entry (hb : v.Body) (hlinks : v.EntryLinks) (hopen : ∀ d, v.s.duplex d = ⟨true, true⟩)
    (hempty : ∀ d, (v.s.rb d).content = []) : v.ExactLinks := by
  intro d
  have hread : bufferCanWrite (v.s.rb d) = true :=
    (Buffer.canWrite_iff _).mpr (hb.space_of_empty_rb (hempty d))
  have hwrite : bufferCanRead (v.s.wb d) = false := (Buffer.canRead_eq_false_iff _).mpr (hempty d.other)
  rw [hlinks d, Socks5.copyInterest, hopen, hread, hwrite]
  rfl

-- ---------------------------------------------------------------------------
-- The invariants
-- ---------------------------------------------------------------------------

/-- A connection in COPY has symmetric directions, and the interests of its
entry or the documented ones. -/
def Attends (v : View) : Prop :=
  v.live = true → v.s.stm = some .copy → v.s.Symmetric ∧ (v.EntryLinks ∨ v.ExactLinks)

def Exact (v : View) : Prop := v.live = true → v.s.stm = some .copy → v.ExactLinks

theorem Copies.exactLinks {d : Side} {write : Bool} {ret : SocksState} {lines : List Action}
    {closed : Option Side} (h : Copies io v d write v' ret lines closed) : v'.ExactLinks := by
  intro d'
  cases d' with
  | client => exact h.client.2
  | origin => exact h.peer.2

theorem advance_copy (h : v.s.stm = some .copy) : v.advance .copy = v := if_pos h

theorem Outcome.attends {fd : Nat} {write : Bool} {ret : SocksState}
    (h : Outcome io c v fd write v' ret) (hs : v.Shape c) (hv : v.Attends) :
    (v'.advance ret).Attends := by
  intro _ hst'
  rw [advance_stm, Option.some.injEq] at hst'
  rcases h.copy_cases hst' with hst | ⟨n, wb, -, hst, -, -, -, rfl⟩
  · obtain ⟨d, lines, closed, -, hcopies⟩ := h.copies hs hst
    rw [hst', advance_copy (h.stm.trans hst)]
    exact ⟨hcopies.symmetric (hv hs.body.live hst).1, .inr hcopies.exactLinks⟩
  · subst hst'
    obtain ⟨hlinks, hopen, -, -⟩ := relaying_links (v := v) n wb hst
    exact ⟨fun d => by rw [hopen, hopen], .inl hlinks⟩

theorem Outcome.exact {fd : Nat} {write : Bool} {ret : SocksState}
    (h : Outcome io c v fd write v' ret) (hs : v.Shape c) (hen : v.Enabled fd write)
    (hcond : EntersDrained v.globals v.s (.ready fd write io)) : (v'.advance ret).Exact := by
  intro _ hst'
  rw [advance_stm, Option.some.injEq] at hst'
  rcases h.copy_cases hst' with hst | ⟨n, wb, rfl, hst, hsends, hleft, hstatus, rfl⟩
  · obtain ⟨d, lines, closed, -, hcopies⟩ := h.copies hs hst
    rw [hst', advance_copy (h.stm.trans hst)]
    exact hcopies.exactLinks
  · subst hst'
    obtain ⟨hlinks, hopen, hrb, hwb⟩ := relaying_links (v := v) n wb hst
    -- the whole reply was sent
    have hsent : ∃ n, n ∈ io.send ∧ v.s.writeBuffer.content.length ≤ n := by
      have hanswer := hsends.answer
      rw [sendAnswer, Option.map_eq_some_iff] at hanswer
      obtain ⟨k, hk, rfl⟩ := hanswer
      have hdrop := hsends.takes.content
      rw [hleft, eq_comm, List.drop_eq_nil_iff] at hdrop
      exact ⟨k, hk, by omega⟩
    refine exact_of_entry ((h.shape hs hen).1.advance .copy) hlinks hopen fun d => ?_
    cases d with
    | client =>
      show (((v.sent n wb).relaying.logged).advance .copy).s.readBuffer.content = []
      rw [hrb]
      exact hcond hst hstatus hsent
    | origin =>
      show (((v.sent n wb).relaying.logged).advance .copy).s.writeBuffer.content = []
      rw [hwb]
      exact hleft

theorem Attends.wants (h : v.Attends) (hs : v.Shape c) (hst : v.s.stm = some .copy) {d : Side}
    (hd : (v.s.duplex d).read = true) :
    (v.link (v.sideFd d)).wants false = true ∨ (v.link (v.sideFd d.other)).wants true = true := by
  obtain ⟨hcopying, -⟩ := hs.copying hst
  obtain ⟨hsym, hlinks⟩ := h hs.body.live hst
  rw [hcopying.link_eq, hcopying.link_eq]
  rcases hlinks with hentry | hexact
  · exact .inl (by rw [hentry]; rfl)
  · rw [hexact, hexact]
    show (v.s.copyInterest d).read = true ∨ (v.s.copyInterest d.other).write = true
    simp only [Socks5.copyInterest, hd, hsym d.other, Side.other_other, Socks5.wb, Bool.true_and,
      Buffer.canWrite_iff, Buffer.canRead_iff]
    -- a buffer without room is not empty, as it would be rewound
    by_cases hempty : (v.s.rb d).content = []
    · exact .inl (hs.body.space_of_empty_rb hempty)
    · exact .inr hempty

end View

namespace World

open View

variable {w₀ w : World} {c : ConnId}

theorem attends_rules : Rules anyEvent (fun _ => True) fun _ v => v.Attends where
  start _ _ _ _ _ := by
    refine ⟨fun _ hst => ?_, trivial⟩
    rw [advance_stm] at hst
    cases hst
  outcome hs _ hv _ _ hout := ⟨hout.attends hs hv, trivial⟩
  resolved _ _ _ _ _ hres := by
    refine ⟨fun _ hst => ?_, trivial⟩
    rw [advance_stm, Option.some.injEq] at hst
    exact absurd hst hres.ne_copy
  ended _ hlive := by cases hlive
  frame _ hv _ := hv
  fresh _ _ _ hst := by cases hst
  turnedAway _ _ _ hst := by cases hst

theorem exact_rules : Rules EntersDrained (fun _ => True) fun _ v => v.Exact where
  start _ _ _ _ _ := by
    refine ⟨fun _ hst => ?_, trivial⟩
    rw [advance_stm] at hst
    cases hst
  outcome {c v fd write io v₁ ret} hs hen hv _ hcond hout := by
    refine ⟨hout.exact hs hen ?_, trivial⟩
    rcases hcond with hst | hcond
    · cases write with
      | false => trivial
      | true => exact fun hst' => absurd (hst.symm.trans hst') (by simp)
    · exact hcond
  resolved _ _ _ _ _ hres := by
    refine ⟨fun _ hst => ?_, trivial⟩
    rw [advance_stm, Option.some.injEq] at hst
    exact absurd hst hres.ne_copy
  ended _ hlive := by cases hlive
  frame _ hv _ := hv
  fresh _ _ _ hst := by cases hst
  turnedAway _ _ _ hst := by cases hst

theorem Shows.entry {v : View} (hw : w.Wired) (hv : w.Shows c v) {n : Nat} {i : Interest}
    (h : v.link n = .watched i) : ∃ item, w.sel.entry n = some item ∧ item.interest = i := by
  have hrel : Rel w c w v := ⟨hw, hv, .refl c w⟩
  obtain ⟨item, hentry, -, -, hi⟩ := hrel.entry_watched h
  exact ⟨item, hentry, hi⟩

theorem Shows.watches {v : View} (hw : w.Wired) (hv : w.Shows c v) {n : Nat} {write : Bool}
    (h : (v.link n).wants write = true) : w.Watches n write := by
  cases hlink : v.link n with
  | watched i =>
    obtain ⟨item, hentry, rfl⟩ := hv.entry hw hlink
    rw [hlink] at h
    exact ⟨n, rfl, Option.isSome_iff_exists.mpr ⟨item, target_iff.mpr ⟨hentry, h⟩⟩⟩
  | closed | opened =>
    rw [hlink] at h
    cases h

theorem Carries.copies {G : Globals → Prop} {I : ConnId → View → Prop} {cond : Condition}
    (hkept : Kept cond G I) (h : Carries G I w) {s : Socks5} (hc : w.conns c = some ⟨s, true⟩)
    (hst : s.stm = some .copy) {e : Event} {w' : World} (hs : w.step e = some (.ok w')) {conn : Conn}
    (hc' : w'.conns c = some conn) :
    ∃ closed : Option Side, ∀ d,
      (conn.s.duplex d).read = ((s.duplex d).read && decide (closed ≠ some d)) ∧
      (conn.s.duplex d).write = ((s.duplex d).write && decide (closed ≠ some d.other)) := by
  have hsame (heq : w'.conns c = w.conns c) : conn.s = s := by
    rw [heq, hc] at hc'
    cases hc'
    rfl
  rcases h.step_cases hkept hs with ⟨c', v, ce, v', -, hshows, hshape, -, hstep, hrel⟩ | houtside
  · by_cases hne : c = c'
    · subst hne
      rw [hshows.conn, Option.some.injEq] at hc
      obtain rfl : v.s = s := congrArg Conn.s hc
      rw [hrel.shows.conn, Option.some.injEq] at hc'
      subst hc'
      cases hstep with
      | resolved hst' =>
        rw [hst] at hst'
        cases hst'
      | @ready fd write io v₁ ret hen hout =>
        rw [show v.started = v from if_neg (by simp [hst])] at hout
        obtain ⟨d, lines, closed, -, hcopies⟩ := hout.copies hshape hst
        obtain ⟨-, -, -, -, -, hsides, -⟩ :=
          settle_copy (v := v₁) (hout.stm.trans hst) hcopies.ret_cases
        refine ⟨closed, fun d' => ?_⟩
        rw [hsides.duplex]
        exact ⟨hcopies.reads d', hcopies.writes d'⟩
    · rw [hsame (hrel.others.conns c hne)]
      exact ⟨none, fun d => by simp⟩
  · rw [hsame (houtside.same h (h.wired.lt_allocated hc)).1]
    exact ⟨none, fun d => by simp⟩

/-- No direction of COPY gets stuck: in every reachable state of COPY the source of
an open direction is watched for reading or its sink for writing, and an event
that closes a direction leaves the bits of the other one as they were. -/
theorem copy_never_stuck (h₀ : w₀.Initial) (h : Reachable w₀ w) {s : Socks5}
    (hc : w.conns c = some ⟨s, true⟩) (hst : s.stm = some .copy) :
    (∀ d, (s.duplex d).read = true → w.Watches (s.fd d) false ∨ w.Watches (s.fd d.other) true) ∧
    ∀ e w' conn, w.step e = some (.ok w') → w'.conns c = some conn → ∀ d,
      (conn.s.duplex d).read ≠ (s.duplex d).read ∨
        (conn.s.duplex d.other).write ≠ (s.duplex d.other).write →
      (conn.s.duplex d.other).read = (s.duplex d.other).read ∧
        (conn.s.duplex d).write = (s.duplex d).write := by
  have hcarries := reaches_carries attends_rules.kept ⟨fun _ _ h => h, fun _ _ h => h⟩ h₀ trivial h
  refine ⟨fun d hd => ?_, fun e w' conn hs hc' d hclosed => ?_⟩
  · obtain ⟨v, hshows, rfl, hshape, hattends⟩ := hcarries.live_view hc
    obtain ⟨hcopying, -⟩ := hshape.copying hst
    rw [hcopying.fd_eq, hcopying.fd_eq]
    exact (hattends.wants hshape hst hd).imp (hshows.watches hcarries.wired)
      (hshows.watches hcarries.wired)
  · obtain ⟨closed, hbits⟩ := hcarries.copies attends_rules.kept hc hst hs hc'
    rw [(hbits d).1, (hbits d.other).2, Side.other_other] at hclosed
    have hthis : closed = some d := by
      by_contra hne
      simp [hne] at hclosed
    rw [(hbits d.other).1, (hbits d).2, hthis]
    simp [(Side.other_ne d).symm]

/-- The interests in COPY are the documented ones: in every run in which the read
buffer is empty whenever the last byte of a success reply is sent, in every state
of COPY. So `recv` is never called without room, and it answers 0 at the end of the
stream only. -/
theorem copy_interests_exact (h₀ : w₀.Initial) (h : Runs EntersDrained w₀ w) {s : Socks5}
    (hc : w.conns c = some ⟨s, true⟩) (hst : s.stm = some .copy) (d : Side) :
    ∃ (n : Nat) (item : Item FdHandler ConnId), s.fd d = n ∧ w.sel.entry n = some item ∧
      (item.interest.read = true ↔ (s.duplex d).read = true ∧ bufferCanWrite (s.rb d) = true) ∧
      (item.interest.write = true ↔ (s.duplex d).write = true ∧ bufferCanRead (s.wb d) = true) ∧
      (item.interest.read = true → bufferWritePtr (s.rb d) ≠ 0 ∧
        ∀ io, recvAnswer io (bufferWritePtr (s.rb d)) = some [] → io.recv = some []) := by
  have hcarries := reaches_carries exact_rules.kept ⟨fun _ _ h => h, fun _ _ h => h⟩ h₀ trivial h
  obtain ⟨v, hshows, rfl, hshape, hexact⟩ := hcarries.live_view hc
  obtain ⟨hcopying, -⟩ := hshape.copying hst
  have hlink : v.link (v.sideFd d) = .watched (v.s.copyInterest d) :=
    (hcopying.link_eq d).trans (hexact hshape.body.live hst d)
  obtain ⟨item, hentry, hinterest⟩ := hshows.entry hcarries.wired hlink
  have hread : item.interest.read = true ↔
      (v.s.duplex d).read = true ∧ bufferCanWrite (v.s.rb d) = true := by
    rw [hinterest]
    exact Bool.and_eq_true_iff
  refine ⟨v.sideFd d, item, hcopying.fd_eq d, hentry, hread, ?_, fun hwants => ?_⟩
  · rw [hinterest]
    exact Bool.and_eq_true_iff
  · have hroom := (Buffer.canWrite_iff _).mp (hread.mp hwants).2
    refine ⟨Nat.pos_iff_ne_zero.mp hroom, fun io hio => ?_⟩
    rw [recvAnswer, Option.map_eq_some_iff] at hio
    obtain ⟨bytes, hbytes, htake⟩ := hio
    rw [List.take_eq_nil_iff] at htake
    rw [hbytes, htake.resolve_left (Nat.pos_iff_ne_zero.mp hroom)]

instance (g : Globals) (s : Socks5) (ce : ConnEvent) : Decidable (EntersDrained g s ce) :=
  match ce with
  | .ready _ true io =>
    have : Decidable (∃ n, n ∈ io.send ∧ s.writeBuffer.content.length ≤ n) := inferInstance
    inferInstanceAs (Decidable (_ → _ → _ → _))
  | .ready _ false _ => inferInstanceAs (Decidable True)
  | .resolved _ _ => inferInstanceAs (Decidable True)

def asksWith (data : List Byte) : List Event :=
  [.accept 3 { answer := some (4, {}) },
   .ready 4 false { recv := some [5, 1, 0] },
   .ready 4 true { send := some 2 },
   .ready 4 false { recv := some ([5, 1, 0, 1, 127, 0, 0, 1, 0, 80] ++ data), socket := some 5,
                    connect := some einprogress },
   .ready 5 true { sockError := some 0 },
   .ready 4 true { send := some 10 }]

/-- Bytes that came with the request wait in the buffer, and the origin is not
watched for writing. -/
theorem copy_interests_on_entry : ∃ w s item, Reachable (startUp {}) w ∧
    w.conns 0 = some ⟨s, true⟩ ∧ s.stm = some .copy ∧ s.fd .origin = 5 ∧
    w.sel.entry 5 = some item ∧ item.interest.write = false ∧
    (s.duplex .origin).write = true ∧ bufferCanRead (s.wb .origin) = true := by
  have hrun : Lib.endsIn (fun w => (w.conns 0).any fun conn => (w.sel.entry 5).any fun item =>
        conn.live && decide (conn.s.stm = some .copy ∧ conn.s.fd .origin = 5 ∧
          item.interest.write = false ∧ (conn.s.duplex .origin).write = true ∧
          bufferCanRead (conn.s.wb .origin) = true))
      (play (Meets anyEvent) (startUp {}) (asksWith [104, 105])) = true := by decide +kernel
  obtain ⟨w, hplay, hconn⟩ := Lib.endsIn_iff.mp hrun
  obtain ⟨⟨s, live⟩, hc, hconn⟩ := (Option.any_eq_true ..).mp hconn
  obtain ⟨item, hentry, hitem⟩ := (Option.any_eq_true ..).mp hconn
  simp only [Bool.and_eq_true, decide_eq_true_eq] at hitem
  obtain ⟨rfl, hst, hfd, hrest⟩ := hitem
  exact ⟨w, s, item, Lib.reaches_of_play hplay, hc, hst, hfd, hentry, hrest⟩

/-- A connection that has just entered COPY is watched for reading. -/
theorem copy_never_stuck_connected : ∃ w s, Reachable (startUp {}) w ∧ w.conns 0 = some ⟨s, true⟩ ∧
    s.stm = some .copy ∧ ∀ d, (s.duplex d).read = true ∧
      (w.Watches (s.fd d) false ∨ w.Watches (s.fd d.other) true) := by
  have hrun : Lib.endsIn (fun w => (w.conns 0).any fun conn =>
        conn.live && decide (conn.s.stm = some .copy ∧ ∀ d, (conn.s.duplex d).read = true))
      (play (Meets anyEvent) (startUp {}) connected) = true := by decide +kernel
  obtain ⟨w, hplay, hconn⟩ := Lib.endsIn_iff.mp hrun
  obtain ⟨⟨s, live⟩, hc, hconn⟩ := (Option.any_eq_true ..).mp hconn
  simp only [Bool.and_eq_true, decide_eq_true_eq] at hconn
  obtain ⟨rfl, hst, hopen⟩ := hconn
  have hreach := Lib.reaches_of_play hplay
  have hstuck := (copy_never_stuck (startUp_initial (by decide)) hreach hc hst).1
  exact ⟨w, s, hreach, hc, hst, fun d => ⟨hopen d, hstuck d (hopen d)⟩⟩

/-- Without such bytes both sides are watched for reading. -/
theorem copy_interests_connected : ∃ w s, Runs EntersDrained (startUp {}) w ∧
    w.conns 0 = some ⟨s, true⟩ ∧ s.stm = some .copy ∧
    ∀ d, ∃ (n : Nat) (item : Item FdHandler ConnId),
      s.fd d = n ∧ w.sel.entry n = some item ∧
      (item.interest.read = true ↔ (s.duplex d).read = true ∧ bufferCanWrite (s.rb d) = true) := by
  have hrun : Lib.endsIn (fun w => (w.conns 0).any fun conn =>
        conn.live && decide (conn.s.stm = some .copy))
      (play (Meets EntersDrained) (startUp {}) connected) = true := by decide +kernel
  obtain ⟨w, hplay, hconn⟩ := Lib.endsIn_iff.mp hrun
  obtain ⟨⟨s, live⟩, hc, hconn⟩ := (Option.any_eq_true ..).mp hconn
  simp only [Bool.and_eq_true, decide_eq_true_eq] at hconn
  obtain ⟨rfl, hst⟩ := hconn
  have hruns := Lib.reaches_of_play hplay
  refine ⟨w, s, hruns, hc, hst, fun d => ?_⟩
  obtain ⟨n, item, hfd, hentry, hread, -⟩ :=
    copy_interests_exact (startUp_initial (by decide)) hruns hc hst d
  exact ⟨n, item, hfd, hentry, hread⟩

end World

end Socks5d
