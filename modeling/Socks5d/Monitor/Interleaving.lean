import Socks5d.Monitor.Parser

/-!
# Monitor connections parsed side by side

Chunks of several monitor connections reach their parsers in some order.
A parser that has read one of its two DLEN bytes relies on `combinedlen[0]`,
one past the separator of an add request on `username_len_with_null`; both are
shared. `Agrees` says that what a parser still relies on is as if it ran
alone, and `serve_alone` follows a run in which no chunk of another connection
changes what a parser relies on.
-/

namespace Socks5d

structure MonitorConn where
  readBuffer : Buffer
  parser : MonitorParser

def monitorConnNew : MonitorConn :=
  ⟨bufferInit (List.replicate 0xffff 0), monitorParserInit⟩

/-- The reading part of `monitor_read` when `recv` finds `chunk` waiting: it
takes what fits in the buffer, and nothing is parsed when it takes nothing. -/
def monitorReceive (st : Statics) (k : MonitorConn) (chunk : List Byte) : Statics × MonitorConn :=
  let bytes := chunk.take (bufferWritePtr k.readBuffer)
  if bytes = [] then (st, k)
  else match bufferWriteAdv (k.readBuffer.fill bytes) bytes.length with
    | none => (st, k)
    | some b =>
      let (st, b, p) := monitorConsume st b k.parser
      (st, ⟨b, p⟩)

section
variable {ι : Type} [DecidableEq ι]

/-- The statics and every connection. -/
structure Monitors (ι : Type) where
  statics : Statics
  conn : ι → MonitorConn

def Monitors.receive (m : Monitors ι) (e : ι × List Byte) : Monitors ι :=
  let (st, k) := monitorReceive m.statics (m.conn e.1) e.2
  ⟨st, Function.update m.conn e.1 k⟩

def Monitors.serve (m : Monitors ι) (events : List (ι × List Byte)) : Monitors ι :=
  events.foldl Monitors.receive m

/-- One connection alone with its own chunks. -/
def monitorAlone (st : Statics) (k : MonitorConn) (chunks : List (List Byte)) :
    Statics × MonitorConn :=
  chunks.foldl (fun s chunk => monitorReceive s.1 s.2 chunk) (st, k)

def chunksOf (i : ι) (events : List (ι × List Byte)) : List (List Byte) :=
  (events.filter (·.1 = i)).map Prod.snd

end

-- ---------------------------------------------------------------------------
-- What a parser relies on
-- ---------------------------------------------------------------------------

def MonitorParser.AwaitsLen (p : MonitorParser) : Prop := p.state = .dlen ∧ p.i = 1

def MonitorParser.AwaitsSecret (p : MonitorParser) : Prop := p.state = .data ∧ p.separated = true

def overwritesLen (x : Byte) : Statics × MonitorParser → List Byte → Prop
  | _, [] => False
  | s, c :: cs => (s.2.state = .dlen ∧ s.2.i = 0 ∧ c ≠ x) ∨
      (monitorIsDone (monitorMachine.feed s c).2.state = false ∧
        overwritesLen x (monitorMachine.feed s c) cs)

/-- The bytes, parsed from `s`, store a value other than `n` in
`username_len_with_null`: the separator of an add request is among them. -/
def overwritesSeparator (n : Nat) : Statics × MonitorParser → List Byte → Prop
  | _, [] => False
  | s, c :: cs => (s.2.state = .data ∧ s.2.separated = false ∧ c = 0 ∧ s.2.i ≠ 0 ∧
        (s.2.monitor.target = monitorTargetConfigAddProxyuser ∨
          s.2.monitor.target = monitorTargetConfigAddAdmin) ∧ (s.2.i + 1).toNat ≠ n) ∨
      (monitorIsDone (monitorMachine.feed s c).2.state = false ∧
        overwritesSeparator n (monitorMachine.feed s c) cs)

structure Agrees (p : MonitorParser) (st st' : Statics) : Prop where
  len : p.AwaitsLen → st.combinedlen.1 = st'.combinedlen.1
  secret : p.AwaitsSecret → st.usernameLenWithNull = st'.usernameLenWithNull

theorem Agrees.trans {p : MonitorParser} {st st' st'' : Statics} (h : Agrees p st st')
    (h' : Agrees p st' st'') : Agrees p st st'' :=
  ⟨fun hp => (h.len hp).trans (h'.len hp), fun hp => (h.secret hp).trans (h'.secret hp)⟩

structure MonitorParser.Shaped (p : MonitorParser) : Prop where
  dlen : p.state = .dlen → p.len = 2 ∧ p.i < 2
  early : p.state.toNat < MonitorState.data.toNat → p.separated = false

theorem monitorParserInit_shaped : monitorParserInit.Shaped := ⟨nofun, fun _ => rfl⟩

theorem uint16_lt_two {i : UInt16} (h : i < 2) : i = 0 ∨ i = 1 := by
  grind

/-- Two results of the `switch`, on different statics, that leave the parser
in one state and relying on equal bytes. -/
structure SameStep (r r' : Statics × MonitorParser × MonitorState) : Prop where
  parser : r.2 = r'.2
  dlen : r.2.2 = .dlen → r.2.1.len = 2 ∧
    (r.2.1.i = 0 ∨ r.2.1.i = 1 ∧ r.1.combinedlen.1 = r'.1.combinedlen.1)
  early : r.2.2.toNat < MonitorState.data.toNat → r.2.1.separated = false
  secret : r.2.2 = .data → r.2.1.separated = true →
    r.1.usernameLenWithNull = r'.1.usernameLenWithNull

theorem SameStep.of_state {st st' : Statics} {p : MonitorParser} {next : MonitorState}
    (hd : next ≠ .dlen) (hs : next ≠ .data) (he : p.separated = false ∨ next.toNat > 5) :
    SameStep (st, p, next) (st', p, next) := by
  refine ⟨rfl, fun h => absurd h hd, fun h => ?_, fun h => absurd h hs⟩
  rcases he with he | he
  · exact he
  · exact absurd (Nat.lt_trans h he) (Nat.lt_irrefl _)

theorem dlenState_same {p : MonitorParser} {st st' : Statics} (hp : p.Shaped)
    (h : Agrees p st st') (hs : p.state = .dlen) (c : Byte) :
    SameStep (Monitor.dlenState c st p) (Monitor.dlenState c st' p) := by
  obtain ⟨hlen, hi⟩ := hp.dlen hs
  have hsep : p.separated = false := hp.early (by simp [hs, MonitorState.toNat])
  rcases uint16_lt_two hi with hi | hi
  · -- the first byte is stored, the second awaited
    have hf (st : Statics) : Monitor.dlenState c st p =
        ({ st with combinedlen := (c, st.combinedlen.2) }, (p.storing .combinedlen 0).next, .dlen) := by
      simp [Monitor.dlenState, hi, MonitorParser.storing, MonitorParser.next,
        MonitorParser.remainingIsDone, hlen]
    rw [hf, hf]
    refine ⟨rfl, fun _ => ⟨hlen, .inr ⟨?_, rfl⟩⟩, fun _ => hsep, nofun⟩
    simp [MonitorParser.next, MonitorParser.storing, hi]
  · have hc : st.combinedlen.1 = st'.combinedlen.1 := h.len ⟨hs, hi⟩
    have hdone : (p.storing .combinedlen 1).next.remainingIsDone = true := by
      simp [MonitorParser.next, MonitorParser.storing, MonitorParser.remainingIsDone, hi, hlen]
    simp only [Monitor.dlenState, hi, UInt16.toNat_one, hdone, ↓reduceIte, hc,
      show (1 : UInt16) ≠ 0 by decide]
    split
    · exact ⟨rfl, nofun, fun _ => hsep, fun _ h => absurd (hsep.symm.trans h) nofun⟩
    · split
      · exact ⟨rfl, nofun, fun _ => hsep, fun _ h => absurd (hsep.symm.trans h) nofun⟩
      · exact ⟨rfl, nofun, fun _ => hsep, nofun⟩

theorem addState_same {p : MonitorParser} {st st' : Statics} (h : Agrees p st st')
    (hs : p.state = .data) (userField : Field)
    (storeSecret : MonitorParser → Nat → Byte → MonitorParser) (c : Byte) :
    SameStep (Monitor.addState userField storeSecret c st p)
      (Monitor.addState userField storeSecret c st' p) := by
  cases hsep : p.separated with
  | false =>
    simp only [Monitor.addState, hsep, ↓reduceIte]
    split_ifs <;> exact ⟨rfl, nofun, nofun, fun _ h => by
      first | rfl | simp [MonitorParser.next, MonitorParser.storeUser, MonitorParser.storing,
        MonitorParser.setData, hsep] at h⟩
  | true =>
    have hn : st.usernameLenWithNull = st'.usernameLenWithNull := h.secret ⟨hs, hsep⟩
    have hix : Monitor.secretIndex st p = Monitor.secretIndex st' p := by
      simp [Monitor.secretIndex, hn]
    simp only [Monitor.addState, hsep, hix, Bool.true_eq_false, and_false, ↓reduceIte]
    split_ifs <;> exact ⟨rfl, nofun, nofun, fun _ _ => hn⟩

theorem deleteState_same {p : MonitorParser} {st st' : Statics} (h : Agrees p st st')
    (hs : p.state = .data) (c : Byte) :
    SameStep (st, Monitor.deleteState c p) (st', Monitor.deleteState c p) := by
  refine ⟨rfl, ?_, ?_, ?_⟩
  · simp only [Monitor.deleteState]
    split_ifs <;> exact nofun
  · simp only [Monitor.deleteState]
    split_ifs <;> exact nofun
  · simp only [Monitor.deleteState]
    split_ifs
    · exact nofun
    · exact fun _ hsep => h.secret ⟨hs, hsep⟩
    · exact nofun

theorem dataState_same {p : MonitorParser} {st st' : Statics} (h : Agrees p st st')
    (hs : p.state = .data) (c : Byte) :
    SameStep (Monitor.dataState c st p) (Monitor.dataState c st' p) := by
  simp only [Monitor.dataState]
  split_ifs
  · exact .of_state nofun nofun (.inr (by decide))
  · exact addState_same h hs _ _ c
  · exact deleteState_same h hs c
  · exact addState_same h hs _ _ c
  · exact deleteState_same h hs c
  · exact .of_state nofun nofun (.inr (by decide))

theorem monitorParserNext_same {p : MonitorParser} {st st' : Statics} (hp : p.Shaped)
    (h : Agrees p st st') (c : Byte) :
    SameStep (monitorParserNext st p c) (monitorParserNext st' p c) := by
  have hsep := hp.early
  cases hs : p.state with
  | dlen => simpa only [monitorParserNext, hs] using dlenState_same hp h hs c
  | data => simpa only [monitorParserNext, hs] using dataState_same h hs c
  | version =>
    have hsep : p.separated = false := hsep (by simp [hs, MonitorState.toNat])
    simp only [monitorParserNext, hs, Monitor.versionState]
    split
    · exact .of_state nofun nofun (.inl hsep)
    · exact .of_state nofun nofun (.inl hsep)
  | token =>
    have hsep : p.separated = false := hsep (by simp [hs, MonitorState.toNat])
    simp only [monitorParserNext, hs, Monitor.tokenState]
    split
    · exact .of_state nofun nofun (.inl hsep)
    · exact .of_state nofun nofun (.inl hsep)
  | method =>
    have hsep : p.separated = false := hsep (by simp [hs, MonitorState.toNat])
    simp only [monitorParserNext, hs, Monitor.methodState]
    split
    · exact .of_state nofun nofun (.inl hsep)
    · exact .of_state nofun nofun (.inl hsep)
  | target =>
    have hsep : p.separated = false := hsep (by simp [hs, MonitorState.toNat])
    simp only [monitorParserNext, hs, Monitor.targetState]
    split_ifs
    · exact .of_state nofun nofun (.inl hsep)
    · exact .of_state nofun nofun (.inl hsep)
    · exact ⟨rfl, fun _ => ⟨rfl, .inl rfl⟩, fun _ => hsep, nofun⟩
    · exact .of_state nofun nofun (.inl hsep)
    · exact .of_state nofun nofun (.inl hsep)
  | _ =>
    simp only [monitorParserNext, hs]
    exact .of_state nofun nofun (.inr (by decide))

/-- One byte: with the same bytes to rely on, the parser does the same and
again relies on equal bytes. -/
theorem feed_agrees {p : MonitorParser} {st st' : Statics} (hp : p.Shaped)
    (h : Agrees p st st') (c : Byte) :
    (monitorParserFeed st p c).2 = (monitorParserFeed st' p c).2 ∧
      (monitorParserFeed st p c).2.Shaped ∧
      Agrees (monitorParserFeed st p c).2 (monitorParserFeed st p c).1
        (monitorParserFeed st' p c).1 := by
  obtain ⟨hsame, hdlen, hearly, hsecret⟩ := monitorParserNext_same hp h c
  simp only [monitorParserFeed_eq]
  refine ⟨by rw [hsame], ⟨fun hd => ?_, hearly⟩, fun hd => ?_, fun hd => hsecret hd.1 hd.2⟩
  · obtain ⟨hlen, hi | ⟨hi, -⟩⟩ := hdlen hd
    · exact ⟨hlen, hi ▸ (by decide : (0 : UInt16) < 2)⟩
    · exact ⟨hlen, hi ▸ (by decide : (1 : UInt16) < 2)⟩
  · obtain ⟨-, hi | ⟨-, hc⟩⟩ := hdlen hd.1
    · exact absurd (hi.symm.trans hd.2) (by decide)
    · exact hc

def SameParser (s s' : Statics × MonitorParser) : Prop :=
  s.2 = s'.2 ∧ s.2.Shaped ∧ Agrees s.2 s.1 s'.1

theorem sameParser_feed (s s' : Statics × MonitorParser) (c : Byte) (h : SameParser s s') :
    SameParser (monitorMachine.feed s c) (monitorMachine.feed s' c) ∧
      monitorMachine.done (monitorMachine.feed s c) =
        monitorMachine.done (monitorMachine.feed s' c) := by
  obtain ⟨st, p⟩ := s
  obtain ⟨st', p'⟩ := s'
  obtain ⟨hsame, hshape, hagree⟩ := h
  obtain rfl : p = p' := hsame
  obtain ⟨hs, hr⟩ := feed_agrees hshape hagree c
  exact ⟨⟨hs, hr⟩, congrArg (fun q : MonitorParser => monitorIsDone q.state) hs⟩

/-- A chunk received on different statics: the connection ends up the same. -/
theorem receive_agrees {k : MonitorConn} {st st' : Statics} (hp : k.parser.Shaped)
    (h : Agrees k.parser st st') (chunk : List Byte) :
    (monitorReceive st k chunk).2 = (monitorReceive st' k chunk).2 ∧
      (monitorReceive st k chunk).2.parser.Shaped ∧
      Agrees (monitorReceive st k chunk).2.parser (monitorReceive st k chunk).1
        (monitorReceive st' k chunk).1 := by
  unfold monitorReceive
  simp only
  split
  · exact ⟨rfl, hp, h⟩
  · split
    · exact ⟨rfl, hp, h⟩
    · rename_i b _
      have hstart : SameParser (st, k.parser) (st', k.parser) := ⟨rfl, hp, h⟩
      obtain ⟨hb, hsame, hshape, hagree⟩ := consumeBuffer_related sameParser_feed b hstart
      simp only [monitorConsume]
      exact ⟨by rw [hb, hsame], hshape, hagree⟩

-- ---------------------------------------------------------------------------
-- What a chunk leaves alone
-- ---------------------------------------------------------------------------

theorem addState_combinedlen (userField : Field)
    (storeSecret : MonitorParser → Nat → Byte → MonitorParser) (c : Byte) (st : Statics)
    (p : MonitorParser) :
    (Monitor.addState userField storeSecret c st p).1.combinedlen = st.combinedlen := by
  simp only [Monitor.addState]
  split_ifs <;> rfl

theorem addState_usernameLen (userField : Field)
    (storeSecret : MonitorParser → Nat → Byte → MonitorParser) (c : Byte) (st : Statics)
    (p : MonitorParser) :
    (Monitor.addState userField storeSecret c st p).1.usernameLenWithNull =
        st.usernameLenWithNull ∨
      p.separated = false ∧ c = 0 ∧ p.i ≠ 0 ∧
        (Monitor.addState userField storeSecret c st p).1.usernameLenWithNull =
          (p.i + 1).toNat := by
  by_cases hsep : c = 0 ∧ p.separated = false
  · obtain ⟨rfl, hsep⟩ := hsep
    by_cases hi : p.i = 0
    · exact .inl (by simp [Monitor.addState, hi])
    · refine .inr ⟨hsep, rfl, hi, ?_⟩
      simp only [Monitor.addState, hi, hsep, isAlnum]
      split_ifs <;> first | rfl | simp_all
  · refine .inl ?_
    simp only [Monitor.addState, hsep, ↓reduceIte]
    split_ifs <;> rfl

theorem feed_combinedlen (st : Statics) (p : MonitorParser) (c : Byte) :
    (monitorParserFeed st p c).1.combinedlen.1 = st.combinedlen.1 ∨
      p.state = .dlen ∧ p.i = 0 ∧ (monitorParserFeed st p c).1.combinedlen.1 = c := by
  rw [monitorParserFeed_eq]
  cases hs : p.state with
  | dlen =>
    by_cases hi : p.i = 0
    · refine .inr ⟨rfl, hi, ?_⟩
      simp only [monitorParserNext, hs, Monitor.dlenState, hi, ↓reduceIte]
      split_ifs <;> rfl
    · refine .inl ?_
      simp only [monitorParserNext, hs, Monitor.dlenState, hi, ↓reduceIte]
      split_ifs <;> rfl
  | data =>
    refine .inl ?_
    simp only [monitorParserNext, hs, Monitor.dataState]
    split_ifs <;> first | rfl | rw [addState_combinedlen]
  | _ => exact .inl (by simp only [monitorParserNext, hs])

theorem feed_usernameLen (st : Statics) (p : MonitorParser) (c : Byte) :
    (monitorParserFeed st p c).1.usernameLenWithNull = st.usernameLenWithNull ∨
      p.state = .data ∧ p.separated = false ∧ c = 0 ∧ p.i ≠ 0 ∧
        (p.monitor.target = monitorTargetConfigAddProxyuser ∨
          p.monitor.target = monitorTargetConfigAddAdmin) ∧
        (monitorParserFeed st p c).1.usernameLenWithNull = (p.i + 1).toNat := by
  rw [monitorParserFeed_eq]
  cases hs : p.state with
  | dlen =>
    refine .inl ?_
    simp only [monitorParserNext, hs, Monitor.dlenState]
    split_ifs <;> rfl
  | data =>
    simp only [monitorParserNext, hs, Monitor.dataState]
    split_ifs with h0 h1 h2 h3 h4
    · exact .inl rfl
    · rcases addState_usernameLen .proxyUser MonitorParser.storePass c st p with h | ⟨h, hc, hi, hn⟩
      · exact .inl h
      · exact .inr ⟨trivial, h, hc, hi, .inl h1, hn⟩
    · exact .inl rfl
    · rcases addState_usernameLen .adminUser MonitorParser.storeToken c st p with h | ⟨h, hc, hi, hn⟩
      · exact .inl h
      · exact .inr ⟨trivial, h, hc, hi, .inr h3, hn⟩
    · exact .inl rfl
    · exact .inl rfl
  | _ => exact .inl (by simp only [monitorParserNext, hs])

theorem consume_combinedlen {s : Statics × MonitorParser} {x : Byte} (hx : s.1.combinedlen.1 = x)
    {bytes : List Byte} (h : ¬ overwritesLen x s bytes) :
    (monitorMachine.consume s bytes).1.1.combinedlen.1 = x := by
  induction bytes generalizing s with
  | nil => exact hx
  | cons c cs ih =>
    simp only [overwritesLen, not_or, not_and] at h
    have hfeed : (monitorMachine.feed s c).1.combinedlen.1 = x := by
      rcases feed_combinedlen s.1 s.2 c with hk | ⟨hs, hi, hc⟩
      · exact hk.trans hx
      · exact hc.trans (not_not.mp (h.1 hs hi))
    cases hd : monitorMachine.done (monitorMachine.feed s c) with
    | true =>
      rw [Lib.Machine.consume_cons_done _ hd]
      exact hfeed
    | false =>
      rw [Lib.Machine.consume_cons_more _ hd]
      exact ih hfeed (h.2 hd)

theorem consume_usernameLen {s : Statics × MonitorParser} {n : Nat}
    (hn : s.1.usernameLenWithNull = n) {bytes : List Byte}
    (h : ¬ overwritesSeparator n s bytes) :
    (monitorMachine.consume s bytes).1.1.usernameLenWithNull = n := by
  induction bytes generalizing s with
  | nil => exact hn
  | cons c cs ih =>
    simp only [overwritesSeparator, not_or, not_and] at h
    have hfeed : (monitorMachine.feed s c).1.usernameLenWithNull = n := by
      rcases feed_usernameLen s.1 s.2 c with hk | ⟨hs, hsep, hc, hi, ht, hv⟩
      · exact hk.trans hn
      · exact hv.trans (not_not.mp (h.1 hs hsep hc hi ht))
    cases hd : monitorMachine.done (monitorMachine.feed s c) with
    | true =>
      rw [Lib.Machine.consume_cons_done _ hd]
      exact hfeed
    | false =>
      rw [Lib.Machine.consume_cons_more _ hd]
      exact ih hfeed (h.2 hd)

-- ---------------------------------------------------------------------------
-- Runs
-- ---------------------------------------------------------------------------

def MonitorConn.pending (k : MonitorConn) (chunk : List Byte) : List Byte :=
  k.readBuffer.content ++ chunk.take k.readBuffer.space

theorem receive_statics (st : Statics) (k : MonitorConn) (chunk : List Byte) :
    (monitorReceive st k chunk).1 = st ∨ (monitorReceive st k chunk).1 =
      (monitorMachine.consume (st, k.parser) (k.pending chunk)).1.1 := by
  unfold monitorReceive
  simp only
  split
  · exact .inl rfl
  · refine .inr ?_
    have hlen : (chunk.take (bufferWritePtr k.readBuffer)).length ≤ k.readBuffer.space :=
      List.length_take_le _ _
    obtain ⟨b, hb, hc, -⟩ := Buffer.writeAdv_fill hlen
    obtain ⟨hs, -⟩ := consumeBuffer_spec monitorMachine b (st, k.parser)
    rw [hb]
    change (consumeBuffer monitorMachine b (st, k.parser)).2.1 = _
    rw [hs, hc]
    rfl

section
variable {ι : Type} [DecidableEq ι]

/-- Delivering `chunk` to `j` changes nothing another connection relies on. -/
def Monitors.Harmless (m : Monitors ι) (e : ι × List Byte) : Prop :=
  ∀ i ≠ e.1,
    ((m.conn i).parser.AwaitsLen → ¬ overwritesLen m.statics.combinedlen.1
      (m.statics, (m.conn e.1).parser) ((m.conn e.1).pending e.2)) ∧
    ((m.conn i).parser.AwaitsSecret → ¬ overwritesSeparator m.statics.usernameLenWithNull
      (m.statics, (m.conn e.1).parser) ((m.conn e.1).pending e.2))

def Monitors.HarmlessRun (m : Monitors ι) : List (ι × List Byte) → Prop
  | [] => True
  | e :: es => m.Harmless e ∧ (m.receive e).HarmlessRun es

theorem chunksOf_cons_self (i : ι) (chunk : List Byte) (es : List (ι × List Byte)) :
    chunksOf i ((i, chunk) :: es) = chunk :: chunksOf i es := by
  simp [chunksOf]

theorem chunksOf_cons_ne {i j : ι} (h : j ≠ i) (chunk : List Byte) (es : List (ι × List Byte)) :
    chunksOf i ((j, chunk) :: es) = chunksOf i es := by
  simp [chunksOf, h]

/-- The run invariant: a connection that agrees with its own run alone keeps
agreeing. -/
theorem serve_agrees (m : Monitors ι) (events : List (ι × List Byte))
    (hrun : m.HarmlessRun events) (i : ι) (st : Statics)
    (hp : (m.conn i).parser.Shaped) (h : Agrees (m.conn i).parser m.statics st) :
    (m.serve events).conn i = (monitorAlone st (m.conn i) (chunksOf i events)).2 := by
  induction events generalizing m st with
  | nil => rfl
  | cons e es ih =>
    obtain ⟨j, chunk⟩ := e
    obtain ⟨hharm, hrest⟩ := hrun
    by_cases hj : j = i
    · subst hj
      obtain ⟨hsame, hshape, hagree⟩ := receive_agrees hp h chunk
      have hconn : (m.receive (j, chunk)).conn j = (monitorReceive m.statics (m.conn j) chunk).2 := by
        simp [Monitors.receive]
      have hih := ih (m.receive (j, chunk)) hrest (monitorReceive st (m.conn j) chunk).1
        (hconn ▸ hshape) (hconn ▸ hagree)
      rw [chunksOf_cons_self]
      refine hih.trans ?_
      rw [hconn, hsame]
      rfl
    · have hconn : (m.receive (j, chunk)).conn i = m.conn i := by
        simp [Monitors.receive, Function.update_of_ne (Ne.symm hj)]
      obtain ⟨hlen, hsecret⟩ := hharm i (Ne.symm hj)
      have hstep : Agrees (m.conn i).parser (m.receive (j, chunk)).statics st := by
        rcases receive_statics m.statics (m.conn j) chunk with hs | hs
        · have : (m.receive (j, chunk)).statics = m.statics := hs
          rw [this]
          exact h
        · have : (m.receive (j, chunk)).statics = _ := hs
          rw [this]
          exact ⟨fun ha => (consume_combinedlen rfl (hlen ha)).trans (h.len ha),
            fun ha => (consume_usernameLen rfl (hsecret ha)).trans (h.secret ha)⟩
      have hih := ih (m.receive (j, chunk)) hrest st (hconn.symm ▸ hp) (hconn.symm ▸ hstep)
      rw [chunksOf_cons_ne hj]
      exact hih.trans (by rw [hconn])

/-- In a run where no delivery changes what another parser relies on, every
connection ends as it would alone with its own chunks. -/
theorem serve_alone (st : Statics) (events : List (ι × List Byte))
    (hrun : (Monitors.mk st fun _ : ι => monitorConnNew).HarmlessRun events) (i : ι) :
    ((Monitors.mk st fun _ : ι => monitorConnNew).serve events).conn i =
      (monitorAlone st monitorConnNew (chunksOf i events)).2 :=
  serve_agrees _ events hrun i st monitorParserInit_shaped ⟨fun _ => rfl, fun _ => rfl⟩

end

-- ---------------------------------------------------------------------------
-- Runs at fixed inputs
-- ---------------------------------------------------------------------------

structure MonitorConn.Ready (k : MonitorConn) : Prop where
  empty : k.readBuffer.content = []
  rewound : k.readBuffer.Rewound
  limit : k.readBuffer.limit = 0xffff

theorem monitorConnNew_ready : monitorConnNew.Ready := by
  refine ⟨Buffer.content_bufferInit _, Buffer.rewound_bufferInit _, ?_⟩
  rw [monitorConnNew, Buffer.limit_bufferInit, List.length_replicate]

/-- A chunk received by a connection that read all it had: the statics and the
parser are those of `monitorMachine.consume`. -/
theorem receive_consume (st : Statics) {chunk : List Byte} {k : MonitorConn} (hk : k.Ready)
    (hc : chunk ≠ []) (hl : chunk.length ≤ 0xffff) :
    ∃ k', monitorReceive st k chunk =
        ((monitorMachine.consume (st, k.parser) chunk).1.1, k') ∧
      k'.parser = (monitorMachine.consume (st, k.parser) chunk).1.2 ∧
      ((monitorMachine.consume (st, k.parser) chunk).2 = [] → k'.Ready) := by
  have hspace : k.readBuffer.space = 0xffff := (hk.rewound.space_of_empty hk.empty).trans hk.limit
  have htake : chunk.take (bufferWritePtr k.readBuffer) = chunk :=
    List.take_of_length_le (by simpa [bufferWritePtr, hspace] using hl)
  obtain ⟨b, hb, hcontent, -, hlim, hread, hwrite⟩ :=
    Buffer.writeAdv_fill (by rw [hspace]; exact hl : chunk.length ≤ k.readBuffer.space)
  obtain ⟨hs, hleft, hdrained⟩ := consumeBuffer_spec monitorMachine b (st, k.parser)
  rw [hcontent, hk.empty, List.nil_append] at hs hleft
  have hrew : b.Rewound := by
    intro he
    rw [hread, hwrite] at he
    have hr := k.readBuffer.read_le
    have hpos : 0 < chunk.length := List.length_pos_of_ne_nil hc
    omega
  refine ⟨⟨(consumeBuffer monitorMachine b (st, k.parser)).1,
    (consumeBuffer monitorMachine b (st, k.parser)).2.2⟩, ?_, by rw [hs], fun hrest => ?_⟩
  · simp only [monitorReceive, htake, hc, ↓reduceIte, hb, monitorConsume, hs]
  · exact ⟨hleft.trans hrest, hdrained.rewound hrew, (hdrained.limit.trans hlim).trans hk.limit⟩

theorem receive_ready (st st' : Statics) (chunk : List Byte) {k : MonitorConn} (hk : k.Ready)
    {p : MonitorParser} (hp : k.parser = p) (hc : chunk ≠ []) (hl : chunk.length ≤ 0xffff)
    (hrest : (monitorMachine.consume (st, p) chunk).2 = [])
    (hst : (monitorMachine.consume (st, p) chunk).1.1 = st') :
    ∃ k', monitorReceive st k chunk = (st', k') ∧
      k'.parser = (monitorMachine.consume (st, p) chunk).1.2 ∧ k'.Ready := by
  subst hp hst
  obtain ⟨k', hk', hp, hready⟩ := receive_consume st hk hc hl
  exact ⟨k', hk', hp, hready hrest⟩

def deleteHeader (high : Byte) : List Byte :=
  [1] ++ List.replicate 16 0x61 ++ [monitorMethodConfig, monitorTargetConfigDeleteProxyuser, high]

def splitDlen : List (Bool × List Byte) :=
  [(false, deleteHeader 0), (true, deleteHeader 1), (false, [1])]

theorem splitDlen_mixed {k₀ : MonitorConn} (hready : k₀.Ready) (hfresh : k₀.parser = monitorParserInit) :
    (((Monitors.mk {} fun _ : Bool => k₀).serve splitDlen).conn false).parser.monitor ≠
      (monitorAlone {} k₀ (chunksOf false splitDlen)).2.parser.monitor := by
  obtain ⟨k, hk, hp, hr⟩ := receive_ready {} {} (deleteHeader 0) hready hfresh
    (by decide) (by decide) (by decide) (by decide)
  obtain ⟨k', hk', -⟩ := receive_ready {} ⟨(1, 0), 0⟩ (deleteHeader 1) hready hfresh
    (by decide) (by decide) (by decide) (by decide)
  -- the second DLEN byte, with and without the other connection
  obtain ⟨l, hl, hlp, -⟩ := receive_ready ⟨(1, 0), 0⟩ ⟨(1, 1), 0⟩ [1] hr hp
    (by decide) (by decide) (by decide) (by decide)
  obtain ⟨a, ha, hap, -⟩ := receive_ready {} ⟨(0, 1), 0⟩ [1] hr hp
    (by decide) (by decide) (by decide) (by decide)
  have hmixed : ((Monitors.mk {} fun _ : Bool => k₀).serve splitDlen).conn false = l := by
    simp only [Monitors.serve, splitDlen, List.foldl_cons, List.foldl_nil, Monitors.receive, hk,
      Function.update_self, Function.update_of_ne (show true ≠ false by decide),
      Function.update_of_ne (show false ≠ true by decide)]
    rw [hk', hl]
  have halone : (monitorAlone {} k₀ (chunksOf false splitDlen)).2 = a := by
    rw [show chunksOf false splitDlen = [deleteHeader 0, [1]] from rfl]
    simp only [monitorAlone, List.foldl_cons, List.foldl_nil, hk]
    rw [ha]
  rw [hmixed, halone, hlp, hap]
  decide

/-- Alone, the first connection's DLEN is 1; here it is 257. -/
theorem serve_splitDlen :
    (((Monitors.mk {} fun _ : Bool => monitorConnNew).serve splitDlen).conn false).parser.monitor ≠
      (monitorAlone {} monitorConnNew (chunksOf false splitDlen)).2.parser.monitor :=
  splitDlen_mixed monitorConnNew_ready rfl

def splitHarmless : List (Bool × List Byte) :=
  [(false, deleteHeader 0), (true, [1]), (false, [1])]

theorem splitHarmless_run {k₀ : MonitorConn} (hready : k₀.Ready)
    (hfresh : k₀.parser = monitorParserInit) :
    (Monitors.mk {} fun _ : Bool => k₀).HarmlessRun splitHarmless := by
  obtain ⟨k, hk, -, -⟩ := receive_ready {} {} (deleteHeader 0) hready hfresh
    (by decide) (by decide) (by decide) (by decide)
  obtain ⟨l, hl, hlp, -⟩ := receive_ready {} {} [1] hready hfresh
    (by decide) (by decide) (by decide) (by decide)
  have hver : k₀.parser.state = .version := by rw [hfresh]; rfl
  have hspace : k₀.readBuffer.space = 0xffff :=
    (hready.rewound.space_of_empty hready.empty).trans hready.limit
  have hpending : k₀.pending [1] = [1] := by
    rw [MonitorConn.pending, hready.empty, hspace]
    rfl
  refine ⟨?_, ?_, ?_, trivial⟩
  · intro i _
    exact ⟨fun h => absurd (hver.symm.trans h.1) nofun, fun h => absurd (hver.symm.trans h.1) nofun⟩
  · -- the byte is a version, wherever the other parser is
    intro i _
    simp only [Monitors.receive, Function.update_of_ne (show true ≠ false by decide),
      hpending, overwritesLen, overwritesSeparator, hver, reduceCtorEq, false_and,
      and_false, or_false, not_false_eq_true, implies_true, and_self]
  · -- the other parser has read a version and relies on nothing
    intro i hi
    obtain rfl : i = true := by cases i <;> simp_all
    simp only [Monitors.receive, hk, hl, Function.update_self,
      Function.update_of_ne (show true ≠ false by decide)]
    have hstate : l.parser.state = .token := by
      rw [hlp]
      decide
    exact ⟨fun h => absurd (hstate.symm.trans h.1) nofun,
      fun h => absurd (hstate.symm.trans h.1) nofun⟩

theorem serve_splitHarmless :
    ((Monitors.mk {} fun _ : Bool => monitorConnNew).serve splitHarmless).conn false =
      (monitorAlone {} monitorConnNew (chunksOf false splitHarmless)).2 :=
  serve_alone {} splitHarmless (splitHarmless_run monitorConnNew_ready rfl) false

end Socks5d
