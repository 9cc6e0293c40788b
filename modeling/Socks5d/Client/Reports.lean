import Socks5d.Client.Decoding
import Socks5d.Client.Response
import Socks5d.Users.Listing

/-!
# What the client reports of a response

A GET goes to the server, whose response comes back in pieces. The client keeps
each piece at the start of its buffer, so a position holds what the last piece
that reaches it has there. `client_reports_iff` says which pieces let
`process_response` print what the server answered.
-/

namespace Socks5d

open Lib (Machine)

-- ---------------------------------------------------------------------------
-- The server
-- ---------------------------------------------------------------------------

def Answer.response (a : Answer) : List Byte := a.final.toByte :: (htons a.dlen ++ a.bytes)

def Shared.getAnswer (s : Shared) (token : List Byte) (target : Byte) : Answer :=
  if monitorIsAdmin s.admins token = false then { status := .errorAuth } else monitorGet s target

theorem Shared.getAnswer_framed {s : Shared} (hs : s.Valid) (token : List Byte) (target : Byte) :
    (s.getAnswer token target).Framed := by
  unfold Shared.getAnswer
  split
  · exact Answer.framed_status _ _
  · exact monitorGet_framed hs target

/-- A parser that is done with a request: `monitor_process` leaves its response. -/
theorem monitorRespond_done {s : Shared} {k : MonitorConnection}
    (hframed : (monitorAnswer s k.reading.parser.monitor).2.Framed)
    (hdone : k.reading.parser.state = .done) (hempty : k.writeBuffer.content = [])
    (hspace : k.writeBuffer.space = 0xffff) :
    ∃ s' k', monitorRespond s k = .ok (s', k') ∧ k'.finished = k.finished ∧
      k'.writeBuffer.content = (monitorAnswer s k.reading.parser.monitor).2.response := by
  obtain ⟨b, hb, hcontent⟩ := monitorMarshall_framed hframed
    (monitorAnswer s k.reading.parser.monitor).2.final hspace
  rw [hempty, List.nil_append] at hcontent
  refine ⟨(monitorAnswer s k.reading.parser.monitor).1, { k with
      status := (monitorAnswer s k.reading.parser.monitor).2.final
      writeBuffer := b }, ?_, rfl, hcontent⟩
  rw [monitorRespond, hdone, if_neg (by decide), monitorProcess_eq hb]

theorem MonitorConnection.Waits.reads_get {s : Shared} (hs : s.Valid) {chunks : List (List Byte)}
    (hne : ∀ chunk ∈ chunks, chunk ≠ []) (hl : ∀ chunk ∈ chunks, chunk.length ≤ 0xffff)
    {statics : Statics} {k : MonitorConnection} {read : List Byte} (h : k.Waits read)
    (hopen : k.finished = false) {q : MonitorParser}
    (hq : (monitorMachine.consume (statics, k.reading.parser) chunks.flatten).1.2 = q)
    (hdone : q.state = .done) (hget : q.monitor.method = monitorMethodGet) :
    ∃ s' k', monitorReads { s with statics } k chunks = .ok (s', k') ∧ k'.finished = false ∧
      k'.writeBuffer.content = (s.getAnswer q.monitor.token q.monitor.target).response := by
  induction chunks generalizing statics k read with
  | nil =>
    have hwaiting := h.parsing
    rw [show k.reading.parser = q from hq, hdone] at hwaiting
    cases hwaiting
  | cons chunk chunks ih =>
    have hchunk := hne chunk List.mem_cons_self
    have hne' : ∀ chunk ∈ chunks, chunk ≠ [] := fun c hc => hne c (List.mem_cons_of_mem _ hc)
    have hl' : ∀ chunk ∈ chunks, chunk.length ≤ 0xffff :=
      fun c hc => hl c (List.mem_cons_of_mem _ hc)
    obtain ⟨k₁, hp, hready, hrun⟩ := h.read_eq s statics hchunk (hl chunk List.mem_cons_self)
    have hreading : k.finished = false ∧ k.interest.read := ⟨hopen, by rw [h.interest]; rfl⟩
    rw [List.flatten_cons] at hq
    rw [monitorReads, if_pos hreading, hrun]
    cases hd : monitorIsDone k₁.parser.state with
    | false =>
      have hgoing : monitorMachine.done
          (monitorMachine.consume (statics, k.reading.parser) chunk).1 = false := by
        rw [hp] at hd
        exact hd
      have hpair : (monitorMachine.consume (statics, k.reading.parser) chunk).1 =
          ((monitorMachine.consume (statics, k.reading.parser) chunk).1.1, k₁.parser) := by
        rw [hp]
      rw [monitorMachine.consume_append hgoing, hpair] at hq
      exact ih hne' hl' (h.next hp hready hd) hopen hq
    | true =>
      have hend : monitorMachine.done
          (monitorMachine.consume (statics, k.reading.parser) chunk).1 = true := by
        rw [hp] at hd
        exact hd
      rw [monitorMachine.consume_append_done hchunk hend] at hq
      have hk₁ : k₁.parser = q := hp.trans hq
      have hanswer : (monitorAnswer { s with
          statics := (monitorMachine.consume (statics, k.reading.parser) chunk).1.1 }
          q.monitor).2 = s.getAnswer q.monitor.token q.monitor.target := by
        simp only [monitorAnswer, Shared.getAnswer, hget, ↓reduceIte]
        split <;> rfl
      obtain ⟨s', k', hresponds, hopen', hcontent⟩ := @monitorRespond_done
        { s with statics := (monitorMachine.consume (statics, k.reading.parser) chunk).1.1 }
        { k with reading := k₁ } (by rw [hk₁, hanswer]; exact s.getAnswer_framed hs _ _)
        (by rw [hk₁]; exact hdone) h.empty h.space
      refine ⟨s', { k' with interest := opWrite }, ?_, hopen'.trans hopen, ?_⟩
      · rw [if_pos rfl, hresponds]
        exact monitorReads_closed (by simp [opWrite]) chunks
      · rw [hcontent, hk₁, hanswer]

theorem readAdv_drop {b b' : Buffer} {n : Nat} (h : bufferReadAdv b n = some b') :
    b'.content = b.content.drop n := by
  have hn : n ≤ b.content.length := by
    by_contra hn
    rw [Buffer.length_content] at hn
    have hadv : ¬ b.read + n ≤ b.write := by
      have := b.read_le
      omega
    simp [bufferReadAdv, hadv, show (-1 : Int) < (n : Int) by omega] at h
  obtain ⟨b'', hb'', hcontent, -⟩ := Buffer.readAdv_spec hn
  obtain rfl : b'' = b' := Option.some.inj (hb''.symm.trans h)
  exact hcontent

theorem monitorWrite_sent {n : Option Nat} {k k' : MonitorConnection} {bytes : List Byte}
    (h : monitorWrite n k = .ok (k', bytes)) :
    bytes ++ k'.writeBuffer.content = k.writeBuffer.content := by
  cases n with
  | none =>
    cases h
    rfl
  | some n =>
    simp only [monitorWrite] at h
    cases hb : bufferReadAdv k.writeBuffer n with
    | none =>
      rw [hb] at h
      cases h
    | some b =>
      rw [hb] at h
      cases h
      show k.writeBuffer.content.take n ++ b.content = _
      rw [readAdv_drop hb, List.take_append_drop]

theorem monitorWrites_sent {sends : List (Option Nat)} {k k' : MonitorConnection}
    {bytes : List Byte} (h : monitorWrites k sends = .ok (k', bytes)) :
    bytes ++ k'.writeBuffer.content = k.writeBuffer.content := by
  induction sends generalizing k bytes with
  | nil =>
    cases h
    rfl
  | cons n sends ih =>
    rw [monitorWrites] at h
    split at h
    · cases hone : monitorWrite n k with
      | error f =>
        rw [hone] at h
        cases h
      | ok r =>
        obtain ⟨k₁, first⟩ := r
        cases hrest : monitorWrites k₁ sends with
        | error f =>
          rw [hone] at h
          simp only [bind, Except.bind, hrest] at h
          cases h
        | ok r =>
          obtain ⟨k₂, rest⟩ := r
          rw [hone] at h
          simp only [bind, Except.bind, hrest] at h
          cases h
          rw [List.append_assoc, ih hrest]
          exact monitorWrite_sent hone
    · cases h
      rfl

namespace Client

-- ---------------------------------------------------------------------------
-- The receive loop
-- ---------------------------------------------------------------------------

def lastBeyond (buf : List Byte) (pieces : List (List Byte)) (j : Nat) : List Byte :=
  (pieces.filter (j < ·.length)).getLast?.getD buf

theorem recvLoop_concat (buf : List Byte) (pieces : List (List Byte)) (piece : List Byte) :
    recvLoop buf (pieces ++ [piece]) = piece ++ (recvLoop buf pieces).drop piece.length := by
  rw [recvLoop, List.foldl_append]
  simp [recvLoop, memcpy]

theorem lastBeyond_concat (buf : List Byte) (pieces : List (List Byte)) (piece : List Byte) (j : Nat) :
    lastBeyond buf (pieces ++ [piece]) j =
      if j < piece.length then piece else lastBeyond buf pieces j := by
  rw [lastBeyond, List.filter_append]
  split <;> rename_i hj <;> simp [lastBeyond, hj]

theorem byteAt_recvLoop (buf : List Byte) (pieces : List (List Byte)) (j : Nat) :
    byteAt (recvLoop buf pieces) j = byteAt (lastBeyond buf pieces j) j := by
  induction pieces using List.reverseRecOn with
  | nil => rfl
  | append_singleton pieces piece ih =>
    rw [recvLoop_concat, lastBeyond_concat]
    by_cases hj : j < piece.length
    · simp only [if_pos hj, byteAt, List.getD_eq_getElem?_getD, List.getElem?_append_left hj]
    · rw [if_neg hj, ← ih]
      simp only [byteAt, List.getD_eq_getElem?_getD]
      rw [List.getElem?_append_right (Nat.not_lt.mp hj), List.getElem?_drop,
        Nat.add_sub_cancel' (Nat.not_lt.mp hj)]

theorem length_recvLoop {buf : List Byte} {pieces : List (List Byte)}
    (h : ∀ piece ∈ pieces, piece.length ≤ buf.length) : (recvLoop buf pieces).length = buf.length := by
  induction pieces using List.reverseRecOn with
  | nil => rfl
  | append_singleton pieces piece ih =>
    have hlast := h piece (List.mem_append_right _ List.mem_cons_self)
    have hbefore := ih fun p hp => h p (List.mem_append_left _ hp)
    rw [recvLoop_concat, List.length_append, List.length_drop, hbefore]
    omega

-- ---------------------------------------------------------------------------
-- Numbers and lists
-- ---------------------------------------------------------------------------

theorem toNat_ntohl (b₀ b₁ b₂ b₃ : Byte) : (ntohl b₀ b₁ b₂ b₃).toNat =
    b₀.toNat * 0x1000000 + b₁.toNat * 0x10000 + b₂.toNat * 0x100 + b₃.toNat := by
  have h₀ := b₀.toNat_lt
  have h₁ := b₁.toNat_lt
  have h₂ := b₂.toNat_lt
  have h₃ := b₃.toNat_lt
  simp only [ntohl, UInt32.toNat_add, UInt32.toNat_mul, UInt8.toNat_toUInt32, UInt32.reduceToNat]
  omega

theorem ntohl_inj {a₀ a₁ a₂ a₃ b₀ b₁ b₂ b₃ : Byte} :
    ntohl a₀ a₁ a₂ a₃ = ntohl b₀ b₁ b₂ b₃ ↔
      a₀ = b₀ ∧ a₁ = b₁ ∧ a₂ = b₂ ∧ a₃ = b₃ := by
  have ha₀ := a₀.toNat_lt
  have ha₁ := a₁.toNat_lt
  have ha₂ := a₂.toNat_lt
  have ha₃ := a₃.toNat_lt
  have hb₀ := b₀.toNat_lt
  have hb₁ := b₁.toNat_lt
  have hb₂ := b₂.toNat_lt
  have hb₃ := b₃.toNat_lt
  simp only [← UInt32.toNat_inj, ← UInt8.toNat_inj, toNat_ntohl]
  omega

theorem ntohl_htonl (n : UInt32) :
    ntohl (n >>> 24).toUInt8 (n >>> 16).toUInt8 (n >>> 8).toUInt8 n.toUInt8 = n := by
  have hn := n.toNat_lt
  rw [← UInt32.toNat_inj, toNat_ntohl]
  simp only [UInt32.toNat_toUInt8, UInt32.toNat_shiftRight, UInt32.reduceToNat, Nat.reduceMod,
    Nat.shiftRight_eq_div_pow]
  omega

theorem toNat_networkLen (high low : Byte) :
    (Monitor.networkLen (high, low)).toNat = high.toNat * 0x100 + low.toNat := by
  have hhigh := high.toNat_lt
  have hlow := low.toNat_lt
  simp only [Monitor.networkLen, UInt16.toNat_add, UInt16.toNat_mul, UInt8.toNat_toUInt16,
    UInt16.reduceToNat]
  omega

theorem networkLen_inj {a b c d : Byte} :
    Monitor.networkLen (a, b) = Monitor.networkLen (c, d) ↔ a = c ∧ b = d := by
  have ha := a.toNat_lt
  have hb := b.toNat_lt
  have hc := c.toNat_lt
  have hd := d.toNat_lt
  simp only [← UInt16.toNat_inj, ← UInt8.toNat_inj, toNat_networkLen]
  omega

def lines (names : List (List Byte)) : List Byte := [newline].intercalate names ++ [newline]

theorem map_shown {name : List Byte} (h : (0 : Byte) ∉ name) : name.map shown = name := by
  refine (List.map_congr_left fun c hc => ?_).trans (List.map_id name)
  exact if_neg fun (hzero : c = 0) => h (hzero ▸ hc)

theorem map_shown_intercalate {names : List (List Byte)} (h : ∀ name ∈ names, (0 : Byte) ∉ name) :
    ([(0 : Byte)].intercalate names).map shown = [newline].intercalate names := by
  induction names with
  | nil => rfl
  | cons name names ih =>
    have hname := map_shown (h name List.mem_cons_self)
    cases names with
    | nil => simpa using hname
    | cons next names =>
      have hrest := ih fun n hn => h n (List.mem_cons_of_mem _ hn)
      rw [List.intercalate_cons_cons, List.intercalate_cons_cons, List.map_append, List.map_append,
        hname, hrest]
      rfl

/-- Two buffers print the same list exactly when they print the same bytes. -/
theorem map_shown_eq_iff {l l' : List Byte} {n : Nat} (hl : 3 + n ≤ l.length) (hl' : 3 + n ≤ l'.length) :
    ((l.drop 3).take n).map shown = ((l'.drop 3).take n).map shown ↔
      ∀ j, 3 ≤ j → j < 3 + n → shown (byteAt l j) = shown (byteAt l' j) := by
  have hlength (l : List Byte) (h : 3 + n ≤ l.length) : ((l.drop 3).take n).length = n := by
    rw [List.length_take_of_le]
    rw [List.length_drop]
    omega
  have hget (l : List Byte) (i : Nat) (hi : i < ((l.drop 3).take n).length) :
      ((l.drop 3).take n)[i] = byteAt l (3 + i) := by
    have hlt : 3 + i < l.length := by
      rw [List.length_take, List.length_drop] at hi
      omega
    rw [List.getElem_take, List.getElem_drop, byteAt, List.getD_eq_getElem?_getD,
      List.getElem?_eq_getElem hlt, Option.getD_some]
  constructor
  · intro heq j hj hlt
    obtain ⟨i, rfl⟩ := Nat.exists_eq_add_of_le hj
    have hi : i < n := by omega
    have hboth := congrArg (·[i]?) heq
    simp only [List.getElem?_map] at hboth
    rw [List.getElem?_eq_getElem (by rw [hlength l hl]; exact hi),
      List.getElem?_eq_getElem (by rw [hlength l' hl']; exact hi), hget, hget] at hboth
    exact Option.some.inj hboth
  · intro hall
    refine List.ext_getElem (by simp only [List.length_map, hlength l hl, hlength l' hl']) ?_
    intro i hi hi'
    rw [List.length_map, hlength l hl] at hi
    rw [List.getElem_map, List.getElem_map, hget, hget]
    exact hall _ (Nat.le_add_right 3 i) (by omega)

-- ---------------------------------------------------------------------------
-- From the command line to the report
-- ---------------------------------------------------------------------------

/-- What `parse_args` makes of an option for a GET. -/
def getArgs (target : GetTarget) : RequestArgs := { setGetData {} with target := target.toByte }

/-- A GET of the client: the chunks that the request arrives in, the sends of the
response and the pieces that `recv` gets of it. -/
structure Exchange (s : Shared) (token : List Byte) (target : GetTarget)
    (pieces : List (List Byte)) : Prop where
  valid : s.Valid
  length : token.length = tokenSize
  nonempty : ∀ piece ∈ pieces, piece ≠ []
  served : ∃ buffer chunks s' k sends k', buffer.length = baseRequestData + maxBytesData ∧
    (∀ chunk ∈ chunks, chunk ≠ []) ∧ chunks.flatten = sent (getArgs target) token buffer ∧
    monitorReads s {} chunks = .ok (s', k) ∧
    monitorWrites k sends = .ok (k', pieces.flatten) ∧ k'.writeBuffer.content = []

def expected (s : Shared) (token : List Byte) (target : GetTarget) : Report :=
  if monitorIsAdmin s.admins token = false then
    .error MonitorStatus.errorAuth.toByte
      (some "The token of the request you have sent is incorrect!")
  else
    match target with
    | .historicConnections => .number "historic connections" s.globals.historicConnections
    | .concurrentConnections => .number "concurrent connections" s.globals.currentConnections
    | .transferredBytes => .number "transferred bytes" s.globals.bytesTransferred
    | .proxyUsersList => .names "proxy" (lines s.globals.users.copiedNames)
    | .adminUsersList => .names "admin" (lines s.admins.copiedNames)

section

variable (buf : List Byte) (pieces : List (List Byte))

def Survives (j : Nat) : Prop := byteAt (lastBeyond buf pieces j) j = byteAt pieces.flatten j

def Prints (j : Nat) : Prop :=
  shown (byteAt (lastBeyond buf pieces j) j) = shown (byteAt pieces.flatten j)

instance (j : Nat) : Decidable (Survives buf pieces j) := inferInstanceAs (Decidable (_ = _))

instance (j : Nat) : Decidable (Prints buf pieces j) := inferInstanceAs (Decidable (_ = _))

def NumberIntact : Prop := ∀ j < 7, 3 ≤ j → Survives buf pieces j

def NamesIntact : Prop :=
  (Survives buf pieces 1 ∧ Survives buf pieces 2) ∧
    ∀ j < pieces.flatten.length, 3 ≤ j → Prints buf pieces j

/-- Every position of the response that `process_response` reads. -/
def Intact (target : GetTarget) : Prop :=
  Survives buf pieces 0 ∧ (byteAt pieces.flatten 0 = monitorRespStatusOk →
    match target with
    | .historicConnections | .concurrentConnections | .transferredBytes => NumberIntact buf pieces
    | .proxyUsersList | .adminUsersList => NamesIntact buf pieces)

variable {buf pieces} {args : RequestArgs}

theorem handleGetOkStatus_ne_error (args : RequestArgs) (buf : List Byte) (status : Byte)
    (text : Option String) : handleGetOkStatus args buf ≠ .error status text := by
  unfold handleGetOkStatus handleNumber handleNames
  dsimp only
  split_ifs <;> exact Report.noConfusion

theorem report_error_iff (hm : args.method = .get) {status : Byte}
    (h : byteAt pieces.flatten 0 = status) (hstatus : status ≠ monitorRespStatusOk) :
    report args buf pieces = .error status (errorText args status) ↔ Survives buf pieces 0 := by
  subst h
  rw [report, processResponse, Survives, ← byteAt_recvLoop, hm]
  constructor
  · intro heq
    split at heq
    · exact absurd heq (handleGetOkStatus_ne_error _ _ _ _)
    · exact (Report.error.inj heq).1
  · intro heq
    rw [heq, if_neg hstatus, handleErrorResponse]

theorem report_ok_iff (hm : args.method = .get) {r : Report}
    (hr : ∀ status text, r ≠ .error status text) (h : byteAt pieces.flatten 0 = monitorRespStatusOk) :
    report args buf pieces = r ↔
      Survives buf pieces 0 ∧ handleGetOkStatus args (recvLoop buf pieces) = r := by
  rw [report, processResponse, Survives, h, ← byteAt_recvLoop, hm]
  constructor
  · intro heq
    split at heq
    · exact ⟨‹_›, heq⟩
    · exact absurd heq.symm (hr _ _)
  · rintro ⟨hstatus, heq⟩
    rw [if_pos hstatus]
    exact heq

theorem numberIntact_iff : NumberIntact buf pieces ↔ Survives buf pieces 3 ∧ Survives buf pieces 4 ∧
    Survives buf pieces 5 ∧ Survives buf pieces 6 := by
  constructor
  · exact fun h => ⟨h 3 (by decide) (by decide), h 4 (by decide) (by decide),
      h 5 (by decide) (by decide), h 6 (by decide) (by decide)⟩
  · rintro ⟨h₃, h₄, h₅, h₆⟩ j hj hle
    obtain rfl | rfl | rfl | rfl : j = 3 ∨ j = 4 ∨ j = 5 ∨ j = 6 := by omega
    · exact h₃
    · exact h₄
    · exact h₅
    · exact h₆

theorem handleNumber_iff (what : String) {n : UInt32} {status high low : Byte}
    (h : pieces.flatten = [status, high, low] ++ htonl (hostBytes n)) :
    handleNumber what (recvLoop buf pieces) = .number what n ↔ NumberIntact buf pieces := by
  rw [handleNumber, Report.number.injEq, numberIntact_iff]
  conv_lhs =>
    rw [← ntohl_htonl n, ntohl_inj]
  simp only [Survives, ← byteAt_recvLoop, h, true_and]
  rfl

theorem length_recvLoop_of_flatten {response : List Byte} (hbuf : buf.length = bufSize)
    (h : pieces.flatten = response) (hroom : response.length ≤ 0xffff) :
    (recvLoop buf pieces).length = bufSize := by
  rw [length_recvLoop fun piece hpiece => ?_, hbuf]
  have hle := (List.sublist_flatten_of_mem hpiece).length_le
  rw [h] at hle
  rw [hbuf]
  exact Nat.le_trans hle (Nat.le_trans hroom (by decide))

theorem handleNames_iff (whose : String) {dlen : UInt16} {status : Byte} {data : List Byte}
    (hlen : data.length = dlen.toNat) (hroom : dlen.toNat + 3 ≤ 0xffff) (hbuf : buf.length = bufSize)
    (h : pieces.flatten = status :: (htons dlen ++ data)) :
    handleNames whose (recvLoop buf pieces) = .names whose (data.map shown ++ [newline]) ↔
      NamesIntact buf pieces := by
  have htotal : pieces.flatten.length = 3 + dlen.toNat := by
    rw [h]
    simp only [List.length_cons, List.length_append, hlen, htons, List.length_nil]
    omega
  have hr : (recvLoop buf pieces).length = bufSize :=
    length_recvLoop_of_flatten hbuf rfl (by rw [htotal]; omega)
  have hsize : bufSize = 0x10002 := rfl
  have hdata : data = (pieces.flatten.drop 3).take dlen.toNat := by
    rw [h, ← hlen]
    exact (List.take_length (l := data)).symm
  have hhigh : byteAt pieces.flatten 1 = (dlen >>> 8).toUInt8 := by rw [h]; rfl
  have hlow : byteAt pieces.flatten 2 = dlen.toUInt8 := by rw [h]; rfl
  have hfields : Monitor.networkLen (byteAt (recvLoop buf pieces) 1, byteAt (recvLoop buf pieces) 2) =
      dlen ↔ Survives buf pieces 1 ∧ Survives buf pieces 2 := by
    conv_lhs => rw [← networkLen_htons dlen, networkLen_inj]
    rw [Survives, Survives, ← byteAt_recvLoop, ← byteAt_recvLoop, hhigh, hlow]
  have hprints : ((recvLoop buf pieces).drop 3 |>.take dlen.toNat).map shown = data.map shown ↔
      ∀ j < pieces.flatten.length, 3 ≤ j → Prints buf pieces j := by
    rw [hdata, map_shown_eq_iff (by omega) (by omega), htotal]
    simp only [Prints, ← byteAt_recvLoop]
    exact ⟨fun hall j hj hle => hall j hle hj, fun hall j hle hj => hall j hj hle⟩
  rw [NamesIntact, ← hfields, ← hprints]
  unfold handleNames
  dsimp only
  generalize Monitor.networkLen (byteAt (recvLoop buf pieces) 1, byteAt (recvLoop buf pieces) 2) =
    dlen' at hfields ⊢
  constructor
  · intro heq
    split at heq
    · cases heq
    · rename_i hends
      have hlists := List.append_cancel_right (Report.names.inj heq).2
      have hlengths := congrArg List.length hlists
      rw [List.length_map, List.length_map, hlen, List.length_take_of_le
        (by rw [List.length_drop]; omega)] at hlengths
      obtain rfl : dlen' = dlen := UInt16.toNat.inj hlengths
      exact ⟨rfl, hlists⟩
  · rintro ⟨rfl, hlists⟩
    rw [if_neg (by omega), hlists]

end

theorem Exchange.response {s : Shared} {token : List Byte} {target : GetTarget}
    {pieces : List (List Byte)} (h : Exchange s token target pieces) :
    pieces.flatten = (s.getAnswer token target.toByte).response := by
  obtain ⟨buffer, chunks, s', k, sends, k', hbuffer, hne, hchunks, hreads, hwrites, hempty⟩ := h.served
  have halnum : (Request.get target).Alphanumeric := trivial
  obtain ⟨args, hargs, hfilled⟩ := parseOption_typed halnum rfl
  obtain rfl : getArgs target = args := Except.ok.inj hargs
  have hsent : chunks.flatten = (Request.get target).message token :=
    hchunks.trans (serializeRequest_eq halnum hfilled h.length hbuffer)
  obtain ⟨q, rest, hconsume, hdone⟩ := get_decoded target s.statics h.length
  obtain ⟨htoken, hmethod, htarget⟩ := header_decoded h.length hconsume hdone
  have hsize : ∀ chunk ∈ chunks, chunk.length ≤ 0xffff := by
    intro chunk hchunk
    refine Nat.le_trans (List.sublist_flatten_of_mem hchunk).length_le ?_
    rw [hsent]
    simp [Request.message, Request.data, htons, h.length, tokenSize]
  obtain ⟨s'', k'', hrun, -, hcontent⟩ := MonitorConnection.waits_new.reads_get h.valid hne hsize rfl
    (q := q) (by rw [hsent]; exact congrArg (·.1.2) hconsume) hdone hmethod
  have hsame : (s', k) = (s'', k'') := Except.ok.inj (hreads.symm.trans hrun)
  have hall := monitorWrites_sent hwrites
  rw [hempty, List.append_nil] at hall
  rw [hall, (Prod.mk.inj hsame).2, hcontent, htoken, htarget]
  rfl

theorem names_response {names : List (List Byte)} (hfits : (names.flatMap (· ++ [0])).length ≤ 0xfffc) :
    (Answer.names (listNames names)).response =
      0 :: (htons (listNames names).1 ++ [(0 : Byte)].intercalate names) := by
  rw [← take_listNames (Nat.le_trans hfits (by decide))]
  show 0 :: (htons (listNames names).1 ++ ((listNames names).2.take (listNames names).1.toNat).take
    (listNames names).1.toNat) = _
  rw [List.take_take, Nat.min_self]

theorem report_number_iff {args : RequestArgs} {buf : List Byte} {pieces : List (List Byte)}
    {what : String} {n : UInt32} (hm : args.method = .get)
    (hargs : ∀ buf, handleGetOkStatus args buf = handleNumber what buf)
    (h : pieces.flatten = (Answer.number n).response) :
    report args buf pieces = .number what n ↔ Survives buf pieces 0 ∧
      (byteAt pieces.flatten 0 = monitorRespStatusOk → NumberIntact buf pieces) := by
  have hstatus : byteAt pieces.flatten 0 = monitorRespStatusOk := by rw [h]; rfl
  rw [report_ok_iff hm (fun _ _ => Report.noConfusion) hstatus, hargs, handleNumber_iff what h]
  exact and_congr_right fun _ => ⟨fun hintact _ => hintact, fun himp => himp hstatus⟩

theorem report_names_iff {args : RequestArgs} {buf : List Byte} {pieces : List (List Byte)}
    {whose : String} {names : List (List Byte)} (hm : args.method = .get)
    (hargs : ∀ buf, handleGetOkStatus args buf = handleNames whose buf) (hbuf : buf.length = bufSize)
    (hnames : ∀ name ∈ names, (0 : Byte) ∉ name)
    (hfits : (names.flatMap (· ++ [0])).length ≤ 0xfffc)
    (h : pieces.flatten = (Answer.names (listNames names)).response) :
    report args buf pieces = .names whose (lines names) ↔ Survives buf pieces 0 ∧
      (byteAt pieces.flatten 0 = monitorRespStatusOk → NamesIntact buf pieces) := by
  rw [names_response hfits] at h
  have hstatus : byteAt pieces.flatten 0 = monitorRespStatusOk := by rw [h]; rfl
  obtain ⟨hle, hroom⟩ := listNames_le hfits
  have hlen : ([(0 : Byte)].intercalate names).length = (listNames names).1.toNat := by
    rw [← take_listNames (Nat.le_trans hfits (by decide)), List.length_take_of_le hle]
  have hnamesIff := handleNames_iff whose hlen hroom hbuf h
  rw [map_shown_intercalate hnames] at hnamesIff
  rw [report_ok_iff hm (fun _ _ => Report.noConfusion) hstatus, hargs, lines, hnamesIff]
  exact and_congr_right fun _ => ⟨fun hintact _ => hintact, fun himp => himp hstatus⟩

/-- The client reports what the server answered exactly when, at every position
that it reads, the last piece that reaches it has the byte of the response. -/
theorem client_reports_iff {s : Shared} {token : List Byte} {target : GetTarget}
    {pieces : List (List Byte)} (h : Exchange s token target pieces) {buf : List Byte}
    (hbuf : buf.length = bufSize) :
    report (getArgs target) buf pieces = expected s token target ↔ Intact buf pieces target := by
  have hresponse := h.response
  unfold expected Intact
  unfold Shared.getAnswer at hresponse
  by_cases hadmin : monitorIsAdmin s.admins token = false
  · rw [if_pos hadmin] at hresponse ⊢
    have hstatus : byteAt pieces.flatten 0 = monitorRespStatusErrorAuth := by rw [hresponse]; rfl
    have hne : byteAt pieces.flatten 0 ≠ monitorRespStatusOk := by
      rw [hstatus]
      decide
    refine (report_error_iff rfl hstatus (by decide)).trans
      ⟨fun hs => ⟨hs, fun hok => absurd hok hne⟩, fun hc => hc.1⟩
  · rw [if_neg hadmin] at hresponse ⊢
    have hcstr : ∀ name ∈ s.globals.users.copiedNames, (0 : Byte) ∉ name := by
      intro name hname
      obtain ⟨i, -, rfl⟩ := List.mem_map.mp hname
      exact zero_not_mem_cstr _
    have hcstr' : ∀ name ∈ s.admins.copiedNames, (0 : Byte) ∉ name := by
      intro name hname
      obtain ⟨i, -, rfl⟩ := List.mem_map.mp hname
      exact zero_not_mem_cstr _
    cases target with
    | historicConnections | concurrentConnections | transferredBytes =>
      exact report_number_iff rfl (fun _ => rfl) hresponse
    | proxyUsersList =>
      exact report_names_iff rfl (fun _ => rfl) hbuf hcstr h.valid.users.names_fit hresponse
    | adminUsersList =>
      exact report_names_iff rfl (fun _ => rfl) hbuf hcstr' h.valid.admins.names_fit hresponse

theorem Exchange.of_response {s : Shared} (hs : s.Valid) {token : List Byte}
    (hlength : token.length = tokenSize) {target : GetTarget} {pieces : List (List Byte)}
    (hne : ∀ piece ∈ pieces, piece ≠ [])
    (h : pieces.flatten = (s.getAnswer token target.toByte).response) :
    Exchange s token target pieces := by
  have halnum : (Request.get target).Alphanumeric := trivial
  obtain ⟨args, hargs, hfilled⟩ := parseOption_typed halnum rfl
  obtain rfl : getArgs target = args := Except.ok.inj hargs
  have hsent := serializeRequest_eq halnum hfilled hlength
    (List.length_replicate (n := baseRequestData + maxBytesData) (a := (0 : Byte)))
  obtain ⟨q, rest, hconsume, hdone⟩ := get_decoded target s.statics hlength
  obtain ⟨htoken, hmethod, htarget⟩ := header_decoded hlength hconsume hdone
  have hchunks : [(Request.get target).message token].flatten = (Request.get target).message token :=
    List.append_nil _
  have hchunk : ∀ chunk ∈ [(Request.get target).message token], chunk ≠ [] := by
    intro chunk hmem
    rw [List.mem_singleton.mp hmem]
    exact List.cons_ne_nil _ _
  have hsize : ∀ chunk ∈ [(Request.get target).message token], chunk.length ≤ 0xffff := by
    intro chunk hmem
    rw [List.mem_singleton.mp hmem]
    simp [Request.message, Request.data, htons, hlength, tokenSize]
  obtain ⟨s', k, hrun, hopen, hcontent⟩ := MonitorConnection.waits_new.reads_get hs hchunk hsize rfl
    (q := q) (by rw [hchunks]; exact congrArg (·.1.2) hconsume) hdone hmethod
  rw [htoken, htarget] at hcontent
  obtain ⟨b, hb, hempty, -⟩ := Buffer.readAdv_spec (Nat.le_refl k.writeBuffer.content.length)
  rw [List.drop_length] at hempty
  have hwrite : monitorWrites k [some k.writeBuffer.content.length] =
      .ok ({ k with writeBuffer := b, finished := !bufferCanRead b }, pieces.flatten) := by
    have htake : (bufferReadPtr k.writeBuffer).take k.writeBuffer.content.length = pieces.flatten := by
      rw [bufferReadPtr, List.take_length, hcontent, h]
      rfl
    simp only [monitorWrites, hopen, ↓reduceIte, monitorWrite, hb, htake]
    simp [bind, Except.bind, pure, Except.pure]
  exact ⟨hs, hlength, hne, _, _, s', k, _, _, List.length_replicate, hchunk,
    hchunks.trans hsent.symm, hrun, hwrite, hempty⟩

def oneOpen : Shared := { rootShared with globals := { currentConnections := 1 } }

theorem oneOpen_valid : oneOpen.Valid := ⟨Users.Whole.empty, rootShared_valid.admins⟩

/-- The response in one piece. -/
theorem client_reports_iff_whole : report (getArgs .concurrentConnections) (List.replicate bufSize 0)
      [[0, 0, 4, 0, 0, 0, 1]] = expected oneOpen rootToken.val .concurrentConnections :=
  (client_reports_iff (.of_response oneOpen_valid (by decide) (by decide) (by decide))
    List.length_replicate).mpr ⟨by decide, fun _ => numberIntact_iff.mpr (by decide)⟩

/-- The same response in two pieces: 256 connections. -/
theorem client_reports_split :
    Exchange oneOpen rootToken.val .concurrentConnections [[0], [0, 4, 0, 0, 0, 1]] ∧
    report (getArgs .concurrentConnections) (List.replicate bufSize 0) [[0], [0, 4, 0, 0, 0, 1]] =
      .number "concurrent connections" 256 ∧
    expected oneOpen rootToken.val .concurrentConnections = .number "concurrent connections" 1 := by
  refine ⟨.of_response oneOpen_valid (by decide) (by decide) (by decide), ?_, by decide⟩
  rw [report, processResponse, byteAt_recvLoop]
  show handleNumber "concurrent connections" _ = _
  rw [handleNumber, byteAt_recvLoop, byteAt_recvLoop, byteAt_recvLoop, byteAt_recvLoop]
  rfl

end Client

end Socks5d
