import Socks5d.Lib.Sessions
import Socks5d.Monitor.Admins
import Socks5d.Monitor.Requests
import Socks5d.Monitor.Service

/-!
# The service as sessions with one request each

`monitorProtocol` says how one request is answered: from what the parser read
and the state at that moment. `Service.desk` is what the clients see of the
service, and the lemmas on one connection say which step of the sessions a call
of `monitor_read` or of `monitor_write` is.
-/

namespace Socks5d

open Lib (Session Sessions)

-- ---------------------------------------------------------------------------
-- The protocol
-- ---------------------------------------------------------------------------

/-- What the monitor's requests decide about stays: the users, the administrators
and the disector. -/
structure Shared.Drifts (s s' : Shared) : Prop where
  users : s'.globals.users = s.globals.users
  isDisectorOn : s'.globals.isDisectorOn = s.globals.isDisectorOn
  admins : s'.admins = s.admins

theorem Shared.Drifts.refl (s : Shared) : s.Drifts s := ⟨rfl, rfl, rfl⟩

theorem Shared.Drifts.trans {s s' s'' : Shared} (h : s.Drifts s') (h' : s'.Drifts s'') :
    s.Drifts s'' :=
  ⟨h'.users.trans h.users, h'.isDisectorOn.trans h.isDisectorOn, h'.admins.trans h.admins⟩

theorem Shared.Drifts.valid {s s' : Shared} (h : s.Drifts s') (hs : s.Valid) : s'.Valid :=
  ⟨h.users ▸ hs.users, h.admins ▸ hs.admins⟩

theorem Shared.Same.drifts {s s' : Shared} (h : s.Same s') : s.Drifts s' :=
  ⟨congrArg _ h.globals, congrArg _ h.globals, h.admins⟩

/-- STATUS and DATA of the response to what the parser has read. -/
def MonitorParser.response (p : MonitorParser) (s : Shared) : Byte × List Byte :=
  if p.state = .done then
    ((monitorAnswer s p.monitor).2.final.toByte, (monitorAnswer s p.monitor).2.bytes)
  else ((errorStatus p.state).toByte, [0])

/-- A request answered from the state `s`, by what the parser has made of the stream. -/
structure RequestServed (s : Shared) (stream : List Byte) (s' : Shared) (p : MonitorParser)
    (response : List Byte) : Prop where
  done : monitorIsDone p.state = true
  parsed : Parsed stream p
  responds : Responds s s' stream p (p.response s).1 (p.response s).2
  frame : ∃ dlen : UInt16, dlen.toNat = (p.response s).2.length ∧
    response = (p.response s).1 :: (htons dlen ++ (p.response s).2)

def monitorProtocol : Lib.Protocol Shared Byte where
  drift := Shared.Drifts
  serves s stream s' response := ∃ p, RequestServed s stream s' p response
  refl := .refl
  trans := .trans

theorem monitorAnswer_statics (s : Shared) (statics : Statics) (m : Monitor) :
    (monitorAnswer { s with statics } m).2 = (monitorAnswer s m).2 := by
  have hget : ∀ target, monitorGet { s with statics } target = monitorGet s target := fun _ => rfl
  have hconfig : (monitorConfig { s with statics } m).2 = (monitorConfig s m).2 := by
    unfold monitorConfig
    split_ifs <;> rfl
  unfold monitorAnswer
  split_ifs
  · rfl
  · rw [hget]
  · exact hconfig
  · rfl

-- ---------------------------------------------------------------------------
-- What a request changes
-- ---------------------------------------------------------------------------

/-- A request that changed something: it had the token of an administrator, and
its operation succeeded. -/
structure Changed (s s' : Shared) (stream : List Byte) (p : MonitorParser) : Prop where
  done : p.state = .done
  registered : s.admins.Registered (tokenOf stream)
  succeeded : (p.response s).1 = 0
  operation : ∃ op, p.monitor.operation = some op ∧ (op.run s).2 = 0 ∧ (op.run s).1.Same s'

theorem RequestServed.changed {s s' : Shared} {stream response : List Byte} {p : MonitorParser}
    (h : RequestServed s stream s' p response) : s.Same s' ∨ Changed s s' stream p := by
  have hr := h.responds
  by_cases hzero : (p.response s).1 = 0
  · by_cases hd : p.state = .done
    · by_cases hreg : s.admins.Registered (tokenOf stream)
      · by_cases hget : p.monitor.method = monitorMethodGet
        · exact .inl (hr.get hd hget)
        · by_cases hconfig : p.monitor.method = monitorMethodConfig
          · obtain ⟨op, hop, hiff, hsame⟩ := hr.config hd hconfig hreg
            exact .inr ⟨hd, hreg, hzero, op, hop, hiff.mp hzero, hsame hzero⟩
          · -- no other method succeeds
            have hne : (p.response s).1 ≠ 0 := by
              rw [MonitorParser.response, if_pos hd]
              unfold monitorAnswer
              split_ifs <;> simp [Answer.final, MonitorStatus.toByte]
            exact absurd hzero hne
      · exact absurd hzero (hr.unauthorised hreg).1
    · exact absurd hzero (hr.malformed hd).1
  · exact .inl (hr.failed hzero)

theorem Admins.Rooted.operation {s : Shared} {root : Admin} (h : s.admins.Rooted root)
    (op : Operation) : (op.run s).1.admins.Rooted root := by
  cases op with
  | toggleDisector value => exact h
  | registerUser uname passwd => exact h
  | unregisterUser uname => exact h
  | registerAdmin uname token => exact h.register uname token
  | unregisterAdmin uname => exact h.unregister uname

theorem RequestServed.rooted {s s' : Shared} {stream response : List Byte} {p : MonitorParser}
    {root : Admin} (h : RequestServed s stream s' p response) (hroot : s.admins.Rooted root) :
    s'.admins.Rooted root := by
  rcases h.changed with hsame | ⟨-, -, -, op, -, -, hsame⟩
  · rw [hsame.admins]
    exact hroot
  · rw [hsame.admins]
    exact hroot.operation op

/-- A token that is accepted is not answered with the error of one that is not. -/
theorem RequestServed.authorised {s s' : Shared} {stream response : List Byte} {p : MonitorParser}
    (h : RequestServed s stream s' p response)
    (hadmin : monitorIsAdmin s.admins (tokenOf stream) = true) :
    response.head? ≠ some MonitorStatus.errorAuth.toByte := by
  have hget : (monitorGet s p.monitor.target).final.toByte ≠ MonitorStatus.errorAuth.toByte := by
    unfold monitorGet
    split_ifs <;> simp [Answer.final, Answer.number, Answer.names, MonitorStatus.toByte]
  have hconfig : (monitorConfig s p.monitor).2.final.toByte ≠ MonitorStatus.errorAuth.toByte := by
    unfold monitorConfig
    split_ifs <;> simp only [Answer.final] <;> split_ifs <;> simp [MonitorStatus.toByte]
  have hstatus : (p.response s).1 ≠ MonitorStatus.errorAuth.toByte := by
    by_cases hd : p.state = .done
    · rw [MonitorParser.response, if_pos hd]
      rw [← (h.responds.header hd).1] at hadmin
      unfold monitorAnswer
      rw [if_neg (by simp [hadmin])]
      split_ifs
      · exact hget
      · exact hconfig
      · simp [Answer.final, MonitorStatus.toByte]
    · -- the parser refuses other things than a token
      have htoken := h.parsed.token
      rw [MonitorParser.response, if_neg hd]
      cases hs : p.state <;> simp_all [errorStatus, MonitorStatus.toByte]
  obtain ⟨dlen, -, rfl⟩ := h.frame
  rw [List.head?_cons]
  exact fun heq => hstatus (Option.some.inj heq)

-- ---------------------------------------------------------------------------
-- One connection
-- ---------------------------------------------------------------------------

/-- The response changes neither what was read nor whether the connection is over. -/
theorem monitorRespond_keeps {s s' : Shared} {k k' : MonitorConnection}
    (h : monitorRespond s k = .ok (s', k')) : k'.reading = k.reading ∧ k'.finished = k.finished := by
  unfold monitorRespond at h
  split at h
  · split at h
    · cases h
    · cases h
      exact ⟨rfl, rfl⟩
  · unfold monitorProcess at h
    generalize monitorAnswer s k.reading.parser.monitor = r at h
    obtain ⟨s₁, a⟩ := r
    obtain ⟨b, -, h⟩ := Lib.bind_ok h
    cases b with
    | none => cases h
    | some b =>
      cases h
      exact ⟨rfl, rfl⟩

theorem MonitorConnection.serves {s : Shared} (hs : s.Valid) (statics : Statics)
    {k : MonitorConnection} {read : List Byte} (hd : monitorIsDone k.reading.parser.state = true)
    (hheader : Header read k.reading.parser) (hempty : k.writeBuffer.content = [])
    (hspace : k.writeBuffer.space = 0xffff) (more : List Byte)
    (hparsed : Parsed (read ++ more) k.reading.parser) :
    ∃ s' k', monitorRespond { s with statics } k = .ok (s', k') ∧ k'.reading = k.reading ∧
      RequestServed s (read ++ more) s' k.reading.parser k'.writeBuffer.content := by
  unfold monitorRespond
  by_cases hdone : k.reading.parser.state = .done
  · rw [Header, hdone] at hheader
    obtain ⟨hframed, hresponds⟩ := monitorAnswer_responds hs hdone hheader more statics
    obtain ⟨b, hb, hcontent⟩ := monitorMarshall_framed hframed
      (monitorAnswer { s with statics } k.reading.parser.monitor).2.final hspace
    have hresponse : k.reading.parser.response s =
        ((monitorAnswer { s with statics } k.reading.parser.monitor).2.final.toByte,
          (monitorAnswer { s with statics } k.reading.parser.monitor).2.bytes) := by
      rw [MonitorParser.response, if_pos hdone, monitorAnswer_statics s statics]
    rw [hdone, if_neg (by decide), monitorProcess_eq hb]
    refine ⟨_, _, rfl, rfl, hd, hparsed, ?_, ?_⟩
    · rw [hresponse]
      exact hresponds
    · rw [hresponse]
      exact ⟨_, hframed.length.symm, by rw [hcontent, hempty, List.nil_append]⟩
  · have herror : k.reading.parser.state.toNat ≥ MonitorState.error.toNat := by
      revert hd hdone
      cases k.reading.parser.state <;> decide
    obtain ⟨b, hb, hcontent⟩ := monitorErrorMarshall_spec hspace k.reading.parser
    have hsame : s.Same { s with statics } := ⟨rfl, rfl⟩
    have hne := errorStatus_ne_zero k.reading.parser.state
    have hresponse : k.reading.parser.response s =
        ((errorStatus k.reading.parser.state).toByte, [0]) := if_neg hdone
    rw [if_pos herror, hb]
    refine ⟨_, _, rfl, rfl, hd, hparsed, ?_, ?_⟩
    · rw [hresponse]
      exact ⟨⟨hs.users, hs.admins⟩, fun h => absurd h hdone, fun _ => ⟨hne, rfl⟩,
        fun _ => ⟨hne, rfl⟩, fun h => absurd h hdone, fun h => absurd h hdone, fun _ => hsame⟩
    · rw [hresponse]
      exact ⟨1, rfl, by rw [hcontent, hempty, List.nil_append]⟩

theorem monitorRead_take (chunk : List Byte) (s : Shared) (k : MonitorConnection) :
    monitorRead (chunk.take (bufferWritePtr k.reading.readBuffer)) s k = monitorRead chunk s k := by
  have hreceive : monitorReceive s.statics k.reading
      (chunk.take (bufferWritePtr k.reading.readBuffer)) = monitorReceive s.statics k.reading chunk := by
    unfold monitorReceive
    rw [List.take_take, Nat.min_self]
  unfold monitorRead
  rw [List.take_take, Nat.min_self, hreceive]

theorem MonitorConnection.Waits.room {k : MonitorConnection} {read : List Byte} (h : k.Waits read) :
    bufferWritePtr k.reading.readBuffer = 0xffff :=
  (h.ready.rewound.space_of_empty h.ready.empty).trans h.ready.limit

/-- What `monitor_read` does with the bytes that `recv` gave: the connection
waits for more, or its request is served. -/
inductive Heard (s : Shared) (k : MonitorConnection) (read : List Byte) :
    Except Fault (Shared × MonitorConnection) → Prop
  | more {statics : Statics} {k' : MonitorConnection} (h : k'.Waits read)
      (hf : k'.finished = k.finished) : Heard s k read (.ok ({ s with statics }, k'))
  | served {s' : Shared} {k' : MonitorConnection} (hf : k'.finished = k.finished)
      (h : RequestServed s read s' k'.reading.parser k'.writeBuffer.content) :
      Heard s k read (.ok (s', k'))

theorem MonitorConnection.Waits.heard {s : Shared} (hs : s.Valid) {k : MonitorConnection}
    {read chunk : List Byte} (h : k.Waits read)
    (hc : chunk.take (bufferWritePtr k.reading.readBuffer) ≠ []) :
    Heard s k (read ++ chunk.take (bufferWritePtr k.reading.readBuffer)) (monitorRead chunk s k) := by
  have hl : (chunk.take (bufferWritePtr k.reading.readBuffer)).length ≤ 0xffff := by
    rw [h.room]
    exact List.length_take_le _ _
  rw [← monitorRead_take]
  generalize chunk.take (bufferWritePtr k.reading.readBuffer) = chunk at hc hl ⊢
  obtain ⟨k₁, hp, hready, hrun⟩ := h.read_eq s s.statics hc hl
  rw [hrun]
  cases hd : monitorIsDone k₁.parser.state with
  | false => exact .more (h.next hp hready hd) rfl
  | true =>
    obtain ⟨bytes, hbytes, hheader⟩ := monitorMachine.consume_history Header.step h.parsing h.header
      chunk (s := (s.statics, k.reading.parser))
    have hparsed := h.parsed.read (s := (s.statics, k.reading.parser)) h.parsing chunk
    rw [← hp] at hheader hparsed
    rw [hbytes, ← List.append_assoc] at hparsed
    obtain ⟨s', k', hrespond, hreading, hserved⟩ := MonitorConnection.serves hs
      (monitorMachine.consume (s.statics, k.reading.parser) chunk).1.1
      (k := { k with reading := k₁ }) hd hheader h.empty h.space
      (monitorMachine.consume (s.statics, k.reading.parser) chunk).2 hparsed
    rw [List.append_assoc, ← hbytes, ← hreading] at hserved
    have hf := (monitorRespond_keeps hrespond).2
    rw [if_pos rfl, hrespond]
    show Heard s k _ (.ok (s', { k' with interest := opWrite }))
    exact .served hf hserved

theorem monitorWrite_takes (n : Nat) (k : MonitorConnection) :
    ∃ b, monitorWrite (some (min (bufferReadPtr k.writeBuffer).length n)) k =
        .ok ({ k with writeBuffer := b, finished := !bufferCanRead b }, k.writeBuffer.content.take n) ∧
      b.content = k.writeBuffer.content.drop n := by
  have hle : min (bufferReadPtr k.writeBuffer).length n ≤ k.writeBuffer.content.length :=
    Nat.min_le_left _ _
  obtain ⟨b, hb, hcontent, -⟩ := Buffer.readAdv_spec hle
  have htake : (bufferReadPtr k.writeBuffer).take (min (bufferReadPtr k.writeBuffer).length n) =
      k.writeBuffer.content.take n := by
    rw [Nat.min_comm, ← List.take_take, bufferReadPtr, List.take_length]
  refine ⟨b, ?_, ?_⟩
  · simp only [monitorWrite, hb, htake]
  · rw [hcontent]
    show k.writeBuffer.content.drop (min k.writeBuffer.content.length n) = _
    by_cases hn : n ≤ k.writeBuffer.content.length
    · rw [Nat.min_eq_right hn]
    · have hle : k.writeBuffer.content.length ≤ n := by omega
      rw [Nat.min_eq_left hle, List.drop_length, List.drop_eq_nil_of_le hle]

end Socks5d
