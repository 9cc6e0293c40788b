import Socks5d.Connection.Copy
import Socks5d.Lib.Segments

/-!
# The messages of the handshake

The hello, the credentials and the request are what their parsers accept from
the initial state, up to the byte that makes them done. A connection in one of
the READ states is `Reading` such a message: the bytes received so far are the
messages before it, the bytes fed to the parser, and the content of the read
buffer.
-/

namespace Socks5d

open Lib (Machine)

def HelloParser.format (p : HelloParser δ) : HelloParser Unit :=
  { state := p.state, remaining := p.remaining, data := () }

def helloFormat : Machine (HelloParser Unit) Byte := helloMachine fun _ _ => ()

def HelloMessage (bytes : List Byte) : Prop :=
  ∃ p, helloFormat.Ends (helloParserInit ()) bytes p ∧ helloIsError p.state = false

def AuthMessage (bytes : List Byte) (a : Auth) : Prop :=
  ∃ p, authMachine.Ends authParserInit bytes p ∧ authIsError p.state = false ∧ p.auth = a

def RequestMessage (bytes : List Byte) (r : Request) : Prop :=
  ∃ p, requestMachine.Ends requestParserInit bytes p ∧ requestIsError p.state = false ∧ p.request = r

theorem feed_format (f : δ → Byte → δ) (p : HelloParser δ) (b : Byte) :
    ((helloMachine f).feed p b).format = helloFormat.feed p.format b := by
  cases hst : p.state <;> simp [helloMachine, helloFormat, helloParserFeed, HelloParser.format, hst]

-- ---------------------------------------------------------------------------
-- The parsers over the read buffer
-- ---------------------------------------------------------------------------

section

variable {b rb rb' : Buffer} {bytes : List Byte} {errored : Bool}

theorem helloConsume_machine {f : δ → Byte → δ} {p p' : HelloParser δ} (hb : b.Fills bytes rb)
    (hne : bytes ≠ []) (h : helloConsume f rb p = (rb', p', errored)) :
    (helloMachine f).consume p (b.content ++ bytes) = (p', rb'.content) ∧
      errored = helloIsError p'.state := by
  obtain ⟨hstate, hrest, -⟩ := consumeBuffer_spec (helloMachine f) rb p
  rw [hb.content] at hstate hrest
  simp only [helloConsume, Prod.mk.injEq] at h
  obtain ⟨rfl, rfl, rfl⟩ := h
  refine ⟨Prod.ext hstate.symm hrest.symm, ?_⟩
  simp [hb.content, hne]

theorem helloConsume_spec {f : δ → Byte → δ} {p p' : HelloParser δ} (hb : b.Fills bytes rb)
    (hne : bytes ≠ []) (h : helloConsume f rb p = (rb', p', errored)) :
    helloFormat.consume p.format (b.content ++ bytes) = (p'.format, rb'.content) ∧
      errored = helloIsError p'.state := by
  obtain ⟨hconsume, herrored⟩ := helloConsume_machine hb hne h
  rw [Machine.consume_map (feed_format f) (fun _ => rfl), hconsume]
  exact ⟨rfl, herrored⟩

theorem authConsume_spec {p p' : AuthParser} (hb : b.Fills bytes rb) (hne : bytes ≠ [])
    (h : authConsume rb p = (rb', p', errored)) :
    authMachine.consume p (b.content ++ bytes) = (p', rb'.content) ∧
      errored = authIsError p'.state := by
  obtain ⟨hstate, hrest, -⟩ := consumeBuffer_spec authMachine rb p
  rw [hb.content] at hstate hrest
  simp only [authConsume, Prod.mk.injEq] at h
  obtain ⟨rfl, rfl, rfl⟩ := h
  refine ⟨Prod.ext hstate.symm hrest.symm, ?_⟩
  simp [hb.content, hne]

theorem requestConsume_spec {p p' : RequestParser} (hb : b.Fills bytes rb) (hne : bytes ≠ [])
    (h : requestConsume rb p = (rb', p', errored)) :
    requestMachine.consume p (b.content ++ bytes) = (p', rb'.content) ∧
      errored = requestIsError p'.state := by
  obtain ⟨hstate, hrest, -⟩ := consumeBuffer_spec requestMachine rb p
  rw [hb.content] at hstate hrest
  simp only [requestConsume, Prod.mk.injEq] at h
  obtain ⟨rfl, rfl, rfl⟩ := h
  refine ⟨Prod.ext hstate.symm hrest.symm, ?_⟩
  simp [hb.content, hne]

end

-- ---------------------------------------------------------------------------
-- The bytes in the log
-- ---------------------------------------------------------------------------

def Action.chunkFrom (fd : Int) : Action → Option (List Byte)
  | .recv fd' (some bytes) => if fd' = fd ∧ bytes ≠ [] then some bytes else none
  | _ => none

def chunksFrom (fd : Int) (log : List Action) : List (List Byte) := log.filterMap (·.chunkFrom fd)

@[simp] theorem chunksFrom_append (fd : Int) (l l' : List Action) :
    chunksFrom fd (l ++ l') = chunksFrom fd l ++ chunksFrom fd l' := List.filterMap_append

theorem receivedFrom_eq (fd : Int) (log : List Action) :
    receivedFrom fd log = (chunksFrom fd log).flatten := by
  induction log with
  | nil => rfl
  | cons a log ih =>
    have hsplit : receivedFrom fd (a :: log) = receivedFrom fd [a] ++ receivedFrom fd log :=
      receivedFrom_append fd [a] log
    have hone : receivedFrom fd [a] = ((a.chunkFrom fd).toList).flatten := by
      unfold receivedFrom Action.chunkFrom
      cases a with
      | recv fd' answer =>
        cases answer with
        | none => rfl
        | some bytes =>
          by_cases hfd : fd' = fd
          · by_cases hne : bytes = [] <;> simp [hfd, hne]
          · simp [hfd]
      | _ => rfl
    rw [hsplit, hone, ih]
    unfold chunksFrom
    rw [List.filterMap_cons]
    cases a.chunkFrom fd <;> simp

theorem chunksFrom_recv {fd : Int} {log : List Action} {bytes : List Byte} (hne : bytes ≠ []) :
    chunksFrom fd (log ++ [.recv fd (some bytes)]) = chunksFrom fd log ++ [bytes] := by
  simp [chunksFrom, Action.chunkFrom, hne]

def processed (log : List Action) : List Action := log.filter Action.isProcess

@[simp] theorem processed_append (l l' : List Action) :
    processed (l ++ l') = processed l ++ processed l' := List.filter_append ..

structure SameBytes (l l' : List Action) : Prop where
  chunks : ∀ fd, chunksFrom fd l' = chunksFrom fd l
  sent : ∀ fd, sentTo fd l' = sentTo fd l
  processed : processed l' = processed l

theorem SameBytes.received {l l' : List Action} (h : SameBytes l l') (fd : Int) :
    receivedFrom fd l' = receivedFrom fd l := by
  rw [receivedFrom_eq, receivedFrom_eq, h.chunks]

theorem SameBytes.trans {l l' l'' : List Action} (h : SameBytes l l') (h' : SameBytes l' l'') :
    SameBytes l l'' :=
  ⟨fun fd => (h'.chunks fd).trans (h.chunks fd), fun fd => (h'.sent fd).trans (h.sent fd),
    h'.processed.trans h.processed⟩

theorem sameBytes_of_quiet {l l' : List Action} (h : Adds (fun a => a.isQuiet = true) l l') :
    SameBytes l l' := by
  obtain ⟨lines, rfl, hl⟩ := h
  induction lines generalizing l with
  | nil =>
    rw [List.append_nil]
    exact ⟨fun _ => rfl, fun _ => rfl, rfl⟩
  | cons a lines ih =>
    have hquiet : a.isQuiet = true := hl a List.mem_cons_self
    have hnone : (∀ fd, chunksFrom fd [a] = []) ∧ (∀ fd, sentTo fd [a] = []) ∧ processed [a] = [] := by
      cases a <;> first | exact ⟨fun _ => rfl, fun _ => rfl, rfl⟩ | cases hquiet
    have hone : SameBytes l (l ++ [a]) :=
      ⟨fun fd => by rw [chunksFrom_append, hnone.1, List.append_nil],
        fun fd => by rw [sentTo_append, hnone.2.1, List.append_nil],
        by rw [processed_append, hnone.2.2, List.append_nil]⟩
    rw [List.append_cons]
    exact hone.trans (ih fun b hb => hl b (List.mem_cons_of_mem a hb))

namespace View

variable {v v' : View} {io : Io} {c : ConnId}

theorem advance_same (v : View) (next : SocksState) :
    SameBytes v.s.log (v.advance next).s.log ∧ (v.advance next).s.clientFd = v.s.clientFd ∧
      (v.advance next).s.originFd = v.s.originFd ∧
      (v.advance next).s.readBuffer = v.s.readBuffer ∧
      (v.advance next).s.writeBuffer = v.s.writeBuffer := by
  refine ⟨sameBytes_of_quiet ((advance_lines v next).mono fun a ha => ?_), ?_⟩
  · cases a <;> first | rfl | cases ha
  · unfold View.advance
    split
    · exact ⟨rfl, rfl, rfl, rfl⟩
    · cases next <;> exact ⟨rfl, rfl, rfl, rfl⟩

theorem Connect.clientFd {ret : SocksState} (h : Connect io v v' ret) :
    v'.s.clientFd = v.s.clientFd := by
  cases h <;> rfl

theorem Process.clientFd {ret : SocksState} (h : Process io c v v' ret) :
    v'.s.clientFd = v.s.clientFd := by
  cases h with
  | refused | resolve => rfl
  | connect _ hconnect => exact hconnect.clientFd

theorem Resolved.clientFd {ret : SocksState} (h : Resolved io v v' ret) :
    v'.s.clientFd = v.s.clientFd := by
  cases h with
  | unreachable => rfl
  | connect _ hconnect => exact hconnect.clientFd

theorem Outcome.clientFd {fd : Nat} {write : Bool} {ret : SocksState}
    (h : Outcome io c v fd write v' ret) : v'.s.clientFd = v.s.clientFd := by
  cases h with
  | requestDone _ _ _ _ hprocess => exact hprocess.clientFd
  | retried _ _ _ _ _ hconnect => exact hconnect.clientFd
  | copyReceived _ _ _ _ _ h₁ =>
    subst h₁
    exact (setRb_fds ..).1
  | copyEnded | copyFailed => exact (shut_fds ..).1
  | copySent hst hs hb v₁ v₂ h₁ h₂ =>
    subst h₁ h₂
    obtain ⟨dp, lines, heq, -⟩ := disected_eq (v.noted _) _ _
    rw [heq]
    exact (setRb_fds ..).1
  | _ => rfl

def Past (st : SocksState) : Prop :=
  st ≠ .helloRead ∧ st ≠ .helloWrite ∧ st ≠ .authRead ∧ st ≠ .authWrite ∧ st ≠ .requestRead

theorem Process.past {ret : SocksState} (h : Process io c v v' ret) : Past ret := by
  cases h with
  | refused | resolve => simp [Past]
  | connect _ hconnect => cases hconnect <;> simp [Past]

theorem copyNext_past (v : View) (d : Side) : Past (v.copyNext d) := by
  unfold copyNext
  split <;> simp [Past]

theorem Outcome.past {fd : Nat} {write : Bool} {ret st : SocksState}
    (h : Outcome io c v fd write v' ret) (hst : v.s.stm = some st) (hpast : Past st) : Past ret := by
  cases h with
  | recvFailed | sendFailed | concluded | retried | replyPart | replySent | replyRefused => simp [Past]
  | copyReceived | copyEnded | copySent | copyFailed => exact copyNext_past ..
  | _ => simp_all [Past]

end View

end Socks5d
