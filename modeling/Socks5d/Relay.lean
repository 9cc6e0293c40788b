import Socks5d.Connection.Copy
import Socks5d.Runs

/-!
# What is relayed in COPY

A side that reaches the end of its stream closes the direction that starts
there, whatever is still in its buffer. So nothing is lost when every end of
stream finds that buffer empty.
-/

namespace Socks5d

def SendsSucceed : World.Condition := fun _ s ce =>
  match ce with
  | .ready _ true io => s.stm = some .copy → io.send ≠ none
  | _ => True

/-- In COPY no `send` fails, and the end of a stream is read when all that was
received from that side is sent. -/
def EndsDrained : World.Condition := fun g s ce =>
  SendsSucceed g s ce ∧
  match ce with
  | .ready fd false io => s.stm = some .copy → ∀ d, s.fd d = fd →
      (View.recvAnswer io (s.rb d).space).getD [] = [] → (s.rb d).content = []
  | _ => True

structure Flows (s₁ s : Socks5) (lines : List Action) : Prop where
  stm : s.stm = some .copy ∨ s.stm = some .done
  log : s.log = s₁.log ++ lines
  fd : ∀ d, s.fd d = s₁.fd d
  flow : ∀ d, (s₁.rb d).content ++ receivedFrom (s₁.fd d) lines =
    sentTo (s₁.fd d.other) lines ++ (s.rb d).content

structure Relayed (s₁ s : Socks5) (lines : List Action) : Prop where
  stm : s.stm = some .copy ∨ s.stm = some .done
  log : s.log = s₁.log ++ lines
  fd : ∀ d, s.fd d = s₁.fd d
  flow : ∀ d, (s₁.rb d).content ++ receivedFrom (s₁.fd d) lines =
    sentTo (s₁.fd d.other) lines ++ (s.rb d).content
  symmetric : s.Symmetric
  drained : ∀ d, (s.duplex d).read = false → (s.rb d).content = []
  closed : s.stm = some .done → ∀ d, (s.duplex d).read = false

def Heeds (s : Socks5) (link : Nat → Link) : Prop :=
  ∀ d (n : Nat), s.fd d = n → (link n).wants false = true → (s.duplex d).read = true

namespace View

variable {v v' : View} {io : Io} {c : ConnId}

theorem settle_copy (hst : v.s.stm = some .copy) {ret : SocksState} (hret : ret = .done ∨ ret = .copy) :
    ∃ lines, (v.settle ret).s.log = v.s.log ++ lines ∧ (∀ fd, receivedFrom fd lines = []) ∧
      (∀ fd, sentTo fd lines = []) ∧ (v.settle ret).s.stm = some ret ∧
      SameSides v.s (v.settle ret).s ∧
      ∀ n, ((v.settle ret).link n).wants false = true → (v.link n).wants false = true := by
  rcases hret with rfl | rfl
  · refine ⟨[.enter (some .copy) .done], ?_, fun _ => rfl, fun _ => rfl, ?_, ?_, fun n hn => ?_⟩
    · simp [settle, advance, hst, enter, arrive, ended]
    · simp [settle, advance, hst, enter, arrive, ended]
    · refine ⟨fun d => ?_, fun d => ?_, fun d => ?_⟩ <;>
        cases d <;> simp [settle, advance, hst, enter, arrive, ended, Socks5.fd, Socks5.rb, Socks5.duplex]
    · have hclosed : (v.settle .done).link n = .closed := by
        simp [settle, advance, hst, enter, arrive, ended, View.link]
      rw [hclosed] at hn
      cases hn
  · have hsame : v.settle .copy = v := by simp [settle, advance, hst]
    rw [hsame]
    exact ⟨[], by simp, fun _ => rfl, fun _ => rfl, hst, ⟨fun _ => rfl, fun _ => rfl, fun _ => rfl⟩,
      fun _ hn => hn⟩

theorem Copies.heeds {d : Side} {write : Bool} {ret : SocksState} {lines : List Action}
    {closed : Option Side} (h : Copies io v d write v' ret lines closed) (hv : v.Copying) :
    Heeds v'.s v'.link := by
  intro d' n hn hwants
  rw [h.fd, hv.fd_eq] at hn
  obtain rfl : v.sideFd d' = n := by exact_mod_cast hn
  have hne := hv.peer_ne
  cases d' with
  | client =>
    have hlink : v'.link v.fd = .watched (v'.s.copyInterest .client) := by
      rw [View.link, if_pos h.client.1.symm, h.client.2]
    have hread : (v'.s.copyInterest .client).read = true := by
      rw [show v.sideFd .client = v.fd from rfl, hlink] at hwants
      exact hwants
    exact (Bool.and_eq_true_iff.mp hread).1
  | origin =>
    have hlink : v'.link v.peerFd = .watched (v'.s.copyInterest .origin) := by
      rw [View.link, h.client.1, if_neg hne, if_pos h.peer.1.symm, h.peer.2]
    have hread : (v'.s.copyInterest .origin).read = true := by
      rw [show v.sideFd .origin = v.peerFd from rfl, hlink] at hwants
      exact hwants
    exact (Bool.and_eq_true_iff.mp hread).1

theorem Step.flows {s₁ : Socks5} {ce : ConnEvent} (hs : v.Shape c)
    (hr : ∃ lines, Flows s₁ v.s lines) (h : Step c v ce v') : ∃ lines, Flows s₁ v'.s lines := by
  obtain ⟨lines, hr⟩ := hr
  have hst : v.s.stm = some .copy := hr.stm.resolve_right hs.stays.1
  cases h with
  | resolved hst' =>
    rw [hst] at hst'
    cases hst'
  | @ready fd write io v₁ ret hen hout =>
    have hstarted : v.started = v := if_neg (by simp [hst])
    rw [hstarted] at hout
    obtain ⟨d, more, closed, hfd, hcopies⟩ := hout.copies hs hst
    have hret := hcopies.ret_cases
    obtain ⟨last, hlog, hrecv, hsent, hstm, hsame, -⟩ :=
      settle_copy (v := v₁) (hout.stm.trans hst) hret
    refine ⟨lines ++ more ++ last, ?_, ?_, fun d' => ?_, fun d' => ?_⟩
    · rw [hstm]
      exact hret.symm.imp (congrArg some) (congrArg some)
    · rw [hlog, hcopies.log, hr.log]
      simp
    · rw [hsame.fd, hcopies.fd, hr.fd]
    · have hflow := hcopies.flow d'
      rw [hr.fd, hr.fd] at hflow
      rw [receivedFrom_append, receivedFrom_append, sentTo_append, sentTo_append, hrecv, hsent,
        List.append_nil, List.append_nil, hsame.rb, ← List.append_assoc, hr.flow, List.append_assoc,
        hflow, List.append_assoc]

/-- Bytes are relayed in order, and a direction is closed when its buffer is
empty. -/
theorem Step.relayed {s₁ : Socks5} {ce : ConnEvent} (hs : v.Shape c)
    (hr : Heeds v.s v.link ∧ ∃ lines, Relayed s₁ v.s lines) (hcond : EndsDrained v.globals v.s ce)
    (h : Step c v ce v') : Heeds v'.s v'.link ∧ ∃ lines, Relayed s₁ v'.s lines := by
  obtain ⟨hheeds, lines, hr⟩ := hr
  have hst : v.s.stm = some .copy := hr.stm.resolve_right hs.stays.1
  obtain ⟨lines', hflows⟩ := h.flows hs ⟨lines, hr.stm, hr.log, hr.fd, hr.flow⟩
  cases h with
  | resolved hst' =>
    rw [hst] at hst'
    cases hst'
  | @ready fd write io v₁ ret hen hout =>
    have hstarted : v.started = v := if_neg (by simp [hst])
    rw [hstarted] at hout
    obtain ⟨d, more, closed, hfd, hcopies⟩ := hout.copies hs hst
    have hret := hcopies.ret_cases
    obtain ⟨-, -, -, -, hstm, hsame, hlinks⟩ :=
      settle_copy (v := v₁) (hout.stm.trans hst) hret
    obtain ⟨hcopying, -⟩ := hs.copying hst
    have hempty : ∀ d', closed = some d' → (v.s.rb d').content = [] := by
      intro d' hclosed
      rcases hcopies.cause d' hclosed with ⟨rfl, rfl, hend⟩ | ⟨rfl, -, hfail⟩
      · exact hcond.2 hst d hfd.symm hend
      · exact absurd hfail (hcond.1 hst)
    refine ⟨?_, lines', hflows.stm, hflows.log, hflows.fd, hflows.flow, ?_, ?_, ?_⟩
    · intro d' n hn hwants
      rw [hsame.duplex]
      exact hcopies.heeds hcopying d' n ((hsame.fd d').symm.trans hn) (hlinks n hwants)
    · intro d'
      rw [hsame.duplex, hsame.duplex]
      exact hcopies.symmetric hr.symmetric d'
    · intro d' hread
      rw [hsame.duplex, hcopies.reads, Bool.and_eq_false_iff] at hread
      rw [hsame.rb]
      have hbuf : (v.s.rb d').content = [] := by
        rcases hread with hread | hread
        · exact hr.drained d' hread
        · exact hempty d' (by simpa using hread)
      have hquiet : receivedFrom (v.s.fd d') more = [] := by
        by_contra hne
        obtain ⟨rfl, rfl, rfl⟩ := hcopies.receives d' hne
        rcases hread with hread | hread
        · rw [hheeds d fd hfd.symm hen] at hread
          cases hread
        · simp at hread
      have hflow := hcopies.flow d'
      rw [hbuf, hquiet] at hflow
      exact (List.append_eq_nil_iff.mp hflow.symm).2
    · intro hdone d'
      rw [hstm, Option.some.injEq] at hdone
      rw [hsame.duplex]
      exact (hcopies.done_iff hr.symmetric).mp hdone d'

end View

namespace World

/-- No data is lost when a side closes: in every run from the moment a connection
enters COPY in which no `send` fails and every end of stream finds the buffer of
its direction empty, nothing is in a buffer whose direction is closed, and at the
end all that was received from a side was sent to the other one. -/
theorem copy_relays {w₀ w₁ w : World} (h₀ : w₀.Initial) (h₁ : Reachable w₀ w₁) {c : ConnId}
    {s₁ : Socks5} (hc₁ : w₁.conns c = some ⟨s₁, true⟩) (hst : s₁.stm = some .copy)
    (hopen : ∀ d, s₁.duplex d = ⟨true, true⟩) (h : Runs EndsDrained w₁ w) {conn : Conn}
    (hc : w.conns c = some conn) :
    (∀ d, (conn.s.duplex d.other).write = false → (conn.s.rb d).content = []) ∧
    ∃ lines, conn.s.log = s₁.log ++ lines ∧ (conn.s.stm = some .done →
      ∀ d, (s₁.rb d).content ++ receivedFrom (s₁.fd d) lines = sentTo (s₁.fd d.other) lines) := by
  have hstart : Relayed s₁ s₁ [] := by
    refine ⟨.inl hst, by simp, fun _ => rfl, fun d => ?_, fun d => ?_, fun d hd => ?_, fun hd => ?_⟩
    · simp [receivedFrom, sentTo]
    · rw [hopen, hopen]
    · simp [hopen] at hd
    · rw [hst] at hd
      cases hd
  obtain ⟨conn', hc', -, lines, hr⟩ := (h₁.carries h₀).follow
    (J := fun s link => Heeds s link ∧ ∃ lines, Relayed s₁ s lines)
    (fun hs hJ hcond hstep => View.Step.relayed hs hJ hcond hstep) hc₁
    ⟨fun d n _ _ => by rw [hopen], [], hstart⟩ (h.meetsOf c)
  rw [hc] at hc'
  cases hc'
  refine ⟨fun d hd => hr.drained d ?_, lines, hr.log, fun hdone d => ?_⟩
  · rw [hr.symmetric, Side.other_other] at hd
    exact hd
  · have hflow := hr.flow d
    rw [hr.drained d (hr.closed hdone d), List.append_nil] at hflow
    exact hflow

instance (g : Globals) (s : Socks5) (ce : ConnEvent) : Decidable (SendsSucceed g s ce) :=
  match ce with
  | .ready _ true _ => inferInstanceAs (Decidable (_ → _))
  | .ready _ false _ => inferInstanceAs (Decidable True)
  | .resolved _ _ => inferInstanceAs (Decidable True)

instance (g : Globals) (s : Socks5) (ce : ConnEvent) : Decidable (EndsDrained g s ce) :=
  match ce with
  | .ready _ true _ => inferInstanceAs (Decidable (_ ∧ True))
  | .ready fd false io => inferInstanceAs (Decidable (SendsSucceed g s (.ready fd false io) ∧
      (s.stm = some .copy → ∀ d, s.fd d = fd → _ → (s.rb d).content = [])))
  | .resolved _ _ => inferInstanceAs (Decidable (_ ∧ True))

def connected : List Event :=
  [.accept 3 { answer := some (4, {}) },
   .ready 4 false { recv := some [5, 1, 0] },
   .ready 4 true { send := some 2 },
   .ready 4 false { recv := some [5, 1, 0, 1, 127, 0, 0, 1, 0, 80], socket := some 5,
                    connect := some einprogress },
   .ready 5 true { sockError := some 0 },
   .ready 4 true { send := some 10 }]

def closes (sends : List Event) : List Event :=
  [.ready 4 false { recv := some [104, 105] }] ++ sends ++
  [.ready 4 false { recv := some [] }, .ready 5 false { recv := some [] }]

theorem copy_run (ok : World → Event → Prop) [∀ w e, Decidable (ok w e)] (es : List Event)
    (p : Socks5 → Socks5 → Bool)
    (h : Lib.endsIn (fun w₁ => (w₁.conns 0).any fun conn₁ => conn₁.live &&
        decide (conn₁.s.stm = some .copy ∧ ∀ d, conn₁.s.duplex d = ⟨true, true⟩) &&
        Lib.endsIn (fun w => (w.conns 0).any fun conn => p conn₁.s conn.s) (play ok w₁ es))
      (play (Meets anyEvent) (startUp {}) connected) = true) :
    ∃ w₁ s₁ w conn, Reachable (startUp {}) w₁ ∧ w₁.conns 0 = some ⟨s₁, true⟩ ∧
      s₁.stm = some .copy ∧ (∀ d, s₁.duplex d = ⟨true, true⟩) ∧
      Lib.Reaches World.step ok w₁ w ∧ w.conns 0 = some conn ∧ p s₁ conn.s = true := by
  obtain ⟨w₁, hplay₁, hconn₁⟩ := Lib.endsIn_iff.mp h
  obtain ⟨⟨s₁, live⟩, hc₁, hconn₁⟩ := (Option.any_eq_true ..).mp hconn₁
  simp only [Bool.and_eq_true, decide_eq_true_eq] at hconn₁
  obtain ⟨⟨rfl, hst, hopen⟩, hends⟩ := hconn₁
  obtain ⟨w, hplay, hconn⟩ := Lib.endsIn_iff.mp hends
  obtain ⟨conn, hc, hp⟩ := (Option.any_eq_true ..).mp hconn
  exact ⟨w₁, s₁, w, conn, Lib.reaches_of_play hplay₁, hc₁, hst, hopen,
    Lib.reaches_of_play hplay, hc, hp⟩

/-- The two bytes are lost when they were not sent before the client closes. -/
theorem copy_loses : ∃ w₁ s₁ w conn lines, Reachable (startUp {}) w₁ ∧
    w₁.conns 0 = some ⟨s₁, true⟩ ∧ s₁.stm = some .copy ∧
    (∀ d, s₁.duplex d = ⟨true, true⟩) ∧
    Runs SendsSucceed w₁ w ∧ w.conns 0 = some conn ∧ conn.s.log = s₁.log ++ lines ∧
    conn.s.stm = some .done ∧ (s₁.rb .client).content ++ receivedFrom (s₁.fd .client) lines ≠
      sentTo (s₁.fd .origin) lines := by
  obtain ⟨w₁, s₁, w, conn, hreach, hc₁, hst, hopen, hruns, hc, hp⟩ := copy_run
    (Meets SendsSucceed) (closes []) (fun s₁ s =>
      decide (s.log = s₁.log ++ s.log.drop s₁.log.length ∧ s.stm = some .done ∧
        (s₁.rb .client).content ++ receivedFrom (s₁.fd .client) (s.log.drop s₁.log.length) ≠
          sentTo (s₁.fd .origin) (s.log.drop s₁.log.length))) (by decide +kernel)
  exact ⟨w₁, s₁, w, conn, _, hreach, hc₁, hst, hopen, hruns, hc, of_decide_eq_true hp⟩

/-- They arrive when they were. -/
theorem copy_relays_sent : ∃ w₁ s₁ w conn lines, Runs EndsDrained w₁ w ∧
    w₁.conns 0 = some ⟨s₁, true⟩ ∧ w.conns 0 = some conn ∧ conn.s.log = s₁.log ++ lines ∧
    receivedFrom 4 lines = [104, 105] ∧ sentTo (s₁.fd .origin) lines =
      (s₁.rb .client).content ++ receivedFrom (s₁.fd .client) lines := by
  obtain ⟨w₁, s₁, w, conn, hreach, hc₁, hst, hopen, hruns, hc, hp⟩ := copy_run
    (Meets EndsDrained) (closes [.ready 5 true { send := some 2 }]) (fun s₁ s =>
      decide (s.stm = some .done ∧ receivedFrom 4 (s.log.drop s₁.log.length) = [104, 105]))
      (by decide +kernel)
  obtain ⟨hdone, hrecv⟩ := of_decide_eq_true hp
  obtain ⟨-, lines, hlog, hall⟩ :=
    copy_relays (startUp_initial (by decide)) hreach hc₁ hst hopen hruns hc
  refine ⟨w₁, s₁, w, conn, lines, hruns, hc₁, hc, hlog, ?_, (hall hdone .client).symm⟩
  rwa [hlog, List.drop_left] at hrecv

end World

end Socks5d
