import Mathlib.Algebra.BigOperators.Group.Finset.Piecewise
import Mathlib.Algebra.GroupWithZero.Nat
import Socks5d.Relay

/-!
# The statistics of the server

Each counter of the server is, up to wrap-around, a sum over the connections of
what their logs say: `World.total`. A step of one connection changes the
counter by as much as its own share of the sum, and nothing else changes
either.
-/

namespace Socks5d

def Action.enters (st : SocksState) : Action → Bool
  | .enter _ next => next = st
  | _ => false

/-- How many times the machine entered a state. -/
def entries (st : SocksState) (log : List Action) : Nat := log.countP (Action.enters st)

def Action.sentLength : Action → Nat
  | .send _ bytes => bytes.length
  | _ => 0

def sentInCopy : List Action → Nat
  | [] => 0
  | a :: rest =>
    if a.enters .copy then (rest.map Action.sentLength).sum else sentInCopy rest

/-- The shares of a connection: whether it is in COPY, whether it ever was, and
what it sent there. -/
def inCopy (s : Socks5) : Nat := if s.stm = some .copy then 1 else 0
def everCopied (s : Socks5) : Nat := if 0 < entries .copy s.log then 1 else 0
def copyBytes (s : Socks5) : Nat := sentInCopy s.log

@[simp] theorem entries_append (st : SocksState) (l l' : List Action) :
    entries st (l ++ l') = entries st l + entries st l' := List.countP_append

theorem entries_eq_zero {st : SocksState} {l : List Action} (h : ∀ a ∈ l, a.isJump = false) :
    entries st l = 0 := by
  refine List.countP_eq_zero.mpr fun a ha => ?_
  have hj := h a ha
  cases a with
  | enter => cases hj
  | _ => simp [Action.enters]

theorem sentInCopy_append (l l' : List Action) : sentInCopy (l ++ l') =
    if 0 < entries .copy l then sentInCopy l + (l'.map Action.sentLength).sum else sentInCopy l' := by
  induction l with
  | nil => simp [entries]
  | cons a l ih =>
    have hcons : entries .copy (a :: l) = entries .copy l + if a.enters .copy then 1 else 0 :=
      List.countP_cons
    rw [List.cons_append, sentInCopy, sentInCopy, ih, hcons]
    by_cases ha : a.enters .copy = true
    · simp [ha]
    · simp [ha]

theorem sentInCopy_eq_zero {l : List Action} (h : entries .copy l = 0) : sentInCopy l = 0 := by
  have happend := sentInCopy_append l []
  simpa [h, sentInCopy] using happend

theorem sentLength_eq {l : List Action} {fd fd' : Int} (hne : fd ≠ fd')
    (h : ∀ n bytes, .send n bytes ∈ l → n = fd ∨ n = fd') :
    (l.map Action.sentLength).sum = (sentTo fd l).length + (sentTo fd' l).length := by
  induction l with
  | nil => rfl
  | cons a l ih =>
    have hl := ih fun n bytes hmem => h n bytes (List.mem_cons_of_mem _ hmem)
    rw [← List.singleton_append, List.map_append, List.sum_append, sentTo_append, sentTo_append, hl]
    cases a with
    | send n bytes =>
      rcases h n bytes List.mem_cons_self with rfl | rfl
      · simp [Action.sentLength, sentTo, hne]
        omega
      · simp [Action.sentLength, sentTo, hne.symm]
        omega
    | _ => simp [Action.sentLength, sentTo]

namespace View

variable {v v' : View} {io : Io} {c : ConnId}

-- ---------------------------------------------------------------------------
-- The phases of a connection
-- ---------------------------------------------------------------------------

structure Tracked (v : View) : Prop where
  copies : entries .copy v.s.log = if v.s.stm = some .copy ∨ v.s.stm = some .done then 1 else 0
  done : entries .done v.s.log = if v.s.stm = some .done then 1 else 0
  symmetric : v.s.stm = some .copy → v.s.Symmetric ∧ ∃ d, (v.s.duplex d).read = true
  closed : v.s.stm = some .done → ∀ d, (v.s.duplex d).read = false
  live : v.s.stm = some .copy → v.live = true
  gone : v.s.stm = some .done → v.live = false

structure Tallies (v v' : View) : Prop where
  current : v'.globals.currentConnections + UInt32.ofNat (inCopy v.s) =
    v.globals.currentConnections + UInt32.ofNat (inCopy v'.s)
  historic : v'.globals.historicConnections + UInt32.ofNat (everCopied v.s) =
    v.globals.historicConnections + UInt32.ofNat (everCopied v'.s)
  bytes : v'.globals.bytesTransferred + UInt32.ofNat (copyBytes v.s) =
    v.globals.bytesTransferred + UInt32.ofNat (copyBytes v'.s)

theorem settle_statistics (v : View) (ret : SocksState) :
    (v.settle ret).globals.currentConnections = v.globals.currentConnections ∧
    (v.settle ret).globals.historicConnections = v.globals.historicConnections ∧
    (v.settle ret).globals.bytesTransferred = v.globals.bytesTransferred := by
  have hadvance : (v.advance ret).globals.currentConnections = v.globals.currentConnections ∧
      (v.advance ret).globals.historicConnections = v.globals.historicConnections ∧
      (v.advance ret).globals.bytesTransferred = v.globals.bytesTransferred := by
    unfold advance
    split
    · exact ⟨rfl, rfl, rfl⟩
    · cases ret with
      | helloRead =>
        by_cases hzero : v.globals.users.registered = 0 <;> simp [arrive, enter, hzero]
      | _ => exact ⟨rfl, rfl, rfl⟩
  unfold settle
  split <;> exact hadvance

theorem entries_advance (v : View) (st ret : SocksState) :
    entries st (v.advance ret).s.log =
      entries st v.s.log + if v.s.stm ≠ some ret ∧ ret = st then 1 else 0 := by
  rw [advance_log]
  by_cases hst : v.s.stm = some ret
  · simp [hst]
  · rw [if_neg hst, List.append_assoc, entries_append]
    congr 1
    by_cases hret : ret = .helloRead <;> by_cases heq : ret = st <;>
      simp_all [entries, Action.enters]

/-- Before COPY: the state that a handler returned is reached, and that may be
COPY. -/
theorem settle_tracked (hst : v.s.stm ≠ some .copy) (hcopies : entries .copy v.s.log = 0)
    (hdone : entries .done v.s.log = 0) (hlive : v.live = true) {ret : SocksState}
    (hret : ret ≠ .done) :
    (v.settle ret).Tracked ∧ copyBytes (v.settle ret).s = 0 ∧
      everCopied (v.settle ret).s = inCopy (v.settle ret).s := by
  have hstm := settle_stm v ret
  have hlog : ∀ st, entries st (v.settle ret).s.log =
      entries st v.s.log + if v.s.stm ≠ some ret ∧ ret = st then 1 else 0 := fun st => by
    rw [settle_log, entries_advance]
  have hentered : entries .copy (v.settle ret).s.log = if ret = .copy then 1 else 0 := by
    rw [hlog, hcopies, Nat.zero_add]
    by_cases hr : ret = .copy
    · rw [if_pos hr, if_pos ⟨hr ▸ hst, hr⟩]
    · rw [if_neg hr, if_neg fun h => hr h.2]
  have hleft : entries .done (v.settle ret).s.log = 0 := by
    rw [hlog, hdone, Nat.zero_add, if_neg fun h => hret h.2]
  have hcopy : ret = .copy → v.settle ret = (v.enter .copy).arrive .copy := by
    rintro rfl
    simp [settle, advance, hst]
  refine ⟨⟨?_, ?_, fun h => ?_, fun h => ?_, fun h => ?_, fun h => ?_⟩, ?_, ?_⟩
  · rw [hstm, hentered]
    simp [hret]
  · rw [hstm, hleft]
    simp [hret]
  · rw [hstm, Option.some.injEq] at h
    rw [hcopy h]
    refine ⟨fun d => ?_, .client, rfl⟩
    cases d <;> rfl
  · rw [hstm, Option.some.injEq] at h
    exact absurd h hret
  · rw [hstm, Option.some.injEq] at h
    rw [hcopy h]
    exact hlive
  · rw [hstm, Option.some.injEq] at h
    exact absurd h hret
  · unfold copyBytes
    rw [settle_log, advance_log]
    split
    · exact sentInCopy_eq_zero hcopies
    · rw [List.append_assoc, sentInCopy_append, if_neg (by omega)]
      by_cases hr : ret = .copy <;> by_cases hh : ret = .helloRead <;>
        simp [hr, hh, sentInCopy, Action.enters]
  · simp only [everCopied, inCopy, hentered, hstm, Option.some.injEq]
    by_cases hr : ret = .copy <;> simp [hr]

-- ---------------------------------------------------------------------------
-- One event
-- ---------------------------------------------------------------------------

theorem Outcome.sends {fd : Nat} {write : Bool} {ret : SocksState} {lines : List Action}
    (h : Outcome io c v fd write v' ret) (hs : v.Shape c) (hst : v.s.stm = some .copy)
    (hlog : v'.s.log = v.s.log ++ lines) {n : Int} {bytes : List Byte}
    (hmem : .send n bytes ∈ lines) : ∃ d, n = v.s.fd d := by
  obtain ⟨hcopying, -⟩ := hs.copying hst
  cases h with
  | copyReceived _ hr hne hb v₁ h₁ =>
    subst h₁
    have hlines := (setRb_log ..).symm.trans hlog
    simp only [noted, List.append_cancel_left_eq] at hlines
    simp [← hlines] at hmem
  | copyEnded | copyFailed =>
    have hlines := (shut_log ..).symm.trans hlog
    simp only [noted, List.append_assoc, List.append_cancel_left_eq] at hlines
    simp [← hlines] at hmem
  | @copySent d k b _ hsend hb v₁ v₂ h₁ h₂ =>
    subst h₁ h₂
    obtain ⟨dp, more, heq, hl⟩ := disected_eq (v.noted _) (v.sideFd d) ((v.s.wb d).content.take k)
    have hlines := (setRb_log ..).symm.trans hlog
    rw [heq] at hlines
    simp only [noted, List.append_assoc, List.append_cancel_left_eq] at hlines
    rw [← hlines, List.singleton_append, List.mem_cons] at hmem
    rcases hmem with hmem | hmem
    · cases hmem
      exact ⟨d, (hcopying.fd_eq d).symm⟩
    · obtain ⟨_, _, _, _, _, _, ha⟩ := hl _ hmem
      cases ha
  | recvFailed hst' | sendFailed hst' => rcases hst' with h | h | h <;> rw [hst] at h <;> cases h
  | _ => simp_all

theorem Outcome.entries_copy {fd : Nat} {write : Bool} {ret : SocksState}
    (h : Outcome io c v fd write v' ret) (hs : v.Shape c) (hst : v.s.stm = some .copy)
    (st : SocksState) : entries st (v'.settle ret).s.log =
      entries st v.s.log + if ret = .done ∧ ret = st then 1 else 0 := by
  obtain ⟨d, lines, closed, -, hcopies⟩ := h.copies hs hst
  have hst' : v'.s.stm = some .copy := h.stm.trans hst
  have hquiet : entries st lines = 0 := by
    obtain ⟨more, hmore, hj⟩ := h.logs
    rw [hcopies.log, List.append_cancel_left_eq] at hmore
    exact entries_eq_zero (hmore ▸ hj)
  rw [settle_log, entries_advance, hcopies.log, entries_append, hquiet, Nat.add_zero, hst']
  rcases hcopies.ret_cases with rfl | rfl <;> simp

theorem Outcome.sentInCopy_copy {fd : Nat} {write : Bool} {ret : SocksState} {d : Side}
    {lines : List Action} {closed : Option Side} (h : Outcome io c v fd write v' ret)
    (hs : v.Shape c) (hst : v.s.stm = some .copy) (hcopies : Copies io v d write v' ret lines closed)
    (hcopy : entries .copy v.s.log = 1) : sentInCopy (v'.settle ret).s.log = sentInCopy v.s.log +
      ((sentTo v.s.clientFd lines).length + (sentTo v.s.originFd lines).length) := by
  have hlines : (lines.map Action.sentLength).sum =
      (sentTo v.s.clientFd lines).length + (sentTo v.s.originFd lines).length := by
    refine sentLength_eq ((hs.copying hst).1.fd_ne .client) fun n bytes hmem => ?_
    obtain ⟨d, rfl⟩ := h.sends hs hst hcopies.log hmem
    cases d
    · exact .inl rfl
    · exact .inr rfl
  have hv' : sentInCopy v'.s.log = sentInCopy v.s.log + (lines.map Action.sentLength).sum := by
    rw [hcopies.log, sentInCopy_append, if_pos (by omega)]
  rw [settle_log, advance_log, ← hlines]
  split
  · exact hv'
  · rw [List.append_assoc, sentInCopy_append, hcopies.log, entries_append, if_pos (by omega),
      ← hcopies.log, hv']
    rcases hcopies.ret_cases with rfl | rfl <;> simp [Action.sentLength]

theorem Outcome.tallies_copy {fd : Nat} {write : Bool} {ret : SocksState}
    (h : Outcome io c v fd write v' ret) (hs : v.Shape c) (hst : v.s.stm = some .copy)
    (hcopy : entries .copy v.s.log = 1) : Tallies v (v'.settle ret) := by
  obtain ⟨d, lines, closed, -, hcopies⟩ := h.copies hs hst
  obtain ⟨hcurrent, hhistoric, hbytes⟩ := settle_statistics v' ret
  refine ⟨?_, ?_, ?_⟩
  · rw [hcurrent, hcopies.globals]
    rcases hcopies.ret_cases with rfl | rfl <;> simp [inCopy, hst, settle_stm]
  · rw [hhistoric, hcopies.globals]
    have hpos : 0 < entries .copy (v'.settle ret).s.log := by
      rw [h.entries_copy hs hst]
      omega
    simp [everCopied, hcopy, hpos]
  · rw [hbytes, hcopies.globals]
    simp only [copyBytes, h.sentInCopy_copy hs hst hcopies hcopy, UInt32.ofNat_add]
    rw [UInt32.add_assoc]
    congr 1
    exact UInt32.add_comm ..

theorem Outcome.tracked_copy {fd : Nat} {write : Bool} {ret : SocksState}
    (h : Outcome io c v fd write v' ret) (hs : v.Shape c) (hen : v.Enabled fd write)
    (hst : v.s.stm = some .copy) (hv : v.Tracked) :
    (v'.settle ret).Tracked ∧ Tallies v (v'.settle ret) := by
  obtain ⟨d, lines, closed, -, hcopies⟩ := h.copies hs hst
  obtain ⟨hsym, -⟩ := hv.symmetric hst
  have hstm := settle_stm v' ret
  have hst' : v'.s.stm = some .copy := h.stm.trans hst
  have hret := hcopies.ret_cases
  have hcopy : entries .copy v.s.log = 1 := by simpa [hst] using hv.copies
  have hdone : entries .done v.s.log = 0 := by simpa [hst] using hv.done
  have hentries := h.entries_copy hs hst
  have hsame : SameSides v'.s (v'.settle ret).s := by
    obtain ⟨-, -, -, -, -, hsame, -⟩ := settle_copy hst' hret
    exact hsame
  refine ⟨⟨?_, ?_, fun hc => ?_, fun hc => ?_, fun hc => ?_, fun hc => ?_⟩,
    h.tallies_copy hs hst hcopy⟩
  · rw [hentries, hcopy, hstm]
    rcases hret with rfl | rfl <;> simp
  · rw [hentries, hdone, hstm]
    rcases hret with rfl | rfl <;> simp
  · rw [hstm, Option.some.injEq] at hc
    have hopen : ¬ ∀ d', (v'.s.duplex d').read = false := fun hall => by
      have hd := (hcopies.done_iff hsym).mpr hall
      rw [hc] at hd
      cases hd
    refine ⟨fun d' => ?_, ?_⟩
    · rw [hsame.duplex, hsame.duplex]
      exact hcopies.symmetric hsym d'
    · by_contra hall
      refine hopen fun d' => ?_
      rw [← hsame.duplex, ← Bool.not_eq_true]
      exact fun hd => hall ⟨d', hd⟩
  · rw [hstm, Option.some.injEq] at hc
    intro d'
    rw [hsame.duplex]
    exact (hcopies.done_iff hsym).mp hc d'
  · rw [hstm, Option.some.injEq] at hc
    subst hc
    simpa [settle, advance, hst'] using (h.shape hs hen).1.live
  · rw [hstm, Option.some.injEq] at hc
    subst hc
    rfl

theorem Tracked.uncopied (hv : v.Tracked) {v₁ : View} {ret : SocksState}
    (hst : v.s.stm ≠ some .copy ∧ v.s.stm ≠ some .done) (hlogs : Logs v.s.log v₁.s.log)
    (hst₁ : v₁.s.stm = v.s.stm) (hlive : v₁.live = true) (hret : ret ≠ .done)
    (hglobals : v₁.globals = if ret = .copy then { v.globals with
      historicConnections := v.globals.historicConnections + 1
      currentConnections := v.globals.currentConnections + 1 } else v.globals) :
    (v₁.settle ret).Tracked ∧ Tallies v (v₁.settle ret) := by
  obtain ⟨lines, hlines, hj⟩ := hlogs
  have hcopies : entries .copy v.s.log = 0 := by simpa [hst] using hv.copies
  have hdone : entries .done v.s.log = 0 := by simpa [hst] using hv.done
  have hentries : ∀ st, entries st v.s.log = 0 → entries st v₁.s.log = 0 := by
    intro st h
    rw [hlines, entries_append, h, entries_eq_zero hj]
  obtain ⟨htracked, hbytes, hever⟩ := settle_tracked (v := v₁) (hst₁ ▸ hst.1)
    (hentries _ hcopies) (hentries _ hdone) hlive hret
  obtain ⟨hc, hh, hb⟩ := settle_statistics v₁ ret
  have hin : inCopy v.s = 0 := if_neg hst.1
  have hin' : inCopy (v₁.settle ret).s = if ret = .copy then 1 else 0 := by
    simp [inCopy, settle_stm]
  have hever₀ : everCopied v.s = 0 := by simp [everCopied, hcopies]
  have hbytes₀ : copyBytes v.s = 0 := sentInCopy_eq_zero hcopies
  refine ⟨htracked, ⟨?_, ?_, ?_⟩⟩
  · rw [hc, hglobals, hin, hin']
    split <;> simp
  · rw [hh, hglobals, hever₀, hever, hin']
    split <;> simp
  · rw [hb, hglobals, hbytes₀, hbytes]
    split <;> simp

theorem Tallies.trans {v₁ v₂ v₃ : View} (h : Tallies v₁ v₂) (h' : Tallies v₂ v₃) :
    Tallies v₁ v₃ := by
  have hadd {a₁ a₂ a₃ b₁ b₂ b₃ : UInt32} (h : a₂ + b₁ = a₁ + b₂)
      (h' : a₃ + b₂ = a₂ + b₃) :
      a₃ + b₁ = a₁ + b₃ := by
    rw [← UInt32.add_left_inj b₂]
    calc a₃ + b₁ + b₂
      _ = a₃ + b₂ + b₁ := by rw [UInt32.add_assoc, UInt32.add_comm b₁, UInt32.add_assoc]
      _ = a₂ + b₁ + b₃ := by rw [h', UInt32.add_assoc, UInt32.add_comm b₃, UInt32.add_assoc]
      _ = a₁ + b₃ + b₂ := by rw [h, UInt32.add_assoc, UInt32.add_comm b₂, UInt32.add_assoc]
  exact ⟨hadd h.current h'.current, hadd h.historic h'.historic, hadd h.bytes h'.bytes⟩

theorem Tracked.started (hv : v.Tracked) (hs : v.Shape c) :
    v.started.Tracked ∧ Tallies v v.started := by
  by_cases hst : v.s.stm = none
  · have hsettle : v.started = v.settle .helloRead := if_pos hst
    rw [hsettle]
    exact hv.uncopied (by simp [hst]) (.refl _) rfl hs.body.live (by simp) rfl
  · have hsame : v.started = v := if_neg hst
    rw [hsame]
    exact ⟨hv, rfl, rfl, rfl⟩

theorem Step.tracked {ce : ConnEvent} (h : Step c v ce v') (hs : v.Shape c) (hv : v.Tracked) :
    v'.Tracked ∧ Tallies v v' := by
  cases h with
  | @ready fd write io v₁ ret hen hout =>
    have hen' : v.started.Enabled fd write := by
      unfold Enabled
      rw [started_link]
      exact hen
    have hs' := hs.started
    obtain ⟨hv', htally⟩ := hv.started hs
    by_cases hst : v.started.s.stm = some .copy
    · obtain ⟨htracked, hnext⟩ := hout.tracked_copy hs' hen' hst hv'
      exact ⟨htracked, htally.trans hnext⟩
    · obtain ⟨hret, hglobals⟩ := hout.uncopied hst
      obtain ⟨htracked, hnext⟩ := hv'.uncopied ⟨hst, hs'.stays.1⟩ hout.logs hout.stm
        (hout.shape hs' hen').1.live hret hglobals
      exact ⟨htracked, htally.trans hnext⟩
  | @resolved answer io v₁ ret hst hres =>
    have hret : ret = .requestWrite ∨ ret = .requestConnecting := by
      cases hres with
      | unreachable => exact .inl rfl
      | connect hlist hconnect => cases hconnect <;> simp
    refine hv.uncopied (by simp [hst]) hres.logs hres.stm (hres.shape hs hst).1.live ?_ ?_
    · rcases hret with rfl | rfl <;> simp
    · rw [hres.globals]
      rcases hret with rfl | rfl <;> rfl

end View

namespace World

open View

variable {w₀ w w' : World} {c : ConnId}

-- ---------------------------------------------------------------------------
-- Sums over the connections
-- ---------------------------------------------------------------------------

def total (f : Socks5 → Nat) (w : World) : Nat :=
  ∑ c ∈ Finset.range w.allocated, (w.conns c).elim 0 fun conn => f conn.s

def NoShare (f : Socks5 → Nat) : Prop := ∀ s : Socks5, s.stm = none → s.log = [] → f s = 0

theorem sum_change {n k : Nat} (hk : k < n) {f g : Nat → Nat} (h : ∀ d, d ≠ k → g d = f d) :
    ∑ d ∈ Finset.range n, g d + f k = ∑ d ∈ Finset.range n, f d + g k := by
  have hmem : k ∈ Finset.range n := Finset.mem_range.mpr hk
  have hrest : ∑ d ∈ (Finset.range n).erase k, g d = ∑ d ∈ (Finset.range n).erase k, f d :=
    Finset.sum_congr rfl fun d hd => h d (Finset.ne_of_mem_erase hd)
  rw [← Finset.add_sum_erase _ _ hmem, ← Finset.add_sum_erase _ f hmem, hrest]
  omega

theorem Rel.total {v v' : View} (hrel : Rel w c w' v') (hv : w.Shows c v) (hw : w.Wired)
    (f : Socks5 → Nat) : w'.total f + f v.s = w.total f + f v'.s := by
  have hsum := sum_change (hw.lt_allocated hv.conn)
    (f := fun d => (w.conns d).elim 0 fun conn => f conn.s)
    (g := fun d => (w'.conns d).elim 0 fun conn => f conn.s)
    fun d hd => by rw [hrel.others.conns d hd]
  simp only [hrel.shows.conn, hv.conn, Option.elim_some] at hsum
  unfold World.total
  rw [hrel.others.allocated]
  exact hsum

theorem Outside.total {G : Globals → Prop} {I : ConnId → View → Prop} (h : Outside w w')
    (hw : Carries G I w) {f : Socks5 → Nat} (hf : NoShare f) : w'.total f = w.total f := by
  unfold World.total
  symm
  have hold : ∀ d ∈ Finset.range w.allocated, ((w.conns d).elim 0 fun conn => f conn.s) =
      (w'.conns d).elim 0 fun conn => f conn.s := by
    intro d hd
    rw [(h.same hw (Finset.mem_range.mp hd)).1]
  rw [Finset.sum_congr rfl hold]
  refine Finset.sum_subset (Finset.range_subset_range.mpr h.allocated) fun d _ hd => ?_
  rw [Finset.mem_range, Nat.not_lt] at hd
  cases hc : w'.conns d with
  | none => rfl
  | some conn =>
    obtain ⟨hstm, hlog⟩ := h.fresh d conn hd hc
    exact hf conn.s hstm hlog

theorem sum_of_tally {a a' : UInt32} {n n' k k' : Nat} (h : a = UInt32.ofNat n)
    (htally : a' + UInt32.ofNat k = a + UInt32.ofNat k') (htotal : n' + k = n + k') :
    a' = UInt32.ofNat n' := by
  rw [← UInt32.add_left_inj (UInt32.ofNat k), htally, h, ← UInt32.ofNat_add, ← UInt32.ofNat_add,
    htotal]

-- ---------------------------------------------------------------------------
-- The counters
-- ---------------------------------------------------------------------------

structure Counts (w : World) : Prop where
  carries : Carries (fun _ => True) (fun _ v => v.Tracked) w
  current : w.globals.currentConnections = UInt32.ofNat (w.total inCopy)
  historic : w.globals.historicConnections = UInt32.ofNat (w.total everCopied)
  bytes : w.globals.bytesTransferred = UInt32.ofNat (w.total copyBytes)

theorem tracked_kept : Kept anyEvent (fun _ => True) fun _ v => v.Tracked where
  step hs hv _ _ hstep := ⟨(hstep.tracked hs hv).1, trivial⟩
  frame _ hv _ := ⟨hv.copies, hv.done, hv.symmetric, hv.closed, hv.live, hv.gone⟩
  fresh _ _ := ⟨rfl, rfl, fun h => (by cases h), fun h => (by cases h), fun h => (by cases h),
    fun h => (by cases h)⟩
  turnedAway _ _ := ⟨rfl, rfl, fun h => (by cases h), fun h => (by cases h), fun h => (by cases h),
    fun h => (by cases h)⟩

theorem Counts.step (h : w.Counts) {e : Event} (hs : w.step e = some (.ok w')) : w'.Counts := by
  have hcarries := h.carries.step tracked_kept ⟨fun _ _ h => h, fun _ _ h => h⟩
    (fun _ _ _ _ _ => trivial) hs
  rcases h.carries.step_cases tracked_kept hs with
    ⟨c, v, ce, v', -, hshows, hshape, hv, hstep, hrel⟩ | houtside
  · obtain ⟨-, htally⟩ := hstep.tracked hshape hv
    have htotal := hrel.total hshows h.carries.wired
    obtain ⟨hcurrent, hhistoric, hbytes⟩ := htally
    rw [← hshows.globals, ← hrel.shows.globals] at hcurrent hhistoric hbytes
    exact ⟨hcarries, sum_of_tally h.current hcurrent (htotal inCopy),
      sum_of_tally h.historic hhistoric (htotal everCopied),
      sum_of_tally h.bytes hbytes (htotal copyBytes)⟩
  · have hsum {f : Socks5 → Nat} (hf : NoShare f) := houtside.total h.carries hf
    refine ⟨hcarries, ?_, ?_, ?_⟩
    · rw [houtside.currentConnections, h.current, hsum fun s hst _ => by simp [inCopy, hst]]
    · rw [houtside.historicConnections, h.historic,
        hsum fun s _ hlog => by simp [everCopied, hlog, entries]]
    · rw [houtside.bytesTransferred, h.bytes, hsum fun s _ hlog => by simp [copyBytes, hlog, sentInCopy]]

theorem total_inCopy_le (h : Carries (fun _ => True) (fun _ v => v.Tracked) w) :
    w.total inCopy ≤ fdSetSize := by
  let copying (c : Nat) : Bool := (w.conns c).any fun conn => conn.s.stm = some .copy
  have hterm : ∀ c, ((w.conns c).elim 0 fun conn => inCopy conn.s) = if copying c then 1 else 0 := by
    intro c
    unfold copying
    cases w.conns c with
    | none => rfl
    | some conn => simp [inCopy]
  have hcount : w.total inCopy = ((Finset.range w.allocated).filter (copying ·)).card := by
    rw [World.total, Finset.sum_congr rfl fun c _ => hterm c, Finset.card_filter]
  -- the client's descriptor of each of them is open, and theirs alone
  have hfd : ∀ c, copying c = true → ∃ n, n < fdSetSize ∧ w.files n = some (.conn c) := by
    intro c hcopying
    obtain ⟨conn, hc, hst⟩ := (Option.any_eq_true ..).mp hcopying
    obtain ⟨v, hshows, hshape, hv⟩ := h.view hc
    rw [hshows.conn] at hc
    cases hc
    have hlive := hv.live (of_decide_eq_true hst)
    have hshape : v.Shape c := hshape.resolve_right fun he => by simp [he.live] at hlive
    refine ⟨v.fd, hshape.body.fd_lt, ?_⟩
    obtain ⟨i, hi⟩ := hshape.client
    have hlink : v.link v.fd = .watched i := by
      rw [View.link, if_pos rfl, hi]
    rw [← hshows.link] at hlink
    unfold World.link at hlink
    split at hlink
    · assumption
    · cases hlink
  choose! fd hlt hfile using hfd
  rw [hcount, ← Finset.card_range fdSetSize]
  refine Finset.card_le_card_of_injOn fd (fun c hc => ?_) fun c hc d hd heq => ?_
  · exact Finset.mem_coe.mpr (Finset.mem_range.mpr (hlt c (Finset.mem_filter.mp hc).2))
  · have hboth := (hfile c (Finset.mem_filter.mp hc).2).symm.trans
      (heq ▸ hfile d (Finset.mem_filter.mp hd).2)
    simpa using hboth

/-- The statistics are exact: in every state of every run, `current_connections`
is the number of connections in COPY, and the other two counters are, modulo
2^32, the number of connections that entered COPY and the sum of the results of
`send` there. Each direction of a connection in COPY is open at both ends or at
none, one is open, and DONE is entered once, with both closed. -/
theorem statistics_exact (h₀ : w₀.Initial) (h : Reachable w₀ w) :
    w.globals.currentConnections.toNat = w.total inCopy ∧
    w.globals.historicConnections.toNat = w.total everCopied % 2 ^ 32 ∧
    w.globals.bytesTransferred.toNat = w.total copyBytes % 2 ^ 32 ∧
    ∀ c conn, w.conns c = some conn →
      (conn.s.stm = some .copy → conn.s.Symmetric ∧ ∃ d, (conn.s.duplex d).read = true) ∧
      (conn.s.stm = some .done → (∀ d, (conn.s.duplex d).read = false) ∧ conn.live = false) ∧
      entries .done conn.s.log = if conn.s.stm = some .done then 1 else 0 := by
  have hzero : ∀ f, w₀.total f = 0 := by
    intro f
    rw [World.total, h₀.allocated, Finset.sum_range_zero]
  obtain ⟨hhistoric, hcurrent, hbytes⟩ := h₀.statistics
  have hinv : w.Counts := by
    refine h.invariant (I := World.Counts) ⟨h₀.carries trivial, ?_, ?_, ?_⟩
      fun _ _ _ hw _ hs => hw.step hs
    · rw [hcurrent, hzero]
      rfl
    · rw [hhistoric, hzero]
      rfl
    · rw [hbytes, hzero]
      rfl
  have hle := total_inCopy_le hinv.carries
  refine ⟨?_, ?_, ?_, fun c conn hc => ?_⟩
  · rw [hinv.current, UInt32.toNat_ofNat']
    refine Nat.mod_eq_of_lt (Nat.lt_of_le_of_lt hle ?_)
    decide
  · rw [hinv.historic, UInt32.toNat_ofNat']
  · rw [hinv.bytes, UInt32.toNat_ofNat']
  · obtain ⟨v, hshows, -, hv⟩ := hinv.carries.view hc
    rw [hshows.conn] at hc
    cases hc
    exact ⟨hv.symmetric, fun hst => ⟨hv.closed hst, hv.gone hst⟩, hv.done⟩

/-- One client is connected and sends two bytes. -/
theorem statistics_connected : ∃ w, Reachable (startUp {}) w ∧
    w.globals.currentConnections.toNat = 1 ∧ w.globals.historicConnections.toNat = 1 ∧
    w.globals.bytesTransferred.toNat = 2 := by
  have hrun : Lib.endsIn (fun w => decide (w.total inCopy = 1 ∧ w.total everCopied = 1 ∧
      w.total copyBytes = 2)) (play (Meets anyEvent) (startUp {}) (connected ++
        [.ready 4 false { recv := some [104, 105] }, .ready 5 true { send := some 2 }])) = true := by
    decide +kernel
  obtain ⟨w, hplay, hw⟩ := Lib.endsIn_iff.mp hrun
  obtain ⟨hin, hever, hbytes⟩ := of_decide_eq_true hw
  have hreach := Lib.reaches_of_play hplay
  obtain ⟨hcurrent, hhistoric, htransferred, -⟩ :=
    statistics_exact (startUp_initial (by decide)) hreach
  refine ⟨w, hreach, hcurrent.trans hin, ?_, ?_⟩
  · rw [hhistoric, hever]
    decide
  · rw [htransferred, hbytes]
    decide

end World

end Socks5d
