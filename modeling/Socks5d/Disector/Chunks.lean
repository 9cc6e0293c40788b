import Socks5d.Lib.Machine
import Socks5d.Socks5nio.State

/-!
# The disector over the chunks that copy_w sends

`copy_w` looks at the state of the disector once for each chunk, and shows it
the whole chunk or nothing of it. `Sniffer` is that loop over the chunks of one
connection, with the credentials it logs.
-/

namespace Socks5d

def disectorStep (p : DisectorParser) (c : Byte) : DisectorParser :=
  let p := disectorParserFeed p c
  if p.state = .restart then disectorParserReset p else p

def disector : Lib.Machine DisectorParser Byte where
  feed := disectorStep
  done p := p.state = .incompatible

/-- `disector_consume` is the loop, and reports that it is done when the parser
is. -/
theorem disectorConsumeLoop_eq (p : DisectorParser) (st : DisectorState) (bytes : List Byte)
    (hst : st = .done ↔ p.state = .done) :
    (disectorConsumeLoop p st bytes).1 = (disector.consume p bytes).1 ∧
      ((disectorConsumeLoop p st bytes).2 = .done ↔
        (disector.consume p bytes).1.state = .done) := by
  induction bytes generalizing p st with
  | nil => exact ⟨rfl, hst⟩
  | cons c bytes ih =>
    have hfeed : disector.feed p c = disectorStep p c := rfl
    simp only [disectorConsumeLoop, Lib.Machine.consume_cons, hfeed]
    by_cases hr : (disectorParserFeed p c).state = .restart
    · have hstep : disectorStep p c = disectorParserReset (disectorParserFeed p c) := by
        simp [disectorStep, hr]
      have hdone : disector.done (disectorStep p c) = false := by
        simp [hstep, disector, disectorParserReset]
      rw [if_pos hr, hdone, hstep]
      exact ih _ _ (by simp [disectorParserReset])
    · have hstep : disectorStep p c = disectorParserFeed p c := by simp [disectorStep, hr]
      rw [if_neg hr, hstep]
      by_cases hi : (disectorParserFeed p c).state = .incompatible
      · simp [hi, disector]
      · have hdone : disector.done (disectorParserFeed p c) = false := by simp [disector, hi]
        rw [if_neg hi, hdone]
        exact ih _ _ Iff.rfl

theorem disectorConsume_fst (p : DisectorParser) (bytes : List Byte) :
    (disectorConsume p bytes).1 = (disector.consume p bytes).1 :=
  (disectorConsumeLoop_eq p p.state bytes Iff.rfl).1

theorem disectorConsume_done (p : DisectorParser) (bytes : List Byte) :
    (disectorConsume p bytes).2 = .done ↔ (disector.consume p bytes).1.state = .done :=
  (disectorConsumeLoop_eq p p.state bytes Iff.rfl).2

-- ---------------------------------------------------------------------------
-- One byte
-- ---------------------------------------------------------------------------

namespace DisectorParser

variable {p : DisectorParser} {c : Byte}

theorem search_mem (k : Fin 4) (n : Nat) : (search k).getD n 0 ∈ 0 :: search k := by
  rw [List.getD]
  cases h : (search k)[n]? with
  | none => exact List.mem_cons_self
  | some b => exact List.mem_cons_of_mem _ (List.mem_of_getElem? h)

theorem keyword_ne (p : DisectorParser) (k : Fin 4) : p.keyword k ≠ 0x0a := by
  intro h
  have hmem := search_mem k p.i.toNat
  rw [show (search k).getD p.i.toNat 0 = 0x0a from h] at hmem
  clear h
  revert k
  decide

theorem step_matched {k : Fin 4} {b : Byte} {failed matched : DisectorState}
    (hnext : disectorParserNext p c = p.matching k b failed matched) (hb : b = p.keyword k)
    (hst : p.state ≠ .restart ∧ matched ≠ .restart ∧ matched ≠ p.state) :
    ∃ accesses, disectorStep p c =
      if (search k).length - 1 ≤ (p.i + 1).toNat then { p with accesses, state := matched, i := 0 }
      else { p with accesses, i := p.i + 1 } := by
  refine ⟨p.accesses ++ [.keyword k p.i.toNat], ?_⟩
  unfold disectorStep disectorParserFeed
  rw [hnext]
  by_cases hd : (search k).length ≤ (p.i.toNat + 1) % 256 + 1
  · simp [matching, remainingIsDone, hb, hd, hst, touch, next]
  · simp [matching, remainingIsDone, hb, hd, hst, touch, next]

theorem step_restarted (p' : DisectorParser) (hnext : disectorParserNext p c = (p', .restart)) :
    disectorStep p c =
      { p' with state := .user, i := if p'.userCarry then 1 else 0, userCarry := false } := by
  unfold disectorStep disectorParserFeed
  rw [hnext]
  rfl

theorem step_waitPop (hst : p.state = .waitPop) (hc : c = p.keyword 0) :
    ∃ accesses, disectorStep p c =
      if 2 ≤ (p.i + 1).toNat then { p with accesses, state := .user, i := 0 }
      else { p with accesses, i := p.i + 1 } :=
  step_matched (by rw [disectorParserNext, hst]; rfl) hc (by simp [hst])

theorem step_waitPop_other (hst : p.state = .waitPop) (hc : c ≠ p.keyword 0) :
    ∃ accesses, disectorStep p c = { p with accesses, state := .incompatible, i := 0 } := by
  refine ⟨p.accesses ++ [.keyword 0 p.i.toNat], ?_⟩
  simp [disectorStep, disectorParserFeed, disectorParserNext, hst, Disector.waitPop, matching, hc,
    touch]

theorem step_user (hst : p.state = .user) (hc : toUpper c = p.keyword 1) :
    ∃ accesses, disectorStep p c =
      if 4 ≤ (p.i + 1).toNat then { p with accesses, state := .userCopy, i := 0 }
      else { p with accesses, i := p.i + 1 } :=
  step_matched (by rw [disectorParserNext, hst]; rfl) hc (by simp [hst])

theorem step_user_other (hst : p.state = .user) (hc : toUpper c ≠ p.keyword 1) :
    ∃ accesses, disectorStep p c =
      { p with accesses, state := .user, i := if p.userCarry then 1 else 0, userCarry := false } := by
  refine ⟨_, step_restarted (p.touch (.keyword 1 p.i.toNat)) ?_⟩
  rw [disectorParserNext, hst]
  simp [Disector.user, matching, hc]

theorem step_userCopy (hst : p.state = .userCopy) (hc : c ≠ 0x0a) :
    ∃ accesses, disectorStep p c =
      { p with accesses, user := p.user.set p.i.toNat c, i := p.i + 1 } := by
  refine ⟨p.accesses ++ [.user p.i.toNat], ?_⟩
  simp [disectorStep, disectorParserFeed, disectorParserNext, hst, Disector.userCopy, hc, storeUser,
    touch, next]

theorem store_before (i : UInt8) (l : List Byte) :
    (if 0 ≤ (i.toNat : Int) - 1 then l.set ((i.toNat : Int) - 1).toNat 0 else l) =
      if i = 0 then l else l.set (i.toNat - 1) 0 := by
  by_cases h : i = 0
  · subst h
    rfl
  · have hpos : 0 < i.toNat := by
      rw [Nat.pos_iff_ne_zero]
      exact fun hz => h (UInt8.toNat_inj.mp hz)
    rw [if_neg h, if_pos (by omega), show ((i.toNat : Int) - 1).toNat = i.toNat - 1 by omega]

theorem step_userCopy_lf (hst : p.state = .userCopy) :
    ∃ accesses, disectorStep p 0x0a = { p with
      accesses
      user := if p.i = 0 then p.user else p.user.set (p.i.toNat - 1) 0
      state := .password
      i := 0 } := by
  refine ⟨p.accesses ++ [.user ((p.i.toNat : Int) - 1)], ?_⟩
  simp only [disectorStep, disectorParserFeed, disectorParserNext, hst, Disector.userCopy, storeUser,
    touch, ↓reduceIte, reduceCtorEq]
  congr 1
  exact store_before p.i p.user

theorem step_password (hst : p.state = .password) (hc : toUpper c = p.keyword 2) :
    ∃ accesses, disectorStep p c =
      if 4 ≤ (p.i + 1).toNat then { p with accesses, state := .passwordCopy, i := 0 }
      else { p with accesses, i := p.i + 1 } := by
  have hnext : disectorParserNext p c = p.matching 2 (toUpper c) .restart .passwordCopy := by
    rw [disectorParserNext, hst]
    simp only [Disector.password, matching, hc, ↓reduceIte, hst]
    split <;> simp_all
  exact step_matched hnext hc (by simp [hst])

theorem password_failed (hst : p.state = .password) (hc : toUpper c ≠ p.keyword 2) :
    ∃ accesses, disectorParserNext p c = ({ p with
      accesses
      userCarry := p.userCarry || decide (toUpper c = 0x55) }, .restart) := by
  refine ⟨p.accesses ++ [.keyword 2 p.i.toNat], ?_⟩
  have hfailed : p.matching 2 (toUpper c) .restart .passwordCopy =
      (p.touch (.keyword 2 p.i.toNat), .restart) := by simp [matching, hc]
  rw [disectorParserNext, hst]
  simp only [Disector.password, hfailed, ↓reduceIte]
  by_cases hu : toUpper c = 0x55
  · simp [search, hu, touch, hst]
  · simp [search, hu, touch, hst]

theorem step_password_other (hst : p.state = .password) (hc : toUpper c ≠ p.keyword 2)
    (hcarry : p.userCarry = false) :
    ∃ accesses, disectorStep p c =
      { p with accesses, state := .user, i := if toUpper c = 0x55 then 1 else 0 } := by
  obtain ⟨accesses, hnext⟩ := password_failed hst hc
  refine ⟨accesses, ?_⟩
  rw [step_restarted _ hnext]
  simp [hcarry]

theorem step_passwordCopy (hst : p.state = .passwordCopy) (hc : c ≠ 0x0a) :
    ∃ accesses, disectorStep p c =
      { p with accesses, pass := p.pass.set p.i.toNat c, i := p.i + 1 } := by
  refine ⟨p.accesses ++ [.pass p.i.toNat], ?_⟩
  simp [disectorStep, disectorParserFeed, disectorParserNext, hst, Disector.passwordCopy, hc,
    storePass, touch, next]

theorem step_passwordCopy_lf (hst : p.state = .passwordCopy) :
    ∃ accesses, disectorStep p 0x0a = { p with
      accesses
      pass := if p.i = 0 then p.pass else p.pass.set (p.i.toNat - 1) 0
      state := .response
      i := 0 } := by
  refine ⟨p.accesses ++ [.pass ((p.i.toNat : Int) - 1)], ?_⟩
  simp only [disectorStep, disectorParserFeed, disectorParserNext, hst, Disector.passwordCopy,
    storePass, touch, ↓reduceIte, reduceCtorEq]
  congr 1
  exact store_before p.i p.pass

theorem step_response (hst : p.state = .response) (hc : c = p.keyword 3) :
    ∃ accesses, disectorStep p c =
      if 2 ≤ (p.i + 1).toNat then { p with accesses, state := .done, i := 0 }
      else { p with accesses, i := p.i + 1 } :=
  step_matched (by rw [disectorParserNext, hst]; rfl) hc (by simp [hst])

theorem step_response_other (hst : p.state = .response) (hc : c ≠ p.keyword 3) :
    ∃ accesses, disectorStep p c =
      { p with accesses, state := .user, i := if p.userCarry then 1 else 0, userCarry := false } := by
  refine ⟨_, step_restarted (p.touch (.keyword 3 p.i.toNat)) ?_⟩
  rw [disectorParserNext, hst]
  simp [Disector.response, matching, hc]

theorem step_done (hst : p.state = .done) : disectorStep p c = p := by
  simp [disectorStep, disectorParserFeed, disectorParserNext, hst]
  rw [← hst]

end DisectorParser

-- ---------------------------------------------------------------------------
-- Chunks
-- ---------------------------------------------------------------------------

/-- What one call of `copy_w` sent; it goes to the side other than its sender. -/
structure Chunk where
  sender : Side
  bytes : List Byte
  deriving DecidableEq

def DisectorState.hears : DisectorState → Option Side
  | .waitPop | .response => some .origin
  | .user | .userCopy | .password | .passwordCopy => some .client
  | .done | .restart | .incompatible => none

structure Sniffer where
  p : DisectorParser := disectorParserInit
  reports : List (List Byte × List Byte) := []

namespace Sniffer

def sniff (s : Sniffer) (chunk : Chunk) : Sniffer :=
  if s.p.state.hears = some chunk.sender then
    let (dp, st) := disectorConsume s.p chunk.bytes
    if st = .done then
      ⟨disectorParserReset dp, s.reports ++ [(cstr (dp.user ++ dp.pass), cstr dp.pass)]⟩
    else { s with p := dp }
  else s

def sniffAll (s : Sniffer) (chunks : List Chunk) : Sniffer := chunks.foldl sniff s

@[simp] theorem sniffAll_nil (s : Sniffer) : s.sniffAll [] = s := rfl

@[simp] theorem sniffAll_cons (s : Sniffer) (chunk : Chunk) (chunks : List Chunk) :
    s.sniffAll (chunk :: chunks) = (s.sniff chunk).sniffAll chunks := rfl

@[simp] theorem sniffAll_append (s : Sniffer) (chunks chunks' : List Chunk) :
    s.sniffAll (chunks ++ chunks') = (s.sniffAll chunks).sniffAll chunks' := List.foldl_append

theorem sniff_deaf {s : Sniffer} {chunk : Chunk} (h : s.p.state.hears ≠ some chunk.sender) :
    s.sniff chunk = s := if_neg h

theorem sniff_heard {s : Sniffer} {chunk : Chunk} (h : s.p.state.hears = some chunk.sender)
    (hdone : (disector.consume s.p chunk.bytes).1.state ≠ .done) :
    s.sniff chunk = { s with p := (disector.consume s.p chunk.bytes).1 } := by
  have hst : (disectorConsume s.p chunk.bytes).2 ≠ .done := fun hst =>
    hdone ((disectorConsume_done _ _).mp hst)
  unfold sniff
  rw [if_pos h]
  simp only [hst, ↓reduceIte, disectorConsume_fst]

theorem sniff_done {s : Sniffer} {chunk : Chunk} (h : s.p.state.hears = some chunk.sender)
    (hdone : (disector.consume s.p chunk.bytes).1.state = .done) :
    s.sniff chunk = ⟨disectorParserReset (disector.consume s.p chunk.bytes).1,
      s.reports ++ [(cstr ((disector.consume s.p chunk.bytes).1.user ++
        (disector.consume s.p chunk.bytes).1.pass), cstr (disector.consume s.p chunk.bytes).1.pass)]⟩ := by
  have hst : (disectorConsume s.p chunk.bytes).2 = .done := (disectorConsume_done _ _).mpr hdone
  unfold sniff
  rw [if_pos h]
  simp only [hst, ↓reduceIte, disectorConsume_fst]

end Sniffer

end Socks5d
