import Mathlib.Data.List.DropRight
import Socks5d.Disector.Chunks

/-!
# The arrays of the disector

The arguments of USER and PASS are copied up to the end of their line, however
long it is, and the byte before that end is overwritten, even when there is none.
So the disector stays inside its arrays exactly when every argument that it
copies has at least one byte and at most as many as the arrays.
-/

namespace Socks5d

open Lib (Justified)

/-- Inside the array, or inside the keyword. -/
def DisectorAccess.Inside : DisectorAccess → Prop
  | .user i | .pass i => 0 ≤ i ∧ i < disectorFieldSize
  | .keyword k i => 0 ≤ i ∧ i < (search k).length

instance : DecidablePred DisectorAccess.Inside
  | .user _ | .pass _ | .keyword _ _ => inferInstanceAs (Decidable (_ ∧ _))

def DisectorState.copies : DisectorState → Bool
  | .userCopy | .passwordCopy => true
  | _ => false

-- ---------------------------------------------------------------------------
-- Calls
-- ---------------------------------------------------------------------------

/-- A call of `disector_consume` and the reset that follows when it is done.
There is none once the disector has given up. -/
def disectorCall (p : DisectorParser) (bytes : List Byte) : DisectorParser :=
  if p.state = .incompatible then p
  else
    let (p, st) := disectorConsume p bytes
    if st = .done then disectorParserReset p else p

def disectorCalls (p : DisectorParser) (chunks : List (List Byte)) : DisectorParser :=
  chunks.foldl disectorCall p

def disectorFed (p : DisectorParser) : List (List Byte) → List (DisectorParser × Byte)
  | [] => []
  | bytes :: chunks =>
    (if p.state = .incompatible then [] else disector.fed p bytes) ++
      disectorFed (disectorCall p bytes) chunks

theorem disectorCall_eq {p : DisectorParser} (h : p.state ≠ .incompatible) (bytes : List Byte) :
    disectorCall p bytes =
      if (disector.consume p bytes).1.state = .done then
        disectorParserReset (disector.consume p bytes).1
      else (disector.consume p bytes).1 := by
  simp only [disectorCall, h, ↓reduceIte, disectorConsume_done, disectorConsume_fst]

-- ---------------------------------------------------------------------------
-- The accesses of one byte
-- ---------------------------------------------------------------------------

def DisectorParser.access (p : DisectorParser) (c : Byte) : Option DisectorAccess :=
  match p.state with
  | .waitPop => some (.keyword 0 p.i.toNat)
  | .user => some (.keyword 1 p.i.toNat)
  | .userCopy => some (.user (if c = 0x0a then (p.i.toNat : Int) - 1 else p.i.toNat))
  | .password => some (.keyword 2 p.i.toNat)
  | .passwordCopy => some (.pass (if c = 0x0a then (p.i.toNat : Int) - 1 else p.i.toNat))
  | .response => some (.keyword 3 p.i.toNat)
  | .done | .restart | .incompatible => none

theorem matching_accesses (p : DisectorParser) (k : Fin 4) (c : Byte)
    (failed matched : DisectorState) :
    (p.matching k c failed matched).1.accesses = p.accesses ++ [.keyword k p.i.toNat] := by
  unfold DisectorParser.matching
  split <;> rfl

theorem next_accesses (p : DisectorParser) (c : Byte) :
    (disectorParserNext p c).1.accesses = p.accesses ++ (p.access c).toList := by
  unfold disectorParserNext DisectorParser.access
  cases p.state with
  | waitPop | user | response => exact matching_accesses ..
  | password =>
    simp only [Disector.password]
    split
    · split <;> exact matching_accesses ..
    · exact matching_accesses ..
  | userCopy =>
    simp only [Disector.userCopy]
    split <;> rfl
  | passwordCopy =>
    simp only [Disector.passwordCopy]
    split <;> rfl
  | done | restart | incompatible => exact (List.append_nil _).symm

theorem disectorStep_accesses (p : DisectorParser) (c : Byte) :
    (disectorStep p c).accesses = p.accesses ++ (p.access c).toList := by
  rw [← next_accesses]
  unfold disectorStep
  simp only
  split <;> rfl

theorem consume_accesses (p : DisectorParser) (bytes : List Byte) :
    (disector.consume p bytes).1.accesses =
      p.accesses ++ (disector.fed p bytes).flatMap fun x => (x.1.access x.2).toList := by
  induction bytes generalizing p with
  | nil => simp [Lib.Machine.fed]
  | cons c bytes ih =>
    have hstep : (disector.feed p c).accesses = p.accesses ++ (p.access c).toList :=
      disectorStep_accesses p c
    cases hd : disector.done (disector.feed p c) with
    | true => simp [Lib.Machine.consume_cons, Lib.Machine.fed, hd, hstep]
    | false => simp [Lib.Machine.consume_cons, Lib.Machine.fed, hd, ih, hstep]

theorem disectorCalls_accesses (p : DisectorParser) (chunks : List (List Byte)) :
    (disectorCalls p chunks).accesses =
      p.accesses ++ (disectorFed p chunks).flatMap fun x => (x.1.access x.2).toList := by
  induction chunks generalizing p with
  | nil => simp [disectorCalls, disectorFed]
  | cons bytes chunks ih =>
    have hcalls : disectorCalls p (bytes :: chunks) = disectorCalls (disectorCall p bytes) chunks := rfl
    rw [hcalls, ih, disectorFed, List.flatMap_append, ← List.append_assoc]
    congr 1
    by_cases hi : p.state = .incompatible
    · simp [disectorCall, hi]
    · rw [disectorCall_eq hi, if_neg hi, ← consume_accesses]
      split <;> rfl

-- ---------------------------------------------------------------------------
-- The index
-- ---------------------------------------------------------------------------

/-- The bytes of the argument that are copied so far: those met last in the state. -/
def argument (past : List (DisectorParser × Byte)) (st : DisectorState) : Nat :=
  (past.rtakeWhile fun x => x.1.state = st).length

/-- An argument that is copied has at most as many bytes as the arrays, and at
least one when its line ends. -/
def ArgumentFits (past : List (DisectorParser × Byte)) (x : DisectorParser × Byte) : Prop :=
  x.1.state.copies = true →
    if x.2 = 0x0a then 0 < argument past x.1.state else argument past x.1.state < disectorFieldSize

def MetInside (x : DisectorParser × Byte) : Prop :=
  (∀ a ∈ x.1.access x.2, a.Inside) ∧
    (x.1.state.copies = true → x.2 ≠ 0x0a →
      (disectorParserFeed x.1 x.2).i.toNat = x.1.i.toNat + 1)

def Indexed (past : List (DisectorParser × Byte)) (p : DisectorParser) : Prop :=
  match p.state with
  | .waitPop | .response => p.i.toNat < 2
  | .user | .password => p.i.toNat < 4
  | .userCopy | .passwordCopy =>
    p.i.toNat = argument past p.state ∧ argument past p.state ≤ disectorFieldSize
  | .done | .restart | .incompatible => True

theorem argument_concat_ne {past : List (DisectorParser × Byte)} {p : DisectorParser} {c : Byte}
    {st : DisectorState} (h : p.state ≠ st) : argument (past ++ [(p, c)]) st = 0 := by
  rw [argument, List.rtakeWhile_concat_neg _ _ _ (by simpa using h)]
  rfl

theorem argument_concat_eq (past : List (DisectorParser × Byte)) (p : DisectorParser) (c : Byte) :
    argument (past ++ [(p, c)]) p.state = argument past p.state + 1 := by
  rw [argument, List.rtakeWhile_concat_pos _ _ _ (by simp), List.length_append]
  rfl

theorem indexed_user {past : List (DisectorParser × Byte)} {p : DisectorParser} (hst : p.state = .user)
    (hi : p.i = 0 ∨ p.i = 1) : Indexed past p := by
  unfold Indexed
  simp only [hst]
  rcases hi with hi | hi <;> rw [hi] <;> decide

theorem carried (b : Bool) : (if b then (1 : UInt8) else 0) = 0 ∨ (if b then (1 : UInt8) else 0) = 1 := by
  cases b <;> simp

theorem toNat_next {i : UInt8} {n : Nat} (h : i.toNat < n) (hn : n ≤ 255) : (i + 1).toNat = i.toNat + 1 := by
  rw [UInt8.toNat_add, UInt8.toNat_one]
  omega

theorem indexed_copied {past : List (DisectorParser × Byte)} {p q : DisectorParser} {c : Byte}
    (h : Indexed past p) (hst : p.state.copies = true) (hc : c ≠ 0x0a)
    (hfit : ArgumentFits past (p, c)) (hq : q.state = p.state) (hi : q.i = p.i + 1) :
    Indexed (past ++ [(p, c)]) q := by
  have hroom : argument past p.state < disectorFieldSize := by simpa [hc] using hfit hst
  have hindex : p.i.toNat = argument past p.state := by
    unfold Indexed at h
    cases hs : p.state <;> simp_all [DisectorState.copies]
  have hnext : (p.i + 1).toNat = argument past p.state + 1 := by
    rw [toNat_next (hindex ▸ hroom) (Nat.le_refl _), hindex]
  have hcount := argument_concat_eq past p c
  have hgoal : q.i.toNat = argument (past ++ [(p, c)]) q.state ∧
      argument (past ++ [(p, c)]) q.state ≤ disectorFieldSize := by
    rw [hq, hi, hnext, hcount]
    exact ⟨rfl, hroom⟩
  unfold Indexed
  rw [hq] at hgoal ⊢
  cases hs : p.state <;> simp_all [DisectorState.copies]

theorem indexed_step {past : List (DisectorParser × Byte)} {p : DisectorParser} {c : Byte}
    (h : Indexed past p) (hfit : ArgumentFits past (p, c)) :
    Indexed (past ++ [(p, c)]) (disectorStep p c) := by
  have hrestart {q : DisectorParser} (hnext : disectorParserNext p c = (q, .restart)) :
      Indexed (past ++ [(p, c)]) (disectorStep p c) := by
    rw [DisectorParser.step_restarted _ hnext]
    exact indexed_user rfl (carried _)
  have hindex := h
  unfold Indexed at hindex
  cases hst : p.state with
  | waitPop =>
    simp only [hst] at hindex
    by_cases hc : c = p.keyword 0
    · obtain ⟨accesses, heq⟩ := p.step_waitPop hst hc
      rw [heq]
      split
      · exact indexed_user rfl (.inl rfl)
      · simp only [Indexed, hst]
        omega
    · obtain ⟨accesses, heq⟩ := p.step_waitPop_other hst hc
      rw [heq]
      trivial
  | user =>
    by_cases hc : toUpper c = p.keyword 1
    · obtain ⟨accesses, heq⟩ := p.step_user hst hc
      rw [heq]
      split
      · exact ⟨(argument_concat_ne (by simp [hst])).symm, by simp [argument_concat_ne, hst]⟩
      · simp only [Indexed, hst]
        omega
    · obtain ⟨accesses, heq⟩ := p.step_user_other hst hc
      rw [heq]
      exact indexed_user rfl (carried _)
  | userCopy =>
    by_cases hc : c = 0x0a
    · subst hc
      obtain ⟨accesses, heq⟩ := p.step_userCopy_lf hst
      rw [heq]
      show (0 : UInt8).toNat < 4
      decide
    · obtain ⟨accesses, heq⟩ := p.step_userCopy hst hc
      rw [heq]
      exact indexed_copied h (by simp [hst, DisectorState.copies]) hc hfit rfl rfl
  | password =>
    by_cases hc : toUpper c = p.keyword 2
    · obtain ⟨accesses, heq⟩ := p.step_password hst hc
      rw [heq]
      split
      · exact ⟨(argument_concat_ne (by simp [hst])).symm, by simp [argument_concat_ne, hst]⟩
      · simp only [Indexed, hst]
        omega
    · obtain ⟨accesses, hnext⟩ := DisectorParser.password_failed hst hc
      exact hrestart hnext
  | passwordCopy =>
    by_cases hc : c = 0x0a
    · subst hc
      obtain ⟨accesses, heq⟩ := p.step_passwordCopy_lf hst
      rw [heq]
      show (0 : UInt8).toNat < 2
      decide
    · obtain ⟨accesses, heq⟩ := p.step_passwordCopy hst hc
      rw [heq]
      exact indexed_copied h (by simp [hst, DisectorState.copies]) hc hfit rfl rfl
  | response =>
    by_cases hc : c = p.keyword 3
    · obtain ⟨accesses, heq⟩ := p.step_response hst hc
      rw [heq]
      split
      · trivial
      · simp only [Indexed, hst]
        omega
    · obtain ⟨accesses, heq⟩ := p.step_response_other hst hc
      rw [heq]
      exact indexed_user rfl (carried _)
  | done =>
    rw [p.step_done hst]
    simp [Indexed, hst]
  | restart => exact hrestart (by rw [disectorParserNext, hst])
  | incompatible => exact hrestart (by rw [disectorParserNext, hst])

theorem feed_copies {p : DisectorParser} {c : Byte} (hst : p.state.copies = true) (hc : c ≠ 0x0a) :
    (disectorParserFeed p c).i = p.i + 1 := by
  unfold disectorParserFeed disectorParserNext
  cases hs : p.state with
  | userCopy => simp [Disector.userCopy, hc, DisectorParser.storeUser, DisectorParser.touch,
      DisectorParser.next]
  | passwordCopy => simp [Disector.passwordCopy, hc, DisectorParser.storePass,
      DisectorParser.touch, DisectorParser.next]
  | _ =>
    rw [hs] at hst
    cases hst

/-- A byte of an argument is stored inside, and counted, if and only if the
argument fits. -/
theorem copied_inside_iff {i : UInt8} {n : Nat} (hi : i.toNat = n) (hn : n ≤ disectorFieldSize)
    (c : Byte) :
    (if c = 0x0a then 0 < n else n < disectorFieldSize) ↔
      (0 ≤ (if c = 0x0a then (i.toNat : Int) - 1 else i.toNat) ∧
        (if c = 0x0a then (i.toNat : Int) - 1 else i.toNat) < disectorFieldSize) ∧
      (c ≠ 0x0a → (i + 1).toNat = i.toNat + 1) := by
  rw [UInt8.toNat_add, UInt8.toNat_one, hi]
  unfold disectorFieldSize at hn ⊢
  by_cases hc : c = 0x0a
  · simp only [hc, ↓reduceIte, ne_eq, not_true_eq_false, false_implies, and_true]
    omega
  · simp only [hc, ↓reduceIte, ne_eq, not_false_eq_true, forall_const]
    omega

/-- A parser whose index is in order meets a byte inside if and only if the
argument fits. -/
theorem metInside_iff {past : List (DisectorParser × Byte)} {x : DisectorParser × Byte}
    (h : Indexed past x.1) : ArgumentFits past x ↔ MetInside x := by
  obtain ⟨p, c⟩ := x
  have hfeed : p.state.copies = true → c ≠ 0x0a → (disectorParserFeed p c).i = p.i + 1 :=
    feed_copies
  unfold Indexed at h
  unfold ArgumentFits MetInside DisectorParser.access
  cases hst : p.state with
  | userCopy | passwordCopy =>
    simp only [hst] at h hfeed
    have hiff := copied_inside_iff h.1 h.2 c
    simp only [DisectorState.copies, forall_const, Option.mem_def, Option.some.injEq, forall_eq',
      DisectorAccess.Inside]
    rw [hiff]
    refine and_congr_right fun _ => forall_congr' fun hc => ?_
    rw [hfeed rfl hc]
  | waitPop | user | password | response =>
    simp only [hst] at h
    simp only [DisectorState.copies, Bool.false_eq_true, false_implies, true_iff, and_true,
      Option.mem_def, Option.some.injEq, forall_eq', DisectorAccess.Inside, search,
      List.length_cons, List.length_nil]
    omega
  | done | restart | incompatible => simp [DisectorState.copies]

-- ---------------------------------------------------------------------------
-- Whole runs
-- ---------------------------------------------------------------------------

theorem disectorFed_indexed (past : List (DisectorParser × Byte)) {p : DisectorParser}
    (hpast : Justified (fun past x => Justified ArgumentFits past → Indexed past x.1) past)
    (h : Justified ArgumentFits past → Indexed past p) (chunks : List (List Byte)) :
    Justified (fun past x => Justified ArgumentFits past → Indexed past x.1)
      (past ++ disectorFed p chunks) := by
  induction chunks generalizing past p with
  | nil => rwa [disectorFed, List.append_nil]
  | cons bytes chunks ih =>
    rw [disectorFed]
    by_cases hi : p.state = .incompatible
    · rw [if_pos hi, List.nil_append, disectorCall, if_pos hi]
      exact ih _ hpast h
    · obtain ⟨hfed, hlast⟩ := disector.fed_justified
        (I := fun past p => Justified ArgumentFits past → Indexed past p)
        (fun past p c hp hall => indexed_step (hp (Lib.justified_concat_iff.mp hall).1)
          (Lib.justified_concat_iff.mp hall).2) hpast h bytes
      rw [if_neg hi, ← List.append_assoc]
      refine ih _ hfed fun hall => ?_
      rw [disectorCall_eq hi]
      split
      · exact indexed_user rfl (carried _)
      · exact hlast hall

/-- The disector stays inside its arrays: for every sequence of chunks, all accesses
are inside and the index never wraps while an argument is copied, if and only if
every argument that is copied fits. -/
theorem disector_inside_iff (chunks : List (List Byte)) :
    ((∀ a ∈ (disectorCalls disectorParserInit chunks).accesses, a.Inside) ∧
      ∀ x ∈ disectorFed disectorParserInit chunks, x.1.state.copies = true → x.2 ≠ 0x0a →
        (disectorParserFeed x.1 x.2).i.toNat = x.1.i.toNat + 1) ↔
      Justified ArgumentFits (disectorFed disectorParserInit chunks) := by
  have hindexed := disectorFed_indexed [] (p := disectorParserInit) Lib.justified_nil
    (fun _ => by show (0 : UInt8).toNat < 2; decide) chunks
  rw [List.nil_append] at hindexed
  rw [Lib.justified_congr (Q := fun _ x => MetInside x)
    fun past x rest heq hall => metInside_iff (hindexed past x rest heq hall)]
  have hall : Justified (fun _ x => MetInside x) (disectorFed disectorParserInit chunks) ↔
      ∀ x ∈ disectorFed disectorParserInit chunks, MetInside x := by
    refine ⟨fun h x hx => ?_, fun h past x rest heq => h x (by simp [heq])⟩
    obtain ⟨past, rest, heq⟩ := List.append_of_mem hx
    exact h past x rest heq
  rw [hall, disectorCalls_accesses]
  simp only [MetInside, disectorParserInit, List.nil_append, List.mem_flatMap, Option.mem_toList]
  constructor
  · exact fun h x hx => ⟨fun a ha => h.1 a ⟨x, hx, ha⟩, h.2 x hx⟩
  · exact fun h => ⟨fun a ⟨x, hx, ha⟩ => (h x hx).1 a ha, fun x hx => (h x hx).2⟩

/-- The greeting "+OK" of the origin and the command "USER" of the client, which has
no argument: the byte before `user` is overwritten. -/
theorem disector_stores_outside :
    ∃ a ∈ (disectorCalls disectorParserInit
      [[0x2b, 0x4f, 0x4b, 0x0d, 0x0a], [0x55, 0x53, 0x45, 0x52, 0x0a]]).accesses, ¬ a.Inside := by
  decide

end Socks5d
