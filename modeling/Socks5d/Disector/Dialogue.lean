import Socks5d.Disector.Chunks

/-!
# The login of a POP3 client, as the disector sees it

`remaining_is_done` takes one from the length of each keyword, so USER and PASS
are found one byte early and the blank after them is copied with the argument.
In a whole login (`Dialogue`), however its lines are cut into chunks, the
disector reports nothing or a password that starts with that blank.
-/

namespace Socks5d

inductive Feeds (sender : Side) : DisectorParser → List Byte → DisectorParser → Prop
  | nil (p : DisectorParser) : Feeds sender p [] p
  | cons {p p' : DisectorParser} {c : Byte} {bytes : List Byte}
      (hears : p.state.hears = some sender) (quiet : (disectorStep p c).state ≠ .done)
      (compatible : (disectorStep p c).state ≠ .incompatible)
      (rest : Feeds sender (disectorStep p c) bytes p') : Feeds sender p (c :: bytes) p'

namespace Feeds

variable {sender : Side} {p p' p'' : DisectorParser} {bytes bytes' : List Byte}

theorem append (h : Feeds sender p bytes p') (h' : Feeds sender p' bytes' p'') :
    Feeds sender p (bytes ++ bytes') p'' := by
  induction h with
  | nil => exact h'
  | cons hears quiet compatible _ ih => exact .cons hears quiet compatible (ih h')

theorem split (h : Feeds sender p (bytes ++ bytes') p'') :
    ∃ p', Feeds sender p bytes p' ∧ Feeds sender p' bytes' p'' := by
  induction bytes generalizing p with
  | nil => exact ⟨p, .nil p, h⟩
  | cons c bytes ih =>
    cases h with
    | cons hears quiet compatible rest =>
      obtain ⟨p', hfirst, hrest⟩ := ih rest
      exact ⟨p', .cons hears quiet compatible hfirst, hrest⟩

theorem consume (h : Feeds sender p bytes p') : (disector.consume p bytes).1 = p' := by
  induction h with
  | nil => rfl
  | cons hears quiet compatible _ ih =>
    rw [Lib.Machine.consume_cons_more]
    · exact ih
    · simpa [disector] using compatible

theorem quiet_end (h : Feeds sender p bytes p') (hp : p.state ≠ .done) : p'.state ≠ .done := by
  induction h with
  | nil => exact hp
  | cons hears quiet compatible _ ih => exact ih quiet

theorem sniff (h : Feeds sender p bytes p') (reports : List (List Byte × List Byte)) :
    (Sniffer.mk p reports).sniff ⟨sender, bytes⟩ = ⟨p', reports⟩ := by
  by_cases hears : p.state.hears = some sender
  · have hp : p.state ≠ .done := fun hd => by simp [hd, DisectorState.hears] at hears
    rw [Sniffer.sniff_heard hears, h.consume]
    rw [h.consume]
    exact h.quiet_end hp
  · rw [Sniffer.sniff_deaf hears]
    cases h with
    | nil => rfl
    | cons hears' => exact absurd hears' hears

theorem sniffAll {cuts : List (List Byte)} (h : Feeds sender p cuts.flatten p')
    (reports : List (List Byte × List Byte)) :
    (Sniffer.mk p reports).sniffAll (cuts.map (Chunk.mk sender)) = ⟨p', reports⟩ := by
  induction cuts generalizing p with
  | nil =>
    cases h
    rfl
  | cons cut cuts ih =>
    obtain ⟨q, hcut, hrest⟩ := h.split
    rw [List.map_cons, Sniffer.sniffAll_cons, hcut.sniff]
    exact ih hrest

end Feeds

theorem Sniffer.sniffAll_first {cuts : List (List Byte)} {c : Byte} {rest : List Byte}
    (h : cuts.flatten = c :: rest) (s : Sniffer) (sender : Side) :
    ∃ (bytes : List Byte) (cuts' : List (List Byte)), bytes ++ cuts'.flatten = rest ∧
      s.sniffAll (cuts.map (Chunk.mk sender)) =
        (s.sniff ⟨sender, c :: bytes⟩).sniffAll (cuts'.map (Chunk.mk sender)) := by
  induction cuts with
  | nil => cases h
  | cons cut cuts ih =>
    cases cut with
    | nil =>
      obtain ⟨bytes, cuts', hrest, heq⟩ := ih h
      refine ⟨bytes, cuts', hrest, ?_⟩
      rw [List.map_cons, sniffAll_cons, (Feeds.nil s.p).sniff, heq]
    | cons b bytes =>
      simp only [List.flatten_cons, List.cons_append, List.cons.injEq] at h
      obtain ⟨rfl, hrest⟩ := h
      exact ⟨bytes, cuts, hrest, rfl⟩

theorem Sniffer.sniff_cons {p : DisectorParser} {sender : Side} {c : Byte}
    (hears : p.state.hears = some sender) (hears' : (disectorStep p c).state.hears = some sender)
    (bytes : List Byte) (reports : List (List Byte × List Byte)) :
    (Sniffer.mk p reports).sniff ⟨sender, c :: bytes⟩ =
      (Sniffer.mk (disectorStep p c) reports).sniff ⟨sender, bytes⟩ := by
  have hmore : disector.done (disector.feed p c) = false := by
    by_contra hd
    have hst : (disectorStep p c).state = .incompatible := by simpa [disector] using hd
    simp [hst, DisectorState.hears] at hears'
  have hconsume : (disector.consume p (c :: bytes)).1 = (disector.consume (disectorStep p c) bytes).1 := by
    rw [Lib.Machine.consume_cons_more _ hmore]
    rfl
  by_cases hdone : (disector.consume (disectorStep p c) bytes).1.state = .done
  · rw [sniff_done (by exact hears) (by rwa [hconsume]), sniff_done (by exact hears') (by exact hdone)]
    simp only [hconsume]
  · rw [sniff_heard (by exact hears) (by rwa [hconsume]), sniff_heard (by exact hears') (by exact hdone)]
    simp only [hconsume]

theorem Sniffer.sniffAll_deaf {s : Sniffer} {sender : Side} (h : s.p.state.hears ≠ some sender)
    (cuts : List (List Byte)) : s.sniffAll (cuts.map (Chunk.mk sender)) = s := by
  induction cuts with
  | nil => rfl
  | cons cut cuts ih => rw [List.map_cons, sniffAll_cons, sniff_deaf h, ih]

-- ---------------------------------------------------------------------------
-- Lines
-- ---------------------------------------------------------------------------

namespace DisectorParser

variable {p : DisectorParser} {c : Byte}

structure Searching (p : DisectorParser) : Prop where
  state : p.state = .user ∨ p.state = .userCopy
  carry : p.userCarry = false
  size : p.pass.length = disectorFieldSize

/-- The start of a line: of the one after USER, or of one to look for USER in. -/
structure AtLine (p : DisectorParser) : Prop where
  state : p.state = .user ∨ p.state = .password
  i : p.i = 0
  carry : p.userCarry = false
  size : p.pass.length = disectorFieldSize

theorem Searching.hears (h : p.Searching) : p.state.hears = some .client := by
  rcases h.state with hst | hst <;> rw [hst] <;> rfl

theorem AtLine.hears (h : p.AtLine) : p.state.hears = some .client := by
  rcases h.state with hst | hst <;> rw [hst] <;> rfl

theorem Searching.step (h : p.Searching) (hc : c ≠ 0x0a) : (disectorStep p c).Searching := by
  rcases h.state with hst | hst
  · by_cases hm : toUpper c = p.keyword 1
    · obtain ⟨accesses, heq⟩ := step_user hst hm
      rw [heq]
      split
      · exact ⟨.inr rfl, h.carry, h.size⟩
      · exact ⟨.inl hst, h.carry, h.size⟩
    · obtain ⟨accesses, heq⟩ := step_user_other hst hm
      rw [heq]
      exact ⟨.inl rfl, rfl, h.size⟩
  · obtain ⟨accesses, heq⟩ := step_userCopy hst hc
    rw [heq]
    exact ⟨.inr hst, h.carry, h.size⟩

theorem Searching.step_lf (h : p.Searching) : (disectorStep p 0x0a).AtLine := by
  rcases h.state with hst | hst
  · obtain ⟨accesses, heq⟩ := step_user_other (c := 0x0a) hst (p.keyword_ne 1).symm
    rw [heq]
    exact ⟨.inl rfl, by simp [h.carry], rfl, h.size⟩
  · obtain ⟨accesses, heq⟩ := step_userCopy_lf hst
    rw [heq]
    exact ⟨.inr rfl, rfl, h.carry, h.size⟩

theorem AtLine.step_u (h : p.AtLine) (hc : toUpper c = 0x55) : (disectorStep p c).Searching := by
  rcases h.state with hst | hst
  · refine Searching.step ⟨.inl hst, h.carry, h.size⟩ ?_
    rintro rfl
    exact absurd hc (by decide)
  · have hm : toUpper c ≠ p.keyword 2 := by
      rw [hc, keyword, h.i]
      decide
    obtain ⟨accesses, heq⟩ := step_password_other hst hm h.carry
    rw [heq]
    exact ⟨.inl rfl, h.carry, h.size⟩

theorem Searching.states (h : p.Searching) : p.state ≠ .done ∧ p.state ≠ .incompatible := by
  rcases h.state with hst | hst <;> simp [hst]

theorem AtLine.states (h : p.AtLine) : p.state ≠ .done ∧ p.state ≠ .incompatible := by
  rcases h.state with hst | hst <;> simp [hst]

theorem Searching.feeds (h : p.Searching) {bytes : List Byte} (hb : (0x0a : Byte) ∉ bytes) :
    ∃ p', Feeds .client p bytes p' ∧ p'.Searching := by
  induction bytes generalizing p with
  | nil => exact ⟨p, .nil p, h⟩
  | cons c bytes ih =>
    have hstep := h.step (c := c) fun hc => hb (hc ▸ List.mem_cons_self)
    obtain ⟨p', hfeeds, hp'⟩ := ih hstep fun hmem => hb (List.mem_cons_of_mem _ hmem)
    exact ⟨p', .cons h.hears hstep.states.1 hstep.states.2 hfeeds, hp'⟩

theorem Searching.feeds_line (h : p.Searching) {bytes : List Byte} (hb : (0x0a : Byte) ∉ bytes) :
    ∃ p', Feeds .client p (bytes ++ [0x0a]) p' ∧ p'.AtLine := by
  obtain ⟨q, hfeeds, hq⟩ := h.feeds hb
  have hstep := hq.step_lf
  exact ⟨_, hfeeds.append (.cons hq.hears hstep.states.1 hstep.states.2 (.nil _)), hstep⟩

theorem AtLine.feeds_line (h : p.AtLine) (hc : toUpper c = 0x55) {bytes : List Byte}
    (hb : (0x0a : Byte) ∉ bytes) : ∃ p', Feeds .client p (c :: (bytes ++ [0x0a])) p' ∧ p'.AtLine := by
  have hstep := h.step_u hc
  obtain ⟨p', hfeeds, hp'⟩ := hstep.feeds_line hb
  exact ⟨p', .cons h.hears hstep.states.1 hstep.states.2 hfeeds, hp'⟩

/-- Any part of a line that comes first leaves the disector in it or after it. -/
theorem Searching.consume_line (h : p.Searching) {bytes more line : List Byte}
    (hb : (0x0a : Byte) ∉ line) (hbytes : bytes ++ more = line ++ [0x0a]) :
    (disector.consume p bytes).1.Searching ∨ (disector.consume p bytes).1.AtLine := by
  rcases List.append_eq_append_iff.mp hbytes with ⟨rest, hline, -⟩ | ⟨rest, rfl, hlf⟩
  · -- the end of the line is not among the bytes
    have hno : (0x0a : Byte) ∉ bytes := fun hmem => hb (hline ▸ List.mem_append_left _ hmem)
    obtain ⟨p', hfeeds, hp'⟩ := h.feeds hno
    exact .inl (hfeeds.consume ▸ hp')
  · rcases List.singleton_eq_append_iff.mp hlf with ⟨rfl, -⟩ | ⟨rfl, -⟩
    · rw [List.append_nil]
      obtain ⟨p', hfeeds, hp'⟩ := h.feeds hb
      exact .inl (hfeeds.consume ▸ hp')
    · obtain ⟨p', hfeeds, hp'⟩ := h.feeds_line hb
      exact .inr (hfeeds.consume ▸ hp')

-- ---------------------------------------------------------------------------
-- The password
-- ---------------------------------------------------------------------------

structure Copying (p : DisectorParser) (copied : List Byte) : Prop where
  state : p.state = .passwordCopy
  i : p.i.toNat = copied.length
  copied : p.pass.take copied.length = copied
  size : p.pass.length = disectorFieldSize

structure Waiting (p : DisectorParser) (pass : List Byte) : Prop where
  state : p.state = .response
  i : p.i = 0
  carry : p.userCarry = false
  pass : cstr p.pass = pass

theorem feeds_pass (hst : p.state = .password) {keyword : List Byte} (hne : keyword ≠ [])
    (hk : keyword.map toUpper = ([0x50, 0x41, 0x53, 0x53] : List Byte).drop p.i.toNat) :
    ∃ p', Feeds .client p keyword p' ∧ p'.state = .passwordCopy ∧ p'.i = 0 ∧ p'.pass = p.pass ∧
      p'.userCarry = p.userCarry := by
  induction keyword generalizing p with
  | nil => exact absurd rfl hne
  | cons c rest ih =>
    have hlen : rest.length + 1 = 4 - p.i.toNat := by simpa using congrArg List.length hk
    have hhead : toUpper c = p.keyword 2 := by
      have hget := congrArg (·[0]?) hk
      simp only [List.map_cons, List.getElem?_cons_zero, List.getElem?_drop, Nat.add_zero] at hget
      rw [keyword, List.getD, show search 2 = [0x50, 0x41, 0x53, 0x53] ++ [0x20] from rfl,
        List.getElem?_append_left (List.getElem?_eq_some_iff.mp hget.symm).1, ← hget]
      rfl
    have hnext : (p.i + 1).toNat = p.i.toNat + 1 := by
      rw [UInt8.toNat_add, show (1 : UInt8).toNat = 1 from rfl]
      omega
    obtain ⟨accesses, heq⟩ := step_password hst hhead
    by_cases hend : rest = []
    · subst hend
      rw [if_pos (by rw [hnext]; simp at hlen; omega)] at heq
      refine ⟨_, .cons (by rw [hst]; rfl) (by simp [heq]) (by simp [heq]) (.nil _), ?_⟩
      rw [heq]
      exact ⟨rfl, rfl, rfl, rfl⟩
    · have hpos : 0 < rest.length := List.length_pos_iff.mpr hend
      rw [if_neg (by rw [hnext]; omega)] at heq
      have hst' : (disectorStep p c).state = .password := by rw [heq]; exact hst
      obtain ⟨p', hfeeds, hstate, hi, hpass, hcarry⟩ := ih hst' hend (by
        rw [heq]
        simp only [hnext]
        simpa using congrArg (List.drop 1) hk)
      refine ⟨p', .cons (by rw [hst]; rfl) (by simp [hst']) (by simp [hst']) hfeeds, hstate, hi, ?_, ?_⟩
      · rw [hpass, heq]
      · rw [hcarry, heq]

theorem Copying.step {copied : List Byte} (h : p.Copying copied) (hc : c ≠ 0x0a)
    (hlen : copied.length < disectorFieldSize) :
    (disectorStep p c).Copying (copied ++ [c]) ∧ (disectorStep p c).userCarry = p.userCarry := by
  obtain ⟨accesses, heq⟩ := step_passwordCopy h.state hc
  have hlt : p.i.toNat < p.pass.length := by rw [h.i, h.size]; exact hlen
  rw [heq]
  refine ⟨⟨h.state, ?_, ?_, ?_⟩, rfl⟩
  · have hsize : disectorFieldSize = 255 := rfl
    simp only [UInt8.toNat_add, h.i, List.length_append, List.length_singleton, UInt8.reduceToNat]
    omega
  · rw [List.length_append, List.length_singleton, ← h.i, List.take_add_one,
      List.take_set_of_le (Nat.le_refl _),
      List.getElem?_set_self hlt, h.i, h.copied]
    rfl
  · rw [List.length_set]
    exact h.size

theorem Copying.feeds {copied bytes : List Byte} (h : p.Copying copied)
    (hb : (0x0a : Byte) ∉ bytes) (hlen : copied.length + bytes.length ≤ disectorFieldSize) :
    ∃ p', Feeds .client p bytes p' ∧ p'.Copying (copied ++ bytes) ∧ p'.userCarry = p.userCarry := by
  induction bytes generalizing p copied with
  | nil => exact ⟨p, .nil p, by rwa [List.append_nil], rfl⟩
  | cons c bytes ih =>
    rw [List.length_cons] at hlen
    obtain ⟨hstep, hcarry⟩ := h.step (c := c) (fun hc => hb (hc ▸ List.mem_cons_self)) (by omega)
    obtain ⟨p', hfeeds, hp', hcarry'⟩ := ih hstep (fun hmem => hb (List.mem_cons_of_mem _ hmem))
      (by rw [List.length_append, List.length_singleton]; omega)
    refine ⟨p', .cons (by rw [h.state]; rfl) (by simp [hstep.state]) (by simp [hstep.state]) hfeeds, ?_,
      hcarry'.trans hcarry⟩
    rwa [List.append_assoc, List.singleton_append] at hp'

theorem Copying.step_lf {copied : List Byte} (h : p.Copying (copied ++ [c]))
    (hcarry : p.userCarry = false) (hzero : (0 : Byte) ∉ copied) :
    (disectorStep p 0x0a).Waiting copied := by
  obtain ⟨accesses, heq⟩ := step_passwordCopy_lf h.state
  have hi := h.i
  have hcopied := h.copied
  rw [List.length_append, List.length_singleton] at hi hcopied
  have hne : p.i ≠ 0 := fun hz => by simp [hz] at hi
  have htake : p.pass.take copied.length = copied := by
    have hcut := congrArg (List.take copied.length) hcopied
    rwa [List.take_take, List.take_append_of_le_length (Nat.le_refl _),
      List.take_of_length_le (Nat.le_refl _),
      Nat.min_eq_left (Nat.le_succ _)] at hcut
  rw [heq, if_neg hne]
  refine ⟨rfl, rfl, hcarry, ?_⟩
  have hlt : copied.length < p.pass.length := by
    have hle := congrArg List.length hcopied
    rw [List.length_take, List.length_append, List.length_singleton] at hle
    omega
  rw [hi, Nat.add_sub_cancel, List.set_eq_take_append_cons_drop, if_pos hlt, htake, cstr_append hzero,
    cstr_zero, List.append_nil]

theorem AtLine.feeds_pass_line (h : p.AtLine) (hst : p.state = .password) {keyword pass : List Byte}
    (hk : keyword.map toUpper = [0x50, 0x41, 0x53, 0x53]) (hzero : (0 : Byte) ∉ pass)
    (hlf : (0x0a : Byte) ∉ pass) (hlen : pass.length ≤ 253) :
    ∃ p', Feeds .client p (keyword ++ 0x20 :: (pass ++ [0x0d, 0x0a])) p' ∧
      p'.Waiting (0x20 :: pass) := by
  have hne : keyword ≠ [] := by
    rintro rfl
    cases hk
  obtain ⟨p₁, hfeeds₁, hst₁, hi₁, hpass₁, hcarry₁⟩ := feeds_pass hst hne (by rw [hk, h.i]; rfl)
  have hcopying₁ : p₁.Copying [] := ⟨hst₁, by rw [hi₁]; rfl, rfl, hpass₁ ▸ h.size⟩
  have hline : (0x0a : Byte) ∉ 0x20 :: (pass ++ [0x0d]) := by simp [hlf]
  obtain ⟨p₂, hfeeds₂, hcopying₂, hcarry₂⟩ := hcopying₁.feeds hline (by
    simp only [List.length_nil, List.length_cons, List.length_append, disectorFieldSize]
    omega)
  have hcopied : p₂.Copying ((0x20 :: pass) ++ [0x0d]) := hcopying₂
  have hwaiting := hcopied.step_lf (hcarry₂.trans (hcarry₁.trans h.carry))
    (List.not_mem_cons_of_ne_of_not_mem (by decide) hzero)
  refine ⟨_, ?_, hwaiting⟩
  have hall := hfeeds₁.append (hfeeds₂.append (.cons (by rw [hcopying₂.state]; rfl)
    (by simp [hwaiting.state]) (by simp [hwaiting.state]) (.nil (disectorStep p₂ 0x0a))))
  simpa using hall

end DisectorParser

-- ---------------------------------------------------------------------------
-- The lines of the server
-- ---------------------------------------------------------------------------

section Server

variable {p : DisectorParser} {cuts : List (List Byte)} {text : List Byte}
  {reports : List (List Byte × List Byte)}

theorem greeting_matched (hst : p.state = .waitPop) (hi : p.i = 1) (hcarry : p.userCarry = false)
    (hsize : p.pass.length = disectorFieldSize) (hlf : (0x0a : Byte) ∉ text)
    (hcuts : cuts.flatten = 0x4f :: (text ++ [0x0a])) :
    ∃ p', (Sniffer.mk p reports).sniffAll (cuts.map (Chunk.mk .origin)) = ⟨p', reports⟩ ∧
      (p'.Searching ∨ p'.AtLine) := by
  obtain ⟨bytes, rest, hrest, hfirst⟩ := Sniffer.sniffAll_first hcuts (Sniffer.mk p reports) .origin
  rw [hfirst]
  -- the state changes here, but the rest of this chunk is shown to the disector too
  obtain ⟨accesses, heq⟩ := DisectorParser.step_waitPop (c := 0x4f) hst
    (by rw [DisectorParser.keyword, hi]; rfl)
  rw [hi, if_pos (by decide)] at heq
  have hsearching : (disectorStep p 0x4f).Searching := by
    rw [heq]
    exact ⟨.inl rfl, hcarry, hsize⟩
  have hmore : disector.done (disector.feed p 0x4f) = false := by
    simpa [disector] using hsearching.states.2
  have hline := hsearching.consume_line hlf hrest
  have hconsume := congrArg Prod.fst (Lib.Machine.consume_cons_more disector hmore bytes)
  have hquiet : (disector.consume (disectorStep p 0x4f) bytes).1.state ≠ .done :=
    hline.elim (fun h => h.states.1) fun h => h.states.1
  have hears : (disector.consume (disectorStep p 0x4f) bytes).1.state.hears ≠ some .origin := by
    rw [hline.elim (fun h => h.hears) fun h => h.hears]
    decide
  rw [Sniffer.sniff_heard (by rw [hst]; rfl) (by rw [hconsume]; exact hquiet), hconsume,
    Sniffer.sniffAll_deaf (by exact hears)]
  exact ⟨_, rfl, hline⟩

theorem greeting_sniffed (hst : p.state = .waitPop) (hi : p.i = 0) (hcarry : p.userCarry = false)
    (hsize : p.pass.length = disectorFieldSize) (hlf : (0x0a : Byte) ∉ text)
    (hcuts : cuts.flatten = 0x2b :: 0x4f :: (text ++ [0x0a])) :
    ∃ p', (Sniffer.mk p reports).sniffAll (cuts.map (Chunk.mk .origin)) = ⟨p', reports⟩ ∧
      (p'.Searching ∨ p'.AtLine) := by
  obtain ⟨bytes, rest, hrest, hfirst⟩ := Sniffer.sniffAll_first hcuts (Sniffer.mk p reports) .origin
  rw [hfirst]
  obtain ⟨accesses, heq⟩ := DisectorParser.step_waitPop (c := 0x2b) hst
    (by rw [DisectorParser.keyword, hi]; rfl)
  rw [hi, if_neg (by decide)] at heq
  have hst' : (disectorStep p 0x2b).state = .waitPop := by
    rw [heq]
    exact hst
  have hcuts' : (bytes :: rest).flatten = 0x4f :: (text ++ [0x0a]) := hrest
  rw [Sniffer.sniff_cons (by rw [hst]; rfl) (by rw [hst']; rfl), ← Sniffer.sniffAll_cons,
    ← List.map_cons]
  exact greeting_matched hst' (by rw [heq]; rfl) (by rw [heq]; exact hcarry)
    (by rw [heq]; exact hsize) hlf hcuts'

theorem consume_done (hst : p.state = .done) (bytes : List Byte) :
    (disector.consume p bytes).1 = p := by
  induction bytes with
  | nil => rfl
  | cons c bytes ih =>
    have hfeed : disector.feed p c = p := DisectorParser.step_done hst
    rw [Lib.Machine.consume_cons_more disector (by rw [hfeed]; simp [disector, hst]), hfeed, ih]

theorem answer_matched (hst : p.state = .response) (hi : p.i = 1)
    (hcuts : cuts.flatten = 0x4f :: text) :
    ((Sniffer.mk p reports).sniffAll (cuts.map (Chunk.mk .origin))).reports =
      reports ++ [(cstr (p.user ++ p.pass), cstr p.pass)] := by
  obtain ⟨bytes, rest, hrest, hfirst⟩ := Sniffer.sniffAll_first hcuts (Sniffer.mk p reports) .origin
  rw [hfirst]
  obtain ⟨accesses, heq⟩ := DisectorParser.step_response (c := 0x4f) hst
    (by rw [DisectorParser.keyword, hi]; rfl)
  rw [hi, if_pos (by decide)] at heq
  have hdone : (disectorStep p 0x4f).state = .done := by rw [heq]
  have hmore : disector.done (disector.feed p 0x4f) = false := by
    simp [disector, hdone]
  have hconsume : (disector.consume p (0x4f :: bytes)).1 = disectorStep p 0x4f :=
    (congrArg Prod.fst (Lib.Machine.consume_cons_more disector hmore bytes)).trans
      (consume_done hdone bytes)
  rw [Sniffer.sniff_done (by rw [hst]; rfl) (by rw [hconsume]; exact hdone), hconsume,
    Sniffer.sniffAll_deaf (by simp [disectorParserReset, DisectorState.hears]), heq]

theorem answer_sniffed {pass : List Byte} (h : p.Waiting pass)
    (hcuts : cuts.flatten = 0x2b :: 0x4f :: text) :
    ((Sniffer.mk p reports).sniffAll (cuts.map (Chunk.mk .origin))).reports =
      reports ++ [(cstr (p.user ++ p.pass), pass)] := by
  obtain ⟨bytes, rest, hrest, hfirst⟩ := Sniffer.sniffAll_first hcuts (Sniffer.mk p reports) .origin
  rw [hfirst]
  obtain ⟨accesses, heq⟩ := DisectorParser.step_response (c := 0x2b) h.state
    (by rw [DisectorParser.keyword, h.i]; rfl)
  rw [h.i, if_neg (by decide)] at heq
  have hst' : (disectorStep p 0x2b).state = .response := by
    rw [heq]
    exact h.state
  have hcuts' : (bytes :: rest).flatten = 0x4f :: text := hrest
  rw [Sniffer.sniff_cons (by rw [h.state]; rfl) (by rw [hst']; rfl), ← Sniffer.sniffAll_cons,
    ← List.map_cons, answer_matched hst' (by rw [heq]; rfl) hcuts', ← h.pass, heq]

end Server

-- ---------------------------------------------------------------------------
-- The whole login
-- ---------------------------------------------------------------------------

structure Argument (bytes : List Byte) : Prop where
  length : 1 ≤ bytes.length ∧ bytes.length ≤ 253
  clean : ∀ c ∈ bytes, c ≠ 0 ∧ c ≠ 0x0d ∧ c ≠ 0x0a

def okLine (text : List Byte) : List Byte := search 0 ++ text ++ [0x0d, 0x0a]

def commandLine (keyword argument : List Byte) : List Byte :=
  keyword ++ 0x20 :: (argument ++ [0x0d, 0x0a])

abbrev Cuts (line : List Byte) : Type := { cuts : List (List Byte) // cuts.flatten = line }

/-- A login: the greeting, the two commands and their answers, one after the
other. The keywords may have any letter case. -/
structure Dialogue where
  user : List Byte
  pass : List Byte
  userOk : Argument user
  passOk : Argument pass
  userKeyword : List Byte
  passKeyword : List Byte
  userLetters : userKeyword.map toUpper = [0x55, 0x53, 0x45, 0x52]
  passLetters : passKeyword.map toUpper = [0x50, 0x41, 0x53, 0x53]
  /-- What follows "+OK" in the lines of the server. -/
  greeting : List Byte
  userAnswer : List Byte
  passAnswer : List Byte
  oneLine : (0x0a : Byte) ∉ greeting ∧ (0x0a : Byte) ∉ userAnswer ∧ (0x0a : Byte) ∉ passAnswer
  greetingCuts : Cuts (okLine greeting)
  userCuts : Cuts (commandLine userKeyword user)
  userAnswerCuts : Cuts (okLine userAnswer)
  passCuts : Cuts (commandLine passKeyword pass)
  passAnswerCuts : Cuts (okLine passAnswer)

namespace Dialogue

def chunks (d : Dialogue) : List Chunk :=
  d.greetingCuts.val.map (Chunk.mk .origin) ++ d.userCuts.val.map (Chunk.mk .client) ++
    d.userAnswerCuts.val.map (Chunk.mk .origin) ++ d.passCuts.val.map (Chunk.mk .client) ++
    d.passAnswerCuts.val.map (Chunk.mk .origin)

def reports (d : Dialogue) : List (List Byte × List Byte) := (Sniffer.sniffAll {} d.chunks).reports

theorem user_sniffed (d : Dialogue) {p : DisectorParser} (h : p.Searching ∨ p.AtLine) :
    ∃ p', Feeds .client p d.userCuts.val.flatten p' ∧ p'.AtLine := by
  have hlf : ∀ c ∈ d.user, c ≠ 0x0a := fun c hc => (d.userOk.clean c hc).2.2
  obtain ⟨k, rest, hkeyword⟩ : ∃ k rest, d.userKeyword = k :: rest :=
    List.exists_cons_of_ne_nil fun hnil => by simpa [hnil] using d.userLetters
  have hletters := d.userLetters
  rw [hkeyword, List.map_cons, List.cons.injEq] at hletters
  have hrest : (0x0a : Byte) ∉ rest := fun hmem => by
    have hup := List.mem_map_of_mem (f := toUpper) hmem
    rw [hletters.2] at hup
    exact absurd hup (by decide)
  have hline : (0x0a : Byte) ∉ rest ++ 0x20 :: (d.user ++ [0x0d]) := by
    simp only [List.mem_append, List.mem_cons, List.not_mem_nil, or_false, not_or]
    exact ⟨hrest, by decide, fun hmem => hlf _ hmem rfl, by decide⟩
  have hcuts : d.userCuts.val.flatten = k :: ((rest ++ 0x20 :: (d.user ++ [0x0d])) ++ [0x0a]) := by
    rw [d.userCuts.property, commandLine, hkeyword]
    simp
  rw [hcuts]
  rcases h with h | h
  · refine h.feeds_line (List.not_mem_cons_of_ne_of_not_mem ?_ hline)
    rintro rfl
    exact absurd hletters.1 (by decide)
  · exact h.feeds_line hletters.1 hline

theorem reports_cases (d : Dialogue) :
    d.reports = [] ∨ ∃ user, d.reports = [(user, 0x20 :: d.pass)] := by
  have hgreeting : d.greetingCuts.val.flatten =
      0x2b :: 0x4f :: ((0x4b :: (d.greeting ++ [0x0d])) ++ [0x0a]) := by
    rw [d.greetingCuts.property]
    simp [okLine, search]
  have hlf : (0x0a : Byte) ∉ 0x4b :: (d.greeting ++ [0x0d]) := by simp [d.oneLine]
  have hzero : (0 : Byte) ∉ d.pass := fun hmem => (d.passOk.clean _ hmem).1 rfl
  have hpasslf : (0x0a : Byte) ∉ d.pass := fun hmem => (d.passOk.clean _ hmem).2.2 rfl
  obtain ⟨p₁, hs₁, hp₁⟩ := greeting_sniffed (p := disectorParserInit) rfl rfl rfl
    List.length_replicate hlf hgreeting
  obtain ⟨p₂, hfeeds₂, hp₂⟩ := d.user_sniffed hp₁
  have hdeaf {p : DisectorParser} (hp : p.AtLine) (cuts : List (List Byte)) :
      (Sniffer.mk p []).sniffAll (cuts.map (Chunk.mk .origin)) = ⟨p, []⟩ := by
    refine Sniffer.sniffAll_deaf ?_ cuts
    rw [hp.hears]
    decide
  unfold reports chunks
  rw [Sniffer.sniffAll_append, Sniffer.sniffAll_append, Sniffer.sniffAll_append,
    Sniffer.sniffAll_append, show ({} : Sniffer) = ⟨disectorParserInit, []⟩ from rfl, hs₁,
    hfeeds₂.sniffAll, hdeaf hp₂]
  rcases hp₂.state with hst | hst
  · -- no USER was found, so PASS is not looked for
    have hp₂' : p₂.Searching := ⟨.inl hst, hp₂.carry, hp₂.size⟩
    have hkeyword : (0x0a : Byte) ∉ d.passKeyword := fun hmem => by
      have hup := List.mem_map_of_mem (f := toUpper) hmem
      rw [d.passLetters] at hup
      exact absurd hup (by decide)
    have hline : (0x0a : Byte) ∉ d.passKeyword ++ 0x20 :: (d.pass ++ [0x0d]) := by
      simp only [List.mem_append, List.mem_cons, List.not_mem_nil, or_false, not_or]
      exact ⟨hkeyword, by decide, hpasslf, by decide⟩
    obtain ⟨p₃, hfeeds₃, hp₃⟩ := hp₂'.feeds_line hline
    have hcuts : d.passCuts.val.flatten =
        (d.passKeyword ++ 0x20 :: (d.pass ++ [0x0d])) ++ [0x0a] := by
      rw [d.passCuts.property, commandLine]
      simp
    rw [← hcuts] at hfeeds₃
    rw [hfeeds₃.sniffAll, hdeaf hp₃]
    exact .inl rfl
  · obtain ⟨p₃, hfeeds₃, hp₃⟩ := hp₂.feeds_pass_line hst d.passLetters hzero hpasslf
      d.passOk.length.2
    rw [← commandLine, ← d.passCuts.property] at hfeeds₃
    have hanswer : d.passAnswerCuts.val.flatten =
        0x2b :: 0x4f :: (0x4b :: (d.passAnswer ++ [0x0d, 0x0a])) := by
      rw [d.passAnswerCuts.property]
      simp [okLine, search]
    rw [hfeeds₃.sniffAll, answer_sniffed hp₃ hanswer]
    exact .inr ⟨_, rfl⟩

/-- No login is reported as it is. -/
theorem credentials_never_exact (d : Dialogue) : d.reports ≠ [(d.user, d.pass)] := by
  rcases d.reports_cases with h | ⟨user, h⟩
  · rw [h]
    exact List.cons_ne_nil _ _ |>.symm
  · rw [h]
    intro heq
    have hpass : 0x20 :: d.pass = d.pass := by
      simp only [List.cons.injEq, Prod.mk.injEq, and_true] at heq
      exact heq.2
    exact absurd (congrArg List.length hpass) (by simp)

def plain : Dialogue where
  user := [0x61]
  pass := [0x62]
  userOk := ⟨by decide, List.forall_mem_singleton.mpr (by decide)⟩
  passOk := ⟨by decide, List.forall_mem_singleton.mpr (by decide)⟩
  userKeyword := [0x55, 0x53, 0x45, 0x52]
  passKeyword := [0x50, 0x41, 0x53, 0x53]
  userLetters := by decide
  passLetters := by decide
  greeting := []
  userAnswer := []
  passAnswer := []
  oneLine := by decide
  greetingCuts := ⟨[okLine []], by decide⟩
  userCuts := ⟨[commandLine [0x55, 0x53, 0x45, 0x52] [0x61]], by decide⟩
  userAnswerCuts := ⟨[okLine []], by decide⟩
  passCuts := ⟨[commandLine [0x50, 0x41, 0x53, 0x53] [0x62]], by decide⟩
  passAnswerCuts := ⟨[okLine []], by decide⟩

/-- The user " a" and the password " b" are logged. -/
theorem plain_reported : plain.reports = [([0x20, 0x61], [0x20, 0x62])] ∧
    ¬ ∀ d : Dialogue, d.reports = [(d.user, d.pass)] := by
  have hreports : plain.reports = [([0x20, 0x61], [0x20, 0x62])] := by decide +kernel
  refine ⟨hreports, fun hall => ?_⟩
  have hplain := hall plain
  rw [hreports] at hplain
  revert hplain
  decide

end Dialogue

end Socks5d
