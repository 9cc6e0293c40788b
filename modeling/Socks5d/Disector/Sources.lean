import Socks5d.Disector.Chunks

/-!
# Where the credentials come from

`Sources` follows, beside the parser, which side sent each byte that it keeps.
The direction is chosen once for a chunk, but the state can change inside it:
the rest of a greeting is searched for USER, and what follows a PASS line is
taken for its answer. As long as no byte is kept or matched there that comes
from the wrong side (`Gated`), every report is genuine.
-/

namespace Socks5d

structure Sources where
  user : List (Option Side) := List.replicate disectorFieldSize none
  pass : List (Option Side) := List.replicate disectorFieldSize none
  answer : List Side := []

def Sources.feed (o : Sources) (p : DisectorParser) (sender : Side) (c : Byte) : Sources :=
  match p.state with
  | .userCopy => if c = 0x0a then o else { o with user := o.user.set p.i.toNat (some sender) }
  | .passwordCopy =>
    if c = 0x0a then { o with answer := [] }
    else { o with pass := o.pass.set p.i.toNat (some sender) }
  | .response => if c = p.keyword 3 then { o with answer := o.answer ++ [sender] } else o
  | _ => o

def tracing (sender : Side) : Lib.Machine (DisectorParser × Sources) Byte where
  feed s c := (disectorStep s.1 c, s.2.feed s.1 sender c)
  done s := disector.done s.1

theorem tracing_consume (sender : Side) (p : DisectorParser) (o : Sources) (bytes : List Byte) :
    ((tracing sender).consume (p, o) bytes).1.1 = (disector.consume p bytes).1 := by
  induction bytes generalizing p o with
  | nil => rfl
  | cons c bytes ih =>
    cases hd : disector.done (disector.feed p c) with
    | true =>
      rw [Lib.Machine.consume_cons_done disector hd, Lib.Machine.consume_cons_done _ (by exact hd)]
      rfl
    | false =>
      rw [Lib.Machine.consume_cons_more disector hd, Lib.Machine.consume_cons_more _ (by exact hd)]
      exact ih _ _

structure Report where
  user : List Byte
  pass : List Byte
  userFrom : List (Option Side)
  passFrom : List (Option Side)
  answerFrom : List Side
  deriving DecidableEq

/-- The user and the password were sent by the client, the answer by the
origin. -/
structure Report.Genuine (r : Report) : Prop where
  user : ∀ o ∈ r.userFrom, o = some .client
  pass : ∀ o ∈ r.passFrom, o = some .client
  answer : r.answerFrom ≠ [] ∧ ∀ d ∈ r.answerFrom, d = .origin

/-- What is logged of the two arrays; an array without a terminator is read on
into the next one. -/
def report (p : DisectorParser) (o : Sources) : Report where
  user := cstr (p.user ++ p.pass)
  pass := cstr p.pass
  userFrom := (o.user ++ o.pass).take (cstr (p.user ++ p.pass)).length
  passFrom := o.pass.take (cstr p.pass).length
  answerFrom := o.answer

structure Tracer where
  p : DisectorParser := disectorParserInit
  sources : Sources := {}
  reports : List Report := []

namespace Tracer

def sniff (t : Tracer) (chunk : Chunk) : Tracer :=
  if t.p.state.hears = some chunk.sender then
    let (p, o) := ((tracing chunk.sender).consume (t.p, t.sources) chunk.bytes).1
    if p.state = .done then ⟨disectorParserReset p, o, t.reports ++ [report p o]⟩
    else { t with p := p, sources := o }
  else t

def sniffAll (t : Tracer) (chunks : List Chunk) : Tracer := chunks.foldl sniff t

def forget (t : Tracer) : Sniffer := ⟨t.p, t.reports.map fun r => (r.user, r.pass)⟩

theorem sniff_forget (t : Tracer) (chunk : Chunk) : (t.sniff chunk).forget = t.forget.sniff chunk := by
  have hconsume := tracing_consume chunk.sender t.p t.sources chunk.bytes
  by_cases hears : t.p.state.hears = some chunk.sender
  · by_cases hdone : (disector.consume t.p chunk.bytes).1.state = .done
    · rw [Sniffer.sniff_done (by exact hears) (by exact hdone)]
      simp only [sniff, hears, hconsume, hdone, ↓reduceIte, forget, List.map_append, List.map_cons,
        List.map_nil, report]
    · rw [Sniffer.sniff_heard (by exact hears) (by exact hdone)]
      simp only [sniff, hears, hconsume, hdone, ↓reduceIte, forget]
  · rw [Sniffer.sniff_deaf (by exact hears), sniff, if_neg hears]

theorem sniffAll_forget (t : Tracer) (chunks : List Chunk) :
    (t.sniffAll chunks).forget = t.forget.sniffAll chunks := by
  induction chunks generalizing t with
  | nil => rfl
  | cons chunk chunks ih => exact (ih (t.sniff chunk)).trans (by rw [sniff_forget]; rfl)

@[simp] theorem sniffAll_append (t : Tracer) (chunks chunks' : List Chunk) :
    t.sniffAll (chunks ++ chunks') = (t.sniffAll chunks).sniffAll chunks' := List.foldl_append

end Tracer

-- ---------------------------------------------------------------------------
-- One byte
-- ---------------------------------------------------------------------------

def Gate (p : DisectorParser) (sender : Side) (c : Byte) : Prop :=
  (p.state = .userCopy ∨ p.state = .passwordCopy → c ≠ 0x0a → sender = .client) ∧
    (p.state = .response → c = p.keyword 3 → sender = .origin)

instance (p : DisectorParser) (sender : Side) (c : Byte) : Decidable (Gate p sender c) :=
  inferInstanceAs (Decidable (_ ∧ _))

def Gated (sender : Side) : DisectorParser → List Byte → Prop
  | _, [] => True
  | p, c :: bytes =>
    Gate p sender c ∧ (disector.done (disectorStep p c) = false → Gated sender (disectorStep p c) bytes)

instance Gated.decide (sender : Side) : ∀ p bytes, Decidable (Gated sender p bytes)
  | _, [] => .isTrue trivial
  | p, c :: bytes =>
    have := Gated.decide sender (disectorStep p c) bytes
    inferInstanceAs (Decidable (Gate p sender c ∧
      (disector.done (disectorStep p c) = false → Gated sender (disectorStep p c) bytes)))

structure Owned (bytes : List Byte) (sources : List (Option Side)) : Prop where
  length : bytes.length = sources.length
  client : ∀ {j : Nat} {b : Byte}, bytes[j]? = some b → b ≠ 0 → sources[j]? = some (some Side.client)

namespace Owned

variable {bytes bytes' : List Byte} {sources sources' : List (Option Side)}

theorem zeros (n : Nat) : Owned (List.replicate n 0) (List.replicate n none) where
  length := by rw [List.length_replicate, List.length_replicate]
  client {j b} hb hne := by
    rw [List.getElem?_replicate] at hb
    split at hb
    · cases hb
      exact absurd rfl hne
    · cases hb

theorem set (h : Owned bytes sources) (i : Nat) (c : Byte) :
    Owned (bytes.set i c) (sources.set i (some .client)) where
  length := by rw [List.length_set, List.length_set, h.length]
  client {j b} hb hne := by
    by_cases hj : i = j
    · subst hj
      have hlt : i < bytes.length := by
        simpa using (List.getElem?_eq_some_iff.mp hb).1
      rw [List.getElem?_set_self (h.length ▸ hlt)]
    · rw [List.getElem?_set_ne hj] at hb ⊢
      exact h.client hb hne

theorem set_zero (h : Owned bytes sources) (i : Nat) : Owned (bytes.set i 0) sources where
  length := by rw [List.length_set, h.length]
  client {j b} hb hne := by
    by_cases hj : i = j
    · subst hj
      have hlt : i < bytes.length := by
        simpa using (List.getElem?_eq_some_iff.mp hb).1
      rw [List.getElem?_set_self hlt] at hb
      cases hb
      exact absurd rfl hne
    · rw [List.getElem?_set_ne hj] at hb
      exact h.client hb hne

theorem append (h : Owned bytes sources) (h' : Owned bytes' sources') :
    Owned (bytes ++ bytes') (sources ++ sources') where
  length := by rw [List.length_append, List.length_append, h.length, h'.length]
  client {j b} hb hne := by
    by_cases hj : j < bytes.length
    · rw [List.getElem?_append_left hj] at hb
      rw [List.getElem?_append_left (h.length ▸ hj)]
      exact h.client hb hne
    · rw [List.getElem?_append_right (Nat.not_lt.mp hj)] at hb
      rw [List.getElem?_append_right (h.length ▸ Nat.not_lt.mp hj), ← h.length]
      exact h'.client hb hne

theorem cstr (h : Owned bytes sources) :
    ∀ o ∈ sources.take (cstr bytes).length, o = some .client := by
  intro o ho
  obtain ⟨j, hj, rfl⟩ := List.mem_iff_getElem.mp ho
  have hlt : j < (Socks5d.cstr bytes).length := by
    rw [List.length_take] at hj
    omega
  have hbegins : Socks5d.cstr bytes <+: bytes := List.takeWhile_prefix _
  have hget : bytes[j]? = some (Socks5d.cstr bytes)[j] := by
    rw [hbegins.getElem hlt]
    exact List.getElem?_eq_getElem _
  have hne : (Socks5d.cstr bytes)[j] ≠ 0 := by
    have hall := List.all_takeWhile (p := (· ≠ (0 : Byte))) (l := bytes)
    simpa using List.all_eq_true.mp hall _ (List.getElem_mem hlt)
  have hclient := h.client hget hne
  rw [List.getElem_take]
  exact (List.getElem?_eq_some_iff.mp hclient).2

end Owned

structure Sourced (p : DisectorParser) (o : Sources) : Prop where
  user : Owned p.user o.user
  pass : Owned p.pass o.pass
  answer : p.state = .response ∨ p.state = .done → ∀ d ∈ o.answer, d = .origin
  answered : p.state = .done → o.answer ≠ []

namespace Sourced

variable {p : DisectorParser} {o : Sources} {sender : Side} {c : Byte}

theorem kept (h : Sourced p o) {p' : DisectorParser} (huser : p'.user = p.user)
    (hpass : p'.pass = p.pass) (hst : p'.state ≠ .response ∧ p'.state ≠ .done) : Sourced p' o where
  user := huser ▸ h.user
  pass := hpass ▸ h.pass
  answer hs := (hs.elim hst.1 hst.2).elim
  answered hs := absurd hs hst.2

theorem step_userCopy (h : Sourced p o) (hg : Gate p sender c) (hst : p.state = .userCopy) :
    Sourced (disectorStep p c) (o.feed p sender c) := by
  by_cases hc : c = 0x0a
  · subst hc
    obtain ⟨accesses, heq⟩ := DisectorParser.step_userCopy_lf hst
    rw [heq, show o.feed p sender 0x0a = o by simp [Sources.feed, hst]]
    refine ⟨?_, h.pass, by simp, by simp⟩
    show Owned (if p.i = 0 then p.user else p.user.set (p.i.toNat - 1) 0) o.user
    split
    · exact h.user
    · exact h.user.set_zero _
  · obtain ⟨accesses, heq⟩ := DisectorParser.step_userCopy hst hc
    obtain rfl : sender = .client := hg.1 (.inl hst) hc
    rw [heq, show o.feed p .client c = { o with user := o.user.set p.i.toNat (some .client) } by
      simp [Sources.feed, hst, hc]]
    exact ⟨h.user.set _ _, h.pass, by simp [hst], by simp [hst]⟩

theorem step_passwordCopy (h : Sourced p o) (hg : Gate p sender c) (hst : p.state = .passwordCopy) :
    Sourced (disectorStep p c) (o.feed p sender c) := by
  by_cases hc : c = 0x0a
  · subst hc
    obtain ⟨accesses, heq⟩ := DisectorParser.step_passwordCopy_lf hst
    rw [heq, show o.feed p sender 0x0a = { o with answer := [] } by simp [Sources.feed, hst]]
    refine ⟨h.user, ?_, by simp, by simp⟩
    show Owned (if p.i = 0 then p.pass else p.pass.set (p.i.toNat - 1) 0) o.pass
    split
    · exact h.pass
    · exact h.pass.set_zero _
  · obtain ⟨accesses, heq⟩ := DisectorParser.step_passwordCopy hst hc
    obtain rfl : sender = .client := hg.1 (.inr hst) hc
    rw [heq, show o.feed p .client c = { o with pass := o.pass.set p.i.toNat (some .client) } by
      simp [Sources.feed, hst, hc]]
    exact ⟨h.user, h.pass.set _ _, by simp [hst], by simp [hst]⟩

theorem step_response (h : Sourced p o) (hg : Gate p sender c) (hst : p.state = .response) :
    Sourced (disectorStep p c) (o.feed p sender c) := by
  by_cases hc : c = p.keyword 3
  · obtain ⟨accesses, heq⟩ := DisectorParser.step_response hst hc
    obtain rfl : sender = .origin := hg.2 hst hc
    have hfeed : o.feed p .origin c = { o with answer := o.answer ++ [.origin] } := by
      unfold Sources.feed
      rw [hst]
      exact if_pos hc
    have hanswer : ∀ d ∈ o.answer ++ [.origin], d = .origin := by
      intro d hd
      rcases List.mem_append.mp hd with hd | hd
      · exact h.answer (.inl hst) d hd
      · exact List.mem_singleton.mp hd
    rw [heq, hfeed]
    split
    · exact ⟨h.user, h.pass, fun _ => hanswer, fun _ => by simp⟩
    · exact ⟨h.user, h.pass, fun _ => hanswer, fun _ => by simp⟩
  · obtain ⟨accesses, heq⟩ := DisectorParser.step_response_other hst hc
    have hfeed : o.feed p sender c = o := by
      unfold Sources.feed
      rw [hst]
      exact if_neg hc
    rw [hfeed, heq]
    exact h.kept rfl rfl (by simp)

theorem step (h : Sourced p o) (hg : Gate p sender c) :
    Sourced (disectorStep p c) (o.feed p sender c) := by
  cases hst : p.state with
  | userCopy => exact h.step_userCopy hg hst
  | passwordCopy => exact h.step_passwordCopy hg hst
  | response => exact h.step_response hg hst
  | waitPop =>
    rw [show o.feed p sender c = o by simp [Sources.feed, hst]]
    by_cases hc : c = p.keyword 0
    · obtain ⟨accesses, heq⟩ := DisectorParser.step_waitPop hst hc
      rw [heq]
      split
      · exact h.kept rfl rfl (by simp)
      · exact h.kept rfl rfl (by simp [hst])
    · obtain ⟨accesses, heq⟩ := DisectorParser.step_waitPop_other hst hc
      rw [heq]
      exact h.kept rfl rfl (by simp)
  | user =>
    rw [show o.feed p sender c = o by simp [Sources.feed, hst]]
    by_cases hc : toUpper c = p.keyword 1
    · obtain ⟨accesses, heq⟩ := DisectorParser.step_user hst hc
      rw [heq]
      split
      · exact h.kept rfl rfl (by simp)
      · exact h.kept rfl rfl (by simp [hst])
    · obtain ⟨accesses, heq⟩ := DisectorParser.step_user_other hst hc
      rw [heq]
      exact h.kept rfl rfl (by simp)
  | password =>
    rw [show o.feed p sender c = o by simp [Sources.feed, hst]]
    by_cases hc : toUpper c = p.keyword 2
    · obtain ⟨accesses, heq⟩ := DisectorParser.step_password hst hc
      rw [heq]
      split
      · exact h.kept rfl rfl (by simp)
      · exact h.kept rfl rfl (by simp [hst])
    · obtain ⟨accesses, hnext⟩ := DisectorParser.password_failed hst hc
      rw [DisectorParser.step_restarted _ hnext]
      exact h.kept rfl rfl (by simp)
  | done =>
    rw [show o.feed p sender c = o by simp [Sources.feed, hst], DisectorParser.step_done hst]
    exact h
  | restart | incompatible =>
    rw [show o.feed p sender c = o by simp [Sources.feed, hst]]
    have hnext : disectorParserNext p c = (p, .restart) := by rw [disectorParserNext, hst]
    rw [DisectorParser.step_restarted _ hnext]
    exact h.kept rfl rfl (by simp)

theorem consume (h : Sourced p o) {bytes : List Byte} (hg : Gated sender p bytes) :
    Sourced ((tracing sender).consume (p, o) bytes).1.1 ((tracing sender).consume (p, o) bytes).1.2 := by
  induction bytes generalizing p o with
  | nil => exact h
  | cons c bytes ih =>
    obtain ⟨hgate, hrest⟩ := hg
    cases hd : disector.done (disectorStep p c) with
    | true =>
      rw [Lib.Machine.consume_cons_done _ (by exact hd)]
      exact h.step hgate
    | false =>
      rw [Lib.Machine.consume_cons_more _ (by exact hd)]
      exact ih (h.step hgate) (hrest hd)

theorem reset (h : Sourced p o) : Sourced (disectorParserReset p) o :=
  h.kept rfl rfl (by simp [disectorParserReset])

theorem genuine (h : Sourced p o) (hst : p.state = .done) : (report p o).Genuine where
  user := (h.user.append h.pass).cstr
  pass := h.pass.cstr
  answer := ⟨h.answered hst, h.answer (.inr hst)⟩

theorem init : Sourced disectorParserInit {} :=
  ⟨Owned.zeros _, Owned.zeros _, by simp [disectorParserInit], by simp [disectorParserInit]⟩

end Sourced

structure Tracer.Clean (t : Tracer) : Prop where
  sourced : Sourced t.p t.sources
  reports : ∀ r ∈ t.reports, r.Genuine

theorem Tracer.Clean.init : Tracer.Clean {} := ⟨Sourced.init, by simp⟩

theorem Tracer.Clean.sniff {t : Tracer} (h : t.Clean) {chunk : Chunk}
    (hg : t.p.state.hears = some chunk.sender → Gated chunk.sender t.p chunk.bytes) :
    (t.sniff chunk).Clean := by
  unfold Tracer.sniff
  split
  · rename_i hears
    have hsourced := h.sourced.consume (hg hears)
    simp only
    split
    · rename_i hdone
      refine ⟨hsourced.reset, fun r hr => ?_⟩
      rcases List.mem_append.mp hr with hr | hr
      · exact h.reports r hr
      · rw [List.mem_singleton.mp hr]
        exact hsourced.genuine hdone
    · exact ⟨hsourced, h.reports⟩
  · exact h

end Socks5d
