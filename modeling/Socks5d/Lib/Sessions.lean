import Mathlib.Data.List.Nodup
import Mathlib.Logic.Function.Basic
import Mathlib.Logic.Relation

/-!
# Sessions with one request each

A server shares a state among its sessions. A session sends one request, cut
anywhere, the server serves it in one step, and delivers the response, again
cut anywhere; between two steps others may change the state within limits
(`drift`). Whatever the order of the steps, the state is the one left by serving
the requests one after the other (`Linear`), in an order that later steps only
extend.
-/

namespace Lib

structure Protocol (σ β : Type) where
  drift : σ → σ → Prop
  serves : σ → List β → σ → List β → Prop
  refl : ∀ s, drift s s
  trans : ∀ {s s' s''}, drift s s' → drift s' s'' → drift s s''

inductive Session (β : Type)
  | waiting (received : List β)
  | answering (received sent rest : List β)
  | closed (received sent : List β)

namespace Session

variable {β : Type}

def received : Session β → List β
  | waiting received => received
  | answering received _ _ => received
  | closed received _ => received

def sent : Session β → List β
  | waiting _ => []
  | answering _ sent _ => sent
  | closed _ sent => sent

end Session

structure Sessions (ι σ β : Type) where
  state : σ
  sessions : ι → Option (Session β)

structure Request (ι σ β : Type) where
  session : ι
  before : σ
  after : σ
  request : List β
  response : List β

variable {ι σ β : Type} {p : Protocol σ β} {c : ι} {s s' s₀ : σ} {rs : List (Request ι σ β)}

-- ---------------------------------------------------------------------------
-- Requests one after the other
-- ---------------------------------------------------------------------------

def Chain (p : Protocol σ β) : σ → List (Request ι σ β) → σ → Prop
  | s, [], s' => p.drift s s'
  | s, r :: rs, s' =>
    p.drift s r.before ∧ p.serves r.before r.request r.after r.response ∧ Chain p r.after rs s'

namespace Chain

theorem append {more : List (Request ι σ β)} {s'' : σ} (h : Chain p s rs s')
    (h' : Chain p s' more s'') : Chain p s (rs ++ more) s'' := by
  induction rs generalizing s with
  | nil =>
    cases more with
    | nil => exact p.trans h h'
    | cons r more => exact ⟨p.trans h h'.1, h'.2⟩
  | cons r rs ih => exact ⟨h.1, h.2.1, ih h.2.2⟩

theorem drift {s'' : σ} (h : Chain p s rs s') (hd : p.drift s' s'') : Chain p s rs s'' :=
  List.append_nil rs ▸ h.append (show Chain p s' [] s'' from hd)

theorem concat {r : Request ι σ β} (h : Chain p s rs r.before)
    (hs : p.serves r.before r.request r.after r.response) : Chain p s (rs ++ [r]) r.after :=
  h.append ⟨p.refl _, hs, p.refl _⟩

theorem invariant {I : σ → Prop} (hdrift : ∀ {s s'}, I s → p.drift s s' → I s')
    (hserves : ∀ {s req s' resp}, I s → p.serves s req s' resp → I s') (h : Chain p s rs s')
    (hs : I s) : I s' ∧ ∀ r ∈ rs, I r.before := by
  induction rs generalizing s with
  | nil => exact ⟨hdrift hs h, fun r hr => by cases hr⟩
  | cons r rs ih =>
    have hbefore := hdrift hs h.1
    obtain ⟨hend, hall⟩ := ih h.2.2 (hserves hbefore h.2.1)
    refine ⟨hend, fun r' hr' => ?_⟩
    cases hr' with
    | head => exact hbefore
    | tail _ hr' => exact hall r' hr'

theorem split {r : Request ι σ β} (h : Chain p s rs s') (hr : r ∈ rs) :
    ∃ before after, rs = before ++ r :: after ∧ Chain p s before r.before ∧
      p.serves r.before r.request r.after r.response ∧ Chain p r.after after s' := by
  induction rs generalizing s with
  | nil => cases hr
  | cons r' rs ih =>
    cases hr with
    | head => exact ⟨[], rs, rfl, h.1, h.2.1, h.2.2⟩
    | tail _ hr =>
      obtain ⟨before, after, rfl, hbefore, hserves, hafter⟩ := ih h.2.2 hr
      exact ⟨r' :: before, after, rfl, ⟨h.1, h.2.1, hbefore⟩, hserves, hafter⟩

end Chain

-- ---------------------------------------------------------------------------
-- A session and the requests
-- ---------------------------------------------------------------------------

/-- What the requests say of a session: it has at most one, which is what it
received, and it was sent the response as far as it got. -/
inductive Session.Recorded (rs : List (Request ι σ β)) (c : ι) : Session β → Prop
  | waiting {received : List β} (h : ∀ r ∈ rs, r.session ≠ c) : Recorded rs c (.waiting received)
  | answering {r : Request ι σ β} {received sent rest : List β} (hr : r ∈ rs) (hc : r.session = c)
      (hreq : r.request = received) (hresp : r.response = sent ++ rest) :
      Recorded rs c (.answering received sent rest)
  | unserved {received : List β} (h : ∀ r ∈ rs, r.session ≠ c) : Recorded rs c (.closed received [])
  | served {r : Request ι σ β} {received sent : List β} (hr : r ∈ rs) (hc : r.session = c)
      (hreq : r.request = received) (hresp : sent <+: r.response) :
      Recorded rs c (.closed received sent)

namespace Session.Recorded

variable {session : Session β}

theorem concat {r : Request ι σ β} (h : session.Recorded rs c) (hr : r.session ≠ c) :
    session.Recorded (rs ++ [r]) c := by
  have hnew (hall : ∀ r ∈ rs, r.session ≠ c) : ∀ r' ∈ rs ++ [r], r'.session ≠ c := by
    intro r' hr'
    rcases List.mem_append.mp hr' with hr' | hr'
    · exact hall r' hr'
    · rwa [List.mem_singleton.mp hr']
  cases h with
  | waiting h => exact .waiting (hnew h)
  | answering hr hc hreq hresp => exact .answering (List.mem_append_left _ hr) hc hreq hresp
  | unserved h => exact .unserved (hnew h)
  | served hr hc hreq hresp => exact .served (List.mem_append_left _ hr) hc hreq hresp

theorem closed (h : session.Recorded rs c) : (Session.closed session.received session.sent).Recorded rs c := by
  cases h with
  | waiting h => exact .unserved h
  | answering hr hc hreq hresp => exact .served hr hc hreq ⟨_, hresp.symm⟩
  | unserved h => exact .unserved h
  | served hr hc hreq hresp => exact .served hr hc hreq hresp

end Session.Recorded

-- ---------------------------------------------------------------------------
-- The steps
-- ---------------------------------------------------------------------------

variable [DecidableEq ι] {a a' : Sessions ι σ β}

def Sessions.set (a : Sessions ι σ β) (c : ι) (session : Session β) : Sessions ι σ β :=
  { a with sessions := Function.update a.sessions c (some session) }

@[simp] theorem Sessions.set_state (session : Session β) : (a.set c session).state = a.state := rfl

@[simp] theorem Sessions.set_self (session : Session β) :
    (a.set c session).sessions c = some session := Function.update_self ..

@[simp] theorem Sessions.set_ne (session : Session β) {c' : ι} (h : c' ≠ c) :
    (a.set c session).sessions c' = a.sessions c' := Function.update_of_ne h ..

@[simp] theorem Sessions.set_set (session session' : Session β) :
    (a.set c session).set c session' = a.set c session' := by
  simp only [Sessions.set, Function.update_idem]

inductive Sessions.Move (p : Protocol σ β) (a : Sessions ι σ β) : Sessions ι σ β → Prop
  | drift {s : σ} (h : p.drift a.state s) : Move p a { a with state := s }
  | opens {c : ι} (h : a.sessions c = none) : Move p a (a.set c (.waiting []))
  | hears {c : ι} {received : List β} (h : a.sessions c = some (.waiting received))
      (chunk : List β) : Move p a (a.set c (.waiting (received ++ chunk)))
  | delivers {c : ι} {received sent part rest : List β}
      (h : a.sessions c = some (.answering received sent (part ++ rest))) :
      Move p a (a.set c (.answering received (sent ++ part) rest))
  | closes {c : ι} {session : Session β} (h : a.sessions c = some session) :
      Move p a (a.set c (.closed session.received session.sent))

abbrev Sessions.Moves (p : Protocol σ β) : Sessions ι σ β → Sessions ι σ β → Prop :=
  Relation.ReflTransGen (Sessions.Move p)

def Sessions.serve (a : Sessions ι σ β) (r : Request ι σ β) : Sessions ι σ β :=
  Sessions.set { a with state := r.after } r.session (.answering r.request [] r.response)

-- ---------------------------------------------------------------------------
-- Linearity
-- ---------------------------------------------------------------------------

structure Linear (p : Protocol σ β) (s₀ : σ) (rs : List (Request ι σ β)) (a : Sessions ι σ β) :
    Prop where
  chain : Chain p s₀ rs a.state
  nodup : (rs.map Request.session).Nodup
  opened : ∀ r ∈ rs, a.sessions r.session ≠ none
  recorded : ∀ {c session}, a.sessions c = some session → session.Recorded rs c

namespace Linear

omit [DecidableEq ι] in
theorem start (h : ∀ c, a.sessions c = none) : Linear p a.state [] a where
  chain := p.refl _
  nodup := List.nodup_nil
  opened r hr := by cases hr
  recorded {c session} hc := by
    rw [h c] at hc
    cases hc

omit [DecidableEq ι] in
theorem served {r : Request ι σ β} (h : Linear p s₀ rs a) (hr : r ∈ rs) :
    ∃ session, a.sessions r.session = some session ∧ session.received = r.request ∧
      session.sent <+: r.response := by
  obtain ⟨session, hs⟩ := Option.ne_none_iff_exists'.mp (h.opened r hr)
  have hsame {r' : Request ι σ β} (hr' : r' ∈ rs) (hc : r'.session = r.session) : r' = r :=
    List.inj_on_of_nodup_map h.nodup hr' hr hc
  refine ⟨session, hs, ?_⟩
  cases h.recorded hs with
  | waiting hnone => exact absurd rfl (hnone r hr)
  | answering hr' hc hreq hresp =>
    cases hsame hr' hc
    exact ⟨hreq.symm, _, hresp.symm⟩
  | unserved hnone => exact absurd rfl (hnone r hr)
  | served hr' hc hreq hresp =>
    cases hsame hr' hc
    exact ⟨hreq.symm, hresp⟩

theorem set {session : Session β} (h : Linear p s₀ rs a) (hs : session.Recorded rs c) :
    Linear p s₀ rs (a.set c session) where
  chain := h.chain
  nodup := h.nodup
  opened r hr := by
    by_cases hc : r.session = c
    · simp [hc]
    · simpa [hc] using h.opened r hr
  recorded {c' session'} hc' := by
    by_cases hc : c' = c
    · subst hc
      rw [Sessions.set_self] at hc'
      cases hc'
      exact hs
    · rw [Sessions.set_ne _ hc] at hc'
      exact h.recorded hc'

theorem move (h : Linear p s₀ rs a) (hs : a.Move p a') :
    Linear p s₀ rs a' ∧ p.drift a.state a'.state := by
  cases hs with
  | drift hd => exact ⟨⟨h.chain.drift hd, h.nodup, h.opened, h.recorded⟩, hd⟩
  | @opens c hc =>
    have hnone : ∀ r ∈ rs, r.session ≠ c := fun r hr he => h.opened r hr (he ▸ hc)
    exact ⟨h.set (.waiting hnone), p.refl _⟩
  | hears hc chunk =>
    cases h.recorded hc with
    | waiting hnone => exact ⟨h.set (.waiting hnone), p.refl _⟩
  | delivers hc =>
    cases h.recorded hc with
    | answering hr hc' hreq hresp =>
      exact ⟨h.set (.answering hr hc' hreq (by rw [hresp, List.append_assoc])), p.refl _⟩
  | closes hc => exact ⟨h.set (h.recorded hc).closed, p.refl _⟩

theorem moves (h : Linear p s₀ rs a) (hs : a.Moves p a') :
    Linear p s₀ rs a' ∧ p.drift a.state a'.state := by
  induction hs with
  | refl => exact ⟨h, p.refl _⟩
  | tail _ hs ih => exact ⟨(ih.1.move hs).1, p.trans ih.2 (ih.1.move hs).2⟩

theorem serve (h : Linear p s₀ rs a) {r : Request ι σ β} {received : List β}
    (hc : a.sessions r.session = some (.waiting received)) (hbefore : r.before = a.state)
    (hs : p.serves r.before r.request r.after r.response) : Linear p s₀ (rs ++ [r]) (a.serve r) := by
  cases h.recorded hc with
  | waiting hnone =>
    have hmem : r ∈ rs ++ [r] := by simp
    refine ⟨(hbefore ▸ h.chain).concat hs, ?_, fun r' hr' => ?_, fun {c' session} hc' => ?_⟩
    · rw [List.map_append, List.nodup_append]
      refine ⟨h.nodup, List.nodup_singleton _, fun x hx y hy => ?_⟩
      obtain ⟨r', hr', rfl⟩ := List.mem_map.mp hx
      rw [List.map_singleton, List.mem_singleton] at hy
      exact hy ▸ hnone r' hr'
    · by_cases he : r'.session = r.session
      · simp [Sessions.serve, he]
      · rcases List.mem_append.mp hr' with hr' | hr'
        · simpa [Sessions.serve, he] using h.opened r' hr'
        · exact absurd (congrArg Request.session (List.mem_singleton.mp hr')) he
    · by_cases he : c' = r.session
      · subst he
        rw [Sessions.serve, Sessions.set_self] at hc'
        cases hc'
        exact .answering hmem rfl rfl rfl
      · rw [Sessions.serve, Sessions.set_ne _ he] at hc'
        exact (h.recorded hc').concat (Ne.symm he)

end Linear

end Lib
