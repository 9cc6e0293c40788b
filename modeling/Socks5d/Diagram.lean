import Mathlib.Data.List.Chain
import Socks5d.Connection.Log
import Socks5d.Relay

/-!
# The diagram of the states

The comments of the states list, for each one, the states that follow it.
`SocksState.transitions` is that list as the code has it, and the states that a
connection goes through form a path in it. Every transition goes to a later state of
the `enum`, so no state is entered twice.
-/

namespace Socks5d

def SocksState.transitions : SocksState → List SocksState
  | .helloRead => [.helloWrite, .error]
  | .helloWrite => [.authRead, .requestRead, .error]
  | .authRead => [.authWrite, .error]
  | .authWrite => [.requestRead, .error]
  | .requestRead => [.requestResolv, .requestConnecting, .requestWrite, .error]
  | .requestResolv => [.requestConnecting, .requestWrite]
  | .requestConnecting => [.requestWrite]
  | .requestWrite => [.copy, .error]
  | .copy => [.done]
  | .done | .error => []

def SocksState.number : SocksState → Nat
  | .helloRead => 0
  | .helloWrite => 1
  | .authRead => 2
  | .authWrite => 3
  | .requestRead => 4
  | .requestResolv => 5
  | .requestConnecting => 6
  | .requestWrite => 7
  | .copy => 8
  | .done => 9
  | .error => 10

theorem SocksState.number_lt {st next : SocksState} (h : next ∈ st.transitions) :
    st.number < next.number := by
  cases st <;> cases next <;> simp_all [transitions, number]

def Action.entered : Action → Option SocksState
  | .enter _ next => some next
  | _ => none

/-- The states that the machine entered, in order. -/
def path (log : List Action) : List SocksState := log.filterMap Action.entered

@[simp] theorem path_append (l l' : List Action) : path (l ++ l') = path l ++ path l' :=
  List.filterMap_append ..

theorem path_of_logs {l l' : List Action} (h : Logs l l') : path l' = path l := by
  obtain ⟨lines, rfl, hlines⟩ := h
  have hnil : path lines = [] := by
    refine List.filterMap_eq_nil_iff.mpr fun a ha => ?_
    have hjump := hlines a ha
    cases a <;> first | rfl | cases hjump
  rw [path_append, hnil, List.append_nil]

/-- A path in the diagram from HELLO_READ to the state of the machine. -/
structure Socks5.Traced (s : Socks5) : Prop where
  chain : (path s.log).IsChain fun st next => next ∈ st.transitions
  first : ∀ st ∈ (path s.log).head?, st = .helloRead
  last : (path s.log).getLast? = s.stm

theorem Socks5.Traced.nodup {s : Socks5} (h : s.Traced) : (path s.log).Nodup := by
  have hless : ((path s.log).map SocksState.number).IsChain (· < ·) :=
    List.isChain_map_of_isChain SocksState.number (fun _ _ => SocksState.number_lt) h.chain
  rw [List.isChain_iff_pairwise] at hless
  exact (List.pairwise_map.mp hless).imp fun hlt heq => Nat.ne_of_lt hlt (congrArg _ heq)

namespace View

variable {v v' : View} {io : Io} {c : ConnId}

-- ---------------------------------------------------------------------------
-- What a handler returns
-- ---------------------------------------------------------------------------

theorem Connect.allowed {ret : SocksState} (h : Connect io v v' ret) :
    ret = .requestConnecting ∨ ret = .requestWrite := by
  cases h with
  | noNio | pending => exact .inl rfl
  | noSocket | failed | unregistered => exact .inr rfl

theorem Process.allowed {ret : SocksState} (h : Process io c v v' ret) :
    ret ∈ SocksState.requestRead.transitions := by
  cases h with
  | refused => simp [SocksState.transitions]
  | resolve => simp [SocksState.transitions]
  | connect _ hconnect => rcases hconnect.allowed with rfl | rfl <;> simp [SocksState.transitions]

/-- A handler returns the state that it belongs to, or one that follows it. -/
theorem Outcome.allowed {fd : Nat} {write : Bool} {ret st : SocksState}
    (h : Outcome io c v fd write v' ret) (hst : v.s.stm = some st) :
    ret = st ∨ ret ∈ st.transitions := by
  have hat {st' : SocksState} (hst' : v.s.stm = some st') : st = st' := by
    rw [hst] at hst'
    exact Option.some.inj hst'
  cases h with
  | recvFailed hst' =>
    rcases hst' with hst' | hst' | hst' <;> rw [hat hst'] <;> simp [SocksState.transitions]
  | sendFailed hst' =>
    rcases hst' with hst' | hst' | hst' <;> rw [hat hst'] <;> simp [SocksState.transitions]
  | helloDone hst' | authDone hst' | requestMore hst' | helloSent hst' =>
    rw [hat hst']
    split <;> simp [SocksState.transitions]
  | requestDone hst' _ _ _ hprocess =>
    rw [hat hst']
    exact .inr hprocess.allowed
  | copyReceived hst' | copyEnded hst' | copySent hst' | copyFailed hst' =>
    rw [hat hst', copyNext]
    split <;> simp [SocksState.transitions]
  | helloMore hst' | helloPart hst' | authMore hst' | authPart hst' | authSent hst'
  | authRejected hst' | concluded hst' | retried hst' | replyPart hst' | replySent hst'
  | replyRefused hst' =>
    rw [hat hst']
    simp [SocksState.transitions]

theorem Resolved.allowed {ret : SocksState} (h : Resolved io v v' ret) :
    ret ∈ SocksState.requestResolv.transitions := by
  cases h with
  | unreachable => simp [SocksState.transitions]
  | connect _ hconnect => rcases hconnect.allowed with rfl | rfl <;> simp [SocksState.transitions]

-- ---------------------------------------------------------------------------
-- Paths
-- ---------------------------------------------------------------------------

theorem path_advance (v : View) (next : SocksState) : path (v.advance next).s.log =
    if v.s.stm = some next then path v.s.log else path v.s.log ++ [next] := by
  rw [advance_log]
  by_cases hst : v.s.stm = some next
  · simp [hst]
  · rw [if_neg hst, if_neg hst]
    by_cases hnext : next = .helloRead <;> simp [hnext, path, Action.entered]

theorem traced_advance (h : v.s.Traced) {next : SocksState}
    (hnext : ∀ st ∈ v.s.stm, next = st ∨ next ∈ st.transitions)
    (hfirst : v.s.stm = none → next = .helloRead) : (v.advance next).s.Traced := by
  have hpath := path_advance v next
  have hst := advance_stm v next
  by_cases hsame : v.s.stm = some next
  · rw [if_pos hsame] at hpath
    exact ⟨hpath ▸ h.chain, hpath ▸ h.first, by rw [hpath, hst, h.last, hsame]⟩
  · rw [if_neg hsame] at hpath
    refine ⟨?_, ?_, ?_⟩
    · rw [hpath, List.isChain_append]
      refine ⟨h.chain, .singleton _, fun st hlast next' hhead => ?_⟩
      rw [h.last] at hlast
      obtain rfl : next = next' := by simpa using hhead
      refine (hnext st hlast).resolve_left ?_
      rintro rfl
      exact hsame hlast
    · rw [hpath]
      intro st hhead
      cases hnil : path v.s.log with
      | nil =>
        have hlast := h.last
        rw [hnil] at hlast hhead
        obtain rfl : next = st := by simpa using hhead
        exact hfirst hlast.symm
      | cons first rest =>
        refine h.first st ?_
        rw [hnil] at hhead ⊢
        exact hhead
    · rw [hpath, hst, List.getLast?_concat]

theorem Step.released {ce : ConnEvent} (h : Step c v ce v') (hs : v.Shape c)
    (hlive : v'.live = false) : v'.s.stm = some .done ∨ v'.s.stm = some .error := by
  have hend {v₁ : View} {ret : SocksState} (hb : v₁.Body) (heq : v' = v₁.settle ret) :
      v'.s.stm = some .done ∨ v'.s.stm = some .error := by
    subst heq
    by_cases hret : ret = .error ∨ ret = .done
    · rw [settle_stm]
      rcases hret with rfl | rfl <;> simp
    · rw [settle, if_neg hret, (hb.advance ret).live] at hlive
      cases hlive
  cases h with
  | @ready fd write io v₁ ret hen hout =>
    have hen' : v.started.Enabled fd write := by
      unfold Enabled
      rw [started_link]
      exact hen
    exact hend (hout.shape hs.started hen').1 rfl
  | resolved hst hres => exact hend (hres.shape hs hst).1 rfl

end View

namespace World

open View

variable {w₀ w : World} {c : ConnId}

theorem Logs.traced {s s' : Socks5} (h : s.Traced) (hlog : Logs s.log s'.log)
    (hst : s'.stm = s.stm) : s'.Traced := by
  have hpath := path_of_logs hlog
  exact ⟨hpath ▸ h.chain, hpath ▸ h.first, by rw [hpath, hst, h.last]⟩

theorem traced_rules : Rules anyEvent (fun _ => True) fun _ v => v.s.Traced where
  start _ hst hv _ _ := by
    refine ⟨traced_advance hv (fun st h => ?_) fun _ => rfl, trivial⟩
    rw [hst] at h
    cases h
  outcome {c v fd write io v₁ ret} _ _ hv _ _ hout := by
    obtain ⟨st, hst⟩ := hout.some_stm
    have hst₁ : v₁.s.stm = some st := hout.stm.trans hst
    refine ⟨traced_advance (Logs.traced hv hout.logs hout.stm) (fun st' h => ?_) fun h => ?_, trivial⟩
    · rw [hst₁] at h
      cases h
      exact hout.allowed hst
    · rw [hst₁] at h
      cases h
  resolved {c v answer io v₁ ret} _ hst hv _ _ hres := by
    have hst₁ : v₁.s.stm = some .requestResolv := hres.stm.trans hst
    refine ⟨traced_advance (Logs.traced hv hres.logs hres.stm) (fun st' h => ?_) fun h => ?_, trivial⟩
    · rw [hst₁] at h
      cases h
      exact .inr hres.allowed
    · rw [hst₁] at h
      cases h
  ended hv := ⟨hv.chain, hv.first, hv.last⟩
  frame _ hv _ := hv
  fresh _ _ := ⟨.nil, by simp [View.fresh, path], rfl⟩
  turnedAway _ _ := ⟨.nil, by simp [View.turnedAway, View.fresh, path], rfl⟩

theorem released_kept : Kept anyEvent (fun _ => True) fun _ v =>
    v.live = false → v.s.stm = none ∨ v.s.stm = some .done ∨ v.s.stm = some .error where
  step hs _ _ _ hstep := ⟨fun hlive => .inr (hstep.released hs hlive), trivial⟩
  frame _ hv _ := hv
  fresh _ _ hlive := by cases hlive
  turnedAway _ _ _ := .inl rfl

/-- The states of a connection follow the diagram: in every run they form a path in
it from HELLO_READ to the state that the machine is in, in which no state comes
twice. A struct is released, once its machine has started, exactly when the path has
come to DONE or ERROR. -/
theorem states_follow_diagram (h₀ : w₀.Initial) (h : Reachable w₀ w) {conn : Conn}
    (hc : w.conns c = some conn) :
    (path conn.s.log).IsChain (fun st next => next ∈ st.transitions) ∧
    (∀ st ∈ (path conn.s.log).head?, st = .helloRead) ∧
    (path conn.s.log).getLast? = conn.s.stm ∧ (path conn.s.log).Nodup ∧
    (conn.s.stm ≠ none → (conn.live = false ↔ conn.s.stm = some .done ∨ conn.s.stm = some .error)) := by
  have htraced := reaches_carries traced_rules.kept ⟨fun _ _ h => h, fun _ _ h => h⟩ h₀ trivial h
  have hreleased := reaches_carries released_kept ⟨fun _ _ h => h, fun _ _ h => h⟩ h₀ trivial h
  obtain ⟨v, hv, hshape, htrace⟩ := htraced.view hc
  obtain ⟨v', hv', -, hlast⟩ := hreleased.view hc
  rw [hv.conn] at hc
  cases hc
  have hsame := hv'.conn
  rw [hv.conn, Option.some.injEq, Conn.mk.injEq] at hsame
  obtain ⟨hs, hlive⟩ := hsame
  rw [← hs, ← hlive] at hlast
  refine ⟨htrace.chain, htrace.first, htrace.last, htrace.nodup, fun hstarted => ⟨fun hdead => ?_, ?_⟩⟩
  · exact (hlast hdead).resolve_left hstarted
  · intro hend
    rcases hshape with hshape | hended
    · exact (hend.elim hshape.stays.1 hshape.stays.2).elim
    · exact hended.live

/-- The states of a client that is connected without authentication. -/
theorem states_follow_diagram_connected : ∃ w conn, Reachable (startUp {}) w ∧
    w.conns 0 = some conn ∧ (path conn.s.log).Nodup ∧
    path conn.s.log =
      [.helloRead, .helloWrite, .requestRead, .requestConnecting, .requestWrite, .copy] := by
  have hrun : Lib.endsIn (fun w => (w.conns 0).any fun conn => path conn.s.log =
        [.helloRead, .helloWrite, .requestRead, .requestConnecting, .requestWrite, .copy])
      (play (Meets anyEvent) (startUp {}) connected) = true := by decide +kernel
  obtain ⟨w, hplay, hconn⟩ := Lib.endsIn_iff.mp hrun
  obtain ⟨conn, hc, hpath⟩ := (Option.any_eq_true ..).mp hconn
  have hreach := Lib.reaches_of_play hplay
  obtain ⟨-, -, -, hnodup, -⟩ := states_follow_diagram (startUp_initial (by decide)) hreach hc
  exact ⟨w, conn, hreach, hc, hnodup, of_decide_eq_true hpath⟩

end World

end Socks5d
