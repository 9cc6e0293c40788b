import Socks5d.Attempts
import Socks5d.Origin
import Socks5d.Parked

/-!
# The lists of getaddrinfo

A resolver thread leaves a list of addresses in `origin_resolution`, and
`request_connecting` gives it to `freeaddrinfo` when the attempts are over. A
first attempt that fails at once skips REQUEST_CONNECTING, and the struct goes
to the pool with its list, where `socks5_new` clears the only pointer to it.
`lists_released` says that this is the only way a list gets lost.
-/

namespace Socks5d

/-- The lists that `getaddrinfo` gave. -/
def resolvedIn (log : List Action) : List (List AddrInfo) :=
  log.filterMap fun
    | .resolved list => if list = [] then none else some list
    | _ => none

/-- The arguments of `freeaddrinfo`. -/
def freedIn (log : List Action) : List (List AddrInfo) :=
  log.filterMap fun
    | .freeaddrinfo list => some list
    | _ => none

@[simp] theorem resolvedIn_append (l l' : List Action) :
    resolvedIn (l ++ l') = resolvedIn l ++ resolvedIn l' := List.filterMap_append

@[simp] theorem freedIn_append (l l' : List Action) :
    freedIn (l ++ l') = freedIn l ++ freedIn l' := List.filterMap_append

/-- A list that was obtained is held or was released once; there is one at most. -/
structure Socks5.Balanced (s : Socks5) : Prop where
  lists : freedIn s.log ++ s.held = resolvedIn s.log
  once : (resolvedIn s.log).length ≤ 1

def FirstPends : World.Condition := fun _ _ ce =>
  match ce with
  | .ready _ _ _ => True
  | .resolved answer io => answer.getD [] ≠ [] → io.Pends

namespace View

variable {v v' : View} {io : Io} {c : ConnId}

def Named (v : View) : Prop := v.s.request.parser.request.destAddrType = socksReqAddrtypeDomain

def Unresolved (v : View) : Prop :=
  v.s.originResolution = [] ∧ resolvedIn v.s.log = [] ∧ freedIn v.s.log = []

def Lists (leaky : Prop) (v : View) : SocksState → Prop
  | .requestConnecting => v.s.Balanced ∧ (v.Named ↔ v.s.originResolution ≠ [])
  | .requestWrite | .copy | .done | .error =>
    v.s.Balanced ∧ (leaky ∨ v.s.originResolution = [])
  | .requestResolv => v.Unresolved ∧ v.Named
  | _ => v.Unresolved

structure SameLists (v v' : View) : Prop where
  originResolution : v'.s.originResolution = v.s.originResolution
  resolved : resolvedIn v'.s.log = resolvedIn v.s.log
  freed : freedIn v'.s.log = freedIn v.s.log

theorem SameLists.balanced (h : SameLists v v') (hb : v.s.Balanced) : v'.s.Balanced := by
  refine ⟨?_, h.resolved ▸ hb.once⟩
  rw [h.freed, h.resolved, Socks5.held, h.originResolution]
  exact hb.lists

theorem SameLists.unresolved (h : SameLists v v') (hu : v.Unresolved) : v'.Unresolved :=
  ⟨h.originResolution.trans hu.1, h.resolved.trans hu.2.1, h.freed.trans hu.2.2⟩

theorem SameLists.trans {v'' : View} (h : SameLists v v') (h' : SameLists v' v'') : SameLists v v'' :=
  ⟨h'.originResolution.trans h.originResolution, h'.resolved.trans h.resolved,
    h'.freed.trans h.freed⟩

theorem Unresolved.balanced (h : v.Unresolved) : v.s.Balanced := by
  refine ⟨?_, ?_⟩
  · rw [h.2.2, h.2.1, Socks5.held, if_pos h.1]
    rfl
  · rw [h.2.1]
    exact Nat.zero_le 1

theorem advance_sameLists (v : View) (next : SocksState) : SameLists v (v.advance next) := by
  have hlog := advance_log v next
  refine ⟨?_, ?_, ?_⟩
  · unfold advance
    split
    · rfl
    · cases next <;> rfl
  · rw [hlog]
    split
    · rfl
    · split <;> simp [resolvedIn]
  · rw [hlog]
    split
    · rfl
    · split <;> simp [freedIn]

theorem Connect.sameLists {ret : SocksState} (h : Connect io v v' ret) : SameLists v v' := by
  cases h <;> exact ⟨rfl, by simp [replied, socketed, gaveUp, resolvedIn],
    by simp [replied, socketed, gaveUp, freedIn]⟩

theorem setRb_originResolution (s : Socks5) (d : Side) (b : Buffer) :
    (s.setRb d b).originResolution = s.originResolution := by
  cases d <;> rfl

theorem shut_sameLists (v : View) (d : Side) (write : Bool) : SameLists v (v.shut d write) := by
  have hlog := shut_log v d write
  refine ⟨?_, by rw [hlog]; simp [resolvedIn], by rw [hlog]; simp [freedIn]⟩
  cases d <;> rfl

theorem Process.sameLists {ret : SocksState} (h : Process io c v v' ret) : SameLists v v' := by
  cases h with
  | refused => exact ⟨rfl, by simp [replied, resolvedIn], by simp [replied, freedIn]⟩
  | resolve => exact ⟨rfl, rfl, rfl⟩
  | connect _ hconnect =>
    exact ⟨hconnect.sameLists.originResolution, hconnect.sameLists.resolved, hconnect.sameLists.freed⟩

theorem Outcome.sameLists {fd : Nat} {write : Bool} {ret : SocksState}
    (h : Outcome io c v fd write v' ret) (hst : v.s.stm ≠ some .requestConnecting) :
    SameLists v v' := by
  cases h with
  | concluded hst' | retried hst' => exact absurd hst' hst
  | requestDone _ hr hc hdone hprocess =>
    have hsame := hprocess.sameLists
    exact ⟨hsame.originResolution, hsame.resolved.trans (by simp [received, resolvedIn]),
      hsame.freed.trans (by simp [received, freedIn])⟩
  | copyReceived _ hr hne hb v₁ h₁ =>
    subst h₁
    refine ⟨setRb_originResolution .., ?_, ?_⟩
    · show resolvedIn (Socks5.log (Socks5.setRb _ _ _)) = _
      rw [setRb_log]
      simp [noted, resolvedIn]
    · show freedIn (Socks5.log (Socks5.setRb _ _ _)) = _
      rw [setRb_log]
      simp [noted, freedIn]
  | copyEnded | copyFailed =>
    exact ⟨(shut_sameLists ..).originResolution,
      (shut_sameLists ..).resolved.trans (by simp [noted, resolvedIn]),
      (shut_sameLists ..).freed.trans (by simp [noted, freedIn])⟩
  | copySent _ hsend hb v₁ v₂ h₁ h₂ =>
    subst h₁ h₂
    obtain ⟨dp, lines, heq, hl⟩ := disected_eq (v.noted _) _ _
    have hresolved : resolvedIn lines = [] := List.filterMap_eq_nil_iff.mpr fun a ha => by
      obtain ⟨user, pass, uname, type, addr, origin, rfl⟩ := hl a ha
      rfl
    have hfreed : freedIn lines = [] := List.filterMap_eq_nil_iff.mpr fun a ha => by
      obtain ⟨user, pass, uname, type, addr, origin, rfl⟩ := hl a ha
      rfl
    rw [heq]
    refine ⟨setRb_originResolution .., ?_, ?_⟩
    · show resolvedIn (Socks5.log (Socks5.setRb _ _ _)) = _
      rw [setRb_log, resolvedIn_append, hresolved]
      simp [noted, resolvedIn]
    · show freedIn (Socks5.log (Socks5.setRb _ _ _)) = _
      rw [setRb_log, freedIn_append, hfreed]
      simp [noted, freedIn]
  | _ => exact ⟨rfl, by simp [noted, received, sent, relaying, logged, resolvedIn],
      by simp [noted, received, sent, relaying, logged, freedIn]⟩

-- ---------------------------------------------------------------------------
-- The states
-- ---------------------------------------------------------------------------

variable {leaky : Prop}

theorem Lists.congr {st : SocksState} (hi : v.Lists leaky st) (h : SameLists v v')
    (hnamed : v'.Named ↔ v.Named) : v'.Lists leaky st := by
  cases st with
  | requestConnecting =>
    refine ⟨h.balanced hi.1, ?_⟩
    rw [hnamed, h.originResolution]
    exact hi.2
  | requestWrite | copy | done | error =>
    refine ⟨h.balanced hi.1, ?_⟩
    rw [h.originResolution]
    exact hi.2
  | requestResolv => exact ⟨h.unresolved hi.1, hnamed.mpr hi.2⟩
  | _ => exact h.unresolved hi

theorem Unresolved.lists {next : SocksState} (h : v.Unresolved)
    (hconnecting : next = .requestConnecting → ¬ v.Named) (hresolv : next = .requestResolv → v.Named) :
    v.Lists leaky next := by
  cases next with
  | requestConnecting =>
    exact ⟨h.balanced, iff_of_false (hconnecting rfl) (not_not.mpr h.1)⟩
  | requestWrite | copy | done | error => exact ⟨h.balanced, .inr h.1⟩
  | requestResolv => exact ⟨h, hresolv rfl⟩
  | _ => exact h

theorem Lists.advance {next : SocksState} (h : v.Lists leaky next) :
    (v.advance next).Lists leaky next := by
  have hsame := advance_sameLists v next
  unfold View.advance at hsame ⊢
  split
  · exact h
  · rw [if_neg ‹_›] at hsame
    cases next with
    | requestRead => exact hsame.unresolved h
    | _ => exact h.congr hsame .rfl

theorem Connect.named {ret : SocksState} (h : Connect io v v' ret) : v'.Named ↔ v.Named := by
  cases h <;> exact .rfl

theorem Connect.ret_cases {ret : SocksState} (h : Connect io v v' ret) :
    ret = .requestWrite ∨ ret = .requestConnecting := by
  cases h with
  | noNio | pending => exact .inr rfl
  | _ => exact .inl rfl

theorem Process.named {ret : SocksState} (h : Process io c v v' ret) :
    (ret = .requestConnecting → ¬ v'.Named) ∧ (ret = .requestResolv → v'.Named) := by
  cases h with
  | refused => exact ⟨nofun, nofun⟩
  | resolve htype => exact ⟨nofun, fun _ => htype⟩
  | connect htype hconnect =>
    refine ⟨fun _ => ?_, fun hret => ?_⟩
    · rw [hconnect.named]
      exact htype
    · rcases hconnect.ret_cases with h | h <;> rw [h] at hret <;> cases hret

def Late (st : SocksState) : Prop :=
  st = .requestWrite ∨ st = .copy ∨ st = .done ∨ st = .error

theorem Outcome.next {fd : Nat} {write : Bool} {ret : SocksState}
    (h : Outcome io c v fd write v' ret) (hst : v.s.stm ≠ some .requestConnecting) :
    (ret = .requestConnecting → ¬ v'.Named) ∧ (ret = .requestResolv → v'.Named) ∧
      (v.s.stm = some .requestWrite ∨ v.s.stm = some .copy → Late ret) := by
  cases h with
  | concluded hst' | retried hst' => exact absurd hst' hst
  | requestDone hst' _ _ _ hprocess =>
    refine ⟨hprocess.named.1, hprocess.named.2, ?_⟩
    rw [hst']
    rintro (h | h) <;> cases h
  | replySent | replyRefused | replyPart | recvFailed | sendFailed => simp [Late]
  | copyReceived | copyEnded | copySent | copyFailed =>
    unfold copyNext
    split <;> simp [Late]
  | helloMore hst' | helloPart hst' | authMore hst' | authPart hst' => simp [hst']
  | authSent hst' | authRejected hst' => simp [hst']
  | helloDone hst' | authDone hst' | helloSent hst' | requestMore hst' =>
    rw [hst']
    split <;> simp

theorem concluded_released (v : View) (a : Action) (fd : Nat) (status : SocksStatus) (wb : Buffer)
    (ha : resolvedIn [a] = [] ∧ freedIn [a] = []) (hn : v.Named) (hb : v.s.Balanced)
    (hne : v.s.originResolution ≠ []) :
    ((v.noted a).concluded fd status wb).s.Balanced ∧
      ((v.noted a).concluded fd status wb).s.originResolution = [] := by
  have htype : v.s.request.parser.request.destAddrType = socksReqAddrtypeDomain := hn
  have hnil : ((v.noted a).concluded fd status wb).s.originResolution = [] := if_pos htype
  have hlog : ((v.noted a).concluded fd status wb).s.log =
      v.s.log ++ [a] ++ [.freeaddrinfo v.s.originResolution] ++ [.marshall status] := by
    show v.s.log ++ [a] ++ (if v.s.request.parser.request.destAddrType = socksReqAddrtypeDomain then
      [.freeaddrinfo v.s.originResolution] else []) ++ [.marshall status] = _
    rw [if_pos htype]
  have hresolved : resolvedIn ((v.noted a).concluded fd status wb).s.log = resolvedIn v.s.log := by
    rw [hlog, resolvedIn_append, resolvedIn_append, resolvedIn_append, ha.1]
    simp [resolvedIn]
  have hlists := hb.lists
  rw [Socks5.held, if_neg hne] at hlists
  refine ⟨⟨?_, hresolved ▸ hb.once⟩, hnil⟩
  rw [hresolved, ← hlists, hlog, freedIn_append, freedIn_append, freedIn_append, ha.2, Socks5.held,
    if_pos hnil]
  simp [freedIn]

theorem concluded_sameLists (v : View) (a : Action) (fd : Nat) (status : SocksStatus) (wb : Buffer)
    (ha : resolvedIn [a] = [] ∧ freedIn [a] = []) (hn : ¬ v.Named) :
    SameLists v ((v.noted a).concluded fd status wb) := by
  have htype : v.s.request.parser.request.destAddrType ≠ socksReqAddrtypeDomain := hn
  have hlog : ((v.noted a).concluded fd status wb).s.log = v.s.log ++ [a] ++ [.marshall status] := by
    show v.s.log ++ [a] ++ (if v.s.request.parser.request.destAddrType = socksReqAddrtypeDomain then
      [.freeaddrinfo v.s.originResolution] else []) ++ [.marshall status] = _
    rw [if_neg htype, List.append_nil]
  refine ⟨if_neg htype, ?_, ?_⟩
  · rw [hlog, resolvedIn_append, resolvedIn_append, ha.1]
    simp [resolvedIn]
  · rw [hlog, freedIn_append, freedIn_append, ha.2]
    simp [freedIn]

theorem Outcome.lists_connecting {fd : Nat} {write : Bool} {ret : SocksState}
    (h : Outcome io c v fd write v' ret) (hst : v.s.stm = some .requestConnecting)
    (hi : v.Lists leaky .requestConnecting) : v'.Lists leaky ret := by
  obtain ⟨hbalanced, hnamed⟩ := hi
  rcases h.of_connecting hst with
    ⟨status, wb, -, rfl, rfl⟩ | ⟨e, a₀, a, rest, ret', -, -, -, rfl, hconnect⟩
  · by_cases hn : v.Named
    · obtain ⟨hfreed, hnil⟩ := concluded_released v (.sockError fd io.sockError) fd status wb
        ⟨rfl, rfl⟩ hn hbalanced (hnamed.mp hn)
      exact ⟨hfreed, .inr hnil⟩
    · have hsame := concluded_sameLists v (.sockError fd io.sockError) fd status wb ⟨rfl, rfl⟩ hn
      have hnil : v.s.originResolution = [] := not_not.mp (mt hnamed.mpr hn)
      exact ⟨hsame.balanced hbalanced, .inr (hsame.originResolution.trans hnil)⟩
  · have hsame := hconnect.sameLists
    have hretry : SameLists v v' :=
      ⟨hsame.originResolution, hsame.resolved.trans (by simp [dropPeer, aimed, noted, resolvedIn]),
        hsame.freed.trans (by simp [dropPeer, aimed, noted, freedIn])⟩
    have hkept : v.Lists leaky .requestConnecting := ⟨hbalanced, hnamed⟩
    exact hkept.congr hretry hconnect.named

theorem Outcome.lists {fd : Nat} {write : Bool} {ret : SocksState}
    (h : Outcome io c v fd write v' ret) (hs : v.Shape c)
    (hi : v.Lists leaky (v.s.stm.getD .helloRead)) : v'.Lists leaky ret := by
  obtain ⟨st, hst⟩ := h.some_stm
  rw [hst, Option.getD_some] at hi
  by_cases hconnecting : st = .requestConnecting
  · subst hconnecting
    exact h.lists_connecting hst hi
  · have hne : v.s.stm ≠ some .requestConnecting := by
      rw [hst, Ne, Option.some.injEq]
      exact hconnecting
    have hsame := h.sameLists hne
    obtain ⟨hnext, hresolv, hlate⟩ := h.next hne
    have hearly (hu : v.Unresolved) : v'.Lists leaky ret :=
      (hsame.unresolved hu).lists hnext hresolv
    cases st with
    | requestConnecting => exact absurd rfl hconnecting
    | requestWrite | copy =>
      have hkept : v'.s.Balanced ∧ (leaky ∨ v'.s.originResolution = []) := by
        rw [hsame.originResolution]
        exact ⟨hsame.balanced hi.1, hi.2⟩
      rcases hlate (by simp [hst]) with rfl | rfl | rfl | rfl <;> exact hkept
    | done => exact absurd hst hs.stays.1
    | error => exact absurd hst hs.stays.2
    | requestResolv => exact hearly hi.1
    | _ => exact hearly hi

theorem Resolved.lists {answer : Option (List AddrInfo)} {ret : SocksState}
    (h : Resolved io (v.answered answer) v' ret) (hi : v.Lists leaky .requestResolv)
    (hcond : leaky ∨ (answer.getD [] ≠ [] → io.Pends)) : v'.Lists leaky ret := by
  obtain ⟨⟨hnil, hresolved, hfreed⟩, hn⟩ := hi
  cases h with
  | @unreachable wb hlist hwb =>
    have hlist : answer.getD [] = [] := hlist
    have hlog : ((v.answered answer).replied .hostUnreachable wb).s.log =
        v.s.log ++ [.resolved (answer.getD [])] ++ [.marshall .hostUnreachable] := rfl
    refine Unresolved.lists ⟨hlist, ?_, ?_⟩ nofun nofun
    · rw [hlog, resolvedIn_append, resolvedIn_append, hresolved, hlist]
      rfl
    · rw [hlog, freedIn_append, freedIn_append, hfreed]
      rfl
  | @connect a rest _ _ hlist hconnect =>
    have hlist : answer.getD [] = a :: rest := hlist
    have hcons : a :: rest ≠ [] := List.cons_ne_nil a rest
    have hbalanced : ((v.answered answer).aimed (a :: rest) a).s.Balanced := by
      have hlog : ((v.answered answer).aimed (a :: rest) a).s.log =
          v.s.log ++ [.resolved (a :: rest)] := by rw [← hlist]; rfl
      have hheld : ((v.answered answer).aimed (a :: rest) a).s.held = [a :: rest] := by
        show (if answer.getD [] = [] then [] else [answer.getD []]) = _
        rw [hlist, if_neg hcons]
      have hone : resolvedIn [.resolved (a :: rest)] = [a :: rest] := by simp [resolvedIn]
      refine ⟨?_, ?_⟩
      · rw [hlog, resolvedIn_append, freedIn_append, hresolved, hfreed, hheld, hone]
        rfl
      · rw [hlog, resolvedIn_append, hresolved, hone]
        exact Nat.le_refl 1
    have hsame := hconnect.sameLists
    have hne : v'.s.originResolution ≠ [] := by
      rw [hsame.originResolution]
      show answer.getD [] ≠ []
      rw [hlist]
      exact hcons
    rcases hconnect.ret_cases with rfl | rfl
    · refine ⟨hsame.balanced hbalanced, hcond.imp_right fun hpends => ?_⟩
      have hret := hconnect.pends (hpends (by rw [hlist]; exact hcons))
      cases hret
    · exact ⟨hsame.balanced hbalanced, iff_of_true (hconnect.named.mpr hn) hne⟩

def Left (v : View) : Prop := v.live = false → v.s.stm ≠ some .requestConnecting

theorem Body.settle_left (h : v.Body) (ret : SocksState) : (v.settle ret).Left := by
  intro hlive hst
  rw [settle_stm, Option.some.injEq] at hst
  subst hst
  have hsettle : v.settle .requestConnecting = v.advance .requestConnecting := if_neg (by simp)
  rw [hsettle, (h.advance .requestConnecting).live] at hlive
  cases hlive

theorem Step.left {ce : ConnEvent} (h : Step c v ce v') (hs : v.Shape c) : v'.Left := by
  cases h with
  | @ready fd write io v₁ ret hen hout =>
    have hen' : v.started.Enabled fd write := by
      unfold Enabled
      rw [started_link]
      exact hen
    exact (hout.shape hs.started hen').1.settle_left ret
  | @resolved answer io v₁ ret hst hres => exact (hres.shape hs hst).1.settle_left ret

theorem Lists.of_left (h : v.Lists leaky (v.s.stm.getD .helloRead)) (hleft : v.Left)
    (hlive : v.live = false) : leaky ∨ v.s.originResolution = [] := by
  cases hst : v.s.stm with
  | none =>
    rw [hst] at h
    exact .inr h.1
  | some st =>
    rw [hst] at h
    cases st with
    | requestConnecting => exact absurd hst (hleft hlive)
    | requestWrite | copy | done | error => exact h.2
    | requestResolv => exact .inr h.1.1
    | _ => exact .inr h.1

theorem Lists.balanced {st : SocksState} (h : v.Lists leaky st) : v.s.Balanced := by
  cases st with
  | requestConnecting | requestWrite | copy | done | error => exact h.1
  | requestResolv => exact h.1.balanced
  | _ => exact Unresolved.balanced h

end View

namespace World

open View
open Lib (Reaches)

variable {w w' : World} {c : ConnId} {leaky : Prop}

theorem lists_rules (leaky : Prop) : Rules (fun g s ce => leaky ∨ FirstPends g s ce) (fun _ => True)
    fun _ v => v.Lists leaky (v.s.stm.getD .helloRead) where
  start {c v fd write io} hs hst hi _ _ := by
    rw [advance_stm]
    rw [hst] at hi
    exact ⟨hi.advance, trivial⟩
  outcome {c v fd write io v₁ ret} hs hen hi _ _ hout := by
    rw [advance_stm]
    exact ⟨(hout.lists hs hi).advance, trivial⟩
  resolved {c v answer io v₁ ret} hs hst hi _ hcond hres := by
    rw [advance_stm]
    rw [hst] at hi
    exact ⟨(hres.lists hi hcond).advance, trivial⟩
  ended {c v} hi := by
    have hsame : SameLists v v.ended := ⟨rfl, rfl, rfl⟩
    exact hi.congr hsame .rfl
  frame {c v} g hi _ := by
    have hsame : SameLists v { v with globals := g } := ⟨rfl, rfl, rfl⟩
    exact hi.congr hsame .rfl
  fresh addr _ := ⟨rfl, rfl, rfl⟩
  turnedAway addr _ := ⟨rfl, rfl, rfl⟩

theorem lists_kept (leaky : Prop) : Kept (fun g s ce => leaky ∨ FirstPends g s ce) (fun _ => True)
    fun _ v => v.Lists leaky (v.s.stm.getD .helloRead) ∧ v.Left := by
  have hkept := (lists_rules leaky).kept
  have hnone : (none : Option SocksState) ≠ some .requestConnecting := by simp
  refine ⟨fun hs hi hg hcond hstep => ?_, fun {c v} g hi hg => ⟨hkept.frame (c := c) g hi.1 hg, hi.2⟩,
    fun {c g fd} addr hg => ⟨hkept.fresh (c := c) addr hg, fun _ => hnone⟩,
    fun {c g fd} addr hg => ⟨hkept.turnedAway (c := c) addr hg, fun _ => hnone⟩⟩
  exact ⟨⟨(hkept.step hs hi.1 hg hcond hstep).1, hstep.left hs⟩, trivial⟩

/-- In every run a list that was obtained is held or was released once. -/
theorem balanced {w₀ : World} (h₀ : w₀.Initial) (h : Reachable w₀ w) {conn : Conn}
    (hc : w.conns c = some conn) : conn.s.Balanced := by
  have hruns : Runs (fun g s ce => True ∨ FirstPends g s ce) w₀ w :=
    h.mono fun _ _ _ _ _ _ _ _ => .inl trivial
  have hcarries := reaches_carries (lists_kept True) ⟨fun _ _ h => h, fun _ _ h => h⟩ h₀ trivial hruns
  obtain ⟨v, hv, -, hlists, -⟩ := hcarries.view hc
  rw [hv.conn] at hc
  cases hc
  exact hlists.balanced

/-- When first attempts do not fail at once, no struct out of use has a list. -/
theorem released_list {w₀ : World} (h₀ : w₀.Initial) (h : Runs FirstPends w₀ w) {s : Socks5}
    (hc : w.conns c = some ⟨s, false⟩) : s.originResolution = [] := by
  have hruns : Runs (fun g s ce => False ∨ FirstPends g s ce) w₀ w :=
    h.mono fun _ _ hm c ce s hcon hconn => .inr (hm c ce s hcon hconn)
  have hcarries := reaches_carries (lists_kept False) ⟨fun _ _ h => h, fun _ _ h => h⟩ h₀ trivial hruns
  obtain ⟨v, hv, -, hlists, hleft⟩ := hcarries.view hc
  rw [hv.conn, Option.some.injEq, Conn.mk.injEq] at hc
  obtain ⟨rfl, hlive⟩ := hc
  exact (hlists.of_left hleft hlive).resolve_left id

-- ---------------------------------------------------------------------------
-- Every run
-- ---------------------------------------------------------------------------

/-- No list is lost and none is freed twice. -/
structure ListsReleased (w : World) : Prop where
  /-- `socks5_new` clears no list. -/
  pool : ∀ c ∈ w.pool, ∃ s, w.conns c = some ⟨s, false⟩ ∧ s.originResolution = []
  /-- A struct that is out of use, also one that was used again, has released
  its list exactly once. -/
  released : ∀ {c s}, w.conns c = some ⟨s, false⟩ →
    freedIn s.log ++ w.freedOf c = resolvedIn s.log
  inUse : ∀ {c s}, w.conns c = some ⟨s, true⟩ →
    freedIn s.log ++ s.held = resolvedIn s.log ∧ w.freedOf c = []
  once : ∀ {c conn}, w.conns c = some conn → (resolvedIn conn.s.log).length ≤ 1

/-- A first attempt with a resolved name fails at once only when the pool is full. -/
def ListsPend (w : World) (e : Event) : Prop := maxPool ≤ w.poolSize ∨ Meets FirstPends w e

theorem Reachable.unallocated {w₀ : World} (h₀ : w₀.Initial) (h : Reachable w₀ w) :
    w.conns w.allocated = none := (h.carries h₀).wired.conns (Nat.le_refl _)

theorem parked {w₀ : World} (h₀ : w₀.Initial) (h : Reachable w₀ w) : w.Parked False := by
  induction h with
  | start => exact h₀.parked
  | next h _ hs ih => exact ih.step (Reachable.unallocated h₀ h) hs

/-- Also when a list gets lost nothing is freed twice, and nothing but what
`getaddrinfo` gave. -/
theorem freed_once {w₀ : World} (h₀ : w₀.Initial) (h : Reachable w₀ w) {conn : Conn}
    (hc : w.conns c = some conn) :
    (∃ kept, freedIn conn.s.log ++ w.freedOf c ++ kept = resolvedIn conn.s.log) ∧
      (resolvedIn conn.s.log).length ≤ 1 := by
  have hparked := parked h₀ h
  have hbalanced := balanced h₀ h hc
  refine ⟨?_, hbalanced.once⟩
  have hheld (hfreed : w.freedOf c = []) :
      freedIn conn.s.log ++ w.freedOf c ++ conn.s.held = resolvedIn conn.s.log := by
    rw [hfreed, List.append_nil]
    exact hbalanced.lists
  obtain ⟨s, live⟩ := conn
  cases live with
  | true => exact ⟨s.held, hheld (hparked.unused (by simp [hc]))⟩
  | false =>
    rcases hparked.released hc with hfreed | ⟨-, hfreed⟩
    · refine ⟨[], ?_⟩
      rw [hfreed, List.append_nil]
      exact hbalanced.lists
    · exact ⟨s.held, hheld hfreed⟩

theorem lists_phases {w₀ : World} (h₀ : w₀.Initial) (h : Reaches World.step ListsPend w₀ w) :
    Reachable w₀ w ∧ (Runs FirstPends w₀ w ∨ w.Parked True) := by
  induction h with
  | start => exact ⟨.start, .inl .start⟩
  | next _ hok hs ih =>
    obtain ⟨hreach, hphase⟩ := ih
    refine ⟨.next hreach (fun _ _ _ _ _ => trivial) hs, ?_⟩
    have hnone := hreach.unallocated h₀
    rcases hphase with hruns | hfull
    · rcases hok with hsize | hmeets
      · exact .inr (((parked h₀ hreach).fill hsize (released_list h₀ hruns)).step hnone hs)
      · exact .inl (.next hruns hmeets hs)
    · exact .inr (hfull.step hnone hs)

/-- A list that `getaddrinfo` gave goes to `freeaddrinfo` exactly once before
its struct is used again, in every run in which no first attempt fails at once
while the pool has room. -/
theorem lists_released {w₀ w : World} (h₀ : w₀.Initial) (h : Reaches World.step ListsPend w₀ w) :
    w.ListsReleased := by
  obtain ⟨hreach, hphase⟩ := lists_phases h₀ h
  have hparked := parked h₀ hreach
  have hbalanced {c : ConnId} {conn : Conn} (hc : w.conns c = some conn) := balanced h₀ hreach hc
  refine ⟨fun c hc => ?_, fun {c s} hc => ?_, fun {c s} hc => ?_, fun hc => (hbalanced hc).once⟩
  · rcases hphase with hruns | hfull
    · obtain ⟨s, hs, -⟩ := hparked.pooled hc
      exact ⟨s, hs, released_list h₀ hruns hs⟩
    · obtain ⟨s, hs, -, hlist⟩ := hfull.pooled hc
      exact ⟨s, hs, hlist trivial⟩
  · have hfreed : w.freedOf c = s.held := by
      rcases hphase with hruns | hfull
      · have hheld : s.held = [] := if_pos (released_list h₀ hruns hc)
        rcases hparked.released hc with hfreed | ⟨-, hfreed⟩
        · exact hfreed
        · exact hfreed.trans hheld.symm
      · exact (hfull.released hc).resolve_right fun hnot => hnot.1 trivial
    rw [hfreed]
    exact (hbalanced hc).lists
  · exact ⟨(hbalanced hc).lists, hparked.unused (by simp [hc])⟩

instance (g : Globals) (s : Socks5) (ce : ConnEvent) : Decidable (FirstPends g s ce) :=
  match ce with
  | .ready _ _ _ => inferInstanceAs (Decidable True)
  | .resolved answer io => inferInstanceAs (Decidable (answer.getD [] ≠ [] → io.Pends))

instance (w : World) (e : Event) : Decidable (w.ListsPend e) :=
  inferInstanceAs (Decidable (_ ∨ _))

/-- The name has one address; its connection attempt gets `connect`. -/
def oneAddress (connect : Nat) : List Event :=
  asksForName ++ [.resolved ⟨4, 0⟩ (some [⟨afInet, {}⟩]) { socket := some 5, connect := some connect }]

/-- The attempt is refused late: the list is freed, and the struct used again. -/
theorem lists_released_late : ∃ w s, Reaches World.step ListsPend (startUp {}) w ∧
    w.pool = [] ∧ w.conns 0 = some ⟨s, false⟩ ∧ resolvedIn s.log = [[⟨afInet, {}⟩]] ∧
    freedIn s.log ++ w.freedOf 0 = resolvedIn s.log := by
  have hrun : Lib.endsIn (fun w => (w.conns 0).any fun conn => w.pool = [] ∧ conn.live = false ∧
        resolvedIn conn.s.log = [[⟨afInet, {}⟩]])
      (play ListsPend (startUp {}) (oneAddress einprogress ++
        [.ready 5 true { sockError := some econnrefused }, .ready 4 true { send := some 10 },
         .accept 3 { answer := some (4, {}) }])) = true := by decide +kernel
  obtain ⟨w, hplay, hend⟩ := Lib.endsIn_iff.mp hrun
  obtain ⟨⟨s, live⟩, hc, hend⟩ := (Option.any_eq_true ..).mp hend
  obtain ⟨hpool, rfl, hlists⟩ := of_decide_eq_true hend
  have hreach := Lib.reaches_of_play hplay
  exact ⟨w, s, hreach, hpool, hc, hlists, (lists_released (startUp_initial (by decide)) hreach).released hc⟩

/-- The attempt is refused at once: the struct waits in the pool with the list,
and the list is lost when the struct is used again. -/
theorem lists_lost :
    (∃ w s, Reachable (startUp {}) w ∧ 0 ∈ w.pool ∧ w.conns 0 = some ⟨s, false⟩ ∧
      s.originResolution ≠ []) ∧
    ∃ w s, Reachable (startUp {}) w ∧ w.pool = [] ∧ w.conns 0 = some ⟨s, false⟩ ∧
      freedIn s.log ++ w.freedOf 0 ≠ resolvedIn s.log := by
  refine ⟨?_, ?_⟩
  · have hrun : Lib.endsIn (fun w => (w.conns 0).any fun conn => 0 ∈ w.pool ∧ conn.live = false ∧
          conn.s.originResolution ≠ [])
        (play (Meets anyEvent) (startUp {}) (oneAddress econnrefused ++
          [.ready 4 true { send := some 10 }])) = true := by decide +kernel
    obtain ⟨w, hplay, hend⟩ := Lib.endsIn_iff.mp hrun
    obtain ⟨⟨s, live⟩, hc, hend⟩ := (Option.any_eq_true ..).mp hend
    obtain ⟨hpool, rfl, hlist⟩ := of_decide_eq_true hend
    exact ⟨w, s, Lib.reaches_of_play hplay, hpool, hc, hlist⟩
  · have hrun : Lib.endsIn (fun w => (w.conns 0).any fun conn => w.pool = [] ∧ conn.live = false ∧
          freedIn conn.s.log ++ w.freedOf 0 ≠ resolvedIn conn.s.log)
        (play (Meets anyEvent) (startUp {}) (oneAddress econnrefused ++
          [.ready 4 true { send := some 10 }, .accept 3 { answer := some (4, {}) }])) = true := by
      decide +kernel
    obtain ⟨w, hplay, hend⟩ := Lib.endsIn_iff.mp hrun
    obtain ⟨⟨s, live⟩, hc, hend⟩ := (Option.any_eq_true ..).mp hend
    obtain ⟨hpool, rfl, hlist⟩ := of_decide_eq_true hend
    exact ⟨w, s, Lib.reaches_of_play hplay, hpool, hc, hlist⟩

end World

end Socks5d
