import Socks5d.Loop

/-!
# Answers that wait for their notification

A thread of the resolver stores its answer before the main thread is told of
it. `World.overlay` adds such answers to a world in which they are not stored
yet. No event of another connection sees them: it commutes with the overlay.
-/

namespace Socks5d

def Socks5.answered (s : Socks5) (answer : Option (List AddrInfo)) : Socks5 :=
  { s with
    originResolution := answer.getD []
    request := { s.request with
      status := if answer = none then .generalSocksServerFailure else s.request.status }
    log := s.log ++ [.resolved (answer.getD [])] }

abbrev Stored := ConnId → Option (Option (List AddrInfo))

def Conn.answered (conn : Conn) : Option (Option (List AddrInfo)) → Conn
  | none => conn
  | some answer => { conn with s := conn.s.answered answer }

namespace World

open Lib (Agree)

def overlay (w : World) (st : Stored) : World :=
  { w with
    conns c := (w.conns c).map (·.answered (st c))
    threads := w.threads.filter fun key => (st key.conn).isNone }

variable {w w₀ : World} {c : ConnId} {st : Stored}

theorem overlay_none (w : World) : w.overlay (fun _ => none) = w := by
  have hthreads : w.threads.filter (fun _ => true) = w.threads := List.filter_true _
  have hconns : (fun c => (w.conns c).map (·.answered none)) = w.conns := by
    funext c
    exact Option.map_id' ..
  simp only [overlay, Option.isNone_none, hthreads, hconns]

theorem overlay_conns (hc : st c = none) : (w.overlay st).conns c = w.conns c := by
  simp only [overlay, hc, Conn.answered, Option.map_id']

theorem overlay_deref (hc : st c = none) : (w.overlay st).deref c = w.deref c := by
  simp only [deref, overlay_conns hc]

theorem overlay_setConn (hc : st c = none) (conn : Conn) :
    (w.overlay st).setConn c conn = (w.setConn c conn).overlay st := by
  have hconns : Function.update (w.overlay st).conns c (some conn) =
      ((w.setConn c conn).overlay st).conns := by
    funext c'
    by_cases hne : c' = c
    · subst hne
      simp only [overlay, setConn, Function.update_self, hc, Conn.answered, Option.map_some]
    · simp only [overlay, setConn, Function.update_of_ne hne]
  simp only [setConn] at hconns ⊢
  rw [hconns]
  rfl

theorem overlay_close (w : World) (st : Stored) (fd : Int) :
    (w.overlay st).close fd = (w.close fd).overlay st := by
  unfold close
  split <;> rfl

theorem overlay_openFile (w : World) (st : Stored) (n : Nat) (owner : Owner) :
    (w.overlay st).openFile n owner = (w.openFile n owner).map (·.overlay st) := by
  have hfiles : (w.overlay st).files n = w.files n := rfl
  unfold openFile
  rw [hfiles]
  cases w.files n <;> rfl

theorem overlay_destroy (hc : st c = none) :
    (w.overlay st).socks5Destroy c = (w.socks5Destroy c).map (·.overlay st) := by
  unfold socks5Destroy
  rw [overlay_deref hc]
  cases w.deref c with
  | error f => rfl
  | ok s =>
    simp only [Bind.bind, Except.bind]
    split
    · rw [overlay_setConn hc]
      show Except.ok _ = Except.map _ (Except.ok _)
      simp only [Except.map]
      congr 1
      show (if w.poolSize < maxPool then _ else _) = World.overlay (if w.poolSize < maxPool then _ else _) st
      split
      · rfl
      · unfold socks5Destroy_
        split <;> rfl
    · rw [overlay_setConn hc]
      rfl

-- ---------------------------------------------------------------------------
-- The calls of a handler
-- ---------------------------------------------------------------------------

theorem overlay_unregister {v : View} (h : Rel w₀ c w v) (hc : st c = none) {fd : Int}
    (hin : v.unregister fd ≠ .error .foreign) :
    (w.overlay st).unregister fd = (w.unregister fd).map (Prod.map (·.overlay st) id) := by
  unfold unregister
  show (w.sel.registered fd >>= _) = _
  unfold View.unregister at hin
  cases hvalid : invalidFd fd with
  | true =>
    rw [Selector.registered_invalid _ hvalid]
    rfl
  | false =>
    obtain ⟨n, rfl, hn, hto⟩ := valid_fd hvalid
    simp only [hvalid, Bool.false_eq_true, ↓reduceIte, hto] at hin
    rw [Selector.registered_eq _ hn (size_lt h hn)]
    cases hlink : v.link n with
    | closed =>
      rw [hlink] at hin
      exact absurd rfl hin
    | opened =>
      rw [h.entry_opened hlink]
      rfl
    | watched i =>
      obtain ⟨item, he, hh, hd, -⟩ := h.entry_watched hlink
      have hclose (w : World) : w.handleClose item = w.socks5Destroy c := by
        simp only [handleClose, hh, hd]
      simp only [he, Bind.bind, Except.bind, hclose, overlay_destroy hc]
      cases w.socks5Destroy c <;> rfl

/-- A call of the connection `c` commutes with answers stored for others. -/
theorem overlay_exec {v : View} (io : Io) (hc : st c = none) (o : Call) (h : Rel w₀ c w v)
    (hin : View.exec io c o v ≠ .error .foreign) :
    World.exec io c o (w.overlay st) = (World.exec io c o w).map (Prod.map (·.overlay st) id) := by
  cases o with
  | attachment =>
    simp only [World.exec, overlay_deref hc]
    cases w.deref c <;> rfl
  | update f =>
    simp only [World.exec, overlay_deref hc]
    cases w.deref c with
    | error f => rfl
    | ok s =>
      simp only [Bind.bind, Except.bind, overlay_setConn hc]
      rfl
  | globals => rfl
  | setGlobals f => rfl
  | answers => rfl
  | socket =>
    simp only [World.exec]
    cases io.socket with
    | none => rfl
    | some n =>
      simp only [overlay_openFile, Bind.bind, Except.bind]
      cases w.openFile n (.conn c) <;> rfl
  | close fd =>
    simp only [World.exec, overlay_close]
    rfl
  | register fd interest =>
    simp only [World.exec]
    show (selectorRegister true w.sel fd FdHandler.socks5 interest (some c) >>= _) = _
    cases selectorRegister true w.sel fd FdHandler.socks5 interest (some c) <;> rfl
  | unregister fd => exact overlay_unregister h hc hin
  | setInterest fd interest =>
    simp only [World.exec]
    show (selectorSetInterest w.sel fd interest >>= _) = _
    cases selectorSetInterest w.sel fd interest <;> rfl
  | spawn key =>
    simp only [World.exec, View.exec] at hin ⊢
    by_cases hk : key.conn = c
    · have hfilter : (w.threads ++ [key]).filter (fun key => (st key.conn).isNone) =
          w.threads.filter (fun key => (st key.conn).isNone) ++ [key] := by
        rw [List.filter_append]
        simp [hk, hc]
      show Except.ok _ = Except.ok _
      simp only [overlay, hfilter, Prod.map, id]
    · rw [if_neg hk] at hin
      exact absurd rfl hin
  | fail f => rfl

/-- A handler of the connection `c` commutes with answers stored for others. -/
theorem overlay_handle {v : View} (hw : w.Wired) (hv : w.Shows c v) (hc : st c = none) {io : Io}
    {p : Handler Unit} {Q : View → Unit → Prop} {E : Fault → Prop}
    (hm : Lib.Prog.Meets (View.exec io c) p v Q E) (hE : ¬ E .foreign) :
    (w.overlay st).handle io c p = (w.handle io c p).map (·.overlay st) := by
  have hin : p.run (View.exec io c) v ≠ .error .foreign := by
    intro he
    unfold Lib.Prog.Meets at hm
    rw [he] at hm
    exact hE hm
  have hrun := Lib.Prog.run_commutes (f := (·.overlay st)) (R := Rel w c)
    (fun o w' v' hr hv' => exec_agrees io o w' v' hr hv')
    (fun o w' v' hr hv' => overlay_exec io hc o hr hv') p
    (⟨hw, hv, SameOthers.refl c w⟩ : Rel w c w v) hin
  unfold handle
  rw [hrun]
  cases p.run (World.exec io c) w <;> rfl

-- ---------------------------------------------------------------------------
-- The other events
-- ---------------------------------------------------------------------------

theorem overlay_accept (hc : st w.allocated = none) (a : Accept) :
    (w.overlay st).passiveAccept a = (w.passiveAccept a).map (·.overlay st) := by
  unfold passiveAccept
  cases a.answer with
  | none => rfl
  | some p =>
    obtain ⟨client, addr⟩ := p
    show ((w.overlay st).openFile client (.conn w.allocated) >>= _) =
      Except.map _ (w.openFile client (.conn w.allocated) >>= _)
    rw [overlay_openFile]
    cases hopen : w.openFile client (.conn w.allocated) with
    | error f => rfl
    | ok w₁ =>
      have hallocated : w₁.allocated = w.allocated := by
        unfold openFile at hopen
        split at hopen
        · cases hopen
          rfl
        · cases hopen
      have hc₁ : st w₁.allocated = none := hallocated ▸ hc
      simp only [Except.map, Bind.bind, Except.bind]
      split
      · rw [overlay_close]
        rfl
      · have hnew : (w₁.overlay st).socks5New a.malloc client addr =
            (w₁.socks5New a.malloc client addr).map (Prod.map (·.overlay st) id) := by
          unfold socks5New
          show (if w₁.pool = [] ∧ a.malloc = false then _ else _) =
            Option.map _ (if w₁.pool = [] ∧ a.malloc = false then _ else _)
          split
          · rfl
          · have hset := overlay_setConn (w := w₁) hc₁
              ⟨{ clientFd := client, clientAddr := addr }, true⟩
            have hconns := congrArg World.conns hset
            simp only [setConn] at hconns
            simp only [Option.map_some, Prod.map, id]
            simp only [overlay] at hconns ⊢
            rw [hconns]
        rw [hnew]
        cases hs : w₁.socks5New a.malloc client addr with
        | none =>
          simp only [Option.map_none, overlay_close]
          rfl
        | some r =>
          obtain ⟨w₂, c⟩ := r
          have hc₂ : st c = none := by
            unfold socks5New at hs
            split at hs
            · cases hs
            · cases hs
              exact hc₁
          simp only [Option.map_some, Prod.map, id]
          show (selectorRegister true w₂.sel client FdHandler.socks5 opRead (some c) >>= _) =
            Except.map _ (selectorRegister true w₂.sel client FdHandler.socks5 opRead (some c) >>= _)
          cases selectorRegister true w₂.sel client FdHandler.socks5 opRead (some c) with
          | error f => rfl
          | ok r =>
            obtain ⟨sel, status⟩ := r
            simp only [Bind.bind, Except.bind]
            split
            · rfl
            · have hover : ({ w₂.overlay st with sel } : World) =
                ({ w₂ with sel } : World).overlay st := rfl
              rw [hover, overlay_close, overlay_destroy hc₂]

theorem overlay_admin {e : Event} (he : e.isAdmin = true) (w : World) (st : Stored) :
    ∃ w', w.step e = some (.ok w') ∧ (w.overlay st).step e = some (.ok (w'.overlay st)) ∧
      w'.sel = w.sel ∧ w'.threads = w.threads := by
  cases e with
  | registerUser uname passwd => exact ⟨_, rfl, rfl, rfl, rfl⟩
  | unregisterUser uname => exact ⟨_, rfl, rfl, rfl, rfl⟩
  | toggleDisector value => exact ⟨_, rfl, rfl, rfl, rfl⟩
  | ready => cases he
  | accept => cases he
  | resolved => cases he

end World

end Socks5d
