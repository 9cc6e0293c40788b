import Socks5d.Loop

/-!
# What an event leaves in the selector

The handlers of a connection leave the items of the others as they are, and no
event takes `max_fd` out of the table. So the passive sockets wait for
connections in every run, and the loop of `handle_iteration` stays inside the
table.
-/

namespace Socks5d.World

open Lib (Agree)

variable {w w' w₀ : World} {c : ConnId}

def SameItems (c : ConnId) (w w' : World) : Prop :=
  ∀ n item, item.data ≠ some c → (w'.sel.entry n = some item ↔ w.sel.entry n = some item)

theorem SameItems.refl (c : ConnId) (w : World) : SameItems c w w := fun _ _ _ => .rfl

theorem SameItems.trans {w'' : World} (h : SameItems c w w') (h' : SameItems c w' w'') :
    SameItems c w w'' :=
  fun n item hd => (h' n item hd).trans (h n item hd)

/-- Only the entry of one descriptor changes, and it is the connection's. -/
theorem SameItems.of_entry {n : Nat} (hother : ∀ m, m ≠ n → w'.sel.entry m = w.sel.entry m)
    (hold : ∀ item, w.sel.entry n = some item → item.data = some c)
    (hnew : ∀ item, w'.sel.entry n = some item → item.data = some c) : SameItems c w w' := by
  intro m item hd
  by_cases hm : m = n
  · subst hm
    exact ⟨fun he => absurd (hnew item he) hd, fun he => absurd (hold item he) hd⟩
  · rw [hother m hm]

theorem socks5Destroy_sel (h : w.socks5Destroy c = .ok w') : w'.sel = w.sel := by
  unfold socks5Destroy at h
  obtain ⟨s, -, h⟩ := Lib.bind_ok h
  split at h
  · cases h
    split
    · rfl
    · unfold socks5Destroy_
      split <;> rfl
  · cases h
    rfl

theorem handleClose_sel {item : Item FdHandler ConnId} (h : w.handleClose item = .ok w') :
    w'.sel = w.sel := by
  unfold handleClose at h
  split at h
  · exact socks5Destroy_sel h
  · cases h
    rfl
  · cases h
    rfl
  · cases h

-- ---------------------------------------------------------------------------
-- The calls of a handler
-- ---------------------------------------------------------------------------

theorem Rel.owned {v : View} (h : Rel w₀ c w v) {n : Nat} (hlink : v.link n ≠ .closed)
    {item : Item FdHandler ConnId} (he : w.sel.entry n = some item) : item.data = some c := by
  have hfile := h.file_of_link hlink
  rcases h.wired.items he with ⟨-, -, hsys⟩ | ⟨c', -, hd, hf⟩
  · rw [hfile] at hsys
    cases hsys
  · rw [hfile] at hf
    cases hf
    exact hd

theorem register_items {v : View} (h : Rel w₀ c w v) {fd : Int} {i : Interest}
    {sel : Selector FdHandler ConnId} {st : SelectorStatus}
    (hin : v.register fd i ≠ .error .foreign)
    (hr : selectorRegister true w.sel fd FdHandler.socks5 i (some c) = .ok (sel, st)) :
    SameItems c w { w with sel } := by
  unfold View.register at hin
  cases hvalid : invalidFd fd with
  | true =>
    rw [Selector.register_invalid _ hvalid] at hr
    cases hr
    exact .refl c w
  | false =>
    obtain ⟨n, rfl, hn, hto⟩ := valid_fd hvalid
    simp only [hvalid, Bool.false_eq_true, ↓reduceIte, hto] at hin
    have hlink : v.link n ≠ .closed := by
      intro hl
      rw [hl] at hin
      exact hin rfl
    cases he : w.sel.entry n with
    | some item =>
      rw [Selector.register_inUse h.wired.sel he] at hr
      cases hr
      exact .refl c w
    | none =>
      obtain ⟨sel', hs, -, -, -, -, hself, hother⟩ := Selector.register_spec h.wired.sel hn
        (size_lt h hn) he true FdHandler.socks5 i (some c)
      rw [hs] at hr
      cases hr
      refine .of_entry hother (fun item hi => h.owned hlink hi) fun item hi => ?_
      rw [show sel.entry n = _ from hself] at hi
      cases hi
      rfl

theorem setInterest_items {v : View} (h : Rel w₀ c w v) {fd : Int} {i : Interest}
    {sel : Selector FdHandler ConnId} {st : SelectorStatus}
    (hin : v.setInterest fd i ≠ .error .foreign)
    (hr : selectorSetInterest w.sel fd i = .ok (sel, st)) : SameItems c w { w with sel } := by
  unfold View.setInterest at hin
  cases hvalid : invalidFd fd with
  | true =>
    rw [Selector.setInterest_unregistered (Selector.registered_invalid _ hvalid)] at hr
    cases hr
    exact .refl c w
  | false =>
    obtain ⟨n, rfl, hn, hto⟩ := valid_fd hvalid
    simp only [hvalid, Bool.false_eq_true, ↓reduceIte, hto] at hin
    have hlink : v.link n ≠ .closed := by
      intro hl
      rw [hl] at hin
      exact hin rfl
    cases he : w.sel.entry n with
    | none =>
      have hreg : w.sel.registered n = .ok none := by
        rw [Selector.registered_eq _ hn (size_lt h hn), he]
      rw [Selector.setInterest_unregistered hreg] at hr
      cases hr
      exact .refl c w
    | some item =>
      obtain ⟨sel', hs, -, -, -, -, -, hself, hother⟩ :=
        Selector.setInterest_spec h.wired.sel he i
      rw [hs] at hr
      cases hr
      refine .of_entry hother (fun item hi => h.owned hlink hi) fun item' hi => ?_
      rw [show sel.entry n = _ from hself] at hi
      cases hi
      have hdata := h.owned hlink he
      exact hdata

theorem unregister_items {v : View} (h : Rel w₀ c w v) {fd : Int} {st : SelectorStatus}
    (hin : v.unregister fd ≠ .error .foreign) (hr : w.unregister fd = .ok (w', st)) :
    SameItems c w w' := by
  unfold View.unregister at hin
  unfold unregister at hr
  cases hvalid : invalidFd fd with
  | true =>
    rw [Selector.registered_invalid _ hvalid] at hr
    cases hr
    exact .refl c _
  | false =>
    obtain ⟨n, rfl, hn, hto⟩ := valid_fd hvalid
    simp only [hvalid, Bool.false_eq_true, ↓reduceIte, hto] at hin
    have hlink : v.link n ≠ .closed := by
      intro hl
      rw [hl] at hin
      exact hin rfl
    rw [Selector.registered_eq _ hn (size_lt h hn)] at hr
    cases he : w.sel.entry n with
    | none =>
      rw [he] at hr
      cases hr
      exact .refl c _
    | some item =>
      rw [he] at hr
      obtain ⟨w₁, hclose, hr⟩ := Lib.bind_ok (show w.handleClose item >>= _ = _ from hr)
      cases hr
      have hsel := handleClose_sel hclose
      obtain ⟨-, -, -, -, hself, hother⟩ := Selector.release_spec h.wired.sel he
      refine .of_entry (n := n) (fun m hm => ?_) (fun item hi => h.owned hlink hi) fun item' hi => ?_
      · simp only [hsel]
        exact hother m hm
      · simp only [hsel] at hi
        rw [hself] at hi
        cases hi

theorem exec_items {v : View} {io : Io} {o : Call} {r : o.Answer} (h : Rel w₀ c w v)
    (hin : View.exec io c o v ≠ .error .foreign) (hr : World.exec io c o w = .ok (w', r)) :
    SameItems c w w' := by
  cases o with
  | attachment =>
    obtain ⟨s, -, hr⟩ := Lib.bind_ok hr
    cases hr
    exact .refl c _
  | update f =>
    obtain ⟨s, -, hr⟩ := Lib.bind_ok hr
    cases hr
    exact .refl c _
  | globals =>
    cases hr
    exact .refl c _
  | setGlobals f =>
    cases hr
    exact .refl c _
  | answers =>
    cases hr
    exact .refl c _
  | socket =>
    simp only [World.exec] at hr
    cases hio : io.socket with
    | none =>
      rw [hio] at hr
      cases hr
      exact .refl c _
    | some n =>
      rw [hio] at hr
      obtain ⟨w₁, hopen, hr⟩ := Lib.bind_ok hr
      cases hr
      unfold openFile at hopen
      split at hopen
      · cases hopen
        exact .refl c _
      · cases hopen
  | close fd =>
    cases hr
    unfold World.close
    split <;> exact .refl c _
  | register fd interest =>
    obtain ⟨⟨sel, st⟩, hreg, hr⟩ := Lib.bind_ok hr
    cases hr
    exact register_items h hin hreg
  | unregister fd => exact unregister_items h hin hr
  | setInterest fd interest =>
    obtain ⟨⟨sel, st⟩, hreg, hr⟩ := Lib.bind_ok hr
    cases hr
    exact setInterest_items h hin hreg
  | spawn key =>
    cases hr
    exact .refl c _
  | fail f => cases hr

theorem handle_items {v : View} (hw : w.Wired) (hv : w.Shows c v) {io : Io} {p : Handler Unit}
    {Q : View → Unit → Prop} {E : Fault → Prop} (hm : Lib.Prog.Meets (View.exec io c) p v Q E)
    (hE : ¬ E .foreign) (hr : w.handle io c p = .ok w') : SameItems c w w' := by
  have hin : p.run (View.exec io c) v ≠ .error .foreign := by
    intro he
    unfold Lib.Prog.Meets at hm
    rw [he] at hm
    exact hE hm
  have hcall (o : Call) (w₁ : World) (v₁ : View) (hR : Rel w c w₁ v₁ ∧ SameItems c w w₁)
      (hin : View.exec io c o v₁ ≠ .error .foreign) :
      Agree (Excused w io c) (fun w' v' => Rel w c w' v' ∧ SameItems c w w') (World.exec io c o w₁)
        (View.exec io c o v₁) := by
    have hagree := exec_agrees io o w₁ v₁ hR.1 hin
    have hitems {w₂ : World} {a : o.Answer} (hx : World.exec io c o w₁ = .ok (w₂, a)) :
        SameItems c w w₂ := hR.2.trans (exec_items hR.1 hin hx)
    generalize World.exec io c o w₁ = x at hagree hitems ⊢
    generalize View.exec io c o v₁ = y at hagree ⊢
    cases hagree with
    | excuse he => exact .excuse he _
    | fault f => exact .fault f
    | done a hrel => exact .done a ⟨hrel, hitems rfl⟩
  have hagree := Lib.Prog.run_agrees hcall p ⟨⟨hw, hv, .refl c w⟩, .refl c w⟩ hin
  unfold handle at hr
  generalize p.run (World.exec io c) w = x at hr hagree
  generalize p.run (View.exec io c) v = y at hagree
  cases hagree with
  | excuse he => cases hr
  | fault f => cases hr
  | done a hR =>
    cases hr
    exact hR.2

-- ---------------------------------------------------------------------------
-- The bound of the table
-- ---------------------------------------------------------------------------

theorem exec_bounded {io : Io} (o : Call) (w w' : World) (r : o.Answer) (h : w.sel.Bounded)
    (hr : World.exec io c o w = .ok (w', r)) : w'.sel.Bounded := by
  cases o with
  | attachment =>
    obtain ⟨s, -, hr⟩ := Lib.bind_ok hr
    cases hr
    exact h
  | update f =>
    obtain ⟨s, -, hr⟩ := Lib.bind_ok hr
    cases hr
    exact h
  | globals =>
    cases hr
    exact h
  | setGlobals f =>
    cases hr
    exact h
  | answers =>
    cases hr
    exact h
  | socket =>
    simp only [World.exec] at hr
    cases hio : io.socket with
    | none =>
      rw [hio] at hr
      cases hr
      exact h
    | some n =>
      rw [hio] at hr
      obtain ⟨w₁, hopen, hr⟩ := Lib.bind_ok hr
      cases hr
      unfold openFile at hopen
      split at hopen
      · cases hopen
        exact h
      · cases hopen
  | close fd =>
    cases hr
    unfold World.close
    split <;> exact h
  | register fd interest =>
    obtain ⟨⟨sel, st⟩, hreg, hr⟩ := Lib.bind_ok hr
    cases hr
    exact h.register hreg
  | unregister fd =>
    simp only [World.exec, unregister] at hr
    obtain ⟨r', hreg, hr⟩ := Lib.bind_ok hr
    obtain rfl | ⟨n, item, rfl, rfl, he⟩ := Selector.registered_cases hreg
    · cases hr
      exact h
    · obtain ⟨w₁, hclose, hr⟩ := Lib.bind_ok (show w.handleClose item >>= _ = _ from hr)
      cases hr
      simp only [handleClose_sel hclose]
      exact h.release he
  | setInterest fd interest =>
    obtain ⟨⟨sel, st⟩, hreg, hr⟩ := Lib.bind_ok hr
    cases hr
    exact h.setInterest hreg
  | spawn key =>
    cases hr
    exact h
  | fail f => cases hr

theorem handle_bounded {io : Io} {p : Handler Unit} (h : w.sel.Bounded)
    (hr : w.handle io c p = .ok w') : w'.sel.Bounded := by
  unfold handle at hr
  cases hrun : p.run (World.exec io c) w with
  | error f =>
    rw [hrun] at hr
    cases hr
  | ok r =>
    rw [hrun] at hr
    cases hr
    exact Lib.Prog.run_keeps (fun o s s' r => exec_bounded o s s' r) p h hrun

theorem accept_items (hw : w.Wired) (h : w.sel.Bounded) {a : Accept}
    (hr : w.passiveAccept a = .ok w') : SameItems w.allocated w w' ∧ w'.sel.Bounded := by
  unfold passiveAccept at hr
  cases hans : a.answer with
  | none =>
    rw [hans] at hr
    cases hr
    exact ⟨.refl _ _, h⟩
  | some p =>
    obtain ⟨client, addr⟩ := p
    rw [hans] at hr
    obtain ⟨w₁, hopen, hr⟩ := Lib.bind_ok hr
    have hfile : w.files client = none ∧
        w₁ = { w with files := Function.update w.files client (some (.conn w.allocated)) } := by
      unfold openFile at hopen
      split at hopen
      · rename_i hf
        cases hopen
        exact ⟨hf, rfl⟩
      · cases hopen
    obtain ⟨hfile, rfl⟩ := hfile
    have hsel (fd : Int) (w : World) : (w.close fd).sel = w.sel := by
      unfold World.close
      split <;> rfl
    have hkeep {w' : World} (hs : w'.sel = w.sel) : SameItems w.allocated w w' ∧ w'.sel.Bounded := by
      refine ⟨fun n item _ => by rw [hs], hs ▸ h⟩
    simp only [] at hr
    split at hr
    · cases hr
      exact hkeep (hsel _ _)
    · split at hr
      · cases hr
        exact hkeep (hsel _ _)
      · rename_i w₂ c hnew
        obtain ⟨hsel₂, rfl⟩ : w₂.sel = w.sel ∧ c = w.allocated := by
          unfold socks5New at hnew
          split at hnew
          · cases hnew
          · cases hnew
            exact ⟨rfl, rfl⟩
        obtain ⟨⟨sel, st⟩, hreg, hr⟩ := Lib.bind_ok hr
        rw [hsel₂] at hreg
        have hentry : w.sel.entry client = none := by
          cases he : w.sel.entry client with
          | none => rfl
          | some item =>
            rcases hw.items he with ⟨-, -, hf⟩ | ⟨c', -, -, hf⟩ <;> rw [hfile] at hf <;> cases hf
        have hitems : SameItems w.allocated w { w₂ with sel } ∧ sel.Bounded := by
          refine ⟨?_, h.register hreg⟩
          rcases Selector.fd_cases client with hinvalid | ⟨n, hn, hlt⟩
          · rw [Selector.register_invalid _ hinvalid] at hreg
            cases hreg
            exact fun n item _ => by rfl
          · obtain rfl : client = n := Int.ofNat.inj hn
            obtain ⟨sel', hs, -, -, -, -, hself, hother⟩ := Selector.register_spec hw.sel hlt
              (by rw [hw.size]; omega) hentry true FdHandler.socks5 opRead (some w.allocated)
            rw [hs] at hreg
            cases hreg
            refine .of_entry (n := client) hother (fun item he => ?_) fun item he => ?_
            · rw [hentry] at he
              cases he
            · rw [show sel.entry client = _ from hself] at he
              cases he
              rfl
        simp only [] at hr
        split at hr
        · cases hr
          exact hitems
        · have hs := (socks5Destroy_sel hr).trans (hsel _ _)
          exact ⟨fun n item hd => by rw [hs]; exact hitems.1 n item hd, hs ▸ hitems.2⟩

end Socks5d.World
