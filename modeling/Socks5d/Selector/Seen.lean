import Socks5d.Selector.Descriptors

/-!
# The part of a selector that a component knows

Components that share a selector know each other's handlers by other names, or
not at all. What one of them sees is a selector of its own, which is in order when
the whole one is.
-/

namespace Socks5d.Selector

variable {η η' δ δ' : Type}

/-- An item for those who know the handler by another name. They see no item with a
handler that they do not know, and no attachment. -/
def seenItem (view : η → Option η') (item : Item η δ) : Item η' δ' :=
  match item.handler.bind view with
  | none => {}
  | some handler =>
    { fd := item.fd, interest := item.interest, handler := some handler, serial := item.serial }

def seenAs (view : η → Option η') (s : Selector η δ) : Selector η' δ' :=
  let fds : List (Item η' δ') := s.fds.map (seenItem view)
  { fds
    maxFd := s.maxFd
    masterR := fun n => s.masterR n && fds[n]?.any Item.used
    masterW := fun n => s.masterW n && fds[n]?.any Item.used
    serial := s.serial }

structure Seen (view : η → Option η') (item : Item η δ) (item' : Item η' δ') : Prop where
  fd : item'.fd = item.fd
  interest : item'.interest = item.interest
  handler : ∃ handler handler', item.handler = some handler ∧ view handler = some handler' ∧
    item'.handler = some handler'
  data : item'.data = none
  serial : item'.serial = item.serial

variable {view : η → Option η'} {s : Selector η δ}

theorem used_seenItem {item : Item η δ} (h : (seenItem view item : Item η' δ').used = true) :
    item.used = true ∧ Seen view item (seenItem view item : Item η' δ') := by
  unfold seenItem at h ⊢
  cases hh : item.handler.bind view with
  | none =>
    rw [hh] at h
    cases h
  | some handler' =>
    rw [hh] at h
    obtain ⟨handler, hitem, hview⟩ := Option.bind_eq_some_iff.mp hh
    exact ⟨h, rfl, rfl, ⟨handler, handler', hitem, hview, rfl⟩, rfl, rfl⟩

theorem entry_seenAs {n : Nat} {item' : Item η' δ'} (h : (s.seenAs view).entry n = some item') :
    ∃ item, s.entry n = some item ∧ Seen view item item' := by
  have hget := getElem?_of_entry h
  obtain ⟨item, hitem, rfl⟩ := List.getElem?_map ▸ hget |> Option.map_eq_some_iff.mp
  obtain ⟨hused, hseen⟩ := used_seenItem (used_of_entry h)
  refine ⟨item, ?_, hseen⟩
  rw [entry, hitem, Option.filter, if_pos hused]

theorem any_seenAs (interest : Interest → Bool) (master : FdSet)
    (hm : ∀ n, master n = (s.entry n).any fun item => interest item.interest) (n : Nat) :
    (master n && (s.seenAs view : Selector η' δ').fds[n]?.any Item.used) =
      ((s.seenAs view : Selector η' δ').entry n).any fun item => interest item.interest := by
  cases he : (s.seenAs view : Selector η' δ').entry n with
  | none =>
    have hunused : (s.seenAs view : Selector η' δ').fds[n]?.any Item.used = false := by
      unfold entry at he
      cases hget : (s.seenAs view : Selector η' δ').fds[n]? with
      | none => rfl
      | some item =>
        rw [hget] at he
        simpa [Option.filter] using he
    rw [hunused, Bool.and_false]
    rfl
  | some item' =>
    obtain ⟨item, hentry, hseen⟩ := entry_seenAs he
    have hused : (s.seenAs view : Selector η' δ').fds[n]?.any Item.used = true := by
      rw [getElem?_of_entry he]
      exact used_of_entry he
    rw [hused, Bool.and_true, hm, hentry]
    exact congrArg interest hseen.interest.symm

theorem Ok.seenAs (hs : s.Ok) : (s.seenAs view : Selector η' δ').Ok := by
  constructor
  · intro n item' h
    obtain ⟨item, he, hseen⟩ := entry_seenAs h
    exact hseen.fd.trans (hs.fd_eq he)
  · intro n item' h
    obtain ⟨item, he, -⟩ := entry_seenAs h
    exact hs.lt he
  · intro n item' h
    obtain ⟨item, he, -⟩ := entry_seenAs h
    exact hs.le_maxFd he
  · exact any_seenAs Interest.read s.masterR hs.masterR
  · exact any_seenAs Interest.write s.masterW hs.masterW
  · intro n item' h
    obtain ⟨item, he, hseen⟩ := entry_seenAs h
    rw [hseen.serial]
    exact hs.serial_lt he

theorem Bounded.seenAs (hs : s.Bounded) : (s.seenAs view : Selector η' δ').Bounded := by
  constructor
  · exact hs.ok.seenAs
  · show s.maxFd < (s.fds.map (seenItem view : Item η δ → Item η' δ')).length
    rw [List.length_map]
    exact hs.maxFd

end Socks5d.Selector
