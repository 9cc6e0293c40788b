import Socks5d.Aborts
import Socks5d.Relay

/-!
# Whose a descriptor is

Three tables speak of a connection's descriptors: the kernel's, the selector's and
the fields `client_fd` and `origin_fd` of its struct. As long as `fcntl` succeeds
they say the same in every state of every run, so a struct that was released has no
descriptor open and no item in the selector. When `fcntl` fails, `request_connect`
goes on with a socket that is open but not registered.
-/

namespace Socks5d

def FcntlSucceeds : World.Condition := fun _ _ ce => ce.io.nio = true

namespace View

variable {v v' : View} {io : Io} {c : ConnId}

def Recorded (v : View) : SocksState → Prop
  | .requestConnecting => v.peer ≠ .opened
  | .requestWrite => v.peer ≠ .opened ∧
      (v.peer = .closed → v.s.originFd = -1 ∨ v.s.originFd = v.s.clientFd)
  | _ => True

theorem Recorded.advance {next : SocksState} (h : v.Recorded next) :
    (v.advance next).Recorded next := by
  unfold View.advance
  split
  · exact h
  · cases next <;> exact h

theorem Connect.recorded {ret : SocksState} (h : Connect io v v' ret) (hnio : io.nio = true)
    (hpeer : v.peer = .closed) :
    v'.peer ≠ .opened ∧ (v'.peer = .closed → v'.s.originFd = -1) := by
  cases h with
  | noSocket => exact ⟨by simp [replied, socketed, hpeer], fun _ => rfl⟩
  | noNio _ _ hno =>
    rw [hnio] at hno
    cases hno
  | failed | unregistered => exact ⟨by simp [replied, gaveUp], fun _ => rfl⟩
  | pending => exact ⟨by simp, by simp⟩

theorem Connect.recorded_first {ret : SocksState} (h : Connect io v v' ret) (hnio : io.nio = true)
    (hpeer : v.peer = .closed) : v'.Recorded ret := by
  obtain ⟨hopen, hclosed⟩ := h.recorded hnio hpeer
  cases h with
  | noNio | pending => exact hopen
  | noSocket | failed | unregistered => exact ⟨hopen, fun hp => .inl (hclosed hp)⟩

theorem Outcome.recorded {fd : Nat} {write : Bool} {ret : SocksState}
    (h : Outcome io c v fd write v' ret) (hs : v.Shape c) (hen : v.Enabled fd write)
    (hcond : v.s.stm = some .helloRead ∨ io.nio = true)
    (hv : v.Recorded (v.s.stm.getD .helloRead)) : v'.Recorded ret := by
  have hat {st : SocksState} (hst : v.s.stm = some st) : v.Recorded st := by
    rw [hst] at hv
    exact hv
  cases h with
  | requestDone hst _ _ _ hprocess =>
    obtain ⟨-, ⟨hpeer, horigin⟩, -⟩ := hs.phase_of hst
    have hnio : io.nio = true := hcond.resolve_left (by simp [hst])
    cases hprocess with
    | refused => exact ⟨by simp [replied, received, hpeer], fun _ => .inl horigin⟩
    | resolve => trivial
    | connect _ hconnect => exact hconnect.recorded_first hnio hpeer
  | @concluded _ status _ hst =>
    have hopen : v.peer ≠ .opened := hat hst
    have hlinks := (hs.phase_of hst).1
    rcases hlinks.enabled hen with ⟨rfl, -, hunwatched⟩ | ⟨hne, -, -, -, hpeer, -⟩
    · refine ⟨by simpa [View.concluded, noted] using hopen, fun _ => ?_⟩
      -- the connection has no origin socket, and may take its own descriptor for one
      have halone : v.Alone := by
        rcases hlinks with ⟨-, hp, -⟩ | ⟨-, ha⟩ | ⟨-, hp, -⟩
        · simp [hp, Link.isWatched] at hunwatched
        · exact ha
        · exact absurd hp hopen
      by_cases hok : status = .succeeded
      · exact .inr (by simp [View.concluded, noted, hok, hs.body.clientFd])
      · exact .inl (by simp [View.concluded, noted, hok, halone.2])
    · refine ⟨by simp [View.concluded, noted, hne], fun hclosed => ?_⟩
      simp [View.concluded, noted, hne] at hclosed
  | retried hst _ _ _ _ hconnect =>
    have hnio : io.nio = true := hcond.resolve_left (by simp [hst])
    exact (hconnect.recorded hnio rfl).1
  | replyPart hst => exact hat hst
  | helloDone | helloSent | authDone | requestMore => split <;> trivial
  | copyReceived | copyEnded | copySent | copyFailed =>
    unfold copyNext
    split <;> trivial
  | _ => trivial

/-- An origin socket is registered, and its descriptor is in the struct. -/
theorem Shape.recorded (hs : v.Shape c) (hv : v.Recorded (v.s.stm.getD .helloRead)) :
    (v.peer = .closed ∧ (v.s.originFd = -1 ∨ v.s.originFd = v.s.clientFd)) ∨
      (∃ i, v.peer = .watched i) ∧ v.s.originFd = v.peerFd := by
  have hphase := hs.phase
  cases hst : v.s.stm.getD .helloRead <;> rw [hst] at hphase hv
  case requestConnecting =>
    rcases hphase.1 with ⟨-, hp, ho⟩ | ⟨-, hp, ho⟩ | ⟨-, hp, -⟩
    · exact .inr ⟨⟨_, hp⟩, ho⟩
    · exact .inl ⟨hp, .inl ho⟩
    · exact absurd hp hv
  case requestWrite =>
    rcases hphase.1 with ⟨-, ⟨hp, ho⟩, -⟩ | ⟨-, hp, ho⟩ | ⟨-, hp⟩
    · exact .inl ⟨hp, .inl ho⟩
    · exact .inr ⟨⟨_, hp⟩, ho⟩
    · cases hpeer : v.peer with
      | closed => exact .inl ⟨rfl, hv.2 hpeer⟩
      | opened => exact absurd hpeer hv.1
      | watched => simp [hpeer, Link.isWatched] at hp
  case copy => exact .inr ⟨hphase.2.1, hphase.2.2.1⟩
  case done | error => exact hphase.2.1.imp (fun ha => ⟨ha.1, .inl ha.2⟩) id
  all_goals exact .inl ⟨hphase.2.1.1, .inl hphase.2.1.2⟩

theorem Shape.link_open (hs : v.Shape c) (hv : v.Recorded (v.s.stm.getD .helloRead)) (n : Nat) :
    (v.link n ≠ .closed ↔ (n : Int) = v.s.clientFd ∨ (n : Int) = v.s.originFd) ∧
      (v.link n ≠ .closed ↔ (v.link n).isWatched = true) := by
  obtain ⟨i, hi⟩ := hs.client
  have hfd := hs.body.clientFd
  have hne := hs.body.peer_ne
  unfold link
  by_cases hn : n = v.fd
  · subst hn
    simp [hi, hfd, Link.isWatched]
  · rw [if_neg hn]
    have hclient : (n : Int) ≠ v.s.clientFd := by omega
    rcases hs.recorded hv with ⟨hp, ho⟩ | ⟨⟨j, hj⟩, ho⟩
    · have hno : (n : Int) ≠ v.s.originFd := by omega
      simp [hp, hclient, hno, Link.isWatched]
    · by_cases hpn : n = v.peerFd
      · subst hpn
        simp [hj, ho, Link.isWatched]
      · have hno : (n : Int) ≠ v.s.originFd := by omega
        simp [hpn, hclient, hno, Link.isWatched]

end View

namespace World

open View

variable {w₀ w : World} {c : ConnId}

theorem recorded_rules : Rules FcntlSucceeds (fun _ => True) fun _ v =>
    v.live = true → v.Recorded (v.s.stm.getD .helloRead) where
  start _ _ _ _ _ := by
    rw [advance_stm]
    exact ⟨fun _ => trivial, trivial⟩
  outcome hs hen hv _ hcond hout := by
    rw [advance_stm]
    exact ⟨fun _ => (hout.recorded hs hen hcond (hv hs.body.live)).advance, trivial⟩
  resolved {c v answer io v₁ ret} hs hst hv _ hcond hres := by
    rw [advance_stm]
    refine ⟨fun _ => Recorded.advance ?_, trivial⟩
    obtain ⟨-, ⟨hpeer, horigin⟩, -⟩ := hs.phase_of hst
    cases hres with
    | unreachable => exact ⟨by simp [replied, answered, hpeer], fun _ => .inl horigin⟩
    | connect _ hconnect => exact hconnect.recorded_first hcond hpeer
  ended _ hlive := by cases hlive
  frame {c v} g hv _ := by
    intro hlive
    show View.Recorded _ (v.s.stm.getD .helloRead)
    have hv := hv hlive
    cases hst : v.s.stm.getD .helloRead <;> rw [hst] at hv <;> exact hv
  fresh _ _ _ := trivial
  turnedAway _ _ _ := trivial

theorem link_eq_closed {n : Nat} : w.link c n = .closed ↔ w.files n ≠ some (.conn c) := by
  unfold World.link
  by_cases hfile : w.files n = some (.conn c)
  · cases w.sel.entry n <;> simp [hfile]
  · simp [hfile]

theorem Wired.link_watched (hw : w.Wired) {n : Nat} :
    (w.link c n).isWatched = true ↔ ∃ item, w.sel.entry n = some item ∧ item.data = some c := by
  constructor
  · intro h
    unfold World.link at h
    split at h
    · rename_i hfile
      split at h
      · rename_i item hentry
        rcases hw.items hentry with ⟨-, -, hsys⟩ | ⟨c', -, hd, hf⟩
        · rw [hfile] at hsys
          cases hsys
        · rw [hfile] at hf
          cases hf
          exact ⟨item, hentry, hd⟩
      · cases h
    · cases h
  · rintro ⟨item, hentry, hd⟩
    rcases hw.items hentry with ⟨-, hnone, -⟩ | ⟨c', -, hd', hf⟩
    · rw [hd] at hnone
      cases hnone
    · rw [hd] at hd'
      cases hd'
      rw [World.link, if_pos hf, hentry]
      rfl

/-- The kernel, the structs and the selector agree on the descriptors of the
connections: in every run in which `fcntl` succeeds, in every state, a descriptor is
open for a connection if and only if the connection is in use and the descriptor is
its `client_fd` or its `origin_fd`, and if and only if the selector has an item for
it with the connection's struct. -/
theorem descriptors_agree (h₀ : w₀.Initial) (h : Runs FcntlSucceeds w₀ w) (n : Nat) (c : ConnId) :
    (w.files n = some (.conn c) ↔ ∃ s, w.conns c = some ⟨s, true⟩ ∧
      ((n : Int) = s.clientFd ∨ (n : Int) = s.originFd)) ∧
    (w.files n = some (.conn c) ↔ ∃ item, w.sel.entry n = some item ∧ item.data = some c) := by
  have hcarries := reaches_carries recorded_rules.kept ⟨fun _ _ h => h, fun _ _ h => h⟩ h₀ trivial h
  have hwired := hcarries.wired
  rw [← hwired.link_watched]
  have hopen : w.files n = some (.conn c) ↔ w.link c n ≠ .closed := by
    rw [ne_eq, link_eq_closed, not_not]
  rw [hopen]
  by_cases hc : c < w.allocated
  · obtain ⟨v, hv, hshape | hended, hrecorded⟩ := hcarries.views c hc
    · obtain ⟨hnamed, hwatched⟩ := hshape.link_open (hrecorded hshape.body.live) n
      rw [hv.link]
      refine ⟨hnamed.trans ⟨fun hn => ⟨v.s, ?_, hn⟩, ?_⟩, hwatched⟩
      · rw [hv.conn, hshape.body.live]
      · rintro ⟨s, hs, hn⟩
        rw [hv.conn, Option.some.injEq, Conn.mk.injEq] at hs
        obtain ⟨rfl, -⟩ := hs
        exact hn
    · have hclosed : v.link n = .closed := by simp [View.link, hended.client, hended.peer]
      rw [hv.link, hclosed]
      refine ⟨by simp [hv.conn, hended.live], by simp [Link.isWatched]⟩
  · have hnone := hwired.conns (Nat.not_lt.mp hc)
    have hclosed : w.link c n = .closed := link_eq_closed.mpr fun hf => hc (hwired.files hf)
    rw [hclosed, hnone]
    simp [Link.isWatched]

instance (g : Globals) (s : Socks5) (ce : ConnEvent) : Decidable (FcntlSucceeds g s ce) :=
  inferInstanceAs (Decidable (_ = true))

/-- A connected client has two descriptors. -/
theorem descriptors_agree_connected : ∃ w, Runs FcntlSucceeds (startUp {}) w ∧
    w.files 5 = some (.conn 0) ∧ ∃ item, w.sel.entry 5 = some item ∧ item.data = some 0 := by
  have hrun : Lib.endsIn (fun w => (w.files 5 == some (.conn 0)))
      (play (Meets FcntlSucceeds) (startUp {}) connected) = true := by decide +kernel
  obtain ⟨w, hplay, hfile⟩ := Lib.endsIn_iff.mp hrun
  have hruns := Lib.reaches_of_play hplay
  have hopen : w.files 5 = some (.conn 0) := by simpa using hfile
  exact ⟨w, hruns, hopen,
    (descriptors_agree (startUp_initial (by decide)) hruns 5 0).2.mp hopen⟩

end World

end Socks5d
