import Socks5d.Server

/-!
# One connection of the server

A handler only touches the struct it is attached to, the process-wide variables
and at most two descriptors: the client's and the origin's. `View` is that part
of the server, and `View.exec` runs the programs of the handlers over it alone.
A call that would concern another connection is the fault `foreign`.

`World.exec_agrees` compares the two interpretations: as long as the run of a
handler over the view is not `foreign`, the run over the whole server ends the
same way and leaves every other connection as it was.
-/

namespace Socks5d

inductive Link
  | closed
  | opened
  | watched (i : Interest)
  deriving DecidableEq, Repr

def Link.isWatched : Link → Bool
  | .watched _ => true
  | _ => false

structure View where
  globals : Globals
  s : Socks5
  live : Bool
  /-- The client's descriptor. -/
  fd : Nat
  client : Link
  /-- The origin's descriptor, when the peer is not closed. -/
  peerFd : Nat
  peer : Link
  threads : List Key

namespace View

def link (v : View) (n : Nat) : Link :=
  if n = v.fd then v.client else if n = v.peerFd then v.peer else .closed

def setLink (v : View) (n : Nat) (l : Link) : View :=
  if n = v.fd then { v with client := l } else { v with peer := l }

def destroy (v : View) : Except Fault View :=
  if v.live = false then .error .useAfterFree
  else if v.s.references = 1 then .ok { v with live := false }
  else .ok { v with s := { v.s with references := v.s.references - 1 } }

def socket (v : View) (n : Nat) : Except Fault View :=
  if v.client = .closed ∨ v.peer ≠ .closed then .error .foreign
  else if n = v.fd then .error .kernel
  else .ok { v with peerFd := n, peer := .opened }

def close (v : View) (fd : Int) : Except Fault View :=
  if fd < 0 then .ok v
  else
    match v.link fd.toNat with
    | .opened => .ok (v.setLink fd.toNat .closed)
    | _ => .error .foreign

def register (v : View) (fd : Int) (i : Interest) : Except Fault (View × SelectorStatus) :=
  if invalidFd fd then .ok (v, .iargs)
  else
    match v.link fd.toNat with
    | .opened => .ok (v.setLink fd.toNat (.watched i), .success)
    | .watched _ => .ok (v, .fdinuse)
    | .closed => .error .foreign

def unregister (v : View) (fd : Int) : Except Fault (View × SelectorStatus) :=
  if invalidFd fd then .ok (v, .iargs)
  else
    match v.link fd.toNat with
    | .watched _ => do return ((← v.destroy).setLink fd.toNat .opened, .success)
    | .opened => .ok (v, .iargs)
    | .closed => .error .foreign

def setInterest (v : View) (fd : Int) (i : Interest) : Except Fault (View × SelectorStatus) :=
  if invalidFd fd then .ok (v, .iargs)
  else
    match v.link fd.toNat with
    | .watched _ => .ok (v.setLink fd.toNat (.watched i), .success)
    | .opened => .ok (v, .iargs)
    | .closed => .error .foreign

def exec (io : Io) (c : ConnId) : Lib.Interp calls View Fault
  | .attachment, v => if v.live then .ok (v, v.s) else .error .useAfterFree
  | .update f, v => if v.live then .ok ({ v with s := f v.s }, ()) else .error .useAfterFree
  | .globals, v => .ok (v, v.globals)
  | .setGlobals f, v => .ok ({ v with globals := f v.globals }, ())
  | .answers, v => .ok (v, io)
  | .socket, v =>
    match io.socket with
    | none => .ok (v, -1)
    | some n => do return (← v.socket n, (n : Int))
  | .close fd, v => do return (← v.close fd, ())
  | .register fd interest, v => v.register fd interest
  | .unregister fd, v => v.unregister fd
  | .setInterest fd interest, v => v.setInterest fd interest
  | .spawn key, v =>
    if key.conn = c then .ok ({ v with threads := v.threads ++ [key] }, ()) else .error .foreign
  | .fail f, _ => .error f

end View

-- ---------------------------------------------------------------------------
-- A connection in the server
-- ---------------------------------------------------------------------------

namespace World

/-- The descriptor `n`, as far as the connection `c` is concerned. -/
def link (w : World) (c : ConnId) (n : Nat) : Link :=
  if w.files n = some (.conn c) then
    match w.sel.entry n with
    | some item => .watched item.interest
    | none => .opened
  else .closed

structure Wired (w : World) : Prop where
  size : w.sel.fds.length = fdSetSize + 1
  sel : w.sel.Ok
  items : ∀ {n item}, w.sel.entry n = some item →
    (item.handler = some .passive ∧ item.data = none ∧ w.files n = some .system) ∨
      ∃ c, item.handler = some .socks5 ∧ item.data = some c ∧ w.files n = some (.conn c)
  conns : ∀ {c}, w.allocated ≤ c → w.conns c = none
  files : ∀ {n c}, w.files n = some (.conn c) → c < w.allocated
  threads : ∀ {key}, key ∈ w.threads → key.conn < w.allocated

structure Shows (w : World) (c : ConnId) (v : View) : Prop where
  globals : w.globals = v.globals
  conn : w.conns c = some ⟨v.s, v.live⟩
  link : ∀ n, w.link c n = v.link n
  threads : w.threads.filter (·.conn = c) = v.threads

structure SameOthers (c : ConnId) (w w' : World) : Prop where
  allocated : w'.allocated = w.allocated
  conns : ∀ c', c' ≠ c → w'.conns c' = w.conns c'
  link : ∀ c' n, c' ≠ c → w'.link c' n = w.link c' n
  threads : ∀ c', c' ≠ c → w'.threads.filter (·.conn = c') = w.threads.filter (·.conn = c')
  files : ∀ n owner, owner ≠ .conn c → (w'.files n = some owner ↔ w.files n = some owner)

theorem SameOthers.refl (c : ConnId) (w : World) : SameOthers c w w :=
  ⟨rfl, fun _ _ => rfl, fun _ _ _ => rfl, fun _ _ => rfl, fun _ _ _ => .rfl⟩

theorem SameOthers.trans {c : ConnId} {w w₁ w₂ : World} (h : SameOthers c w w₁)
    (h' : SameOthers c w₁ w₂) : SameOthers c w w₂ :=
  ⟨h'.allocated.trans h.allocated, fun c' hc => (h'.conns c' hc).trans (h.conns c' hc),
    fun c' n hc => (h'.link c' n hc).trans (h.link c' n hc),
    fun c' hc => (h'.threads c' hc).trans (h.threads c' hc),
    fun n owner ho => (h'.files n owner ho).trans (h.files n owner ho)⟩

def Taken (w : World) (io : Io) (c : ConnId) : Prop :=
  ∃ n owner, io.socket = some n ∧ w.files n = some owner ∧ owner ≠ .conn c

def Excused (w : World) (io : Io) (c : ConnId) (f : Fault) : Prop :=
  f = .kernel ∧ w.Taken io c

structure Rel (w₀ : World) (c : ConnId) (w : World) (v : View) : Prop where
  wired : w.Wired
  shows : w.Shows c v
  others : SameOthers c w₀ w

end World

-- ---------------------------------------------------------------------------
-- The single updates
-- ---------------------------------------------------------------------------

theorem View.link_setLink {v : View} {n : Nat} (h : v.link n ≠ .closed) (l : Link) (m : Nat) :
    (v.setLink n l).link m = if m = n then l else v.link m := by
  unfold View.link at h
  unfold View.setLink View.link
  by_cases hn : n = v.fd
  · subst hn
    by_cases hm : m = v.fd <;> simp [hm]
  · rw [if_neg hn] at h
    have hp : n = v.peerFd := by
      by_contra hp
      rw [if_neg hp] at h
      exact h rfl
    subst hp
    by_cases hm : m = v.fd
    · subst hm
      simp [Ne.symm hn, hn]
    · by_cases hmp : m = v.peerFd <;> simp [hm, hn, hmp]

namespace World

variable {w₀ w : World} {c : ConnId} {v : View}

theorem Shows.deref (h : w.Shows c v) :
    w.deref c = if v.live then .ok v.s else .error .useAfterFree := by
  unfold World.deref
  rw [h.conn]
  cases v.live <;> rfl

theorem Rel.setConn (h : Rel w₀ c w v) (s : Socks5) (live : Bool) :
    Rel w₀ c (w.setConn c ⟨s, live⟩) { v with s, live } := by
  have hc : c < w.allocated := by
    by_contra hc
    have := h.wired.conns (Nat.not_lt.mp hc)
    rw [h.shows.conn] at this
    cases this
  refine ⟨⟨h.wired.size, h.wired.sel, h.wired.items, fun {c'} hle => ?_, h.wired.files,
    h.wired.threads⟩, ⟨h.shows.globals, Function.update_self .., h.shows.link, h.shows.threads⟩,
    ⟨h.others.allocated, fun c' hne => ?_, h.others.link, h.others.threads,
      h.others.files⟩⟩
  · have hne : c' ≠ c := by
      rintro rfl
      exact absurd hc (Nat.not_lt.mpr hle)
    exact (Function.update_of_ne hne _ _).trans (h.wired.conns hle)
  · exact (Function.update_of_ne hne _ _).trans (h.others.conns c' hne)

theorem Rel.setGlobals (h : Rel w₀ c w v) (g : Globals) :
    Rel w₀ c { w with globals := g } { v with globals := g } :=
  ⟨⟨h.wired.size, h.wired.sel, h.wired.items, h.wired.conns, h.wired.files, h.wired.threads⟩,
    ⟨rfl, h.shows.conn, h.shows.link, h.shows.threads⟩,
    ⟨h.others.allocated, h.others.conns, h.others.link, h.others.threads,
      h.others.files⟩⟩

theorem Rel.file_of_link (h : Rel w₀ c w v) {n : Nat} (hlink : v.link n ≠ .closed) :
    w.files n = some (.conn c) := by
  rw [← h.shows.link] at hlink
  unfold World.link at hlink
  by_contra hf
  rw [if_neg hf] at hlink
  exact hlink rfl

theorem Rel.file_ne (h : Rel w₀ c w v) {n : Nat} (hlink : v.link n ≠ .closed) {c' : ConnId}
    (hne : c' ≠ c) : w.files n ≠ some (.conn c') := by
  rw [h.file_of_link hlink]
  intro he
  cases he
  exact hne rfl

theorem setLink_rest (v : View) (n : Nat) (l : Link) : (v.setLink n l).globals = v.globals ∧
    (v.setLink n l).s = v.s ∧ (v.setLink n l).live = v.live ∧
    (v.setLink n l).threads = v.threads := by
  unfold View.setLink
  split <;> exact ⟨rfl, rfl, rfl, rfl⟩

theorem Rel.setEntry (h : Rel w₀ c w v) {n : Nat} (hlink : v.link n ≠ .closed)
    {sel : Selector FdHandler ConnId} (hok : sel.Ok) (hsize : sel.fds.length = w.sel.fds.length)
    (hother : ∀ m, m ≠ n → sel.entry m = w.sel.entry m) {l : Link}
    (hself : (sel.entry n = none ∧ l = .opened) ∨ ∃ item, sel.entry n = some item ∧
      item.handler = some .socks5 ∧ item.data = some c ∧ l = .watched item.interest) :
    Rel w₀ c { w with sel } (v.setLink n l) := by
  have hfile := h.file_of_link hlink
  obtain ⟨hg, hs, hlive, ht⟩ := setLink_rest v n l
  refine ⟨⟨hsize.trans h.wired.size, hok, fun {m item} he => ?_, h.wired.conns, h.wired.files,
    h.wired.threads⟩, ⟨hg ▸ h.shows.globals, ?_, fun m => ?_, ht ▸ h.shows.threads⟩,
    ⟨h.others.allocated, h.others.conns, fun c' m hne => ?_, h.others.threads,
      h.others.files⟩⟩
  · by_cases hm : m = n
    · subst hm
      rcases hself with ⟨hnone, -⟩ | ⟨item', hsome, hh, hd, -⟩
      · rw [hnone] at he
        cases he
      · rw [hsome] at he
        cases he
        exact .inr ⟨c, hh, hd, hfile⟩
    · rw [hother m hm] at he
      exact h.wired.items he
  · rw [hs, hlive]
    exact h.shows.conn
  · rw [View.link_setLink hlink]
    by_cases hm : m = n
    · subst hm
      rw [if_pos rfl]
      simp only [World.link, hfile, ↓reduceIte]
      rcases hself with ⟨hnone, rfl⟩ | ⟨item', hsome, -, -, rfl⟩
      · rw [hnone]
      · rw [hsome]
    · rw [if_neg hm, ← h.shows.link]
      simp only [World.link, hother m hm]
  · rw [← h.others.link c' m hne]
    by_cases hm : m = n
    · subst hm
      simp only [World.link, h.file_ne hlink hne, ↓reduceIte]
    · simp only [World.link, hother m hm]

theorem Rel.entry_opened (h : Rel w₀ c w v) {n : Nat} (hlink : v.link n = .opened) :
    w.sel.entry n = none := by
  rw [← h.shows.link] at hlink
  unfold World.link at hlink
  split at hlink
  · split at hlink
    · cases hlink
    · assumption
  · cases hlink

theorem Rel.entry_watched (h : Rel w₀ c w v) {n : Nat} {i : Interest}
    (hlink : v.link n = .watched i) :
    ∃ item, w.sel.entry n = some item ∧ item.handler = some .socks5 ∧ item.data = some c ∧
      item.interest = i := by
  rw [← h.shows.link] at hlink
  unfold World.link at hlink
  split at hlink
  · rename_i hfile
    split at hlink
    · rename_i item he
      cases hlink
      rcases h.wired.items he with ⟨-, -, hsys⟩ | ⟨c', hh, hd, hf⟩
      · rw [hfile] at hsys
        cases hsys
      · rw [hfile] at hf
        cases hf
        exact ⟨item, he, hh, hd, rfl⟩
    · cases hlink
  · cases hlink

theorem Rel.closeFile (h : Rel w₀ c w v) {n : Nat} (hlink : v.link n = .opened) :
    Rel w₀ c { w with files := Function.update w.files n none } (v.setLink n .closed) := by
  have hne : v.link n ≠ .closed := by
    rw [hlink]
    simp
  have hentry := h.entry_opened hlink
  obtain ⟨hg, hs, hlive, ht⟩ := setLink_rest v n .closed
  have hclosed : ∀ c', World.link { w with files := Function.update w.files n none } c' n =
      .closed := by
    intro c'
    simp only [World.link, Function.update_self, reduceCtorEq, ↓reduceIte]
  have hsame : ∀ c' m, m ≠ n → World.link { w with files := Function.update w.files n none } c' m =
      w.link c' m := by
    intro c' m hm
    simp only [World.link, Function.update_of_ne hm]
  have hown : ∀ c', c' ≠ c → w.link c' n = .closed := by
    intro c' hc
    simp only [World.link, h.file_ne hne hc, ↓reduceIte]
  refine ⟨⟨h.wired.size, h.wired.sel, fun {m item} he => ?_, h.wired.conns, fun {m c'} hf => ?_,
    h.wired.threads⟩, ⟨hg ▸ h.shows.globals, ?_, fun m => ?_, ht ▸ h.shows.threads⟩,
    ⟨h.others.allocated, h.others.conns, fun c' m hc => ?_, h.others.threads,
      fun m owner ho => ?_⟩⟩
  · have hm : m ≠ n := by
      rintro rfl
      exact absurd (hentry.symm.trans he) (by simp)
    simp only [Function.update_of_ne hm]
    exact h.wired.items he
  · have hm : m ≠ n := by
      rintro rfl
      simp at hf
    simp only [Function.update_of_ne hm] at hf
    exact h.wired.files hf
  · rw [hs, hlive]
    exact h.shows.conn
  · rw [View.link_setLink hne]
    by_cases hm : m = n
    · subst hm
      rw [if_pos rfl]
      exact hclosed c
    · rw [if_neg hm, ← h.shows.link]
      exact hsame c m hm
  · rw [← h.others.link c' m hc]
    by_cases hm : m = n
    · subst hm
      rw [hclosed c', hown c' hc]
    · exact hsame c' m hm
  · rw [← h.others.files m owner ho]
    by_cases hm : m = n
    · subst hm
      rw [h.file_of_link hne]
      simp [Ne.symm ho]
    · simp only [Function.update_of_ne hm]

theorem Rel.openFile (h : Rel w₀ c w v) {n : Nat} (hpeer : v.peer = .closed) (hn : n ≠ v.fd)
    (hfile : w.files n = none) :
    Rel w₀ c { w with files := Function.update w.files n (some (.conn c)) }
      { v with peerFd := n, peer := .opened } := by
  have hc : c < w.allocated := by
    by_contra hc
    have := h.wired.conns (Nat.not_lt.mp hc)
    rw [h.shows.conn] at this
    cases this
  have hentry : w.sel.entry n = none := by
    cases he : w.sel.entry n with
    | none => rfl
    | some item =>
      rcases h.wired.items he with ⟨-, -, hf⟩ | ⟨c', -, -, hf⟩ <;> rw [hfile] at hf <;> cases hf
  refine ⟨⟨h.wired.size, h.wired.sel, fun {m item} he => ?_, h.wired.conns, fun {m c'} hf => ?_,
    h.wired.threads⟩, ⟨h.shows.globals, h.shows.conn, fun m => ?_, h.shows.threads⟩,
    ⟨h.others.allocated, h.others.conns, fun c' m hne => ?_, h.others.threads,
      fun m owner ho => ?_⟩⟩
  · have hm : m ≠ n := by
      rintro rfl
      exact absurd (hentry.symm.trans he) (by simp)
    simp only [Function.update_of_ne hm]
    exact h.wired.items he
  · by_cases hm : m = n
    · subst hm
      simp only [Function.update_self, Option.some.injEq, Owner.conn.injEq] at hf
      exact hf ▸ hc
    · simp only [Function.update_of_ne hm] at hf
      exact h.wired.files hf
  · have hold := h.shows.link m
    by_cases hm : m = n
    · subst hm
      simp only [World.link, Function.update_self, ↓reduceIte, hentry, View.link, hn]
    · simp only [World.link, Function.update_of_ne hm] at hold ⊢
      rw [hold]
      unfold View.link
      by_cases hmf : m = v.fd
      · simp only [hmf, ↓reduceIte]
      · simp only [hmf, hm, hpeer, ↓reduceIte, ite_self]
  · rw [← h.others.link c' m hne]
    by_cases hm : m = n
    · subst hm
      have hc' : ¬ (some (Owner.conn c) = some (.conn c')) := by
        intro he
        cases he
        exact hne rfl
      simp only [World.link, Function.update_self, hc', hfile, ↓reduceIte, reduceCtorEq]
    · simp only [World.link, Function.update_of_ne hm]
  · rw [← h.others.files m owner ho]
    by_cases hm : m = n
    · subst hm
      simp [hfile, Ne.symm ho]
    · simp only [Function.update_of_ne hm]

theorem Rel.owner_ne (h : Rel w₀ c w v) {n : Nat} (hn : n ≠ v.fd) (hpeer : v.peer = .closed)
    {owner : Owner} (hfile : w.files n = some owner) : owner ≠ .conn c := by
  rintro rfl
  have hlink := h.shows.link n
  simp only [World.link, hfile, ↓reduceIte, View.link, hn, hpeer, ite_self] at hlink
  split at hlink <;> cases hlink

theorem size_lt (h : Rel w₀ c w v) {n : Nat} (hn : n < fdSetSize) : n < w.sel.fds.length := by
  rw [h.wired.size]
  omega

theorem valid_fd {fd : Int} (h : invalidFd fd = false) :
    ∃ n : Nat, fd = n ∧ n < fdSetSize ∧ fd.toNat = n := by
  simp only [invalidFd, ge_iff_le, Bool.or_eq_false_iff, decide_eq_false_iff_not] at h
  exact ⟨fd.toNat, (Int.toNat_of_nonneg (Int.not_lt.mp h.1)).symm, by omega, rfl⟩

-- ---------------------------------------------------------------------------
-- The calls agree
-- ---------------------------------------------------------------------------

open Lib (Agree)
open Selector

theorem exec_agrees_setInterest (h : Rel w₀ c w v) (fd : Int) (i : Interest) (io : Io)
    (hin : v.setInterest fd i ≠ .error .foreign) :
    Agree (Excused w₀ io c) (Rel w₀ c) (World.exec io c (.setInterest fd i) w) (v.setInterest fd i) := by
  unfold View.setInterest at hin ⊢
  simp only [World.exec]
  cases hvalid : invalidFd fd with
  | true =>
    rw [setInterest_unregistered (registered_invalid _ hvalid)]
    exact .done _ h
  | false =>
    obtain ⟨n, rfl, hn, hto⟩ := valid_fd hvalid
    simp only [hvalid, Bool.false_eq_true, ↓reduceIte, hto] at hin ⊢
    cases hlink : v.link n with
    | closed =>
      rw [hlink] at hin
      exact absurd rfl hin
    | opened =>
      have hreg : w.sel.registered n = .ok none := by
        rw [registered_eq _ hn (size_lt h hn), h.entry_opened hlink]
      rw [setInterest_unregistered hreg]
      exact .done _ h
    | watched i₀ =>
      obtain ⟨item, he, hh, hd, -⟩ := h.entry_watched hlink
      obtain ⟨sel, hs, hok, hsize, -, -, -, hself, hother⟩ := setInterest_spec h.wired.sel he i
      rw [hs]
      refine .done _ (h.setEntry (by simp [hlink]) hok hsize hother (.inr ⟨_, hself, hh, hd, rfl⟩))

theorem exec_agrees_register (h : Rel w₀ c w v) (fd : Int) (i : Interest) (io : Io)
    (hin : v.register fd i ≠ .error .foreign) :
    Agree (Excused w₀ io c) (Rel w₀ c) (World.exec io c (.register fd i) w) (v.register fd i) := by
  unfold View.register at hin ⊢
  simp only [World.exec]
  cases hvalid : invalidFd fd with
  | true =>
    rw [register_invalid _ hvalid]
    exact .done _ h
  | false =>
    obtain ⟨n, rfl, hn, hto⟩ := valid_fd hvalid
    simp only [hvalid, Bool.false_eq_true, ↓reduceIte, hto] at hin ⊢
    cases hlink : v.link n with
    | closed =>
      rw [hlink] at hin
      exact absurd rfl hin
    | opened =>
      obtain ⟨sel, hs, hok, hsize, -, -, hself, hother⟩ := register_spec h.wired.sel hn (size_lt h hn)
        (h.entry_opened hlink) true FdHandler.socks5 i (some c)
      rw [hs]
      exact .done _ (h.setEntry (by simp [hlink]) hok hsize hother (.inr ⟨_, hself, rfl, rfl, rfl⟩))
    | watched i₀ =>
      obtain ⟨item, he, -, -, -⟩ := h.entry_watched hlink
      rw [register_inUse h.wired.sel he]
      exact .done _ h

theorem Rel.setPool (h : Rel w₀ c w v) (pool : List ConnId) (poolSize : Nat)
    (freed : List (ConnId × List AddrInfo)) : Rel w₀ c { w with pool, poolSize, freed } v :=
  ⟨⟨h.wired.size, h.wired.sel, h.wired.items, h.wired.conns, h.wired.files, h.wired.threads⟩,
    ⟨h.shows.globals, h.shows.conn, h.shows.link, h.shows.threads⟩,
    ⟨h.others.allocated, h.others.conns, h.others.link, h.others.threads, h.others.files⟩⟩

theorem destroy_agrees (h : Rel w₀ c w v) :
    (∃ f, w.socks5Destroy c = .error f ∧ v.destroy = .error f) ∨
      ∃ w' v', w.socks5Destroy c = .ok w' ∧ v.destroy = .ok v' ∧ Rel w₀ c w' v' ∧
        w'.sel = w.sel ∧ ∀ n, v'.link n = v.link n := by
  unfold World.socks5Destroy View.destroy
  rw [h.shows.deref]
  cases hlive : v.live with
  | false => exact .inl ⟨_, rfl, rfl⟩
  | true =>
    simp only [↓reduceIte, Bool.true_eq_false, Bind.bind, Except.bind, Pure.pure, Except.pure]
    by_cases hrefs : v.s.references = 1
    · simp only [hrefs, ↓reduceIte]
      obtain ⟨freed, hfreed⟩ := World.destroyed_eq (w.setConn c ⟨v.s, false⟩) c v.s
      have hrel := h.setConn v.s false
      rw [hfreed]
      refine .inr ⟨_, _, rfl, rfl, ?_, ?_, fun n => rfl⟩
      · split <;> exact hrel.setPool _ _ _
      · split <;> rfl
    · simp only [hrefs, ↓reduceIte]
      refine .inr ⟨_, _, rfl, rfl, ?_, rfl, fun n => rfl⟩
      exact h.setConn { v.s with references := v.s.references - 1 } true

theorem exec_agrees_unregister (h : Rel w₀ c w v) (fd : Int) (io : Io)
    (hin : v.unregister fd ≠ .error .foreign) :
    Agree (Excused w₀ io c) (Rel w₀ c) (World.exec io c (.unregister fd) w) (v.unregister fd) := by
  unfold View.unregister at hin ⊢
  simp only [World.exec, World.unregister]
  cases hvalid : invalidFd fd with
  | true =>
    rw [registered_invalid _ hvalid]
    exact .done _ h
  | false =>
    obtain ⟨n, rfl, hn, hto⟩ := valid_fd hvalid
    simp only [hvalid, Bool.false_eq_true, ↓reduceIte, hto] at hin ⊢
    rw [registered_eq _ hn (size_lt h hn)]
    cases hlink : v.link n with
    | closed =>
      rw [hlink] at hin
      exact absurd rfl hin
    | opened =>
      rw [h.entry_opened hlink]
      exact .done _ h
    | watched i₀ =>
      obtain ⟨item, he, hh, hd, -⟩ := h.entry_watched hlink
      rw [he]
      have hclose : w.handleClose item = w.socks5Destroy c := by
        simp only [World.handleClose, hh, hd]
      simp only [Bind.bind, Except.bind, hclose]
      rcases destroy_agrees h with ⟨f, hw, hv⟩ | ⟨w', v', hw, hv, hrel, hsel, hlinks⟩
      · rw [hw, hv]
        exact .fault f
      · rw [hw, hv]
        have he' : w'.sel.entry n = some item := by
          rw [hsel]
          exact he
        obtain ⟨hok, hsize, -, -, hself, hother⟩ := release_spec hrel.wired.sel he'
        refine .done _ (hrel.setEntry ?_ hok hsize hother (.inl ⟨hself, rfl⟩))
        rw [hlinks, hlink]
        simp

theorem exec_agrees_socket (h : Rel w₀ c w v) (io : Io)
    (hin : View.exec io c .socket v ≠ .error .foreign) :
    Agree (Excused w₀ io c) (Rel w₀ c) (World.exec io c .socket w) (View.exec io c .socket v) := by
  simp only [World.exec, View.exec] at hin ⊢
  cases hio : io.socket with
  | none => exact .done _ h
  | some n =>
    simp only [hio, View.socket, World.openFile] at hin ⊢
    by_cases hlinks : v.client = .closed ∨ v.peer ≠ .closed
    · simp only [hlinks, ↓reduceIte] at hin
      exact absurd rfl hin
    · simp only [hlinks, ↓reduceIte] at hin ⊢
      rw [not_or, not_not] at hlinks
      by_cases hn : n = v.fd
      · have hfile := h.file_of_link (n := n) (by simpa [View.link, hn] using hlinks.1)
        rw [hfile, if_pos hn]
        exact .fault _
      · cases hfile : w.files n with
        | some owner =>
          refine .excuse ⟨rfl, n, owner, hio, (h.others.files n owner ?_).mp hfile, ?_⟩ _
          · exact h.owner_ne hn hlinks.2 hfile
          · exact h.owner_ne hn hlinks.2 hfile
        | none =>
          simp only [hn, ↓reduceIte]
          exact .done _ (h.openFile hlinks.2 hn hfile)

theorem exec_agrees_close (h : Rel w₀ c w v) (fd : Int) (io : Io)
    (hin : View.exec io c (.close fd) v ≠ .error .foreign) :
    Agree (Excused w₀ io c) (Rel w₀ c) (World.exec io c (.close fd) w)
      (View.exec io c (.close fd) v) := by
  simp only [World.exec, View.exec, View.close, World.close] at hin ⊢
  by_cases hneg : fd < 0
  · simp only [hneg, ↓reduceIte]
    exact .done _ h
  · simp only [hneg, ↓reduceIte] at hin ⊢
    cases hlink : v.link fd.toNat with
    | opened => exact .done _ (h.closeFile hlink)
    | closed =>
      rw [hlink] at hin
      exact absurd rfl hin
    | watched i =>
      rw [hlink] at hin
      exact absurd rfl hin

theorem Rel.spawn (h : Rel w₀ c w v) {key : Key} (hk : key.conn = c) :
    Rel w₀ c { w with threads := w.threads ++ [key] } { v with threads := v.threads ++ [key] } := by
  refine ⟨⟨h.wired.size, h.wired.sel, h.wired.items, h.wired.conns, h.wired.files, ?_⟩,
    ⟨h.shows.globals, h.shows.conn, h.shows.link, ?_⟩,
    ⟨h.others.allocated, h.others.conns, h.others.link, fun c' hne => ?_, h.others.files⟩⟩
  · intro key' hmem
    rcases List.mem_append.mp hmem with hmem | hmem
    · exact h.wired.threads hmem
    · rw [List.mem_singleton.mp hmem, hk]
      by_contra hc
      have hnone := h.wired.conns (Nat.not_lt.mp hc)
      rw [h.shows.conn] at hnone
      cases hnone
  · rw [List.filter_append, h.shows.threads]
    simp [hk]
  · rw [List.filter_append, h.others.threads c' hne]
    simp [hk, Ne.symm hne]

/-- Every call does to the connection what it does to the connection alone. -/
theorem exec_agrees (io : Io) (o : Call) (w : World) (v : View) (h : Rel w₀ c w v)
    (hin : View.exec io c o v ≠ .error .foreign) :
    Agree (Excused w₀ io c) (Rel w₀ c) (World.exec io c o w) (View.exec io c o v) := by
  cases o with
  | attachment =>
    simp only [World.exec, View.exec, h.shows.deref]
    cases v.live with
    | true => exact .done _ h
    | false => exact .fault _
  | update f =>
    simp only [World.exec, View.exec, h.shows.deref]
    cases hlive : v.live with
    | true =>
      have hrel := h.setConn (f v.s) true
      rw [← hlive] at hrel
      simp only [↓reduceIte]
      rw [← hlive]
      exact .done _ hrel
    | false => exact .fault _
  | globals =>
    simp only [World.exec, View.exec, ← h.shows.globals]
    exact .done _ h
  | setGlobals f =>
    simp only [World.exec, View.exec, ← h.shows.globals]
    exact .done _ (h.setGlobals _)
  | answers => exact .done _ h
  | socket => exact exec_agrees_socket h io hin
  | close fd => exact exec_agrees_close h fd io hin
  | register fd i => exact exec_agrees_register h fd i io hin
  | unregister fd => exact exec_agrees_unregister h fd io hin
  | setInterest fd i => exact exec_agrees_setInterest h fd i io hin
  | spawn key =>
    simp only [World.exec, View.exec] at hin ⊢
    by_cases hk : key.conn = c
    · simp only [hk, ↓reduceIte]
      exact .done _ (h.spawn hk)
    · simp only [hk, ↓reduceIte] at hin
      exact absurd rfl hin
  | fail f => exact .fault f

/-- A handler run over the server, and the same one over the connection alone. -/
theorem handler_agrees (hw : w.Wired) (hv : w.Shows c v) (io : Io) (p : Handler α)
    (hin : p.run (View.exec io c) v ≠ .error .foreign) :
    Agree (Excused w io c) (Rel w c) (p.run (World.exec io c) w) (p.run (View.exec io c) v) :=
  Lib.Prog.run_agrees (fun o w' v' hr hv' => exec_agrees io o w' v' hr hv') p
    ⟨hw, hv, SameOthers.refl c w⟩ hin

end World

end Socks5d
