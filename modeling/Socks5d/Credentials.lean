import Socks5d.Disector.Sources
import Socks5d.Statistics

/-!
# The credentials that a connection logs

While the disector is on, the credentials in the log of a connection are the
reports of the disector over the chunks that `copy_w` sent (`Sniffed`). They are
genuine when no chunk carries bytes past a change of the direction that the
disector listens to.
-/

namespace Socks5d

def sinceCopy : List Action → List Action
  | [] => []
  | a :: rest => if a.enters .copy then rest else sinceCopy rest

def Action.chunk (client : Int) : Action → Option Chunk
  | .send fd bytes => some ⟨if fd = client then .origin else .client, bytes⟩
  | _ => none

def copyChunks (s : Socks5) : List Chunk := (sinceCopy s.log).filterMap (Action.chunk s.clientFd)

def Action.credentials : Action → Option (List Byte × List Byte)
  | .logCredentials user pass .. => some (user, pass)
  | _ => none

def credentials (log : List Action) : List (List Byte × List Byte) := log.filterMap Action.credentials

def traced (s : Socks5) : Tracer := Tracer.sniffAll {} (copyChunks s)

theorem sinceCopy_append {l : List Action} (h : 0 < entries .copy l) (l' : List Action) :
    sinceCopy (l ++ l') = sinceCopy l ++ l' := by
  induction l with
  | nil => simp [entries] at h
  | cons a l ih =>
    by_cases ha : a.enters .copy = true
    · simp [sinceCopy, ha]
    · have hl : 0 < entries .copy l := by simpa [entries, List.countP_cons, ha] using h
      simp [sinceCopy, ha, ih hl]

theorem sinceCopy_skip {l : List Action} (h : entries .copy l = 0) (l' : List Action) :
    sinceCopy (l ++ l') = sinceCopy l' := by
  induction l with
  | nil => rfl
  | cons a l ih =>
    have ha : a.enters .copy = false := by
      by_contra hc
      simp [entries, List.countP_cons, hc] at h
    have hl : entries .copy l = 0 := by simpa [entries, List.countP_cons, ha] using h
    simp [sinceCopy, ha, ih hl]

@[simp] theorem credentials_append (l l' : List Action) :
    credentials (l ++ l') = credentials l ++ credentials l' := List.filterMap_append

theorem credentials_plain {l : List Action} (h : ∀ a ∈ l, a.isCredentials = false) :
    credentials l = [] := by
  refine List.filterMap_eq_nil_iff.mpr fun a ha => ?_
  have hc := h a ha
  cases a with
  | logCredentials => cases hc
  | _ => rfl

def chunkOf (s : Socks5) : ConnEvent → Option Chunk
  | .ready fd true io =>
    let d := if s.clientFd = fd then Side.client else .origin
    io.send.map fun n => ⟨d.other, (s.wb d).content.take n⟩
  | _ => none

theorem disectorListens_iff {g : Globals} {s : Socks5} (hon : g.isDisectorOn = true)
    (hne : s.clientFd ≠ s.originFd) (d : Side) :
    Handler.disectorListens g s (s.fd d) = true ↔ s.dp.state.hears = some d.other := by
  cases d <;> cases hst : s.dp.state <;>
    simp [Handler.disectorListens, hon, hst, hne, hne.symm, Socks5.fd, Side.other,
      DisectorState.hears, DisectorState.toNat]

namespace View

variable {v v' : View} {io : Io} {c : ConnId}

theorem shut_dp (v : View) (d : Side) (write : Bool) : (v.shut d write).s.dp = v.s.dp := by
  cases d <;> rfl

theorem disected_sniff {d : Side} (hon : v.globals.isDisectorOn = true)
    (hne : v.s.clientFd ≠ v.s.originFd) {fd : Nat} (hfd : v.s.fd d = fd) (bytes : List Byte) :
    Sniffer.mk (v.disected fd bytes).s.dp (credentials (v.disected fd bytes).s.log) =
      (Sniffer.mk v.s.dp (credentials v.s.log)).sniff ⟨d.other, bytes⟩ := by
  have hlistens := disectorListens_iff hon hne d
  rw [hfd] at hlistens
  unfold disected Sniffer.sniff
  by_cases hl : Handler.disectorListens v.globals v.s fd = true
  · rw [if_pos hl, if_pos (hlistens.mp hl)]
    by_cases hd : (disectorConsume v.s.dp bytes).2 = .done
    · simp [hd, credentials, Action.credentials]
    · simp [hd]
  · rw [if_neg hl, if_neg (fun h => hl (hlistens.mpr h))]

theorem copyChunks_quiet {s s' : Socks5} {lines : List Action} (hentered : 0 < entries .copy s.log)
    (hfd : s'.clientFd = s.clientFd) (hlog : s'.log = s.log ++ lines)
    (hl : ∀ a ∈ lines, a.chunk s.clientFd = none ∧ a.isCredentials = false) :
    copyChunks s' = copyChunks s ∧ credentials s'.log = credentials s.log := by
  refine ⟨?_, ?_⟩
  · rw [copyChunks, hfd, hlog, sinceCopy_append hentered, List.filterMap_append,
      List.filterMap_eq_nil_iff.mpr fun a ha => (hl a ha).1, List.append_nil]
    rfl
  · rw [hlog, credentials_append, credentials_plain fun a ha => (hl a ha).2, List.append_nil]

theorem Copying.side (h : v.Copying) (d : Side) :
    (if v.s.clientFd = (v.sideFd d : Int) then Side.client else .origin) = d ∧
      (if (v.sideFd d : Int) = v.s.clientFd then Side.origin else .client) = d.other := by
  have hne : v.s.clientFd ≠ v.s.originFd := h.fd_ne .client
  rw [← h.fd_eq d]
  cases d with
  | client => exact ⟨if_pos rfl, if_pos rfl⟩
  | origin => exact ⟨if_neg hne, if_neg hne.symm⟩

theorem Copying.disected_chunks (h : v.Copying) (hentered : 0 < entries .copy v.s.log) (d : Side)
    (bytes : List Byte) {s : Socks5} (hfd : s.clientFd = v.s.clientFd)
    (hlog : s.log = ((v.noted (.send (v.sideFd d) bytes)).disected (v.sideFd d) bytes).s.log) :
    copyChunks s = copyChunks v.s ++ [⟨d.other, bytes⟩] := by
  obtain ⟨dp, lines, heq, hl⟩ := disected_eq (v.noted (.send (v.sideFd d) bytes)) (v.sideFd d) bytes
  have hlines : lines.filterMap (Action.chunk v.s.clientFd) = [] := by
    refine List.filterMap_eq_nil_iff.mpr fun a ha => ?_
    obtain ⟨_, _, _, _, _, _, rfl⟩ := hl a ha
    rfl
  have hlog : s.log = v.s.log ++ ([.send (v.sideFd d) bytes] ++ lines) := by
    rw [hlog, heq]
    exact List.append_assoc ..
  rw [copyChunks, hfd, hlog, sinceCopy_append hentered, List.filterMap_append,
    List.filterMap_append, hlines, List.append_nil]
  simp only [List.filterMap_cons, List.filterMap_nil, Action.chunk, (h.side d).2]
  rfl

theorem Outcome.sniffs {fd : Nat} {write : Bool} {ret : SocksState}
    (h : Outcome io c v fd write v' ret) (hs : v.Shape c) (hst : v.s.stm = some .copy)
    (hon : v.globals.isDisectorOn = true) (hentered : 0 < entries .copy v.s.log) :
    v'.s.clientFd = v.s.clientFd ∧
    ((copyChunks v'.s = copyChunks v.s ∧ v'.s.dp = v.s.dp ∧
        credentials v'.s.log = credentials v.s.log) ∨
      ∃ chunk, chunkOf v.s (.ready fd write io) = some chunk ∧
        copyChunks v'.s = copyChunks v.s ++ [chunk] ∧
        Sniffer.mk v'.s.dp (credentials v'.s.log) =
          (Sniffer.mk v.s.dp (credentials v.s.log)).sniff chunk) := by
  obtain ⟨hcopying, -⟩ := hs.copying hst
  have hne : v.s.clientFd ≠ v.s.originFd := hcopying.fd_ne .client
  cases h with
  | @copyReceived d bytes b _ hr hb hfill v₁ h₁ =>
    subst h₁
    have hclient := (setRb_fds (v.noted (.recv (v.sideFd d) (some bytes))).s d b).1
    obtain ⟨hchunks, hcred⟩ := copyChunks_quiet (s := v.s) hentered hclient (setRb_log ..) (by
      simp [Action.chunk, Action.isCredentials])
    exact ⟨hclient, .inl ⟨hchunks, by cases d <;> rfl, hcred⟩⟩
  | @copyEnded d _ hr =>
    have hclient := (shut_fds (v.noted (.recv (v.sideFd d) (recvAnswer io (v.s.rb d).space))) d false).1
    obtain ⟨hchunks, hcred⟩ := copyChunks_quiet (s := v.s) hentered hclient
      ((shut_log ..).trans (by simp only [noted, List.append_assoc]; rfl)) (by
      simp [Action.chunk, Action.isCredentials])
    exact ⟨hclient, .inl ⟨hchunks, shut_dp .., hcred⟩⟩
  | @copyFailed d _ hsend =>
    have hclient := (shut_fds (v.noted (.sendFailed (v.sideFd d))) d true).1
    obtain ⟨hchunks, hcred⟩ := copyChunks_quiet (s := v.s) hentered hclient
      ((shut_log ..).trans (by simp only [noted, List.append_assoc]; rfl)) (by
      simp [Action.chunk, Action.isCredentials])
    exact ⟨hclient, .inl ⟨hchunks, shut_dp .., hcred⟩⟩
  | @copySent d n b _ hsend hb v₁ v₂ h₁ h₂ =>
    have hclient : v₂.s.clientFd = v.s.clientFd := by
      obtain ⟨dp, lines, heq, -⟩ := disected_eq
        (v.noted (.send (v.sideFd d) ((v.s.wb d).content.take n))) (v.sideFd d)
        ((v.s.wb d).content.take n)
      rw [h₂, h₁, heq]
      exact (setRb_fds ..).1
    have hlog : v₂.s.log = v₁.s.log := by
      rw [h₂]
      exact setRb_log ..
    have hdp : v₂.s.dp = v₁.s.dp := by
      rw [h₂]
      cases d <;> rfl
    have hfd := hcopying.fd_eq d
    have hfd' : (v.noted (.send (v.sideFd d) ((v.s.wb d).content.take n))).s.fd d = v.sideFd d := by
      cases d <;> exact hfd
    refine ⟨hclient, .inr ⟨⟨d.other, (v.s.wb d).content.take n⟩, ?_, ?_, ?_⟩⟩
    · obtain ⟨m, hm, rfl⟩ := Option.map_eq_some_iff.mp hsend
      simp only [chunkOf, (hcopying.side d).1, hm, Option.map_some]
      rw [← List.take_eq_take_min]
    · exact hcopying.disected_chunks hentered d _ hclient (hlog.trans (by rw [h₁]))
    · show Sniffer.mk v₂.s.dp (credentials v₂.s.log) = _
      have hnone (fd : Int) (bytes : List Byte) : credentials [.send fd bytes] = [] := rfl
      rw [hdp, hlog, h₁, disected_sniff (by exact hon) (by exact hne) hfd']
      simp only [noted, credentials_append, hnone, List.append_nil]
  | recvFailed hst' | sendFailed hst' => rcases hst' with h | h | h <;> rw [hst] at h <;> cases h
  | _ => simp_all

-- ---------------------------------------------------------------------------
-- One event
-- ---------------------------------------------------------------------------

structure Sniffed (v : View) : Prop where
  before : entries .copy v.s.log = 0 → credentials v.s.log = []
  after : 0 < entries .copy v.s.log → (traced v.s).forget = ⟨v.s.dp, credentials v.s.log⟩

theorem copyChunks_of_entries {s : Socks5} (h : entries .copy s.log = 0) : copyChunks s = [] := by
  have hsince := sinceCopy_skip h []
  rw [List.append_nil] at hsince
  rw [copyChunks, hsince]
  rfl

theorem settle_credentials (v : View) (ret : SocksState) :
    credentials (v.settle ret).s.log = credentials v.s.log := by
  rw [settle_log, advance_log]
  split
  · rfl
  · rw [List.append_assoc, credentials_append]
    split <;> simp [credentials, Action.credentials]

theorem settle_sniffed (hst : v.s.stm ≠ some .copy) (hentries : entries .copy v.s.log = 0)
    (hcred : credentials v.s.log = []) (ret : SocksState) :
    (v.settle ret).Sniffed ∧ copyChunks (v.settle ret).s = [] := by
  have hnone : credentials (v.settle ret).s.log = [] := (settle_credentials v ret).trans hcred
  by_cases hret : ret = .copy
  · subst hret
    have hsettle : v.settle .copy = (v.enter .copy).arrive .copy := by simp [settle, advance, hst]
    have hchunks : copyChunks (v.settle .copy).s = [] := by
      rw [hsettle]
      show (sinceCopy (v.s.log ++ [.enter v.s.stm .copy])).filterMap _ = []
      rw [sinceCopy_skip hentries]
      rfl
    refine ⟨⟨fun _ => hnone, fun _ => ?_⟩, hchunks⟩
    rw [traced, hchunks, hnone, hsettle]
    rfl
  · have hzero : entries .copy (v.settle ret).s.log = 0 := by
      rw [settle_log, entries_advance, hentries, Nat.zero_add, if_neg fun h => hret h.2]
    exact ⟨⟨fun _ => hnone, fun hpos => by omega⟩, copyChunks_of_entries hzero⟩

theorem settle_traced (hst : v.s.stm = some .copy) (hentered : 0 < entries .copy v.s.log)
    {ret : SocksState} (hret : ret = .done ∨ ret = .copy) :
    copyChunks (v.settle ret).s = copyChunks v.s ∧ (v.settle ret).s.dp = v.s.dp := by
  rcases hret with rfl | rfl
  · have hs : (v.settle .done).s = { v.s with
        stm := some .done, references := 1, log := v.s.log ++ [.enter v.s.stm .done] } := by
      simp [settle, advance, hst, enter, arrive, ended]
    rw [hs]
    refine ⟨?_, rfl⟩
    show (sinceCopy (v.s.log ++ [.enter v.s.stm .done])).filterMap _ = _
    rw [sinceCopy_append hentered, List.filterMap_append]
    exact List.append_nil _
  · have hsame : v.settle .copy = v := by simp [settle, advance, hst]
    rw [hsame]
    exact ⟨rfl, rfl⟩

theorem Step.sniffed {ce : ConnEvent} (h : Step c v ce v') (hs : v.Shape c) (ht : v.Tracked)
    (hv : v.Sniffed) (hon : v.s.stm = some .copy → v.globals.isDisectorOn = true) :
    v'.Sniffed ∧ (copyChunks v'.s = copyChunks v.s ∨
      ∃ chunk, v.s.stm = some .copy ∧ 0 < entries .copy v.s.log ∧ chunkOf v.s ce = some chunk ∧
        copyChunks v'.s = copyChunks v.s ++ [chunk]) := by
  -- an event that starts in another state
  have hother {v₀ v₁ : View} (ret : SocksState) (hst : v₀.s.stm ≠ some .copy)
      (hentries : entries .copy v₀.s.log = 0) (hcred : credentials v₀.s.log = [])
      (hst₁ : v₁.s.stm = v₀.s.stm) (hplain : Adds Action.Plain v₀.s.log v₁.s.log) :
      (v₁.settle ret).Sniffed ∧ copyChunks (v₁.settle ret).s = [] := by
    obtain ⟨lines, hlog, hl⟩ := hplain
    refine settle_sniffed (hst₁ ▸ hst) ?_ ?_ ret
    · rw [hlog, entries_append, hentries, entries_eq_zero fun a ha => (hl a ha).1]
    · rw [hlog, credentials_append, hcred, credentials_plain fun a ha => (hl a ha).2]
      rfl
  cases h with
  | @ready fd write io v₁ ret hen hout =>
    by_cases hnone : v.s.stm = none
    · -- the first event of the connection
      have hentries : entries .copy v.s.log = 0 := by simpa [hnone] using ht.copies
      have hstarted : v.started = v.settle .helloRead := if_pos hnone
      have hentries' : entries .copy v.started.s.log = 0 := by
        rw [hstarted, settle_log, entries_advance, hentries]
        simp
      have hcred : credentials v.started.s.log = [] := by
        rw [hstarted, settle_credentials]
        exact hv.before hentries
      have hst' : v.started.s.stm ≠ some .copy := by
        rw [hstarted, settle_stm]
        simp
      obtain ⟨hsniffed, hchunks⟩ := hother ret hst' hentries' hcred hout.stm (hout.plain hst')
      exact ⟨hsniffed, .inl (hchunks.trans (copyChunks_of_entries hentries).symm)⟩
    · have hsame : v.started = v := if_neg hnone
      rw [hsame] at hout
      by_cases hst : v.s.stm = some .copy
      · have hentered : 0 < entries .copy v.s.log := by
          have hcopies := ht.copies
          simp only [hst, true_or, ↓reduceIte] at hcopies
          omega
        have hst₁ : v₁.s.stm = some .copy := hout.stm.trans hst
        obtain ⟨lines, hlog, -⟩ := hout.logs
        have hentered₁ : 0 < entries .copy v₁.s.log := by
          rw [hlog, entries_append]
          omega
        obtain ⟨d, _, _, -, hcopies⟩ := hout.copies hs hst
        obtain ⟨hchunks, hdp⟩ := settle_traced hst₁ hentered₁ hcopies.ret_cases
        have hcred := settle_credentials v₁ ret
        have hpos : 0 < entries .copy (v₁.settle ret).s.log := by
          rw [settle_log, entries_advance]
          omega
        have hforget := hv.after hentered
        obtain ⟨-, ⟨hkept, hdp₁, hcred₁⟩ | ⟨chunk, hchunk, hadd, hsniff⟩⟩ :=
          hout.sniffs hs hst (hon hst) hentered
        · refine ⟨⟨fun hzero => by omega, fun _ => ?_⟩, .inl (hchunks.trans hkept)⟩
          rw [traced, hchunks, hkept, hdp, hcred, hdp₁, hcred₁]
          exact hforget
        · refine ⟨⟨fun hzero => by omega, fun _ => ?_⟩,
            .inr ⟨chunk, hst, hentered, hchunk, hchunks.trans hadd⟩⟩
          rw [traced, hchunks, hadd, hdp, hcred, hsniff, ← hforget, Tracer.sniffAll_append]
          exact Tracer.sniff_forget _ _
      · have hstays := hs.stays
        have hentries : entries .copy v.s.log = 0 := by
          simpa [hst, hstays.1] using ht.copies
        obtain ⟨hsniffed, hchunks⟩ := hother ret hst hentries (hv.before hentries) hout.stm
          (hout.plain hst)
        exact ⟨hsniffed, .inl (hchunks.trans (copyChunks_of_entries hentries).symm)⟩
  | @resolved answer io v₁ ret hst hres =>
    have hentries : entries .copy v.s.log = 0 := by simpa [hst] using ht.copies
    obtain ⟨hsniffed, hchunks⟩ := hother ret (by simp [hst]) hentries (hv.before hentries)
      hres.stm hres.plain
    exact ⟨hsniffed, .inl (hchunks.trans (copyChunks_of_entries hentries).symm)⟩

end View

namespace World

open View

variable {w₀ w : World} {c : ConnId}

/-- The disector is on whenever a connection is in COPY. -/
def DisectorOn : Condition := fun g s _ => s.stm = some .copy → g.isDisectorOn = true

/-- Moreover, what the disector keeps of a chunk, or matches with the answer,
comes from the side it listens to at that byte. -/
def Unmixed : Condition := fun g s ce => s.stm = some .copy → g.isDisectorOn = true ∧
  ∀ chunk ∈ chunkOf s ce, s.dp.state.hears = some chunk.sender → Gated chunk.sender s.dp chunk.bytes

instance (g : Globals) (s : Socks5) (ce : ConnEvent) : Decidable (DisectorOn g s ce) :=
  inferInstanceAs (Decidable (_ → _))

instance (g : Globals) (s : Socks5) (ce : ConnEvent) : Decidable (Unmixed g s ce) :=
  inferInstanceAs (Decidable (_ → _ ∧ _))

theorem sniffed_kept : Kept DisectorOn (fun _ => True) fun _ v => v.Tracked ∧ v.Sniffed where
  step hs hv _ hon hstep :=
    ⟨⟨(hstep.tracked hs hv.1).1, (hstep.sniffed hs hv.1 hv.2 hon).1⟩, trivial⟩
  frame g hv _ := ⟨tracked_kept.frame (c := 0) g hv.1 trivial, hv.2.before, hv.2.after⟩
  fresh addr _ := ⟨tracked_kept.fresh (c := 0) addr trivial, fun _ => rfl,
    fun h => absurd h (Nat.lt_irrefl 0)⟩
  turnedAway addr _ :=
    ⟨tracked_kept.turnedAway (c := 0) addr trivial, fun _ => rfl, fun h => absurd h (Nat.lt_irrefl 0)⟩

theorem credentials_sniffed (h₀ : w₀.Initial) (h : Runs DisectorOn w₀ w) {conn : Conn}
    (hc : w.conns c = some conn) :
    credentials conn.s.log = (Sniffer.sniffAll {} (copyChunks conn.s)).reports := by
  have hcarries := reaches_carries sniffed_kept ⟨fun _ _ h => h, fun _ _ h => h⟩ h₀ trivial h
  obtain ⟨v, hshows, -, -, hv⟩ := hcarries.view hc
  rw [hshows.conn] at hc
  cases hc
  rcases Nat.eq_zero_or_pos (entries .copy v.s.log) with hzero | hpos
  · rw [copyChunks_of_entries hzero, hv.before hzero]
    rfl
  · have hforget := hv.after hpos
    rw [traced, Tracer.sniffAll_forget] at hforget
    exact (congrArg Sniffer.reports hforget).symm

theorem clean_kept : Kept Unmixed (fun _ => True)
    fun _ v => (v.Tracked ∧ v.Sniffed) ∧ (traced v.s).Clean where
  step {c v ce v'} hs hv _ hcond hstep := by
    refine ⟨⟨(sniffed_kept.step hs hv.1 trivial (fun hst => (hcond hst).1) hstep).1, ?_⟩, trivial⟩
    obtain ⟨-, hsame | ⟨chunk, hst, hpos, hchunk, hadd⟩⟩ :=
      hstep.sniffed hs hv.1.1 hv.1.2 fun hst => (hcond hst).1
    · rw [traced, hsame]
      exact hv.2
    · rw [traced, hadd, Tracer.sniffAll_append]
      refine hv.2.sniff fun hears => ?_
      have hp : (traced v.s).p = v.s.dp := congrArg Sniffer.p (hv.1.2.after hpos)
      rw [hp] at hears ⊢
      exact (hcond hst).2 chunk hchunk hears
  frame g hv _ := ⟨sniffed_kept.frame (c := 0) g hv.1 trivial, hv.2⟩
  fresh addr _ := ⟨sniffed_kept.fresh (c := 0) addr trivial, Tracer.Clean.init⟩
  turnedAway addr _ := ⟨sniffed_kept.turnedAway (c := 0) addr trivial, Tracer.Clean.init⟩

theorem Runs.disectorOn (h : Runs Unmixed w₀ w) : Runs DisectorOn w₀ w :=
  h.mono fun _ _ hm c ce s hcon hconn hst => (hm c ce s hcon hconn hst).1

/-- No credentials are forged: in every state of every run, each line of a log
is a report whose user and password the client sent and whose answer the origin
sent after the PASS line. -/
theorem credentials_genuine (h₀ : w₀.Initial) (h : Runs Unmixed w₀ w) {conn : Conn}
    (hc : w.conns c = some conn) :
    credentials conn.s.log = (traced conn.s).reports.map (fun r => (r.user, r.pass)) ∧
      ∀ r ∈ (traced conn.s).reports, r.Genuine := by
  have hlogged := credentials_sniffed h₀ h.disectorOn hc
  have hcarries := reaches_carries clean_kept ⟨fun _ _ h => h, fun _ _ h => h⟩ h₀ trivial h
  obtain ⟨v, hshows, -, -, hclean⟩ := hcarries.view hc
  rw [hshows.conn] at hc
  cases hc
  refine ⟨?_, hclean.reports⟩
  rw [hlogged, show ({} : Sniffer) = ({} : Tracer).forget from rfl, ← Tracer.sniffAll_forget]
  rfl

/-- The origin sends a chunk and the client gets it; and the other way round. -/
def fromOrigin (bytes : List Byte) : List Event :=
  [.ready 5 false { recv := some bytes }, .ready 4 true { send := some bytes.length }]

def fromClient (bytes : List Byte) : List Event :=
  [.ready 4 false { recv := some bytes }, .ready 5 true { send := some bytes.length }]

def login : List Event :=
  connected ++ fromOrigin [0x2b, 0x4f, 0x4b, 0x0d, 0x0a] ++
    fromClient [0x55, 0x53, 0x45, 0x52, 0x20, 0x61, 0x0d, 0x0a] ++
    fromClient [0x50, 0x41, 0x53, 0x53, 0x20, 0x62, 0x0d, 0x0a] ++
    fromOrigin [0x2b, 0x4f, 0x4b, 0x0d, 0x0a]

theorem login_genuine : ∃ w conn, Runs Unmixed (startUp {}) w ∧ w.conns 0 = some conn ∧
    credentials conn.s.log = [([0x20, 0x61], [0x20, 0x62])] ∧
    ∀ r ∈ (traced conn.s).reports, r.Genuine := by
  have hrun : Lib.endsIn (fun w => (w.conns 0).any fun conn =>
      decide (credentials conn.s.log = [([0x20, 0x61], [0x20, 0x62])]))
      (play (Meets Unmixed) (startUp {}) login) = true := by
    decide +kernel
  obtain ⟨w, hplay, hw⟩ := Lib.endsIn_iff.mp hrun
  obtain ⟨conn, hc, hlogged⟩ := (Option.any_eq_true ..).mp hw
  have hruns := Lib.reaches_of_play hplay
  exact ⟨w, conn, hruns, hc, of_decide_eq_true hlogged,
    (credentials_genuine (startUp_initial (by decide)) hruns hc).2⟩

/-- "+OK USER x", "PASS y" and "+OK", all in one chunk of the origin: the client
sent nothing, and its credentials are logged. -/
def banner : List Byte :=
  [0x2b, 0x4f, 0x4b, 0x20, 0x55, 0x53, 0x45, 0x52, 0x20, 0x78, 0x0d, 0x0a,
    0x50, 0x41, 0x53, 0x53, 0x20, 0x79, 0x0d, 0x0a, 0x2b, 0x4f, 0x4b]

theorem credentials_forged : ∃ w conn r, Runs DisectorOn (startUp {}) w ∧ w.conns 0 = some conn ∧
    credentials conn.s.log = [([0x20, 0x78], [0x20, 0x79])] ∧ (traced conn.s).reports = [r] ∧
    ¬ r.Genuine := by
  have hrun : Lib.endsIn (fun w => (w.conns 0).any fun conn =>
      decide (credentials conn.s.log = [([0x20, 0x78], [0x20, 0x79])] ∧
        (traced conn.s).reports = [⟨[0x20, 0x78], [0x20, 0x79], [some .origin, some .origin],
          [some .origin, some .origin], [.origin, .origin]⟩]))
      (play (Meets DisectorOn) (startUp {}) (connected ++ fromOrigin banner)) = true := by
    decide +kernel
  obtain ⟨w, hplay, hw⟩ := Lib.endsIn_iff.mp hrun
  obtain ⟨conn, hc, hboth⟩ := (Option.any_eq_true ..).mp hw
  obtain ⟨hlogged, hreports⟩ := of_decide_eq_true hboth
  refine ⟨w, conn, _, Lib.reaches_of_play hplay, hc, hlogged, hreports, fun hgenuine => ?_⟩
  cases hgenuine.user (some .origin) (by decide)

end World

end Socks5d
