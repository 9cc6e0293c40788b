import Socks5d.Authentication
import Socks5d.Exchange

/-!
# The greeting

A hello lists the methods that the client offers. The callback of the parser looks
at each of them and overwrites the method of the reply with those it accepts; only
one method is accepted at a time, so the order of the list does not matter.
-/

namespace Socks5d

open Lib (Machine)
open Handler (onHelloMethod)

def helloBytes (methods : List Byte) : List Byte := [0x05, methods.length.toUInt8] ++ methods

def helloMethod (authOn : Bool) (methods : List Byte) : Byte :=
  if authOn = true ∧ 0x02 ∈ methods then 0x02
  else if authOn = false ∧ 0x00 ∈ methods then 0x00
  else 0xff

def helloCalls (authOn : Bool) (bs : List Buffer) :
    HelloParser Byte × Bool × Option (Buffer × List Buffer) :=
  consumeCalls (helloConsume (onHelloMethod authOn)) (fun p => helloIsDone p.state)
    (helloParserInit socksHelloNoAcceptableMethods) bs

-- ---------------------------------------------------------------------------
-- The message
-- ---------------------------------------------------------------------------

section

variable {f : δ → Byte → δ} {methods : List Byte}

theorem helloMachine_feed (p : HelloParser δ) (b : Byte) :
    (helloMachine f).feed p b = helloParserFeed f p b := rfl

theorem feed_methods {p : HelloParser δ} (hst : p.state = .methods) (b : Byte) :
    (helloMachine f).feed p b = { p with
      data := f p.data b
      remaining := p.remaining - 1
      state := if p.remaining - 1 ≤ 0 then .done else .methods } := by
  simp only [helloMachine_feed, helloParserFeed, hst]

theorem methods_end {p : HelloParser δ} (hst : p.state = .methods) (hne : methods ≠ [])
    (hlen : p.remaining.toNat = methods.length) :
    (helloMachine f).Ends p methods
      { state := .done, remaining := 0, data := methods.foldl f p.data } := by
  induction methods generalizing p with
  | nil => exact absurd rfl hne
  | cons b rest ih =>
    rw [List.length_cons] at hlen
    have hless : (p.remaining - 1).toNat = rest.length := by
      rw [UInt8.toNat_sub_of_le _ _ (by rw [UInt8.le_iff_toNat_le, hlen, UInt8.toNat_one]; omega), hlen]
      rfl
    have hfeed := feed_methods (f := f) hst b
    cases rest with
    | nil =>
      have hzero : p.remaining - 1 = 0 := UInt8.toNat_inj.mp hless
      rw [hzero, if_pos (by decide)] at hfeed
      exact (Machine.Reads.nil (by show helloIsDone _ = false; rw [hst]; rfl)).ends hfeed rfl
    | cons b' rest =>
      have hpos : ¬ p.remaining - 1 ≤ 0 := by
        rw [UInt8.le_iff_toNat_le, hless]
        simp
      rw [if_neg hpos] at hfeed
      exact (Machine.Reads.single hfeed rfl).append_ends (ih rfl (List.cons_ne_nil _ _) hless)

/-- A hello ends with its last method, and one without methods with their number. -/
theorem hello_ends (hlen : methods.length ≤ 255) (data : δ) :
    (helloMachine f).Ends (helloParserInit data) (helloBytes methods)
      { state := .done, remaining := 0, data := methods.foldl f data } := by
  have hversion : (helloMachine f).Reads (helloParserInit data) [0x05] { state := .nmethods, data } :=
    .single rfl rfl
  have hcount := length_toUInt8 hlen
  by_cases hnil : methods = []
  · subst hnil
    exact hversion.ends rfl rfl
  · have hpos : ¬ methods.length.toUInt8 ≤ 0 := by
      rw [UInt8.le_iff_toNat_le, hcount]
      simpa using hnil
    have hnumber : (helloMachine f).Reads { state := .nmethods, data } [methods.length.toUInt8]
        { state := .methods, remaining := methods.length.toUInt8, data } := by
      refine .single ?_ rfl
      simp only [helloMachine_feed, helloParserFeed, if_neg hpos]
    exact (hversion.append hnumber).append_ends (methods_end rfl hnil hcount)

theorem version_ends {b : Byte} (h : b ≠ 0x05) (data : δ) :
    (helloMachine f).Ends (helloParserInit data) [b] { state := .errorUnsupportedVersion, data } := by
  have hfeed : (helloMachine f).feed (helloParserInit data) b =
      { state := .errorUnsupportedVersion, data } := by
    simp only [helloMachine_feed, helloParserFeed, helloParserInit, if_neg h]
  exact (Machine.Reads.nil rfl).ends hfeed rfl

theorem foldl_onHelloMethod (authOn : Bool) (selected : Byte) :
    methods.foldl (onHelloMethod authOn) selected =
      if authOn = true ∧ 0x02 ∈ methods then 0x02
      else if authOn = false ∧ 0x00 ∈ methods then 0x00
      else selected := by
  induction methods generalizing selected with
  | nil => simp
  | cons m rest ih =>
    rw [List.foldl_cons, ih]
    cases authOn with
    | true =>
      by_cases hm : m = 0x02
      · simp [onHelloMethod, socksHelloUsernamePassword, hm]
      · simp [onHelloMethod, socksHelloUsernamePassword, hm, Ne.symm hm]
    | false =>
      by_cases hm : m = 0x00
      · simp [onHelloMethod, socksHelloNoAuthenticationRequired, hm]
      · simp [onHelloMethod, socksHelloNoAuthenticationRequired, hm, Ne.symm hm]

theorem helloConsume_consumes (authOn : Bool) :
    Consumes (helloMachine (onHelloMethod authOn)) (fun p => helloIsError p.state)
      (helloConsume (onHelloMethod authOn)) := fun _ _ => rfl

theorem helloCalls_ends {message trailing : List Byte} {authOn : Bool} {p : HelloParser Byte}
    (h : (helloMachine (onHelloMethod authOn)).Ends (helloParserInit socksHelloNoAcceptableMethods)
      message p) {bs : List Buffer} (hbs : contents bs = message ++ trailing) :
    ∃ b rest, helloCalls authOn bs = (p, helloIsError p.state, some (b, rest)) ∧
      b.content ++ contents rest = trailing :=
  consumeCalls_ends (helloConsume_consumes authOn) rfl h hbs

end

-- ---------------------------------------------------------------------------
-- The phase
-- ---------------------------------------------------------------------------

def helloExchange (authOn : Bool) : Exchange (HelloParser Byte) where
  machine := helloMachine (onHelloMethod authOn)
  init := helloParserInit socksHelloNoAcceptableMethods
  parser s := s.hello
  read := .helloRead
  write := .helloWrite
  going := rfl

/-- `is_auth_on` as the parser of the hello finds it: without users the hook of
HELLO_READ turns it off before the first byte. -/
def authAtHello (g : Globals) (s : Socks5) : Bool :=
  if s.stm = none ∧ g.users.registered = 0 then false else g.isAuthOn

/-- `is_auth_on` is the same in all events up to the end of the hello. -/
def GreetedWith (authOn : Bool) : World.Condition := fun g s _ =>
  s.stm = none ∨ s.stm = some .helloRead → authAtHello g s = authOn

/-- The method that the parser leaves, if it accepted the message. -/
def HelloParser.answer (p : HelloParser Byte) : Option Byte :=
  if helloIsError p.state then none else some p.data

section

variable (authOn : Bool) (start : Socks5) (message : List Byte) (answer : Option Byte)

inductive GreetingCourse (s : Socks5) (lines : List Action) : Prop
  | waiting (hst : s.stm = none) (hbuffer : s.readBuffer = start.readBuffer) (hlines : lines = [])
  | hearing (h : Hearing (helloExchange authOn) start message s lines)
  | hungUp (h : HungUp (helloExchange authOn) start message s lines)
  | sendFailed (hst : s.stm = some .error) (h : .sendFailed start.clientFd ∈ lines)
  | dropped (hanswer : answer = none) (hst : s.stm = some .error)
      (hsent : sentTo start.clientFd lines = [])
  | replying {m : Byte} (hanswer : answer = some m)
      (h : Replying (helloExchange authOn) start message [0x05, m] s lines)
  | replied {m : Byte} {next : SocksState} (hanswer : answer = some m)
      (hnext : next = .authRead ∨ next = .requestRead)
      (h : Replied (helloExchange authOn) start message [0x05, m] next (fun _ => True) s lines)

def GreetingFollowed (s : Socks5) : Prop :=
  ∃ lines, Since start s lines ∧
    (Consistent (start.stream lines) message → GreetingCourse authOn start message answer s lines)

end

theorem GreetingFollowed.ended {authOn : Bool} {start s : Socks5} {message : List Byte}
    {answer : Option Byte} (h : GreetingFollowed authOn start message answer s) :
    GreetingFollowed authOn start message answer { s with references := 1 } := by
  obtain ⟨lines, hsince, hcourse⟩ := h
  refine ⟨lines, ⟨hsince.log, hsince.clientFd⟩, fun hconsistent => ?_⟩
  cases hcourse hconsistent with
  | waiting hst hbuffer hlines => exact .waiting hst hbuffer hlines
  | hearing h => exact .hearing ⟨h.state, h.unsent, h.missing, h.reading⟩
  | hungUp h => exact .hungUp h
  | sendFailed hst h => exact .sendFailed hst h
  | dropped hanswer hst hsent => exact .dropped hanswer hst hsent
  | replying hanswer h => exact .replying hanswer ⟨h.state, h.left, h.reply, h.rest⟩
  | replied hanswer hnext h => exact .replied hanswer hnext h

namespace View

variable {v v' : View} {io : Io} {c : ConnId} {authOn : Bool} {start : Socks5} {message : List Byte}
  {last : HelloParser Byte} {answer : Option Byte} {lines more : List Action}

theorem started_isAuthOn (hcond : v.s.stm = none ∨ v.s.stm = some .helloRead →
    authAtHello v.globals v.s = authOn) (hst : v.started.s.stm = some .helloRead) :
    v.started.globals.isAuthOn = authOn := by
  unfold started at hst ⊢
  by_cases hnone : v.s.stm = none
  · rw [← hcond (.inl hnone), if_pos hnone]
    by_cases hzero : v.globals.users.registered = 0 <;>
      simp [View.advance, hnone, arrive, enter, authAtHello, hzero]
  · rw [if_neg hnone] at hst ⊢
    rw [← hcond (.inr hst)]
    simp [authAtHello, hnone]

theorem greeting_started (hv : GreetingFollowed authOn start message answer v.s) :
    GreetingFollowed authOn start message answer v.started.s := by
  unfold started
  split
  · rename_i hnone
    obtain ⟨lines, hsince, hcourse⟩ := hv
    obtain ⟨-, hfd, -, hrb, -⟩ := advance_same v .helloRead
    have hlog := advance_log v .helloRead
    rw [if_neg (by simp [hnone]), List.append_assoc] at hlog
    refine ⟨_, hsince.append hlog hfd, fun hconsistent => ?_⟩
    have hbefore : Consistent (start.stream lines) message := by
      rw [stream_append] at hconsistent
      exact hconsistent.of_append
    cases hcourse hbefore with
    | waiting _ hbuffer hlines =>
      subst hlines
      refine .hearing ⟨advance_stm .., by simp [sentTo], .inl (by simp [receivedFrom]), ?_⟩
      have hfresh : (v.advance .helloRead).s.hello = helloParserInit socksHelloNoAcceptableMethods := by
        simp [View.advance, hnone, arrive]
      show Machine.Reading _ _ [] _ _ (v.advance .helloRead).s.hello
      rw [hfresh, hrb, hbuffer]
      exact .start rfl (by simp [Socks5.stream, receivedFrom])
    | hearing h => exact absurd (hnone.symm.trans h.state) (by simp)
    | hungUp h => exact absurd (hnone.symm.trans h.1) (by simp)
    | sendFailed h => exact absurd (hnone.symm.trans h) (by simp)
    | dropped _ h => exact absurd (hnone.symm.trans h) (by simp)
    | replying _ h => exact absurd (hnone.symm.trans h.state) (by simp)
    | replied hanswer hnext h => exact .replied hanswer hnext (h.append (by simp))
  · exact hv

theorem Outcome.greeting_hearing {fd : Nat} {write : Bool} {ret : SocksState}
    (h : Outcome io c v fd write v' ret) (hs : v.Shape c) (hfd : (v.fd : Int) = start.clientFd)
    (hauth : v.globals.isAuthOn = authOn)
    (hends : (helloExchange authOn).machine.Ends (helloExchange authOn).init message last)
    (hv : Hearing (helloExchange authOn) start message v.s lines)
    (hlog : (v'.advance ret).s.log = v.s.log ++ more)
    (hconsistent : Consistent (start.stream (lines ++ more)) message) :
    GreetingCourse authOn start message last.answer (v'.advance ret).s (lines ++ more) := by
  subst hauth
  have hst : v.s.stm = some .helloRead := hv.state
  have hst' : v'.s.stm = some .helloRead := by rw [h.stm]; exact hst
  obtain ⟨v₁, heq⟩ : ∃ v₁, v' = v₁ := ⟨_, rfl⟩
  rw [heq] at h
  cases h with
  | recvFailed _ hrecv =>
    obtain rfl := lines_jump hlog (by rw [heq]; rfl) hst' (by simp) (by simp)
    rw [hfd, ← List.append_assoc]
    exact .hungUp (hv.hungUp hrecv (advance_stm ..))
  | @helloMore bytes rb rb' p errored _ hr hc hdone =>
    obtain rfl := lines_stay hlog (by rw [heq]; rfl) hst'
    rw [advance_stay hst', hfd]
    exact .hearing (hv.next hends hst'
      (by rw [heq]; exact (helloConsume_machine hr.fills hr.ne hc).1) (by rw [heq]; exact hdone))
  | @helloDone bytes rb rb' wb p errored _ hr hc hdone hwb =>
    obtain ⟨hconsume, herrored⟩ := helloConsume_machine hr.fills hr.ne hc
    obtain rfl := lines_jump hlog (by rw [heq]; rfl) hst' (by split <;> simp) (by split <;> simp)
    rw [hfd] at hconsistent ⊢
    obtain ⟨rfl, hrest⟩ := hv.complete hends (by simp [receivedFrom]) hconsistent hconsume hdone
    cases errored with
    | true =>
      refine .dropped (if_pos herrored.symm) (advance_stm ..) ?_
      rw [sentTo_append, hv.unsent]
      rfl
    | false =>
      simp only [Bool.false_eq_true, ↓reduceIte] at hrest ⊢
      obtain ⟨-, -, -, hrb, hqueue⟩ := advance_same v' .helloWrite
      have hanswer : p.answer = some p.data := if_neg (by rw [← herrored]; exact Bool.false_ne_true)
      refine .replying hanswer (hv.replying ?_ (by simp [sentTo]) (advance_stm ..) ?_ (by simp))
      · rw [hrest, hrb, heq]
        rfl
      · rw [hqueue, heq]
        show wb.content = _
        rw [hwb.content, (hs.phase_of hst).2.2.1, List.nil_append]
  | _ => simp_all

theorem Outcome.greeting_replying {fd : Nat} {write : Bool} {ret : SocksState} {m : Byte}
    (h : Outcome io c v fd write v' ret) (hfd : (v.fd : Int) = start.clientFd)
    (hanswer : answer = some m)
    (hv : Replying (helloExchange authOn) start message [0x05, m] v.s lines)
    (hlog : (v'.advance ret).s.log = v.s.log ++ more) :
    GreetingCourse authOn start message answer (v'.advance ret).s (lines ++ more) := by
  have hst : v.s.stm = some .helloWrite := hv.state
  have hst' : v'.s.stm = some .helloWrite := by rw [h.stm]; exact hst
  have hrb := (advance_same v' ret).2.2.2.1
  obtain ⟨v₁, heq⟩ : ∃ v₁, v' = v₁ := ⟨_, rfl⟩
  rw [heq] at h
  cases h with
  | sendFailed _ hsend =>
    obtain rfl := lines_jump hlog (by rw [heq]; rfl) hst' (by simp) (by simp)
    exact .sendFailed (advance_stm ..) (by simp [hfd])
  | helloPart _ hsend hleft =>
    obtain rfl := lines_stay hlog (by rw [heq]; rfl) hst'
    rw [hfd, advance_stay hst']
    exact .replying hanswer
      (hv.part hsend.takes (by rw [heq]; rfl) hleft hst' (by rw [heq]; rfl))
  | helloSent _ hsend hleft =>
    obtain rfl := lines_jump hlog (by rw [heq]; rfl) hst' (by split <;> simp) (by split <;> simp)
    rw [hfd]
    exact .replied hanswer (by split <;> simp)
      (hv.all [] hsend.takes hleft rfl rfl (advance_stm ..) (by rw [hrb, heq]; rfl) trivial)
  | _ => simp_all

theorem Outcome.greeting {fd : Nat} {write : Bool} {ret : SocksState}
    (h : Outcome io c v fd write v' ret) (hs : v.Shape c) (hstarted : v.s.stm ≠ none)
    (hauth : v.s.stm = some .helloRead → v.globals.isAuthOn = authOn)
    (hends : (helloExchange authOn).machine.Ends (helloExchange authOn).init message last)
    (hv : GreetingFollowed authOn start message last.answer v.s) :
    GreetingFollowed authOn start message last.answer (v'.advance ret).s := by
  refine Since.followed hv (fun _ => h.since)
    fun lines more hne hclient hlog hconsistent hcourse => ?_
  have hfd : (v.fd : Int) = start.clientFd := hs.body.clientFd.symm.trans hclient
  cases hcourse with
  | waiting h => exact absurd h hstarted
  | hearing hv => exact h.greeting_hearing hs hfd (hauth hv.state) hends hv hlog hconsistent
  | replying hanswer hv => exact h.greeting_replying hfd hanswer hv hlog
  | hungUp h => exact absurd h.1 hs.stays.2
  | sendFailed h => exact absurd h hs.stays.2
  | dropped _ h => exact absurd h hs.stays.2
  | replied hanswer hnext h => exact .replied hanswer hnext (h.append hne)

theorem Resolved.greeting {resolution : Option (List AddrInfo)} {ret : SocksState}
    (h : Resolved io (v.answered resolution) v' ret) (hs : v.Shape c)
    (hst : v.s.stm = some .requestResolv)
    (hv : GreetingFollowed authOn start message answer v.s) :
    GreetingFollowed authOn start message answer (v'.advance ret).s := by
  refine Since.followed hv (fun _ => h.since) fun lines more hne _ _ _ hcourse => ?_
  cases hcourse with
  | waiting h => exact absurd (hst.symm.trans h) (by simp)
  | hearing h => exact absurd (hst.symm.trans h.state) (by simp [helloExchange])
  | replying _ h => exact absurd (hst.symm.trans h.state) (by simp [helloExchange])
  | hungUp h => exact absurd h.1 hs.stays.2
  | sendFailed h => exact absurd h hs.stays.2
  | dropped _ h => exact absurd h hs.stays.2
  | replied hanswer hnext h => exact .replied hanswer hnext (h.append hne)

theorem Step.greeting {ce : ConnEvent} (h : Step c v ce v') (hs : v.Shape c)
    (hcond : GreetedWith authOn v.globals v.s ce)
    (hends : (helloExchange authOn).machine.Ends (helloExchange authOn).init message last)
    (hv : GreetingFollowed authOn start message last.answer v.s) :
    GreetingFollowed authOn start message last.answer v'.s := by
  have hsettle {v₁ : View} {ret : SocksState}
      (h : GreetingFollowed authOn start message last.answer (v₁.advance ret).s) :
      GreetingFollowed authOn start message last.answer (v₁.settle ret).s := by
    unfold settle
    split
    · exact h.ended
    · exact h
  cases h with
  | ready hen hout =>
    refine hsettle (hout.greeting hs.started ?_ (started_isAuthOn hcond) hends (greeting_started hv))
    rw [started_stm]
    exact Option.some_ne_none _
  | resolved hst hres => exact hsettle (hres.greeting hs hst hv)

end View

namespace World

variable {w₀ w w' : World} {c : ConnId} {s : Socks5} {authOn : Bool} {message : List Byte}

theorem greeting_followed (h₀ : w₀.Initial) (h : Reachable w₀ w) (hc : w.conns c = some ⟨s, true⟩)
    (hst : s.stm = none) {last : HelloParser Byte}
    (hends : (helloExchange authOn).machine.Ends (helloExchange authOn).init message last)
    (h' : Lib.Reaches World.step (MeetsOf c (GreetedWith authOn)) w w') :
    ∃ conn, w'.conns c = some conn ∧ GreetingFollowed authOn s message last.answer conn.s := by
  refine (h.carries h₀).follow (J := fun u _ => GreetingFollowed authOn s message last.answer u)
    ?_ hc ?_ h'
  · exact fun hs hv hcond hstep => hstep.greeting hs hcond hends hv
  · exact ⟨[], .refl s, fun _ => .waiting hst rfl rfl⟩

end World

/-- A hello is read to its last method and answered with the right one: by the
parser alone, whatever the chunks, and in every run in which `is_auth_on` stays the
same meanwhile. A first byte other than 05 ends the connection without a reply. -/
theorem greeting_exact (authOn : Bool) :
    (∀ (methods trailing : List Byte) (bs : List Buffer), methods.length ≤ 255 →
      contents bs = helloBytes methods ++ trailing →
      ∃ p b rest, helloCalls authOn bs = (p, false, some (b, rest)) ∧ p.state = .done ∧
        p.data = helloMethod authOn methods ∧ b.content ++ contents rest = trailing) ∧
    (∀ (version : Byte) (trailing : List Byte) (bs : List Buffer), version ≠ 0x05 →
      contents bs = version :: trailing →
      ∃ p b rest, helloCalls authOn bs = (p, true, some (b, rest)) ∧
        b.content ++ contents rest = trailing) ∧
    ∀ (w₀ w w' : World) (c : ConnId) (s : Socks5), w₀.Initial → w₀.Reachable w →
      w.conns c = some ⟨s, true⟩ → s.stm = none →
      Lib.Reaches World.step (World.MeetsOf c (GreetedWith authOn)) w w' →
      ∃ s' live lines, w'.conns c = some ⟨s', live⟩ ∧ Since s s' lines ∧
        (∀ methods : List Byte, methods.length ≤ 255 →
          Consistent (s.stream lines) (helloBytes methods) →
          GreetingCourse authOn s (helloBytes methods) (some (helloMethod authOn methods)) s' lines) ∧
        ∀ version : Byte, version ≠ 0x05 → Consistent (s.stream lines) [version] →
          GreetingCourse authOn s [version] none s' lines := by
  have hdata (methods : List Byte) : methods.foldl (onHelloMethod authOn) socksHelloNoAcceptableMethods =
      helloMethod authOn methods := foldl_onHelloMethod authOn _
  refine ⟨fun methods trailing bs hlen hbs => ?_, fun version trailing bs hne hbs => ?_, ?_⟩
  · obtain ⟨b, rest, hcalls, hrest⟩ := helloCalls_ends (hello_ends hlen _) hbs
    exact ⟨_, b, rest, hcalls, rfl, hdata methods, hrest⟩
  · obtain ⟨b, rest, hcalls, hrest⟩ := helloCalls_ends (version_ends hne _) hbs
    exact ⟨_, b, rest, hcalls, hrest⟩
  · intro w₀ w w' c s h₀ h hc hst h'
    have hempty : ([] : List Byte).length ≤ 255 := Nat.zero_le _
    obtain ⟨⟨s', live⟩, hconn, lines, hsince, -⟩ :=
      World.greeting_followed h₀ h hc hst (hello_ends hempty _) h'
    refine ⟨s', live, lines, hconn, hsince, fun methods hlen hconsistent => ?_,
      fun version hne hconsistent => ?_⟩
    · obtain ⟨conn, hconn', lines', hsince', hcourse⟩ :=
        World.greeting_followed h₀ h hc hst (hello_ends hlen _) h'
      obtain rfl : conn = ⟨s', live⟩ := Option.some.inj (hconn'.symm.trans hconn)
      obtain rfl := hsince'.unique hsince
      rw [← hdata]
      exact hcourse hconsistent
    · obtain ⟨conn, hconn', lines', hsince', hcourse⟩ :=
        World.greeting_followed h₀ h hc hst (version_ends hne _) h'
      obtain rfl : conn = ⟨s', live⟩ := Option.some.inj (hconn'.symm.trans hconn)
      obtain rfl := hsince'.unique hsince
      exact hcourse hconsistent

instance (authOn : Bool) (g : Globals) (s : Socks5) (ce : ConnEvent) :
    Decidable (GreetedWith authOn g s ce) := inferInstanceAs (Decidable (_ → _))

/-- A client that offers three methods while there is a user. -/
theorem greeting_exact_offer :
    (∃ p b rest, helloCalls true [⟨helloBytes [0, 2, 0] ++ [1], 0, 6, by decide, by decide⟩] =
        (p, false, some (b, rest)) ∧ p.data = 2 ∧ b.content ++ contents rest = [1]) ∧
    ∃ (w w' : World) (s s' : Socks5) (live : Bool) (lines : List Action),
      (World.startUp {}).Reachable w ∧ w.conns 0 = some ⟨s, true⟩ ∧ s.stm = none ∧
      w'.conns 0 = some ⟨s', live⟩ ∧ s'.stm = some .helloWrite ∧
      GreetingCourse true s (helloBytes [0, 2, 0]) (some 2) s' lines := by
  obtain ⟨hmessage, -, hruns⟩ := greeting_exact true
  refine ⟨?_, ?_⟩
  · obtain ⟨p, b, rest, hcalls, -, hdata, hrest⟩ := hmessage [0, 2, 0] [1]
      [⟨helloBytes [0, 2, 0] ++ [1], 0, 6, by decide, by decide⟩] (by decide) rfl
    exact ⟨p, b, rest, hcalls, hdata, hrest⟩
  · have hrun : World.staged (GreetedWith true) (World.startUp {})
        [.registerUser World.someName World.someName, .accept 3 { answer := some (4, {}) }]
        [.ready 4 false { recv := some [5, 3, 0] }, .ready 4 false { recv := some [2, 0, 1] },
         .ready 4 true { send := some 1 }]
        (fun s s' lines => decide (s.stm = none ∧ s'.stm = some .helloWrite ∧
          s.stream lines = helloBytes [0, 2, 0] ++ [1])) = true := by decide +kernel
    obtain ⟨w, s, w', s', live, lines, hreach, hc, hreach', hc', hsince, htest⟩ :=
      World.runs_of_staged hrun
    obtain ⟨hst, hst', hstream⟩ := of_decide_eq_true htest
    obtain ⟨s₁, live₁, lines₁, hc₁, hsince₁, hcourse, -⟩ := hruns _ _ _ _ _
      (World.startUp_initial (by decide)) hreach hc hst (hreach'.meetsOf 0)
    obtain ⟨rfl, rfl⟩ : s₁ = s' ∧ live₁ = live := by simpa using hc₁.symm.trans hc'
    obtain rfl := hsince₁.unique hsince
    exact ⟨w, w', s, s₁, live₁, lines₁, hreach, hc, hst, hc₁, hst',
      hcourse [0, 2, 0] (by decide) (.inr ⟨[1], hstream.symm⟩)⟩

end Socks5d
