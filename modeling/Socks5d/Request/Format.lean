import Socks5d.Request

/-!
# The format of a request

A request is the version, the command, a reserved byte, the type of the address,
the address and the port. The parser stores the address byte by byte over an
array of zeros, and for a name it stores the terminator first. The name of a
request has at least one byte: the length is compared only after a byte was
stored.
-/

namespace Socks5d

open Lib (Machine)

inductive Destination
  | ipv4 (addr : List Byte) (h : addr.length = 4)
  | ipv6 (addr : List Byte) (h : addr.length = 16)
  | domain (name : List Byte) (h : 0 < name.length ∧ name.length ≤ 255)

namespace Destination

def type : Destination → Byte
  | ipv4 _ _ => socksReqAddrtypeIpv4
  | ipv6 _ _ => socksReqAddrtypeIpv6
  | domain _ _ => socksReqAddrtypeDomain

/-- The bytes on the wire; a name is preceded by its length. -/
def bytes : Destination → List Byte
  | ipv4 addr _ | ipv6 addr _ => addr
  | domain name _ => name.length.toUInt8 :: name

def Of (d : Destination) (a : SocksAddr) : Prop :=
  match d with
  | ipv4 addr _ => a.ipv4.family = afInet ∧ a.ipv4.addr = addr
  | ipv6 addr _ => a.ipv6.family = afInet6 ∧ a.ipv6.addr = addr
  | domain name _ => a.fqdn.take name.length = name

end Destination

def requestBytes (cmd rsv : Byte) (d : Destination) (port : Byte × Byte) : List Byte :=
  [0x05, cmd, rsv, d.type] ++ d.bytes ++ [port.1, port.2]

def requestCalls (bs : List Buffer) : RequestParser × Bool × Option (Buffer × List Buffer) :=
  consumeCalls requestConsume (fun p => requestIsDone p.state) requestParserInit bs

theorem requestConsume_consumes :
    Consumes requestMachine (fun p => requestIsError p.state) requestConsume := fun _ _ => rfl

namespace RequestParser

variable {p q : RequestParser} {c : Byte}

def addrArray (p : RequestParser) : List Byte :=
  if p.request.destAddrType = socksReqAddrtypeIpv4 then p.request.destAddr.ipv4.addr
  else if p.request.destAddrType = socksReqAddrtypeIpv6 then p.request.destAddr.ipv6.addr
  else p.request.destAddr.fqdn

def supported (t : Byte) : Prop :=
  t = socksReqAddrtypeIpv4 ∨ t = socksReqAddrtypeIpv6 ∨ t = socksReqAddrtypeDomain

structure SameRest (p q : RequestParser) : Prop where
  cmd : q.request.cmd = p.request.cmd
  type : q.request.destAddrType = p.request.destAddrType
  family4 : q.request.destAddr.ipv4.family = p.request.destAddr.ipv4.family
  family6 : q.request.destAddr.ipv6.family = p.request.destAddr.ipv6.family

theorem SameRest.refl (p : RequestParser) : SameRest p p := ⟨rfl, rfl, rfl, rfl⟩

theorem SameRest.trans {r : RequestParser} (h : SameRest p q) (h' : SameRest q r) : SameRest p r :=
  ⟨h'.cmd.trans h.cmd, h'.type.trans h.type, h'.family4.trans h.family4, h'.family6.trans h.family6⟩

theorem feed_dstaddr (hst : p.state = .dstaddr) (ht : supported p.request.destAddrType) :
    ∃ q, requestMachine.feed p c = q ∧ SameRest p q ∧ q.addrArray = p.addrArray.set p.i.toNat c ∧
      q.stores = p.stores ++ (if p.request.destAddrType = socksReqAddrtypeDomain then
        [(p.i.toNat : Int)] else []) ∧
      if p.n ≤ p.i + 1 then q.state = .dstport ∧ q.i = 0 ∧ q.n = 2 ∧ q.request.destPort = [0, 0]
      else q.state = .dstaddr ∧ q.i = p.i + 1 ∧ q.n = p.n := by
  refine ⟨_, rfl, ?_⟩
  rcases ht with ht | ht | ht <;>
    by_cases hn : p.n ≤ p.i + 1 <;>
    simp [requestMachine, requestParserFeed, requestParserNext, hst, Request.dstaddrState, ht,
      remainingIsDone, hn, next, setAddr, storeFqdn, addrArray, remainingSet, socksReqAddrtypeIpv4,
      socksReqAddrtypeIpv6, socksReqAddrtypeDomain] <;>
    exact ⟨rfl, ht.symm, rfl, rfl⟩

structure Storing (p q : RequestParser) (stored : List Byte) : Prop where
  same : SameRest p q
  array : q.addrArray = overwrite p.addrArray stored
  stores : q.stores = p.stores ++ if p.request.destAddrType = socksReqAddrtypeDomain then
    (List.range stored.length).map Nat.cast else []

structure Expects (p q : RequestParser) (stored : List Byte) : Prop extends Storing p q stored where
  state : q.state = .dstaddr
  i : q.i.toNat = stored.length
  n : q.n = p.n

variable {stored : List Byte}

theorem Expects.start (hst : p.state = .dstaddr) (hi : p.i = 0) : Expects p p [] where
  same := .refl p
  array := rfl
  stores := by simp
  state := hst
  i := by rw [hi]; rfl
  n := rfl

theorem Expects.feed (h : Expects p q stored) (ht : supported p.request.destAddrType)
    (hroom : stored.length < p.addrArray.length) (hlen : stored.length < 255) (c : Byte) :
    Storing p (requestMachine.feed q c) (stored ++ [c]) ∧
      if p.n.toNat ≤ stored.length + 1 then (requestMachine.feed q c).state = .dstport ∧
        (requestMachine.feed q c).i = 0 ∧ (requestMachine.feed q c).n = 2 ∧
        (requestMachine.feed q c).request.destPort = [0, 0]
      else Expects p (requestMachine.feed q c) (stored ++ [c]) := by
  obtain ⟨q', hq', hsame, harray, hstores, hnext⟩ :=
    feed_dstaddr (c := c) h.state (h.same.type ▸ ht)
  have hi : (q.i + 1).toNat = stored.length + 1 := by
    rw [UInt8.toNat_add, UInt8.toNat_one, h.i]
    omega
  rw [hq']
  have hstoring : Storing p q' (stored ++ [c]) := by
    refine ⟨h.same.trans hsame, ?_, ?_⟩
    · rw [harray, h.array, h.i, overwrite_set hroom]
    · rw [hstores, h.stores, h.same.type, h.i, List.length_append, List.length_singleton,
        List.range_succ, List.map_append]
      split <;> simp
  refine ⟨hstoring, ?_⟩
  have hiff : q.n ≤ q.i + 1 ↔ p.n.toNat ≤ stored.length + 1 := by
    rw [UInt8.le_iff_toNat_le, hi, h.n]
  split at hnext
  · rw [if_pos (hiff.mp ‹_›)]
    exact hnext
  · rw [if_neg fun hle => ‹¬ _› (hiff.mpr hle)]
    exact ⟨hstoring, hnext.1, by rw [hnext.2.1, hi]; simp, hnext.2.2.trans h.n⟩

theorem Expects.reads (bytes : List Byte) (h : Expects p q stored)
    (ht : supported p.request.destAddrType) (hroom : stored.length + bytes.length ≤ p.addrArray.length)
    (hlen : stored.length + bytes.length < max p.n.toNat 1) :
    ∃ q', requestMachine.Reads q bytes q' ∧ Expects p q' (stored ++ bytes) := by
  have hn := p.n.toNat_lt
  induction bytes generalizing q stored with
  | nil => exact ⟨q, .nil (by simp [requestMachine, h.state]; rfl), by rwa [List.append_nil]⟩
  | cons c bytes ih =>
    simp only [List.length_cons] at hroom hlen
    obtain ⟨-, hnext⟩ := h.feed ht (by omega) (by omega) c
    rw [if_neg (by omega)] at hnext
    obtain ⟨q', hreads, hexpects⟩ := ih hnext
      (by rw [List.length_append, List.length_singleton]; omega)
      (by rw [List.length_append, List.length_singleton]; omega)
    refine ⟨q', ?_, by rwa [List.append_assoc, List.singleton_append] at hexpects⟩
    have hstep : requestMachine.Reads q [c] (requestMachine.feed q c) :=
      .single rfl (by simp [requestMachine] at hnext ⊢; rw [hnext.state]; rfl)
    exact hstep.append hreads

theorem port_ends (hst : p.state = .dstport) (hi : p.i = 0) (hn : p.n = 2)
    (hp : p.request.destPort = [0, 0]) (c₁ c₂ : Byte) :
    requestMachine.Ends p [c₁, c₂] { p with
      request := { p.request with destPort := [c₁, c₂] }, state := .done, i := 2 } := by
  have hfirst : requestMachine.feed p c₁ =
      { p with request := { p.request with destPort := [c₁, 0] }, i := 1 } := by
    simp [requestMachine, requestParserFeed, requestParserNext, hst, Request.dstportState, hi, hn, hp]
  have hreads : requestMachine.Reads p [c₁] (requestMachine.feed p c₁) :=
    .single rfl (by rw [hfirst]; simp [requestMachine, hst]; rfl)
  refine hreads.ends ?_ rfl
  rw [hfirst]
  simp [requestMachine, requestParserFeed, requestParserNext, hst, Request.dstportState, hn]

theorem dstaddr_ends (bytes : List Byte) (hst : p.state = .dstaddr) (hi : p.i = 0)
    (ht : supported p.request.destAddrType) (hroom : bytes.length ≤ p.addrArray.length)
    (hlen : bytes.length = max p.n.toNat 1)
    (c₁ c₂ : Byte) :
    ∃ q, requestMachine.Ends p (bytes ++ [c₁, c₂]) q ∧ q.state = .done ∧ Storing p q bytes ∧
      q.request.destPort = [c₁, c₂] := by
  have hn := p.n.toNat_lt
  obtain ⟨before, last, rfl⟩ : ∃ before last, bytes = before ++ [last] := by
    rcases List.eq_nil_or_concat bytes with rfl | ⟨before, last, rfl⟩
    · simp at hlen
      omega
    · exact ⟨before, last, List.concat_eq_append⟩
  rw [List.length_append, List.length_singleton] at hroom hlen
  obtain ⟨q, hreads, hexpects⟩ := (Expects.start hst hi).reads before ht
    (by rw [List.length_nil]; omega) (by rw [List.length_nil]; omega)
  rw [List.nil_append] at hexpects
  obtain ⟨hstoring, hnext⟩ := hexpects.feed ht (by omega) (by omega) last
  rw [if_pos (by omega)] at hnext
  obtain ⟨hst', hi', hn', hp'⟩ := hnext
  have hlast : requestMachine.Reads q [last] (requestMachine.feed q last) :=
    .single rfl (by simp [requestMachine] at hst' ⊢; rw [hst']; rfl)
  refine ⟨_, (hreads.append hlast).append_ends (port_ends hst' hi' hn' hp' c₁ c₂), rfl, ?_, rfl⟩
  exact ⟨⟨hstoring.same.cmd, hstoring.same.type, hstoring.same.family4, hstoring.same.family6⟩,
    hstoring.array, hstoring.stores⟩

-- ---------------------------------------------------------------------------
-- From the first byte on
-- ---------------------------------------------------------------------------

def awaiting (cmd type : Byte) (destAddr : SocksAddr) (n : UInt8) (stores : List Int) : RequestParser :=
  { request := { cmd, destAddrType := type, destAddr }, state := .dstaddr, n, stores }

theorem header_reads (cmd rsv : Byte) :
    requestMachine.Reads requestParserInit [0x05, cmd, rsv] { request := { cmd }, state := .atyp } :=
  ⟨rfl, rfl⟩

theorem ipv4_reads (cmd rsv : Byte) :
    requestMachine.Reads requestParserInit ([0x05, cmd, rsv] ++ [socksReqAddrtypeIpv4])
      (awaiting cmd socksReqAddrtypeIpv4
        { ipv4 := { family := afInet, addr := List.replicate 4 0 } } 4 []) :=
  (header_reads cmd rsv).append (.single rfl rfl)

theorem ipv6_reads (cmd rsv : Byte) :
    requestMachine.Reads requestParserInit ([0x05, cmd, rsv] ++ [socksReqAddrtypeIpv6])
      (awaiting cmd socksReqAddrtypeIpv6
        { ipv6 := { family := afInet6, addr := List.replicate 16 0 } } 16 []) :=
  (header_reads cmd rsv).append (.single rfl rfl)

theorem domain_reads (cmd rsv length : Byte) :
    requestMachine.Reads requestParserInit
      ([0x05, cmd, rsv] ++ [socksReqAddrtypeDomain] ++ [length])
      (awaiting cmd socksReqAddrtypeDomain {} length [(length.toNat : Int) - 1]) := by
  refine ((header_reads cmd rsv).append (.single rfl rfl)).append (.single ?_ rfl)
  simp [requestMachine, requestParserFeed, requestParserNext, Request.atypState,
    Request.dstaddrFqdnState, storeFqdn, setAddr, remainingSet, awaiting, socksReqAddrtypeIpv4,
    socksReqAddrtypeIpv6, socksReqAddrtypeDomain, List.set_replicate_self]

theorem domain_ends (cmd rsv length : Byte) (name : List Byte)
    (hname : name.length = max length.toNat 1) (c₁ c₂ : Byte) :
    ∃ q, requestMachine.Ends requestParserInit
        ([0x05, cmd, rsv, socksReqAddrtypeDomain, length] ++ name ++ [c₁, c₂]) q ∧
      q.state = .done ∧ q.request.cmd = cmd ∧ q.request.destAddrType = socksReqAddrtypeDomain ∧
      q.request.destAddr.fqdn = overwrite (List.replicate fqdnSize 0) name ∧
      q.request.destPort = [c₁, c₂] ∧
      q.stores = ((length.toNat : Int) - 1) :: (List.range name.length).map Nat.cast := by
  have hlt := length.toNat_lt
  obtain ⟨q, hends, hst, hstoring, hport⟩ := dstaddr_ends name
    (p := awaiting cmd socksReqAddrtypeDomain {} length [(length.toNat : Int) - 1]) rfl rfl
    (.inr (.inr rfl))
    (by
      show name.length ≤ (List.replicate fqdnSize (0 : Byte)).length
      rw [List.length_replicate, hname]
      show max length.toNat 1 ≤ 255
      omega) hname c₁ c₂
  have htype : q.request.destAddrType = socksReqAddrtypeDomain := hstoring.same.type
  refine ⟨q, ?_, hst, hstoring.same.cmd, htype, ?_, hport, hstoring.stores⟩
  · have := (domain_reads cmd rsv length).append_ends hends
    simpa using this
  · have := hstoring.array
    rwa [addrArray, htype] at this

end RequestParser

open RequestParser

theorem overwrite_length {array bytes : List Byte} (h : bytes.length = array.length) :
    overwrite array bytes = bytes := by
  unfold overwrite
  rw [List.drop_of_length_le (Nat.le_of_eq h.symm), List.append_nil]

theorem request_ends (cmd rsv : Byte) (d : Destination) (port : Byte × Byte) :
    ∃ p, requestMachine.Ends requestParserInit (requestBytes cmd rsv d port) p ∧ p.state = .done ∧
      p.request.cmd = cmd ∧ p.request.destAddrType = d.type ∧ d.Of p.request.destAddr ∧
      p.request.destPort = [port.1, port.2] := by
  cases d with
  | ipv4 addr h =>
    obtain ⟨p, hends, hst, hstoring, hport⟩ := dstaddr_ends addr (p := awaiting cmd
      socksReqAddrtypeIpv4 { ipv4 := { family := afInet, addr := List.replicate 4 0 } } 4 [])
      rfl rfl (.inl rfl) (Nat.le_of_eq h) h port.1 port.2
    have htype : p.request.destAddrType = socksReqAddrtypeIpv4 := hstoring.same.type
    have harray := hstoring.array
    rw [addrArray, htype, overwrite_length (by exact h)] at harray
    refine ⟨p, ?_, hst, hstoring.same.cmd, htype, ⟨hstoring.same.family4, harray⟩, hport⟩
    simpa [requestBytes, Destination.type, Destination.bytes] using (ipv4_reads cmd rsv).append_ends hends
  | ipv6 addr h =>
    obtain ⟨p, hends, hst, hstoring, hport⟩ := dstaddr_ends addr (p := awaiting cmd
      socksReqAddrtypeIpv6 { ipv6 := { family := afInet6, addr := List.replicate 16 0 } } 16 [])
      rfl rfl (.inr (.inl rfl)) (Nat.le_of_eq h) h port.1 port.2
    have htype : p.request.destAddrType = socksReqAddrtypeIpv6 := hstoring.same.type
    have harray := hstoring.array
    rw [addrArray, htype, overwrite_length (by exact h)] at harray
    refine ⟨p, ?_, hst, hstoring.same.cmd, htype, ⟨hstoring.same.family6, harray⟩, hport⟩
    simpa [requestBytes, Destination.type, Destination.bytes] using (ipv6_reads cmd rsv).append_ends hends
  | domain name h =>
    have hlen : name.length.toUInt8.toNat = name.length := length_toUInt8 (by omega)
    obtain ⟨p, hends, hst, hcmd, htype, hfqdn, hport, -⟩ :=
      domain_ends cmd rsv name.length.toUInt8 name (by omega) port.1 port.2
    refine ⟨p, ?_, hst, hcmd, htype, ?_, hport⟩
    · simpa [requestBytes, Destination.type, Destination.bytes] using hends
    · show p.request.destAddr.fqdn.take name.length = name
      rw [hfqdn, overwrite, List.take_left]

-- ---------------------------------------------------------------------------
-- Errors
-- ---------------------------------------------------------------------------

/-- The bytes up to one that the parser does not accept. -/
inductive Malformed : List Byte → Prop
  | version {v : Byte} (h : v ≠ 0x05) : Malformed [v]
  | type {cmd rsv t : Byte} (h : ¬ supported t) : Malformed [0x05, cmd, rsv, t]

theorem atyp_unsupported {t : Byte} (h : ¬ supported t) (p : RequestParser) :
    (Request.atypState t p).2 = .errorUnsupportedAtyp := by
  simp only [supported, not_or] at h
  simp [Request.atypState, h.1, h.2.1, h.2.2]

theorem Malformed.ends {bad : List Byte} (h : Malformed bad) :
    ∃ p, requestMachine.Ends requestParserInit bad p ∧ requestIsError p.state = true := by
  cases h with
  | @version v h =>
    have hst : (requestMachine.feed requestParserInit v).state = .errorUnsupportedVersion := if_neg h
    refine ⟨_, (Machine.Reads.nil (m := requestMachine) rfl).ends rfl ?_, ?_⟩
    · show requestIsDone (requestMachine.feed requestParserInit v).state = true
      rw [hst]
      rfl
    · rw [hst]
      rfl
  | @type cmd rsv t h =>
    have hst := atyp_unsupported h { request := { cmd }, state := .atyp }
    refine ⟨_, (header_reads cmd rsv).ends rfl ?_, ?_⟩
    · show requestIsDone (Request.atypState t { request := { cmd }, state := .atyp }).2 = true
      rw [hst]
      rfl
    · show requestIsError (Request.atypState t { request := { cmd }, state := .atyp }).2 = true
      rw [hst]
      rfl

def RequestParser.Served (p : RequestParser) : Prop :=
  p.state = .dstaddrFqdn ∨ p.state = .dstaddr ∨ p.state = .dstport ∨ p.state = .done

theorem RequestParser.Served.feed {p : RequestParser} (h : p.Served) (c : Byte) :
    (requestMachine.feed p c).Served := by
  rcases h with h | h | h | h
  · simp [Served, requestMachine, requestParserFeed, requestParserNext, h, Request.dstaddrFqdnState]
  · have hnext : (Request.dstaddrState c p).2 = .dstaddr ∨ (Request.dstaddrState c p).2 = .dstport := by
      simp only [Request.dstaddrState]
      generalize (if p.request.destAddrType = socksReqAddrtypeIpv4 then _ else _) = q
      split
      · exact .inr rfl
      · exact .inl rfl
    have hfeed : (requestMachine.feed p c).state = (Request.dstaddrState c p).2 := by
      simp [requestMachine, requestParserFeed, requestParserNext, h]
    rw [Served, hfeed]
    rcases hnext with hnext | hnext <;> simp [hnext]
  · by_cases hn : p.n ≤ p.i + 1 <;>
      simp [Served, requestMachine, requestParserFeed, requestParserNext, h, Request.dstportState, hn]
  · simp [Served, requestMachine, requestParserFeed, requestParserNext, h]

theorem RequestParser.Served.not_error {p : RequestParser} (h : p.Served) :
    requestIsError p.state = false := by
  rcases h with h | h | h | h <;> rw [h] <;> rfl

theorem served_of_supported {t : Byte} (h : supported t) (p : RequestParser) :
    RequestParser.Served (requestMachine.feed { p with state := .atyp } t) := by
  rcases h with rfl | rfl | rfl
  · exact .inr (.inl rfl)
  · exact .inr (.inl rfl)
  · exact .inl rfl

theorem malformed_of_error {xs : List Byte}
    (h : requestIsError (requestMachine.consume requestParserInit xs).1.state = true) :
    ∃ bad rest, xs = bad ++ rest ∧ Malformed bad := by
  rcases xs with - | ⟨v, xs⟩
  · cases h
  by_cases hv : v = 0x05
  · subst hv
    rcases xs with - | ⟨cmd, - | ⟨rsv, - | ⟨t, xs⟩⟩⟩
    · cases h
    · cases h
    · cases h
    by_cases ht : supported t
    · have hserved := served_of_supported ht { request := { cmd } }
      have hheader := (header_reads cmd rsv).append
        (.single (m := requestMachine) (a := t) rfl ?_)
      · rw [show 0x05 :: cmd :: rsv :: t :: xs = [0x05, cmd, rsv] ++ [t] ++ xs from rfl,
          Machine.consume_append requestMachine (by rw [hheader.consume]; exact hheader.going),
          hheader.consume] at h
        have hnever := Machine.consume_invariant requestMachine (I := RequestParser.Served)
          (fun p c hp => hp.feed c) hserved xs
        exact absurd (hnever.not_error.symm.trans h) Bool.false_ne_true
      · rcases ht with rfl | rfl | rfl <;> rfl
    · exact ⟨[0x05, cmd, rsv, t], xs, rfl, .type ht⟩
  · exact ⟨[v], xs, rfl, .version hv⟩

-- ---------------------------------------------------------------------------
-- The calls of request_consume
-- ---------------------------------------------------------------------------

variable {bs : List Buffer} {message trailing : List Byte} {p : RequestParser}

theorem requestCalls_ends (h : requestMachine.Ends requestParserInit message p)
    (hbs : contents bs = message ++ trailing) :
    ∃ b rest, requestCalls bs = (p, requestIsError p.state, some (b, rest)) ∧
      b.content ++ contents rest = trailing :=
  consumeCalls_ends requestConsume_consumes rfl h hbs

theorem requestCalls_errored (h : (requestCalls bs).2.1 = true) :
    ∃ bad trailing, contents bs = bad ++ trailing ∧ Malformed bad := by
  obtain ⟨hgoing, hdone⟩ := consumeCalls_spec requestConsume_consumes
    (s := requestParserInit) rfl bs
  cases hd : requestMachine.done (requestMachine.consume requestParserInit (contents bs)).1 with
  | false =>
    have hcalls := hgoing hd
    rw [show requestCalls bs = _ from hcalls] at h
    cases h
  | true =>
    obtain ⟨b, rest, hcalls, -⟩ := hdone hd
    rw [show requestCalls bs = _ from hcalls] at h
    exact malformed_of_error h

-- ---------------------------------------------------------------------------
-- Names
-- ---------------------------------------------------------------------------

def nameRequest (cmd rsv : Byte) (name : List Byte) (port : Byte × Byte) : List Byte :=
  [0x05, cmd, rsv, socksReqAddrtypeDomain, name.length.toUInt8] ++ name ++ [port.1, port.2]

/-- The calls stop behind the request and leave `trailing`, they stored inside the
array, and the name ends in it. -/
def NameFramed (name : List Byte) (bs : List Buffer) (trailing : List Byte) : Prop :=
  ∃ p b rest, requestCalls bs = (p, false, some (b, rest)) ∧ b.content ++ contents rest = trailing ∧
    (∀ i ∈ p.stores, 0 ≤ i ∧ i < (fqdnSize : Int)) ∧ (0 : Byte) ∈ p.request.destAddr.fqdn ∧
    cstr p.request.destAddr.fqdn = name

variable (cmd rsv : Byte) {name : List Byte} (port : Byte × Byte)

theorem nameRequest_ends (hlen : name.length ≤ 255) (hpos : 0 < name.length) :
    ∃ p, requestMachine.Ends requestParserInit (nameRequest cmd rsv name port) p ∧ p.state = .done ∧
      p.request.destAddr.fqdn = overwrite (List.replicate fqdnSize 0) name ∧
      p.stores = ((name.length : Int) - 1) :: (List.range name.length).map Nat.cast := by
  have hbyte := length_toUInt8 hlen
  obtain ⟨p, hends, hst, -, -, hfqdn, -, hstores⟩ :=
    domain_ends cmd rsv name.length.toUInt8 name (by omega) port.1 port.2
  rw [hbyte] at hstores
  exact ⟨p, hends, hst, hfqdn, hstores⟩

theorem not_framed_empty (hbs : contents bs = nameRequest cmd rsv [] port ++ trailing) :
    ¬ NameFramed [] bs trailing := by
  rintro ⟨p, b, rest, hcalls, hrest, -⟩
  cases trailing with
  | nil =>
    -- one byte is missing
    obtain ⟨hgoing, -⟩ := consumeCalls_spec requestConsume_consumes (s := requestParserInit) rfl bs
    rw [hbs] at hgoing
    cases hcalls.symm.trans (hgoing rfl)
  | cons t trailing =>
    -- one byte too many is taken
    obtain ⟨q, hends, -⟩ := domain_ends cmd rsv 0 [port.1] rfl port.2 t
    have hbs' : contents bs = [0x05, cmd, rsv, socksReqAddrtypeDomain, 0] ++ [port.1] ++
        [port.2, t] ++ trailing := hbs
    obtain ⟨b', rest', hcalls', hrest'⟩ := requestCalls_ends hends hbs'
    rw [hcalls] at hcalls'
    simp only [Prod.mk.injEq, Option.some.injEq] at hcalls'
    obtain ⟨-, -, rfl, rfl⟩ := hcalls'
    have hsame := congrArg List.length (hrest.symm.trans hrest')
    simp at hsame

/-- A name is framed and terminated when its length is neither 0 nor 255. -/
theorem name_framed_iff (hlen : name.length ≤ 255) (hnul : (0 : Byte) ∉ name)
    (hbs : contents bs = nameRequest cmd rsv name port ++ trailing) :
    NameFramed name bs trailing ↔ 0 < name.length ∧ name.length < 255 := by
  rcases Nat.eq_zero_or_pos name.length with hzero | hpos
  · obtain rfl := List.eq_nil_of_length_eq_zero hzero
    exact ⟨fun h => absurd h (not_framed_empty cmd rsv port hbs), fun h => absurd h.1 (Nat.lt_irrefl 0)⟩
  obtain ⟨p, hends, hst, hfqdn, hstores⟩ := nameRequest_ends cmd rsv port hlen hpos
  obtain ⟨b, rest, hcalls, hrest⟩ := requestCalls_ends hends hbs
  rw [hst] at hcalls
  have hzeros : p.request.destAddr.fqdn = name ++ List.replicate (255 - name.length) 0 := by
    rw [hfqdn, overwrite, List.drop_replicate]
    rfl
  constructor
  · rintro ⟨p', b', rest', hcalls', -, -, hmem, -⟩
    refine ⟨hpos, Nat.lt_of_le_of_ne hlen fun hfull => ?_⟩
    obtain rfl : p' = p := congrArg Prod.fst (hcalls'.symm.trans hcalls)
    rw [hzeros, hfull, Nat.sub_self, List.replicate_zero, List.append_nil] at hmem
    exact hnul hmem
  · rintro ⟨-, hlt⟩
    refine ⟨p, b, rest, hcalls, hrest, fun i hi => ?_, ?_, ?_⟩
    · rw [hstores] at hi
      rcases List.mem_cons.mp hi with rfl | hi
      · show _ ∧ _ < ((255 : Nat) : Int)
        omega
      · obtain ⟨k, hk, rfl⟩ := List.mem_map.mp hi
        have := List.mem_range.mp hk
        show _ ∧ _ < ((255 : Nat) : Int)
        omega
    · rw [hzeros]
      exact List.mem_append_right _ (List.mem_replicate.mpr ⟨by omega, rfl⟩)
    · rw [hzeros, cstr_append hnul, cstr_zeros, List.append_nil]

/-- A name of one byte. -/
theorem name_framed_short : NameFramed [97]
    [⟨nameRequest 1 0 [97] (0, 80) ++ [7], 0, 9, by decide, by decide⟩] [7] :=
  (name_framed_iff 1 0 (0, 80) (by decide) (by decide) rfl).mpr ⟨by decide, by decide⟩

/-- The empty name. -/
theorem name_not_framed : ∃ (cmd rsv : Byte) (name : List Byte) (port : Byte × Byte)
    (bs : List Buffer) (trailing : List Byte), name.length ≤ 255 ∧ (0 : Byte) ∉ name ∧
    contents bs = nameRequest cmd rsv name port ++ trailing ∧ ¬ NameFramed name bs trailing :=
  ⟨1, 0, [], (0, 80), [⟨nameRequest 1 0 [] (0, 80), 0, 7, by decide, by decide⟩], [], by decide,
    by decide, rfl, not_framed_empty 1 0 (0, 80) rfl⟩

end Socks5d
