import Socks5d.Auth.Format
import Socks5d.Greeting
import Socks5d.Request.Format

/-!
# The messages of the handshake on the wire

What the parsers accept is a message of the format, but for a length byte of 0
before a name, a password or the name of a host: the length is compared only after
a byte was stored, so the parser takes one byte more than the format has.
-/

namespace Socks5d

open Lib (Machine)

def HelloFormat (bytes : List Byte) : Prop :=
  ∃ methods, methods.length ≤ 255 ∧ bytes = helloBytes methods

def LoginFormat (bytes : List Byte) : Prop :=
  ∃ uname passwd, uname.length ≤ 255 ∧ passwd.length ≤ 255 ∧ bytes = loginBytes uname passwd

/-- A request whose address has the length that its type, or its length byte, says. -/
inductive RequestFormat : List Byte → Prop
  | address (cmd rsv : Byte) (d : Destination) (port : Byte × Byte) :
      RequestFormat (requestBytes cmd rsv d port)
  | name (cmd rsv : Byte) {name : List Byte} (h : name.length ≤ 255) (port : Byte × Byte) :
      RequestFormat (nameRequest cmd rsv name port)

/-- What follows the bytes that the first one counts. -/
def skipCounted : List Byte → List Byte
  | [] => []
  | n :: rest => rest.drop n.toNat

def emptyLogin (stream : List Byte) : Bool :=
  decide (stream[1]? = some 0) || decide ((skipCounted (stream.drop 1))[0]? = some 0)

def emptyName (stream : List Byte) : Bool :=
  decide (stream[3]? = some socksReqAddrtypeDomain) && decide (stream[4]? = some 0)

/-- A length byte of 0 in a stream that begins with a hello. -/
def hasEmpty (auth : Bool) (stream : List Byte) : Bool :=
  let login := skipCounted (stream.drop 1)
  if auth then emptyLogin login || emptyName (skipCounted (skipCounted (login.drop 1)))
  else emptyName login

-- ---------------------------------------------------------------------------
-- Lengths
-- ---------------------------------------------------------------------------

theorem exists_longer (bytes : List Byte) (n : Nat) : ∃ zs, bytes <+: zs ∧ n ≤ zs.length :=
  ⟨bytes ++ List.replicate n 0, List.prefix_append .., by simp⟩

theorem split_counted (zs : List Byte) (n : Nat) (h : n < zs.length) :
    ∃ xs c more, xs.length = n ∧ zs = xs ++ c :: more := by
  refine ⟨zs.take n, zs[n], zs.drop (n + 1), ?_, ?_⟩
  · rw [List.length_take]
    omega
  · rw [← List.drop_eq_getElem_cons, List.take_append_drop]

theorem toUInt8_toNat (n : Byte) : n.toNat.toUInt8 = n := UInt8.ofNat_toNat

theorem toNat_pos {n : Byte} (h : n ≠ 0) : 0 < n.toNat :=
  Nat.pos_of_ne_zero fun hz => h (UInt8.toNat_inj.mp hz)

@[simp] theorem skipCounted_append {xs : List Byte} (h : xs.length ≤ 255) (rest : List Byte) :
    skipCounted (xs.length.toUInt8 :: (xs ++ rest)) = rest := by
  rw [skipCounted, length_toUInt8 h, List.drop_left]

theorem skipCounted_hello {hello : List Byte} (h : HelloFormat hello) (rest : List Byte) :
    skipCounted ((hello ++ rest).drop 1) = rest := by
  obtain ⟨methods, hlen, rfl⟩ := h
  exact skipCounted_append hlen rest

theorem skipCounted_login {login : List Byte} (h : LoginFormat login) (rest : List Byte) :
    skipCounted (skipCounted ((login ++ rest).drop 1)) = rest := by
  obtain ⟨uname, passwd, hu, hp, rfl⟩ := h
  have huname := skipCounted_append hu (passwd.length.toUInt8 :: (passwd ++ rest))
  simp only [loginBytes, List.append_assoc, List.cons_append, List.nil_append, List.drop_succ_cons,
    List.drop_zero]
  rw [huname, skipCounted_append hp]

-- ---------------------------------------------------------------------------
-- The messages that the parsers accept
-- ---------------------------------------------------------------------------

theorem hello_format {bytes : List Byte} {p : HelloParser Unit}
    (h : helloFormat.Ends (helloParserInit ()) bytes p) (hok : helloIsError p.state = false) :
    HelloFormat bytes := by
  obtain ⟨zs, hzs, hlen⟩ := exists_longer bytes 258
  obtain - | ⟨v, - | ⟨n, zs⟩⟩ := zs
  · cases hlen
  · simp at hlen
  by_cases hv : v = 0x05
  · subst hv
    have hn := n.toNat_lt
    obtain ⟨methods, c, more, hcount, rfl⟩ := split_counted zs n.toNat
      (by simp only [List.length_cons] at hlen; omega)
    have hends : helloFormat.Ends (helloParserInit ()) (helloBytes methods) _ := hello_ends (by omega) ()
    refine ⟨methods, by omega, (h.unique hends rfl hzs ?_).1⟩
    rw [helloBytes, hcount, toUInt8_toNat]
    exact List.prefix_append ..
  · have hsame := (h.unique (version_ends hv ()) rfl hzs (List.prefix_append [v] _)).2
    rw [hsame] at hok
    cases hok

theorem login_format {bytes : List Byte} {p : AuthParser}
    (h : authMachine.Ends authParserInit bytes p) (hok : authIsError p.state = false)
    (rest : List Byte) : LoginFormat bytes ∨ emptyLogin (bytes ++ rest) = true := by
  obtain ⟨zs, hzs, hlen⟩ := exists_longer bytes 600
  obtain - | ⟨v, - | ⟨ulen, zs⟩⟩ := zs
  · cases hlen
  · simp at hlen
  simp only [List.length_cons] at hlen
  have hu := ulen.toNat_lt
  by_cases hv : v = 0x01
  swap
  · have hfeed : (authMachine.feed authParserInit v).state = .errorUnsupportedVersion := if_neg hv
    have hends := (Machine.Reads.nil (m := authMachine) (s := authParserInit) rfl).ends (a := v) rfl
      (by show authIsDone _ = true; rw [hfeed]; rfl)
    rw [(h.unique hends rfl hzs (List.prefix_append [v] _)).2, hfeed] at hok
    cases hok
  subst hv
  by_cases hzero : ulen = 0
  · -- an empty name
    subst hzero
    have hreads : authMachine.Reads authParserInit [0x01, 0] { state := .uname, len := 0 } := ⟨rfl, rfl⟩
    obtain ⟨more, rfl⟩ := hreads.before h rfl (List.prefix_append [0x01, 0] zs) hzs
    exact .inr rfl
  have hupos : 0 < ulen.toNat := toNat_pos hzero
  obtain ⟨uname, plen, more, hcount, rfl⟩ := split_counted zs ulen.toNat (by omega)
  rw [List.length_append, List.length_cons] at hlen
  have hp := plen.toNat_lt
  have hulen : uname.length.toUInt8 = ulen := by rw [hcount, toUInt8_toNat]
  have hheader : [0x01, ulen] ++ uname ++ [plen] <+: 0x01 :: ulen :: (uname ++ plen :: more) :=
    ⟨more, by simp⟩
  obtain ⟨q, hreads, -⟩ := @uname_reads uname (by omega) (by omega) plen
  rw [hulen] at hreads
  by_cases hzero : plen = 0
  · -- an empty password
    subst hzero
    obtain ⟨tail, rfl⟩ := hreads.before h rfl hheader hzs
    have hskip := @skipCounted_append uname (by omega) (0 :: (tail ++ rest))
    rw [hulen] at hskip
    refine .inr (Bool.or_eq_true_iff.mpr (.inr (decide_eq_true ?_)))
    simp only [List.append_assoc, List.cons_append, List.nil_append, List.drop_succ_cons,
      List.drop_zero, hskip]
    rfl
  have hppos : 0 < plen.toNat := toNat_pos hzero
  obtain ⟨passwd, c, more, hpcount, rfl⟩ := split_counted more plen.toNat (by omega)
  obtain ⟨q, hends, -⟩ := @login_ends uname passwd (by omega) (by omega)
  refine .inl ⟨uname, passwd, by omega, by omega, (h.unique hends rfl hzs ⟨c :: more, ?_⟩).1⟩
  rw [loginBytes, hulen, hpcount, toUInt8_toNat]
  simp

theorem request_framed {bytes zs : List Byte} {p : RequestParser} (cmd rsv : Byte)
    (d : Destination) (port : Byte × Byte) (more : List Byte)
    (h : requestMachine.Ends requestParserInit bytes p)
    (hzs : bytes <+: zs) (heq : zs = requestBytes cmd rsv d port ++ more) : RequestFormat bytes := by
  obtain ⟨q, hends, -⟩ := request_ends cmd rsv d port
  rw [(h.unique hends rfl hzs ⟨more, heq.symm⟩).1]
  exact .address cmd rsv d port

theorem request_format {bytes : List Byte} {p : RequestParser}
    (h : requestMachine.Ends requestParserInit bytes p) (hok : requestIsError p.state = false)
    (rest : List Byte) : RequestFormat bytes ∨ emptyName (bytes ++ rest) = true := by
  obtain ⟨zs, hzs, hlen⟩ := exists_longer bytes 300
  have hrefused {bad : List Byte} (hbad : Malformed bad) : ¬ bad <+: zs := by
    intro hp
    obtain ⟨q, hends, herror⟩ := hbad.ends
    rw [(h.unique hends rfl hzs hp).2, herror] at hok
    cases hok
  obtain - | ⟨v, - | ⟨cmd, - | ⟨rsv, - | ⟨t, zs⟩⟩⟩⟩ := zs
  · cases hlen
  · simp at hlen
  · simp at hlen
  · simp at hlen
  simp only [List.length_cons] at hlen
  have hv : v = 0x05 := by
    by_contra hv
    exact hrefused (.version hv) (List.prefix_append [v] _)
  subst hv
  have ht : RequestParser.supported t := by
    by_contra ht
    exact hrefused (.type ht) (List.prefix_append [0x05, cmd, rsv, t] _)
  rcases ht with rfl | rfl | rfl
  · obtain ⟨addr, c₁, more, hcount, rfl⟩ := split_counted zs 4 (by omega)
    rw [List.length_append, List.length_cons] at hlen
    obtain - | ⟨c₂, more⟩ := more
    · simp [hcount] at hlen
    exact .inl (request_framed cmd rsv (.ipv4 addr hcount) (c₁, c₂) more h hzs
      (by simp [requestBytes, Destination.type, Destination.bytes]))
  · obtain ⟨addr, c₁, more, hcount, rfl⟩ := split_counted zs 16 (by omega)
    rw [List.length_append, List.length_cons] at hlen
    obtain - | ⟨c₂, more⟩ := more
    · simp [hcount] at hlen
    exact .inl (request_framed cmd rsv (.ipv6 addr hcount) (c₁, c₂) more h hzs
      (by simp [requestBytes, Destination.type, Destination.bytes]))
  · obtain - | ⟨n, zs⟩ := zs
    · simp at hlen
    simp only [List.length_cons] at hlen
    have hn := n.toNat_lt
    by_cases hzero : n = 0
    · -- an empty name
      subst hzero
      obtain ⟨tail, rfl⟩ := (RequestParser.domain_reads cmd rsv 0).before h rfl
        (List.prefix_append [0x05, cmd, rsv, socksReqAddrtypeDomain, 0] zs) hzs
      exact .inr rfl
    have hpos : 0 < n.toNat := toNat_pos hzero
    obtain ⟨name, c₁, more, hcount, rfl⟩ := split_counted zs n.toNat (by omega)
    rw [List.length_append, List.length_cons] at hlen
    obtain - | ⟨c₂, more⟩ := more
    · simp only [List.length_nil] at hlen
      omega
    exact .inl (request_framed cmd rsv (.domain name (by omega)) (c₁, c₂) more h hzs
      (by simp [requestBytes, Destination.type, Destination.bytes, hcount]))

theorem RequestFormat.rest_of_empty {request rest tail : List Byte} (h : RequestFormat request)
    {cmd rsv c₁ c₂ : Byte}
    (heq : request ++ rest = [0x05, cmd, rsv, socksReqAddrtypeDomain, 0, c₁, c₂] ++ tail) :
    rest = tail := by
  have hempty {name : List Byte} (hlen : name.length ≤ 255) (hzero : name.length.toUInt8 = 0) :
      name = [] := by
    have hlength := length_toUInt8 hlen
    rw [hzero] at hlength
    exact List.eq_nil_of_length_eq_zero hlength.symm
  cases h with
  | address cmd' rsv' d port =>
    cases d with
    | ipv4 addr haddr | ipv6 addr haddr =>
      simp [requestBytes, Destination.type, socksReqAddrtypeIpv4, socksReqAddrtypeIpv6,
        socksReqAddrtypeDomain] at heq
    | domain name hname =>
      simp only [requestBytes, Destination.type, Destination.bytes, List.cons_append,
        List.nil_append, List.cons.injEq] at heq
      have hnil := hempty hname.2 heq.2.2.2.2.1
      rw [hnil] at hname
      exact absurd hname.1 (Nat.lt_irrefl 0)
  | @name cmd' rsv' name hlen port =>
    simp only [nameRequest, List.cons_append, List.nil_append, List.cons.injEq] at heq
    obtain ⟨-, -, -, -, hzero, hrest⟩ := heq
    rw [hempty hlen hzero] at hrest
    simp only [List.nil_append, List.cons_append, List.cons.injEq] at hrest
    exact hrest.2.2

end Socks5d
