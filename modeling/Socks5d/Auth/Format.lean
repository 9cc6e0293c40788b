import Socks5d.Auth

/-!
# The format of the credentials

A message is the version, and a name and a password that are each preceded by
their length. The two are stored over arrays of zeros, and like the name of a
request each has at least one byte: the length is compared only after a byte was
stored.
-/

namespace Socks5d

open Lib (Machine)

def loginBytes (uname passwd : List Byte) : List Byte :=
  [0x01, uname.length.toUInt8] ++ uname ++ [passwd.length.toUInt8] ++ passwd

def loginAuth (uname passwd : List Byte) : Auth where
  uname := overwrite (List.replicate credentialSize 0) uname
  passwd := overwrite (List.replicate credentialSize 0) passwd

inductive AuthField
  | uname | passwd

namespace AuthField

def state : AuthField → AuthState
  | uname => .uname
  | passwd => .passwd

def next : AuthField → AuthState
  | uname => .plen
  | passwd => .done

def get (f : AuthField) (a : Auth) : List Byte :=
  match f with
  | uname => a.uname
  | passwd => a.passwd

def put (f : AuthField) (a : Auth) (bytes : List Byte) : Auth :=
  match f with
  | uname => { a with uname := bytes }
  | passwd => { a with passwd := bytes }

end AuthField

namespace AuthParser

variable {p q : AuthParser} {f : AuthField} {stored : List Byte}

theorem feed_field (hst : p.state = f.state) (c : Byte) : authMachine.feed p c = { p with
    auth := f.put p.auth ((f.get p.auth).set p.i.toNat c)
    i := p.i + 1
    state := if p.len ≤ p.i + 1 then f.next else f.state } := by
  cases f <;>
    by_cases hn : p.len ≤ p.i + 1 <;>
    simp_all [authMachine, authParserFeed, authParserNext, AuthField.state, AuthField.next,
      AuthField.put, AuthField.get, remainingIsDone]

structure Filling (f : AuthField) (p q : AuthParser) (stored : List Byte) : Prop where
  auth : q.auth = f.put p.auth (overwrite (f.get p.auth) stored)
  i : q.i.toNat = stored.length
  len : q.len = p.len

theorem Filling.feed (h : Filling f p q stored) (hst : q.state = f.state)
    (hroom : stored.length < (f.get p.auth).length) (hlen : stored.length < 255) (c : Byte) :
    Filling f p (authMachine.feed q c) (stored ++ [c]) ∧ (authMachine.feed q c).state =
      if p.len.toNat ≤ stored.length + 1 then f.next else f.state := by
  have hi : (q.i + 1).toNat = stored.length + 1 := by
    rw [UInt8.toNat_add, UInt8.toNat_one, h.i]
    omega
  rw [feed_field hst]
  refine ⟨⟨?_, ?_, h.len⟩, ?_⟩
  · show f.put q.auth ((f.get q.auth).set q.i.toNat c) = _
    rw [h.auth, h.i]
    cases f <;> simp only [AuthField.put, AuthField.get] at hroom ⊢ <;> rw [overwrite_set hroom]
  · rw [hi, List.length_append, List.length_singleton]
  · show (if q.len ≤ q.i + 1 then _ else _) = _
    simp only [h.len, UInt8.le_iff_toNat_le, hi]

theorem done_of_state (f : AuthField) (hst : p.state = f.state) : authMachine.done p = false := by
  show authIsDone p.state = false
  rw [hst]
  cases f <;> rfl

theorem Filling.reads (bytes : List Byte) (h : Filling f p q stored) (hst : q.state = f.state)
    (hroom : stored.length + bytes.length ≤ (f.get p.auth).length)
    (hlen : stored.length + bytes.length < max p.len.toNat 1) :
    ∃ q', authMachine.Reads q bytes q' ∧ q'.state = f.state ∧ Filling f p q' (stored ++ bytes) := by
  have hn := p.len.toNat_lt
  induction bytes generalizing q stored with
  | nil => exact ⟨q, .nil (done_of_state f hst), hst, by rwa [List.append_nil]⟩
  | cons c bytes ih =>
    simp only [List.length_cons] at hroom hlen
    obtain ⟨hfilling, hst'⟩ := h.feed hst (by omega) (by omega) c
    rw [if_neg (by omega)] at hst'
    obtain ⟨q', hreads, hstate, hall⟩ := ih hfilling hst'
      (by rw [List.length_append, List.length_singleton]; omega)
      (by rw [List.length_append, List.length_singleton]; omega)
    refine ⟨q', ?_, hstate, by rwa [List.append_assoc, List.singleton_append] at hall⟩
    exact (Machine.Reads.single rfl (done_of_state f hst')).append hreads

/-- A whole field: all bytes but the last one, and what that one leads to. -/
theorem field_fed (bytes : List Byte) (hst : p.state = f.state) (hi : p.i = 0)
    (hroom : bytes.length ≤ (f.get p.auth).length) (hlen : bytes.length = max p.len.toNat 1) :
    ∃ before last q, bytes = before ++ [last] ∧ authMachine.Reads p before q ∧
      Filling f p (authMachine.feed q last) bytes ∧
      (authMachine.feed q last).state = f.next := by
  have hn := p.len.toNat_lt
  obtain ⟨before, last, rfl⟩ : ∃ before last, bytes = before ++ [last] := by
    rcases List.eq_nil_or_concat bytes with rfl | ⟨before, last, rfl⟩
    · simp at hlen
      omega
    · exact ⟨before, last, List.concat_eq_append⟩
  rw [List.length_append, List.length_singleton] at hroom hlen
  have hstart : Filling f p p [] := ⟨by cases f <;> rfl, by rw [hi]; rfl, rfl⟩
  obtain ⟨q, hreads, hstate, hfilling⟩ := hstart.reads before hst
    (by rw [List.length_nil]; omega) (by rw [List.length_nil]; omega)
  rw [List.nil_append] at hfilling
  obtain ⟨hall, hnext⟩ := hfilling.feed hstate (by omega) (by omega) last
  rw [if_pos (by omega)] at hnext
  exact ⟨before, last, q, rfl, hreads, hall, hnext⟩

end AuthParser

open AuthParser

variable {uname passwd : List Byte}

theorem length_zeros : (List.replicate credentialSize (0 : Byte)).length = 255 := List.length_replicate

theorem uname_reads (hpos : 0 < uname.length) (hle : uname.length ≤ 255) (length : Byte) :
    ∃ q, authMachine.Reads authParserInit
        ([0x01, uname.length.toUInt8] ++ uname ++ [length]) q ∧
      q.state = .passwd ∧ q.i = 0 ∧ q.len = length ∧
      q.auth = { uname := overwrite (List.replicate credentialSize 0) uname } := by
  have hlength := length_toUInt8 hle
  have hheader : authMachine.Reads authParserInit [0x01, uname.length.toUInt8]
      { state := .uname, len := uname.length.toUInt8 } := ⟨rfl, rfl⟩
  obtain ⟨before, c, q, hbytes, hreads, hfilling, hstate⟩ := field_fed (f := .uname) uname
    (p := { state := .uname, len := uname.length.toUInt8 }) rfl rfl
    (Nat.le_trans hle (Nat.le_of_eq length_zeros.symm)) (by show _ = max uname.length.toUInt8.toNat 1; omega)
  have hlast : authMachine.Reads q [c] (authMachine.feed q c) :=
    .single rfl (by show authIsDone _ = false; rw [hstate]; rfl)
  have hplen : authMachine.feed (authMachine.feed q c) length =
      { authMachine.feed q c with i := 0, len := length, state := .passwd } := by
    show authParserFeed _ _ = _
    simp [authParserFeed, authParserNext, hstate, AuthField.next, remainingSet]
  refine ⟨_, (hheader.append (hbytes ▸ hreads.append hlast)).append (.single hplen rfl), rfl,
    rfl, rfl, ?_⟩
  exact hfilling.auth

theorem login_ends (hu : 0 < uname.length ∧ uname.length ≤ 255)
    (hp : 0 < passwd.length ∧ passwd.length ≤ 255) :
    ∃ q, authMachine.Ends authParserInit (loginBytes uname passwd) q ∧
      authIsError q.state = false ∧ q.auth = loginAuth uname passwd := by
  have hlength := length_toUInt8 hp.2
  obtain ⟨q, hreads, hst, hi, hlen, hauth⟩ := uname_reads hu.1 hu.2 passwd.length.toUInt8
  obtain ⟨before, c, q', hbytes, hreads', hfilling, hstate⟩ := field_fed (f := .passwd) passwd hst hi
    (by rw [hauth]; exact Nat.le_trans hp.2 (Nat.le_of_eq length_zeros.symm)) (by rw [hlen]; omega)
  refine ⟨authMachine.feed q' c, ?_, by rw [hstate]; rfl, ?_⟩
  · have hends : authMachine.Ends q passwd (authMachine.feed q' c) :=
      hbytes ▸ hreads'.ends rfl (by show authIsDone _ = true; rw [hstate]; rfl)
    exact hreads.append_ends hends
  · rw [hfilling.auth, hauth]
    rfl

end Socks5d
