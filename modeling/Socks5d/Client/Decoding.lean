import Mathlib.Data.List.Forall2
import Socks5d.Client.Args
import Socks5d.Monitor.Messages
import Socks5d.Monitor.Requests

/-!
# The server decodes what the client encodes

A request typed at the client goes through `parse_args` and `serialize_request`
to the parser of the server. `Request` is what was typed; `serialize_request`
puts it in the message `Request.message`, and the parser reads that message to
its last byte and keeps what was typed.
-/

namespace Socks5d

open Lib (Machine)

namespace Client

-- ---------------------------------------------------------------------------
-- What is typed
-- ---------------------------------------------------------------------------

inductive Request
  | get (target : GetTarget)
  | disector (on : Bool)
  | addProxyUser (user pass : List Byte)
  | addAdminUser (user token : List Byte)
  | delProxyUser (user : List Byte)
  | delAdminUser (user : List Byte)

structure Name (user : List Byte) : Prop where
  alnum : ∀ c ∈ user, isAlnum c = true
  nonempty : user ≠ []
  length : user.length ≤ 255

namespace Request

def Alphanumeric : Request → Prop
  | get _ | disector _ => True
  | addProxyUser user pass => Name user ∧ (∀ c ∈ pass, isAlnum c = true) ∧ pass.length ≤ 255
  | addAdminUser user token => Name user ∧ (∀ c ∈ token, isAlnum c = true) ∧ token.length = tokenSize
  | delProxyUser user | delAdminUser user => Name user

def Typed : Request → Opt → Prop
  | get target, o => o = .get target
  | disector on, o => o = .disector on
  | addProxyUser user pass, o =>
    ∃ optarg : CStr, optarg.val = user ++ colon :: pass ∧ o = .addProxyUser optarg
  | addAdminUser user token, o =>
    ∃ optarg : CStr, optarg.val = user ++ colon :: token ∧ o = .addAdminUser optarg
  | delProxyUser user, o => ∃ optarg : CStr, optarg.val = user ∧ o = .delProxyUser optarg
  | delAdminUser user, o => ∃ optarg : CStr, optarg.val = user ∧ o = .delAdminUser optarg

def method : Request → Method
  | get _ => .get
  | _ => .config

def target : Request → Byte
  | get target => target.toByte
  | disector _ => ConfigTarget.toggleDisector.toByte
  | addProxyUser .. => ConfigTarget.addProxyUser.toByte
  | addAdminUser .. => ConfigTarget.addAdminUser.toByte
  | delProxyUser _ => ConfigTarget.delProxyUser.toByte
  | delAdminUser _ => ConfigTarget.delAdminUser.toByte

def data : Request → List Byte
  | get _ => [0]
  | disector on => [if on then 1 else 0]
  | addProxyUser user secret | addAdminUser user secret => user ++ 0 :: secret
  | delProxyUser user | delAdminUser user => user

def dlen (r : Request) : UInt16 := r.data.length.toUInt16

def message (r : Request) (token : List Byte) : List Byte :=
  programVersion :: (token ++ r.method.toByte :: r.target :: (htons r.dlen ++ r.data))

/-- The server has the value or the strings that were typed. -/
def Decoded (m : Monitor) : Request → Prop
  | get _ => True
  | disector on => m.data.disectorDataParams = if on then 1 else 0
  | addProxyUser user pass => m.proxyUser.val = user ∧ m.proxyPass.val = pass
  | addAdminUser user token => m.adminUser.val = user ∧ m.adminToken.val = token
  | delProxyUser user | delAdminUser user => m.user.val = user

theorem length_data {r : Request} (h : r.Alphanumeric) :
    0 < r.data.length ∧ r.data.length ≤ 511 := by
  cases r with
  | get | disector => exact ⟨Nat.one_pos, by simp [data]⟩
  | addProxyUser user pass =>
    obtain ⟨⟨-, -, huser⟩, -, hpass⟩ := h
    simp only [data, List.length_append, List.length_cons]
    omega
  | addAdminUser user token =>
    obtain ⟨⟨-, -, huser⟩, -, htoken⟩ := h
    simp only [data, List.length_append, List.length_cons, htoken, tokenSize]
    omega
  | delProxyUser user | delAdminUser user =>
    exact ⟨List.length_pos_of_ne_nil h.nonempty, Nat.le_trans h.length (by decide)⟩

theorem toNat_dlen {r : Request} (h : r.Alphanumeric) : r.dlen.toNat = r.data.length := by
  have hlen := (length_data h).2
  rw [dlen, Nat.toUInt16_eq, UInt16.toNat_ofNat']
  exact Nat.mod_eq_of_lt (by omega)

end Request

-- ---------------------------------------------------------------------------
-- Copies
-- ---------------------------------------------------------------------------

theorem memcpy_append {l x r y : List Byte} (index : Nat) (hi : l.length = index)
    (hx : x.length = y.length) : memcpy (l ++ (x ++ r)) index y = l ++ (y ++ r) := by
  subst hi
  rw [memcpy, List.take_left, ← hx, ← List.length_append, ← List.append_assoc l x r, List.drop_left,
    List.append_assoc]

theorem memcpy_memcpy {memory : List Byte} {index : Nat} (h : index ≤ memory.length)
    (xs ys : List Byte) :
    memcpy (memcpy memory index xs) (index + xs.length) ys = memcpy memory index (xs ++ ys) := by
  have hlen : (memory.take index ++ xs).length = index + xs.length := by
    rw [List.length_append, List.length_take_of_le h]
  have htake : (memory.take index ++ xs ++ memory.drop (index + xs.length)).take (index + xs.length) =
      memory.take index ++ xs := List.take_left' hlen
  have hdrop : (memory.take index ++ xs ++ memory.drop (index + xs.length)).drop
      (index + xs.length + ys.length) = memory.drop (index + (xs ++ ys).length) := by
    rw [← hlen, List.drop_length_add_append, hlen, List.drop_drop, List.length_append, Nat.add_assoc]
  rw [memcpy, memcpy, htake, hdrop, memcpy, List.append_assoc _ xs ys]

theorem alnum_ne {c : Byte} (h : isAlnum c = true) : c ≠ 0 ∧ c ≠ colon := by
  refine ⟨?_, ?_⟩
  · rintro rfl
    exact absurd h (by decide)
  · rintro rfl
    exact absurd h (by decide)

theorem not_mem_of_alnum {l : List Byte} (h : ∀ c ∈ l, isAlnum c = true) :
    (0 : Byte) ∉ l ∧ colon ∉ l :=
  ⟨fun h0 => (alnum_ne (h 0 h0)).1 rfl, fun hc => (alnum_ne (h colon hc)).2 rfl⟩

-- ---------------------------------------------------------------------------
-- The options
-- ---------------------------------------------------------------------------

theorem separated_source {user : List Byte} (secret : List Byte) (hne : user ≠ []) (hno : colon ∉ user) :
    strchr (user ++ colon :: secret) = some user.length ∧
      (user ++ colon :: secret).head? ≠ some colon ∧
      strtok (user ++ colon :: secret) = some (user, user ++ 0 :: secret) := by
  obtain ⟨c, cs, rfl⟩ := List.exists_cons_of_ne_nil hne
  have hc : c ≠ colon := fun h => hno (h ▸ List.mem_cons_self)
  have hall (a : Byte) (ha : a ∈ c :: cs) : decide (a ≠ colon) = true := by
    rw [decide_eq_true_eq]
    exact fun h => hno (h ▸ ha)
  refine ⟨?_, fun h => hc (Option.some.inj h), ?_⟩
  · have hnone : (c :: cs).findIdx? (· = colon) = none := by
      rw [List.findIdx?_eq_none_iff]
      exact fun a ha => by simpa using hall a ha
    simp only [strchr, List.findIdx?_append, hnone, List.findIdx?_cons]
    simp
  · have hstart : ((c :: cs ++ colon :: secret).takeWhile (· = colon)).length = 0 := by simp [hc]
    have htoken : (c :: cs ++ colon :: secret).takeWhile (· ≠ colon) = c :: cs := by
      rw [List.takeWhile_append_of_pos hall, List.takeWhile_cons_of_neg (by simp), List.append_nil]
    simp only [strtok, hstart, List.drop_zero, htoken, Nat.zero_add]
    rw [if_neg (by simp), List.set_append_right _ _ (Nat.le_refl _), Nat.sub_self]
    rfl

theorem cstr_zeros_append (n : Nat) (r : List Byte) : cstr (List.replicate n 0 ++ 0 :: r) = [] := by
  cases n <;> rfl

def userData (user secret : List Byte) : List Byte :=
  user ++ List.replicate (255 - user.length) 0 ++ [0] ++ (secret ++ List.replicate (256 - secret.length) 0)

theorem userData_eq {user secret : List Byte} (hu : user.length ≤ 255) (hs : secret.length ≤ 255) :
    memcpy (memcpy (memcpy (List.replicate dataSize 0) userIndex user) separatorIndex [0])
      secretIndex secret = userData user secret := by
  have hzeros : List.replicate dataSize (0 : Byte) = [] ++ (List.replicate user.length 0 ++
      (List.replicate (255 - user.length) 0 ++ ([0] ++ (List.replicate secret.length 0 ++
        List.replicate (256 - secret.length) 0)))) := by
    simp only [List.nil_append, List.replicate_append_replicate, List.singleton_append,
      ← List.replicate_succ, dataSize]
    congr 1
    omega
  have hbefore : (user ++ List.replicate (255 - user.length) (0 : Byte) ++ [0]).length =
      secretIndex := by
    simp only [List.length_append, List.length_replicate, List.length_singleton, secretIndex,
      usernameSize]
    omega
  rw [hzeros, memcpy_append userIndex rfl List.length_replicate, List.nil_append, ← List.append_assoc user,
    memcpy_append _ (by simp [separatorIndex, usernameSize, hu]) rfl, ← List.append_assoc _ [0],
    memcpy_append _ hbefore List.length_replicate, userData]

theorem userData_reads {user secret : List Byte} (hu : (0 : Byte) ∉ user) (hs : (0 : Byte) ∉ secret)
    (hulen : user.length ≤ 255) :
    cstr ((userData user secret).drop userIndex) = user ∧
      (userData user secret).getD separatorIndex 0 = 0 ∧
      cstr ((userData user secret).drop secretIndex) = secret := by
  have hsep : (user ++ List.replicate (255 - user.length) 0).length = separatorIndex := by
    simp [separatorIndex, usernameSize, hulen]
  refine ⟨?_, ?_, ?_⟩
  · rw [userIndex, List.drop_zero, userData, List.append_assoc, List.append_assoc, cstr_append hu,
      List.singleton_append, cstr_zeros_append, List.append_nil]
  · rw [userData, List.append_assoc, List.getD_eq_getElem?_getD,
      List.getElem?_append_right (Nat.le_of_eq hsep), hsep, Nat.sub_self]
    rfl
  · have hbefore : (user ++ List.replicate (255 - user.length) 0 ++ [0]).length = secretIndex := by
      rw [List.length_append, hsep]
      rfl
    rw [userData, List.drop_left' hbefore, cstr_append hs, cstr_zeros, List.append_nil]

theorem usernameWithPassword_typed {optarg : CStr} {user pass : List Byte} (hu : Name user)
    (hp : ∀ c ∈ pass, isAlnum c = true) (hlen : pass.length ≤ 255)
    (ho : optarg.val = user ++ colon :: pass) :
    usernameWithPassword optarg (List.replicate dataSize 0) =
      .ok (userData user pass, user.length + 1 + pass.length) := by
  obtain ⟨hstrchr, hhead, hstrtok⟩ :=
    separated_source pass hu.nonempty (not_mem_of_alnum hu.alnum).2
  have hpass : cstr ((user ++ 0 :: pass).drop (user.length + 1)) = pass := by
    rw [List.drop_length_add_append]
    exact cstr_eq_self (not_mem_of_alnum hp).1
  have hmax : ¬ user.length > usernameSize := Nat.not_lt.mpr hu.length
  have hmax' : ¬ pass.length > passwordSize := Nat.not_lt.mpr hlen
  simp only [usernameWithPassword, ho, hstrchr, hhead, hstrtok, hpass, stringCheck, hmax, hmax',
    ↓reduceIte]
  rw [← userData_eq hu.length hlen]
  rfl

theorem usernameWithToken_typed {optarg : CStr} {user token : List Byte} (hu : Name user)
    (ht : ∀ c ∈ token, isAlnum c = true) (hlen : token.length = tokenSize)
    (ho : optarg.val = user ++ colon :: token) :
    usernameWithToken optarg (List.replicate dataSize 0) =
      .ok (userData user token, user.length + 1 + token.length) := by
  obtain ⟨hstrchr, -, hstrtok⟩ :=
    separated_source token hu.nonempty (not_mem_of_alnum hu.alnum).2
  have htoken : cstr ((user ++ 0 :: token).drop (user.length + 1)) = token := by
    rw [List.drop_length_add_append]
    exact cstr_eq_self (not_mem_of_alnum ht).1
  have hmax : ¬ user.length > usernameSize := Nat.not_lt.mpr hu.length
  have htake : token.take tokenSize = token := List.take_of_length_le (Nat.le_of_eq hlen)
  simp only [usernameWithToken, ho, hstrchr, hstrtok, htoken, stringCheck, tokenCheck, hmax, hlen,
    ne_eq, not_true_eq_false, htake, ↓reduceIte]
  rw [← userData_eq hu.length (by rw [hlen]; decide)]
  rfl

structure Filled (args : RequestArgs) (r : Request) : Prop where
  method : args.method = r.method
  target : args.target = r.target
  dlen : args.dlen = r.dlen
  data : ∀ buffer : List Byte, fieldDataIndex ≤ buffer.length →
    serializeData args buffer = memcpy buffer fieldDataIndex r.data

theorem serializeUser_eq {args : RequestArgs} {user secret : List Byte}
    (hdata : args.data = userData user secret) (hu : (0 : Byte) ∉ user) (hs : (0 : Byte) ∉ secret)
    (hlen : user.length ≤ 255) {buffer : List Byte} (hb : fieldDataIndex ≤ buffer.length) :
    serializeUser args buffer = memcpy buffer fieldDataIndex (user ++ 0 :: secret) := by
  obtain ⟨huser, hsep, hsecret⟩ := userData_reads hu hs hlen
  simp only [serializeUser, hdata, huser, hsep, hsecret]
  rw [memcpy_memcpy hb]
  have hnext : fieldDataIndex + user.length + 1 = fieldDataIndex + (user ++ [(0 : Byte)]).length := by
    rw [List.length_append]
    rfl
  rw [hnext, memcpy_memcpy hb, List.append_assoc]
  rfl

theorem delete_data {user : List Byte} (hu : Name user) (buffer : List Byte) :
    memcpy buffer fieldDataIndex ((memcpy (List.replicate dataSize 0) userIndex user).take
      user.length.toUInt16.toNat) = memcpy buffer fieldDataIndex user := by
  have hlen : user.length.toUInt16.toNat = user.length := by
    rw [Nat.toUInt16_eq, UInt16.toNat_ofNat']
    exact Nat.mod_eq_of_lt (by have := hu.length; omega)
  have hcopy : memcpy (List.replicate dataSize 0) userIndex user =
      user ++ (List.replicate dataSize (0 : Byte)).drop (0 + user.length) := rfl
  rw [hlen, hcopy, List.take_left]

theorem parseOption_typed {r : Request} {o : Opt} (hr : r.Alphanumeric) (ho : r.Typed o) :
    ∃ args, parseOption {} o = .ok args ∧ Filled args r := by
  cases r with
  | get target =>
    subst ho
    exact ⟨_, rfl, rfl, rfl, rfl, fun _ _ => rfl⟩
  | disector on =>
    subst ho
    exact ⟨_, rfl, rfl, rfl, rfl, fun _ _ => rfl⟩
  | addProxyUser user pass =>
    obtain ⟨optarg, harg, rfl⟩ := ho
    obtain ⟨hu, hp, hlen⟩ := hr
    have hparse := usernameWithPassword_typed hu hp hlen harg
    refine ⟨{ method := .config, target := ConfigTarget.addProxyUser.toByte,
              dlen := (user.length + 1 + pass.length).toUInt16, data := userData user pass },
      ?_, rfl, rfl, ?_, fun buffer hb => ?_⟩
    · simp only [parseOption, hparse]
      rfl
    · simp only [Request.dlen, Request.data, List.length_append, List.length_cons]
      congr 1
      omega
    · exact serializeUser_eq rfl (not_mem_of_alnum hu.alnum).1 (not_mem_of_alnum hp).1 hu.length hb
  | addAdminUser user token =>
    obtain ⟨optarg, harg, rfl⟩ := ho
    obtain ⟨hu, ht, hlen⟩ := hr
    have hparse := usernameWithToken_typed hu ht hlen harg
    refine ⟨{ method := .config, target := ConfigTarget.addAdminUser.toByte,
              dlen := (user.length + 1 + token.length).toUInt16, data := userData user token },
      ?_, rfl, rfl, ?_, fun buffer hb => ?_⟩
    · simp only [parseOption, hparse]
      rfl
    · simp only [Request.dlen, Request.data, List.length_append, List.length_cons]
      congr 1
      omega
    · exact serializeUser_eq rfl (not_mem_of_alnum hu.alnum).1 (not_mem_of_alnum ht).1 hu.length hb
  | delProxyUser user =>
    obtain ⟨optarg, rfl, rfl⟩ := ho
    have hmax : ¬ optarg.val.length > usernameSize := Nat.not_lt.mpr hr.length
    refine ⟨{ method := .config, target := ConfigTarget.delProxyUser.toByte,
              dlen := optarg.val.length.toUInt16,
              data := memcpy (List.replicate dataSize 0) userIndex optarg.val },
      ?_, rfl, rfl, rfl, fun buffer _ => delete_data hr buffer⟩
    simp only [parseOption, stringCheck, hmax, ↓reduceIte]
    rfl
  | delAdminUser user =>
    obtain ⟨optarg, rfl, rfl⟩ := ho
    have hmax : ¬ optarg.val.length > usernameSize := Nat.not_lt.mpr hr.length
    refine ⟨{ method := .config, target := ConfigTarget.delAdminUser.toByte,
              dlen := optarg.val.length.toUInt16,
              data := memcpy (List.replicate dataSize 0) userIndex optarg.val },
      ?_, rfl, rfl, rfl, fun buffer _ => delete_data hr buffer⟩
    simp only [parseOption, stringCheck, hmax, ↓reduceIte]
    rfl

-- ---------------------------------------------------------------------------
-- The message
-- ---------------------------------------------------------------------------

theorem exists_split {n : Nat} (memory : List Byte) (h : n ≤ memory.length) :
    ∃ x r, memory = x ++ r ∧ x.length = n ∧ r.length = memory.length - n :=
  ⟨memory.take n, memory.drop n, (List.take_append_drop n memory).symm, List.length_take_of_le h,
    List.length_drop⟩

theorem serialize_header (buffer : List Byte) {token : List Byte} (hb : fieldDataIndex ≤ buffer.length)
    (ht : token.length = tokenSize) (method target : Byte) (dlen : UInt16) :
    ∃ rest, memcpy (memcpy (memcpy (memcpy (memcpy buffer fieldVersionIndex [programVersion])
        fieldTokenIndex (token.take tokenSize)) fieldMethodIndex [method]) fieldDlenIndex (htons dlen))
        fieldTargetIndex [target] =
      (programVersion :: (token ++ method :: target :: htons dlen)) ++ rest ∧
      rest.length = buffer.length - fieldDataIndex := by
  obtain ⟨x, rest, rfl, hx, hrest⟩ := exists_split _ hb
  obtain ⟨v, x₁, rfl, hv, h₁⟩ := exists_split (n := 1) x (by rw [hx]; decide)
  obtain ⟨t, x₂, rfl, ht', h₂⟩ := exists_split (n := 16) x₁ (by rw [h₁, hx]; decide)
  obtain ⟨m, x₃, rfl, hm, h₃⟩ := exists_split (n := 1) x₂ (by rw [h₂, h₁, hx]; decide)
  obtain ⟨g, d, rfl, hg, hd⟩ := exists_split (n := 1) x₃ (by rw [h₃, h₂, h₁, hx]; decide)
  rw [h₃, h₂, h₁, hx] at hd
  refine ⟨rest, ?_, hrest⟩
  have htoken : token.take tokenSize = token := List.take_of_length_le (Nat.le_of_eq ht)
  rw [htoken]
  have hversion : memcpy (v ++ (t ++ (m ++ (g ++ d))) ++ rest) fieldVersionIndex [programVersion] =
      [programVersion] ++ (t ++ (m ++ (g ++ (d ++ rest)))) := by
    have := memcpy_append (l := []) (x := v) (r := t ++ (m ++ (g ++ (d ++ rest))))
      (y := [programVersion]) fieldVersionIndex rfl hv
    simpa using this
  rw [hversion, memcpy_append fieldTokenIndex rfl (ht'.trans ht.symm)]
  have hmethod := memcpy_append (l := [programVersion] ++ token) (x := m) (r := g ++ (d ++ rest))
    (y := [method]) fieldMethodIndex (by simp [ht, tokenSize, fieldMethodIndex]) hm
  rw [← List.append_assoc, hmethod]
  have hdlen := memcpy_append (l := [programVersion] ++ token ++ [method] ++ g) (x := d) (r := rest)
    (y := htons dlen) fieldDlenIndex
    (by simp [ht, hg, tokenSize, fieldDlenIndex]) hd
  simp only [List.append_assoc] at hdlen ⊢
  rw [hdlen]
  have htarget := memcpy_append (l := [programVersion] ++ token ++ [method]) (x := g)
    (r := htons dlen ++ rest) (y := [target]) fieldTargetIndex
    (by simp [ht, tokenSize, fieldTargetIndex]) hg
  simp only [List.append_assoc] at htarget
  rw [htarget]
  simp

theorem serializeRequest_eq {args : RequestArgs} {r : Request} (hr : r.Alphanumeric)
    (h : Filled args r) {token buffer : List Byte} (ht : token.length = tokenSize)
    (hb : buffer.length = baseRequestData + maxBytesData) :
    (serializeRequest args token buffer).take (baseRequestData + args.dlen.toNat) =
      r.message token := by
  obtain ⟨rest, hheader, hrest⟩ := serialize_header buffer
    (by rw [hb]; decide) ht args.method.toByte args.target args.dlen
  have hlen := (Request.length_data hr).2
  have hhead : (programVersion :: (token ++ args.method.toByte :: args.target :: htons args.dlen)).length =
      fieldDataIndex := by
    simp [ht, tokenSize, htons, fieldDataIndex]
  obtain ⟨x, rest', rfl, hx, -⟩ := exists_split (n := r.data.length) rest
    (by rw [hrest, hb]; simp only [baseRequestData, maxBytesData, fieldDataIndex]; omega)
  unfold serializeRequest
  dsimp only
  rw [hheader, h.data _ (by rw [List.length_append, hhead]; exact Nat.le_add_right ..),
    memcpy_append _ hhead hx, h.dlen, Request.toNat_dlen hr, ← List.append_assoc]
  have htake : (programVersion :: (token ++ args.method.toByte :: args.target :: htons r.dlen) ++
      r.data).length = baseRequestData + r.data.length := by
    rw [List.length_append, ← h.dlen, hhead]
    rfl
  rw [List.take_left' htake, h.method, h.target, Request.message]
  simp

-- ---------------------------------------------------------------------------
-- The parser
-- ---------------------------------------------------------------------------

theorem Name.lt {user : List Byte} (h : Name user) : user.length < Socks5d.usernameSize :=
  Nat.lt_succ_of_le h.length

theorem Name.cstr_user {user : List Byte} (h : Name user) (r : List Byte) :
    cstr (filled Socks5d.usernameSize user ++ r) = user :=
  cstr_filled_append (not_mem_of_alnum h.alnum).1 h.lt r

theorem data_decoded {r : Request} (hr : r.Alphanumeric) (hm : r.method = .config) (st : Statics)
    {p : MonitorParser} (h : Expects r.target r.dlen p) :
    ∃ st' q, monitorMachine.Ends (st, p) r.data (st', q) ∧ q.state = .done ∧ r.Decoded q.monitor := by
  have hlen := Request.toNat_dlen hr
  have hpos : 0 < r.dlen.toNat := hlen ▸ (Request.length_data hr).1
  have huser : p.monitor.data.user = filled Socks5d.usernameSize [] := by
    rw [h.data]
    rfl
  cases r with
  | get target => cases hm
  | disector on =>
    have hgoing : monitorMachine.done (st, p) = false := by
      show monitorIsDone p.state = false
      rw [h.state]
      rfl
    have hfeed := feed_data st h.state (if on then 1 else 0)
    have htarget : p.monitor.target = monitorTargetConfigPop3disector := h.target
    simp only [Monitor.dataState, htarget, ↓reduceIte] at hfeed
    exact ⟨_, _, (Machine.Reads.nil hgoing).ends hfeed rfl, rfl, rfl⟩
  | addProxyUser user pass =>
    obtain ⟨hu, hp, hlen'⟩ := hr
    have hkept : Kept MonitorData.pass 256 p [] [] := ⟨huser, by rw [h.data]; rfl⟩
    obtain ⟨st', q, hq, hdone, hqk⟩ := ends_add st addProxyuser_adding storePass_keeps
      (h.reading (by decide : monitorTargetConfigAddProxyuser ≠ _) hpos) hu.alnum hu.nonempty hu.lt hp
      (Nat.le_succ_of_le hlen') hlen.symm hkept
    refine ⟨st', q, hq, hdone, ?_, ?_⟩
    · show cstr (q.monitor.data.user ++ q.monitor.data.pass) = user
      rw [hqk.user]
      exact hu.cstr_user _
    · show cstr q.monitor.data.pass = pass
      rw [hqk.secret, cstr_filled (not_mem_of_alnum hp).1]
  | addAdminUser user token =>
    obtain ⟨hu, ht, hlen'⟩ := hr
    have hkept : Kept MonitorData.token 16 p [] [] := ⟨huser, by rw [h.data]; rfl⟩
    obtain ⟨st', q, hq, hdone, hqk⟩ := ends_add st addAdmin_adding storeToken_keeps
      (h.reading (by decide : monitorTargetConfigAddAdmin ≠ _) hpos) hu.alnum hu.nonempty hu.lt ht
      (Nat.le_of_eq hlen') hlen.symm hkept
    refine ⟨st', q, hq, hdone, ?_, ?_⟩
    · show cstr (q.monitor.data.user ++ q.monitor.data.token) = user
      rw [hqk.user]
      exact hu.cstr_user _
    · show cstr q.monitor.data.token = token
      rw [hqk.secret, cstr_filled (not_mem_of_alnum ht).1]
  | delProxyUser user =>
    obtain ⟨q, hq, hdone, hqu⟩ := ends_delete st (.inl rfl)
      (h.reading (by decide : monitorTargetConfigDeleteProxyuser ≠ _) hpos) hr.alnum hr.nonempty rfl
      huser (by rw [hlen, Nat.zero_add]; rfl)
      (by rw [Nat.zero_add]; exact Nat.le_of_lt hr.lt)
    refine ⟨st, q, hq, hdone, ?_⟩
    show cstr q.monitor.data.user = user
    rw [hqu, List.nil_append, cstr_filled (not_mem_of_alnum hr.alnum).1]
  | delAdminUser user =>
    obtain ⟨q, hq, hdone, hqu⟩ := ends_delete st (.inr rfl)
      (h.reading (by decide : monitorTargetConfigDeleteAdmin ≠ _) hpos) hr.alnum hr.nonempty rfl huser
      (by rw [hlen, Nat.zero_add]; rfl)
      (by rw [Nat.zero_add]; exact Nat.le_of_lt hr.lt)
    refine ⟨st, q, hq, hdone, ?_⟩
    show cstr q.monitor.data.user = user
    rw [hqu, List.nil_append, cstr_filled (not_mem_of_alnum hr.alnum).1]

theorem configTarget_target {r : Request} (hm : r.method = .config) :
    Socks5d.ConfigTarget r.target := by
  cases r with
  | get => cases hm
  | disector => exact .inl rfl
  | addProxyUser => exact .inr (.inl rfl)
  | delProxyUser => exact .inr (.inr (.inl rfl))
  | addAdminUser => exact .inr (.inr (.inr (.inl rfl)))
  | delAdminUser => exact .inr (.inr (.inr (.inr rfl)))

theorem config_decoded {r : Request} (hr : r.Alphanumeric) (hm : r.method = .config) (st : Statics)
    {token : List Byte} (ht : token.length = tokenSize) :
    ∃ st' q, monitorMachine.Ends (st, monitorParserInit) (r.message token) (st', q) ∧
      q.state = .done ∧ r.Decoded q.monitor := by
  obtain ⟨st₁, p, hreads, hexpects⟩ := reads_dlen st ht (configTarget_target hm) r.dlen
  obtain ⟨st', q, hends, hdone, hdecoded⟩ := data_decoded hr hm st₁ hexpects
  refine ⟨st', q, ?_, hdone, hdecoded⟩
  have hall := hreads.append_ends hends
  have hbyte : r.method.toByte = monitorMethodConfig := by
    rw [hm]
    rfl
  rw [Request.message, hbyte]
  simpa [programVersion] using hall

theorem get_decoded (target : GetTarget) (st : Statics) {token : List Byte}
    (ht : token.length = tokenSize) :
    ∃ q rest, monitorMachine.consume (st, monitorParserInit) ((Request.get target).message token) =
      ((st, q), rest) ∧ q.state = .done := by
  obtain ⟨p, hreads, hstate, hmethod, -, -⟩ := reads_method st ht (.inl rfl)
  have hfeed : monitorMachine.feed (st, p) target.toByte = (st, { p with
      state := .done, monitor := { p.monitor with target := target.toByte } }) := by
    simp only [monitorMachine, monitorParserFeed_eq, monitorParserNext, hstate, Monitor.targetState,
      hmethod, ↓reduceIte]
    cases target <;> rfl
  have hends := hreads.ends hfeed rfl
  have hmessage : (Request.get target).message token =
      1 :: (token ++ [monitorMethodGet]) ++ [target.toByte] ++
        (htons (Request.get target).dlen ++ [0]) := by
    simp [Request.message, Request.method, Method.toByte, programVersion, monitorMethodGet,
      Request.target, Request.data]
  refine ⟨{ p with state := .done, monitor := { p.monitor with target := target.toByte } },
    htons (Request.get target).dlen ++ [0], ?_, rfl⟩
  rw [hmessage, hends.consume_append]

/-- A parser that is done with a message has its token, its method and its target. -/
theorem header_decoded {r : Request} {st st' : Statics} {q : MonitorParser} {token rest : List Byte}
    (ht : token.length = tokenSize)
    (h : monitorMachine.consume (st, monitorParserInit) (r.message token) = ((st', q), rest))
    (hdone : q.state = .done) :
    q.monitor.token = token ∧ q.monitor.method = r.method.toByte ∧ q.monitor.target = r.target := by
  obtain ⟨read, hread, hheader⟩ := monitorMachine.consume_history Header.step
    (s := (st, monitorParserInit)) rfl Header.init (r.message token)
  rw [h, List.nil_append, Header, hdone] at hheader
  obtain ⟨more, hbytes⟩ := hheader.bytes
  rw [h, hbytes, Request.message, List.cons_append, List.append_assoc] at hread
  obtain ⟨htoken, hfields⟩ := List.append_inj (List.cons.inj hread).2 (ht.trans hheader.length.symm)
  rw [List.cons_append, List.cons_append, List.cons.injEq, List.cons.injEq] at hfields
  exact ⟨htoken.symm, hfields.1.symm, hfields.2.1.symm⟩

-- ---------------------------------------------------------------------------
-- From the command line to the server
-- ---------------------------------------------------------------------------

/-- The bytes that the client sends. -/
def sent (args : RequestArgs) (token buffer : List Byte) : List Byte :=
  (serializeRequest args token buffer).take (baseRequestData + args.dlen.toNat)

def bytesOf (buffers : List Buffer) : List Byte := (buffers.map Buffer.content).flatten

structure Received (r : Request) (token : List Byte) (p : MonitorParser) : Prop where
  done : p.state = .done
  token : p.monitor.token = token
  method : p.monitor.method = r.method.toByte
  target : p.monitor.target = r.target
  data : r.Decoded p.monitor

/-- The server decodes what the client encodes, whatever was in the write buffer of
the client, in the statics of the server, and however the bytes arrive. -/
structure Transmits (token : List Byte) (r : Request) (args : RequestArgs) : Prop where
  received : ∀ (buffer : List Byte) (st : Statics) (buffers : List Buffer),
    buffer.length = baseRequestData + maxBytesData → bytesOf buffers = sent args token buffer →
    Received r token (monitorConsumeAll st monitorParserInit buffers).2
  /-- The last byte of a CONFIG is the one that makes the parser done. -/
  last : r.method = .config → ∀ (buffer : List Byte) (st : Statics) (buffers : List Buffer),
    buffer.length = baseRequestData + maxBytesData → bytesOf buffers <+: sent args token buffer →
    bytesOf buffers ≠ sent args token buffer →
    monitorIsDone (monitorConsumeAll st monitorParserInit buffers).2.state = false

theorem Filled.transmits {args : RequestArgs} {r : Request} (h : Filled args r)
    (hr : r.Alphanumeric) {token : List Byte} (ht : token.length = tokenSize) :
    Transmits token r args := by
  refine ⟨fun buffer st buffers hb hbytes => ?_, fun hm buffer st buffers hb hp hne => ?_⟩
  · rw [sent, serializeRequest_eq hr h ht hb] at hbytes
    rw [monitorConsumeAll_eq]
    show Received r token (monitorMachine.consume (st, monitorParserInit) (bytesOf buffers)).1.2
    rw [hbytes]
    by_cases hm : r.method = .config
    · obtain ⟨st', q, hends, hdone, hdecoded⟩ := config_decoded hr hm st ht
      obtain ⟨htoken, hmethod, htarget⟩ := header_decoded ht hends.consume hdone
      rw [hends.consume]
      exact ⟨hdone, htoken, hmethod, htarget, hdecoded⟩
    · obtain ⟨target, rfl⟩ : ∃ target, r = .get target := by
        cases r with
        | get target => exact ⟨target, rfl⟩
        | _ => exact absurd rfl hm
      obtain ⟨q, rest, hconsume, hdone⟩ := get_decoded target st ht
      obtain ⟨htoken, hmethod, htarget⟩ := header_decoded ht hconsume hdone
      rw [hconsume]
      exact ⟨hdone, htoken, hmethod, htarget, trivial⟩
  · rw [sent, serializeRequest_eq hr h ht hb] at hp hne
    rw [monitorConsumeAll_eq]
    obtain ⟨st', q, hends, -, -⟩ := config_decoded hr hm st ht
    exact hends.not_before rfl hp hne

theorem parseOptions_typed {requests : List Request} {options : List Opt}
    (h : List.Forall₂ Request.Typed requests options) (hr : ∀ r ∈ requests, r.Alphanumeric) :
    ∃ args, options.mapM (parseOption {}) = .ok args ∧
      List.Forall₂ (fun r args => Filled args r ∧ r.Alphanumeric) requests args := by
  induction h with
  | nil => exact ⟨[], rfl, .nil⟩
  | @cons r o requests options ho _ ih =>
    obtain ⟨a, ha, hfilled⟩ := parseOption_typed (hr r List.mem_cons_self) ho
    obtain ⟨args, hargs, hall⟩ := ih fun r hmem => hr r (List.mem_cons_of_mem _ hmem)
    refine ⟨a :: args, ?_, .cons ⟨hfilled, hr r List.mem_cons_self⟩ hall⟩
    rw [List.mapM_cons, ha, hargs]
    rfl

/-- A command line of at most `MAX_CLIENT_REQUESTS` requests: `parse_args` takes it, and
the server decodes each request. -/
theorem client_requests_decoded {requests : List Request} {options : List Opt}
    (htyped : List.Forall₂ Request.Typed requests options)
    (halnum : ∀ r ∈ requests, r.Alphanumeric) (hcount : requests.length ≤ maxClientRequests)
    {token : CStr} (htoken : token.val.length = tokenSize) :
    ∃ args, parseArgs options (some token) = .ok (args, token.val) ∧
      List.Forall₂ (Transmits token.val) requests args := by
  obtain ⟨args, hargs, hfilled⟩ := parseOptions_typed htyped halnum
  refine ⟨args, ?_, ?_⟩
  · have htake : options.take maxClientRequests = options :=
      List.take_of_length_le (htyped.length_eq ▸ hcount)
    have hcopy : memcpy (List.replicate tokenSize 0) 0 (token.val.take tokenSize) = token.val := by
      have htake : token.val.take tokenSize = token.val := List.take_of_length_le (Nat.le_of_eq htoken)
      rw [htake, memcpy, List.take_zero, List.nil_append, Nat.zero_add, htoken,
        List.drop_of_length_le (Nat.le_of_eq List.length_replicate), List.append_nil]
    simp only [parseArgs, htake, hargs, tokenCheck, htoken, ne_eq, not_true_eq_false, ↓reduceIte, hcopy]
    rfl
  · exact hfilled.imp fun _ _ h => h.1.transmits h.2 htoken

def addAdminOption : CStr := ⟨[0x61, colon] ++ List.replicate tokenSize 0x41, by decide⟩

theorem client_requests_decoded_addAdmin :
    ∃ args, parseArgs [.addAdminUser addAdminOption, .get .concurrentConnections] (some rootToken) =
        .ok (args, rootToken.val) ∧
      List.Forall₂ (Transmits rootToken.val)
        [.addAdminUser [0x61] (List.replicate tokenSize 0x41), .get .concurrentConnections] args := by
  refine client_requests_decoded ?_ ?_ (by decide) (by decide)
  · exact .cons ⟨addAdminOption, rfl, rfl⟩ (.cons rfl .nil)
  · intro r hr
    rcases List.mem_pair.mp hr with rfl | rfl
    · have htoken : ∀ c ∈ List.replicate tokenSize (0x41 : Byte), isAlnum c = true := by
        intro c hc
        rw [List.eq_of_mem_replicate hc]
        decide
      exact ⟨⟨List.forall_mem_singleton.mpr (by decide), by decide, by decide⟩, htoken, rfl⟩
    · trivial

end Client

end Socks5d
