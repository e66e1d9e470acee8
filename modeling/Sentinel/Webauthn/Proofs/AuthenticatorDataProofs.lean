import Sentinel.Webauthn.AuthenticatorData
import Sentinel.Webauthn.Proofs.CborProofs

/-!
# Proofs: authenticator data and base64url

Each reader is characterised by the part of the data that it reads; the parts follow each other from the first byte to the
last one.
-/

namespace Sentinel.Webauthn

open Numerals

variable {data : Bytes} {offset stop : Nat}

/-! ## Parts -/

theorem cborDecode_iff {enc : Bytes} {v : Value} :
    cborDecode enc = some v ↔ v.Limited ∧ EncodesIn (maxDepth + 1) v enc := by
  unfold cborDecode cborDecodePrefix cborItem
  rw [Nat.sub_zero, Option.bind_eq_some_iff]
  simp only [Prod.exists]
  constructor
  · rintro ⟨v', stop, h, hstop⟩
    split_ifs at hstop with hlen
    obtain rfl := Option.some.inj hstop
    obtain ⟨enc', hspan, hlimited, henc⟩ := item_iff.mp h
    obtain rfl := (hlen ▸ hspan).eq_of_whole
    exact ⟨hlimited, henc⟩
  · rintro ⟨hlimited, henc⟩
    have hspan : Span enc 0 enc enc.length := Span.whole enc
    exact ⟨v, enc.length, item_iff.mpr ⟨enc, hspan, hlimited, henc⟩, by simp⟩

theorem cborDecodePrefix_iff {v : Value} :
    cborDecodePrefix data offset = some (v, stop) ↔ ∃ enc, Span data offset enc stop ∧ cborDecode enc = some v := by
  simp only [cborDecodePrefix, cborItem, Nat.sub_zero, item_iff, cborDecode_iff]

theorem readAttested_iff {id key : Bytes} :
    readAttested data offset = some (id, key, stop) ↔
      ∃ a : Attested, Span data offset a.encode stop ∧ id = a.credentialId ∧ key = a.publicKey := by
  constructor
  · intro h
    unfold readAttested at h
    dsimp only at h
    split_ifs at h with hlen hid
    simp only [Option.map_eq_some_iff, Prod.exists, Prod.mk.injEq] at h
    obtain ⟨v, keyStop, hkey, rfl, rfl, rfl⟩ := h
    obtain ⟨enc, hspan, hv⟩ := cborDecodePrefix_iff.mp hkey
    set length := ofBytes .big (data.extract (offset + 16) (offset + 18))
    have haaguid : Span data offset (data.extract offset (offset + 16)) (offset + 16) := .of_extract (by omega) (by omega)
    have hlen2 : Span data (offset + 16) (toBytes .big 2 length) (offset + 18) := (@numeral_span data (offset + 16) 2 (by omega)).2
    have hcredential : Span data (offset + 18) (data.extract (offset + 18) (offset + 18 + length)) (offset + 18 + length) :=
      .of_extract (by omega) (by omega)
    have hidlen : (data.extract (offset + 18) (offset + 18 + length)).length = length := by
      have hstop := hcredential.2
      omega
    have hsixteen : (data.extract offset (offset + 16)).length = 16 := by
      have hstop := haaguid.2
      omega
    have hbound : 1 ≤ (data.extract (offset + 18) (offset + 18 + length)).length ∧
        (data.extract (offset + 18) (offset + 18 + length)).length ≤ maxCredentialId := by
      rw [hidlen]
      omega
    refine ⟨⟨_, _, enc, hsixteen, hbound, ⟨v, hv⟩⟩, ?_, rfl, hspan.extract_eq⟩
    unfold Attested.encode
    dsimp only
    rw [hidlen]
    exact Span.append_iff.mpr ⟨_, haaguid, Span.append_iff.mpr ⟨_, hlen2, Span.append_iff.mpr ⟨_, hcredential, hspan⟩⟩⟩
  · rintro ⟨a, hspan, rfl, rfl⟩
    unfold Attested.encode at hspan
    obtain ⟨m₁, haaguid, hspan⟩ := Span.append_iff.mp hspan
    obtain ⟨m₂, hlen, hspan⟩ := Span.append_iff.mp hspan
    obtain ⟨m₃, hid, hkey⟩ := Span.append_iff.mp hspan
    obtain ⟨v, hv⟩ := a.key_item
    have hid_le := a.length_id
    have hm₁ : m₁ = offset + 16 := by rw [haaguid.2, a.length_aaguid]
    have hm₂ : m₂ = offset + 18 := by rw [hlen.2, length_toBytes, hm₁]
    have hm₃ : m₃ = offset + 18 + a.credentialId.length := by rw [hid.2, hm₂]
    have hin : m₃ ≤ data.length := hid.stop_le (List.ne_nil_of_length_pos (by omega))
    have hlength : ofBytes .big (data.extract (offset + 16) (offset + 18)) = a.credentialId.length := by
      rw [← hm₁, ← hm₂, hlen.extract_eq, ofBytes_toBytes]
      have hmax : maxCredentialId = 1023 := rfl
      omega
    have hprefix := cborDecodePrefix_iff.mpr ⟨a.publicKey, hkey, hv⟩
    unfold readAttested
    dsimp only
    rw [if_neg (by omega), hlength, if_neg (by omega), ← hm₃, hprefix, Option.map_some, ← hm₂, hid.extract_eq,
      hkey.extract_eq]

theorem readExtensions_iff :
    readExtensions data offset = some stop ↔
      ∃ enc, Span data offset enc stop ∧ ∃ v, cborDecode enc = some v ∧ v.isMap = true := by
  simp only [readExtensions, Option.bind_eq_some_iff, Prod.exists, cborDecodePrefix_iff]
  constructor
  · rintro ⟨v, stop', ⟨enc, hspan, hv⟩, h⟩
    split_ifs at h with hmap
    obtain rfl := Option.some.inj h
    exact ⟨enc, hspan, v, hv, hmap⟩
  · rintro ⟨enc, hspan, v, hv, hmap⟩
    exact ⟨v, stop, ⟨enc, hspan, hv⟩, by rw [if_pos hmap]⟩

variable {flags : UInt8}

theorem attested_iff {id key : Option Bytes} :
    (if flags &&& flagAT ≠ 0 then (readAttested data offset).map fun (id, key, offset) => (some id, some key, offset)
      else some (none, none, offset)) = some (id, key, stop) ↔
    ∃ a : Option Attested, (a.isSome ↔ flags &&& flagAT ≠ 0) ∧ Span data offset ((a.map Attested.encode).getD []) stop ∧
      id = a.map Attested.credentialId ∧ key = a.map Attested.publicKey := by
  by_cases hflag : flags &&& flagAT = 0
  · simp only [hflag, ne_eq, not_true_eq_false, if_false, iff_false, Bool.not_eq_true, Option.isSome_eq_false_iff,
      Option.isNone_iff_eq_none, exists_eq_left, Option.map_none, Option.getD_none, Span.nil_iff, Option.some.injEq,
      Prod.mk.injEq]
    tauto
  · simp only [hflag, ne_eq, not_false_eq_true, if_true, iff_true, Option.map_eq_some_iff, Prod.exists, Prod.mk.injEq]
    constructor
    · rintro ⟨id', key', stop', h, rfl, rfl, rfl⟩
      obtain ⟨a, hspan, rfl, rfl⟩ := readAttested_iff.mp h
      exact ⟨some a, rfl, hspan, rfl, rfl⟩
    · rintro ⟨a, ha, hspan, rfl, rfl⟩
      obtain ⟨a, rfl⟩ := Option.isSome_iff_exists.mp ha
      exact ⟨_, _, _, readAttested_iff.mpr ⟨a, hspan, rfl, rfl⟩, rfl, rfl, rfl⟩

theorem extensions_iff : (if flags &&& flagED ≠ 0 then readExtensions data offset else some offset) = some stop ↔
    ∃ e : Option Bytes, (e.isSome ↔ flags &&& flagED ≠ 0) ∧ (∀ enc ∈ e, ∃ v, cborDecode enc = some v ∧ v.isMap = true) ∧
      Span data offset (e.getD []) stop := by
  by_cases hflag : flags &&& flagED = 0
  · simp only [hflag, ne_eq, not_true_eq_false, if_false, iff_false, Bool.not_eq_true, Option.isSome_eq_false_iff,
      Option.isNone_iff_eq_none, exists_eq_left, Option.getD_none, Span.nil_iff, Option.some.injEq]
    constructor
    · rintro rfl
      exact ⟨fun _ h => (by cases h), rfl⟩
    · rintro ⟨-, rfl⟩
      rfl
  · simp only [hflag, ne_eq, not_false_eq_true, if_true, iff_true, readExtensions_iff]
    constructor
    · rintro ⟨enc, hspan, hmap⟩
      refine ⟨some enc, rfl, ?_, hspan⟩
      rintro enc' ⟨⟩
      exact hmap
    · rintro ⟨e, he, hmap, hspan⟩
      obtain ⟨enc, rfl⟩ := Option.isSome_iff_exists.mp he
      exact ⟨enc, hspan, hmap enc rfl⟩

theorem fixed_span (h : 37 ≤ data.length) :
    Span data 0 (data.extract 0 32 ++
      (data.get ⟨32, by omega⟩ :: toBytes .big 4 (ofBytes .big (data.extract 33 37)))) 37 := by
  have hflags : Span data 32 [data.get ⟨32, by omega⟩] 33 := Span.singleton_iff.mpr ⟨by simp, rfl⟩
  refine Span.append_iff.mpr ⟨32, .of_extract (by omega) (by omega), ?_⟩
  exact Span.append_iff.mpr ⟨33, hflags, (@numeral_span data 33 4 h).2⟩

theorem parseAuthenticatorData_iff {r : AuthenticatorData} :
    parseAuthenticatorData data = some r ↔
      data.length ≤ maxAuthenticatorData ∧ ∃ x : Reading, x.encode = data ∧ x.data = r := by
  constructor
  · intro h
    unfold parseAuthenticatorData at h
    split_ifs at h with hlen
    dsimp only at h
    obtain ⟨⟨id, key, offset⟩, hattested, h⟩ := Option.bind_eq_some_iff.mp h
    obtain ⟨stop, hextensions, h⟩ := Option.bind_eq_some_iff.mp h
    split_ifs at h with hstop hbackup
    obtain rfl := Option.some.inj h
    obtain ⟨a, ha, hspan, rfl, rfl⟩ := attested_iff.mp hattested
    obtain ⟨e, he, hmap, hspan'⟩ := extensions_iff.mp hextensions
    have hrp : (data.extract 0 32).length = 32 := by
      simp
      omega
    have hcount := (@numeral_span data 33 4 hlen.1).1
    refine ⟨hlen.2, ⟨_, _, _, a, e, hrp, hcount, ha, he, hmap, hbackup⟩, ?_, rfl⟩
    unfold Reading.encode
    dsimp only
    obtain rfl : stop = data.length := by simpa using hstop
    have hwhole := Span.append_iff.mpr ⟨37, fixed_span hlen.1, Span.append_iff.mpr ⟨offset, hspan, hspan'⟩⟩
    rw [List.append_assoc] at hwhole
    exact hwhole.eq_of_whole
  · rintro ⟨hlen, x, hx, rfl⟩
    have hwhole : Span data 0 x.encode data.length := hx ▸ Span.whole _
    obtain ⟨m₁, hrp, hspan⟩ := Span.append_iff.mp hwhole
    obtain ⟨m₂, hfixed, hspan⟩ := Span.append_iff.mp hspan
    obtain ⟨m₃, hflags, hcount⟩ := Span.append_iff.mp
      (show Span data m₁ ([x.flags] ++ toBytes .big 4 x.count) m₂ from hfixed)
    obtain ⟨m₄, hattested, hextensions⟩ := Span.append_iff.mp hspan
    obtain ⟨hget, rfl⟩ := Span.singleton_iff.mp hflags
    have hm₁ : m₁ = 32 := by
      have hstop := hrp.2
      rw [x.length_rpHash] at hstop
      omega
    subst hm₁
    have hm₂ : m₂ = 37 := by rw [hcount.2, length_toBytes]
    subst hm₂
    have hmin : 37 ≤ data.length := hcount.stop_le (List.ne_nil_of_length_pos (by simp))
    obtain ⟨hlt, hget⟩ := List.getElem?_eq_some_iff.mp hget
    have hfirst := attested_iff.mpr ⟨x.attested, x.attested_iff, hattested, rfl, rfl⟩
    have hsecond := extensions_iff.mpr ⟨x.extensions, x.extensions_iff, x.extensions_map, hextensions⟩
    unfold parseAuthenticatorData
    rw [dif_pos ⟨hmin, hlen⟩]
    simp only [List.get_eq_getElem, hget, hrp.extract_eq, hcount.extract_eq, ofBytes_toBytes x.count_lt]
    rw [hfirst, Option.bind_some]
    dsimp only
    rw [hsecond, Option.bind_some, if_neg (by simp), if_neg x.backup]
    rfl

/-! ## base64url -/

theorem b64Digits_mem {n v : Nat} : ∀ c ∈ b64Digits n v, c ∈ b64Alphabet := by
  have hmem : ∀ d < 64, b64Alphabet.getD d 'A' ∈ b64Alphabet := by decide +kernel
  intro c hc
  obtain ⟨d, hd, rfl⟩ := List.mem_map.mp hc
  exact hmem d (lt_of_mem_digits (by decide) hd)

/-- An encoding is its digits and the padding that completes the last group. -/
theorem urlsafeB64Encode_spec (value : Bytes) :
    ∃ body, urlsafeB64Encode value = body ++ List.replicate ((4 - body.length % 4) % 4) '=' ∧
      (∀ c ∈ body, c ∈ b64Alphabet) ∧ body.length = (value.length * 4 + 2) / 3 := by
  fun_induction urlsafeB64Encode value with
  | case1 => exact ⟨[], by simp⟩
  | case2 a => exact ⟨b64Digits 2 (ofBytes .big [a] * 16), by simp [b64Digits, List.replicate], b64Digits_mem, by simp [b64Digits]⟩
  | case3 a b => exact ⟨b64Digits 3 (ofBytes .big [a, b] * 4), by simp [b64Digits], b64Digits_mem, by simp [b64Digits]⟩
  | case4 a b c rest ih =>
    obtain ⟨body, heq, hmem, hlen⟩ := ih
    have hfour : (b64Digits 4 (ofBytes .big [a, b, c])).length = 4 := by simp [b64Digits]
    refine ⟨b64Digits 4 (ofBytes .big [a, b, c]) ++ body, ?_, ?_, ?_⟩
    · rw [heq, List.append_assoc, List.length_append, hfour, Nat.add_mod_left]
    · intro d hd
      rcases List.mem_append.mp hd with hd | hd
      · exact b64Digits_mem d hd
      · exact hmem d hd
    · rw [List.length_append, hfour, hlen]
      simp only [List.length_cons]
      omega

theorem ne_padding {c : Char} (hc : c ∈ b64Alphabet) : c ≠ '=' := by
  rintro rfl
  exact absurd hc (by decide)

theorem b64Number_b64Digits {n v : Nat} (h : v < 64 ^ n) : b64Number (b64Digits n v) = v := by
  have hidx : ∀ d < 64, b64Alphabet.idxOf (b64Alphabet.getD d 'A') = d := by decide +kernel
  have hmap : (b64Digits n v).map b64Alphabet.idxOf = digits 64 n v := by
    rw [b64Digits, List.map_map]
    nth_rewrite 2 [← List.map_id (digits 64 n v)]
    refine List.map_congr_left ?_
    intro d hd
    exact hidx d (lt_of_mem_digits (by decide) hd)
  rw [b64Number, hmap, value_digits h]

/-- The decoder of RFC 4648 is one of those that are assumed. -/
def Base64.rfc4648 : Base64 where
  decode := urlsafeB64Decode
  decode_encode := by
    intro bytes
    fun_induction urlsafeB64Encode bytes with
    | case1 => rfl
    | case2 a =>
      have hlt := ofBytes_lt .big [a]
      have hnumber := b64Number_b64Digits (show ofBytes .big [a] * 16 < 64 ^ 2 by simp at hlt; omega)
      obtain ⟨c, d, heq⟩ := List.length_eq_two.mp (show (b64Digits 2 (ofBytes .big [a] * 16)).length = 2 by simp [b64Digits])
      rw [heq] at hnumber ⊢
      simp only [List.cons_append, List.nil_append, urlsafeB64Decode, if_true, hnumber]
      rw [Nat.mul_div_cancel _ (by decide)]
      exact congrArg some (toBytes_ofBytes .big [a])
    | case3 a b =>
      have hlt := ofBytes_lt .big [a, b]
      have hnumber := b64Number_b64Digits (show ofBytes .big [a, b] * 4 < 64 ^ 3 by simp at hlt; omega)
      obtain ⟨c, d, e, heq⟩ := List.length_eq_three.mp
        (show (b64Digits 3 (ofBytes .big [a, b] * 4)).length = 3 by simp [b64Digits])
      have hmem : e ∈ b64Digits 3 (ofBytes .big [a, b] * 4) := by simp [heq]
      have he : e ≠ '=' := ne_padding (b64Digits_mem e hmem)
      rw [heq] at hnumber ⊢
      simp only [List.cons_append, List.nil_append, urlsafeB64Decode, if_true, if_neg he, hnumber]
      rw [Nat.mul_div_cancel _ (by decide)]
      exact congrArg some (toBytes_ofBytes .big [a, b])
    | case4 a b c rest ih =>
      have hlt := ofBytes_lt .big [a, b, c]
      have hnumber := b64Number_b64Digits (show ofBytes .big [a, b, c] < 64 ^ 4 by simpa using hlt)
      obtain ⟨d, e, f, g, heq⟩ : ∃ d e f g, b64Digits 4 (ofBytes .big [a, b, c]) = [d, e, f, g] := by
        simp [b64Digits, digits, List.range_succ]
      have hmem : g ∈ b64Digits 4 (ofBytes .big [a, b, c]) := by simp [heq]
      have hg : g ≠ '=' := ne_padding (b64Digits_mem g hmem)
      rw [heq] at hnumber ⊢
      simp only [List.cons_append, List.nil_append, urlsafeB64Decode, if_neg hg, hnumber, ih, Option.map_some]
      exact congrArg (fun bs => some (bs ++ rest)) (toBytes_ofBytes .big [a, b, c])

theorem dropWhile_padding {body : List Char} (h : ∀ c ∈ body, c ∈ b64Alphabet) (k : Nat) :
    ((body ++ List.replicate k '=').reverse.dropWhile (· == '=')).reverse = body := by
  have hbody : body.reverse.dropWhile (· == '=') = body.reverse := by
    cases hrev : body.reverse with
    | nil => rfl
    | cons c rest =>
      have hc : c ∈ b64Alphabet := h c (List.mem_reverse.mp (hrev ▸ List.mem_cons_self))
      simp [ne_padding hc]
  rw [List.reverse_append, List.reverse_replicate, List.dropWhile_append_of_pos (by simp), hbody, List.reverse_reverse]

theorem b64urlDecode_iff (base64 : Base64) {value : String} {limit : Nat} {decoded : Bytes} :
    b64urlDecode base64 value limit = some decoded ↔
      value = b64urlEncode decoded ∧ 1 ≤ decoded.length ∧ decoded.length ≤ limit := by
  constructor
  · intro h
    unfold b64urlDecode at h
    dsimp only at h
    split_ifs at h
    obtain ⟨decoded', -, h⟩ := Option.bind_eq_some_iff.mp h
    split_ifs at h with hcanonical
    obtain rfl := Option.some.inj h
    simp only [ne_eq, not_or, not_not] at hcanonical
    exact ⟨hcanonical.1.symm, hcanonical.2⟩
  · rintro ⟨rfl, hpos, hlimit⟩
    obtain ⟨body, heq, hmem, hlen⟩ := urlsafeB64Encode_spec decoded
    have hencode : b64urlEncode decoded = String.ofList body := by
      rw [b64urlEncode, heq, dropWhile_padding hmem]
    have hascii : ∀ c ∈ b64Alphabet, ¬128 ≤ c.toNat := by
      have hall : b64Alphabet.all (fun c => decide (¬128 ≤ c.toNat)) = true := by decide
      exact fun c hc => of_decide_eq_true (List.all_eq_true.mp hall c hc)
    unfold b64urlDecode
    dsimp only
    rw [hencode, String.toList_ofList, if_neg, if_neg, ← heq, base64.decode_encode, Option.bind_some, if_neg]
    · rw [hencode]
      simp [hpos, hlimit]
    · simp only [List.any_eq_true, decide_eq_true_eq, not_or, not_exists, not_and]
      exact ⟨fun c hc => hascii c (hmem c hc), fun c hc hout => hout (hmem c hc), by omega⟩
    · rintro (rfl | hlong)
      · simp at hlen
        omega
      · omega

/-- Authenticator data has one reading. The accepted data are, up to the bound on their length, exactly the readings put
together, and what is returned are the parts of the reading. The accepted base64url texts are exactly the encodings of byte
strings within the limit, and the byte string is returned. -/
theorem authenticator_data_one_reading (base64 : Base64) :
    (∀ data r, parseAuthenticatorData data = some r ↔
      data.length ≤ maxAuthenticatorData ∧ ∃ x : Reading, x.encode = data ∧ x.data = r) ∧
    ∀ value limit decoded, b64urlDecode base64 value limit = some decoded ↔
      value = b64urlEncode decoded ∧ 1 ≤ decoded.length ∧ decoded.length ≤ limit :=
  ⟨fun _ _ => parseAuthenticatorData_iff, fun _ _ _ => b64urlDecode_iff base64⟩

end Sentinel.Webauthn
