import Sentinel.Webauthn.Cbor

/-!
# Authenticator data and base64url

`parse_authenticator_data`, `b64url_encode` and `b64url_decode` of `server/app/auth/webauthn.py`, and the texts they are to
accept. `none` is `WebAuthnVerificationError`. Of the base64 decoder of the library only is known what RFC 4648 says of the
encodings of byte strings; on any other text it may return anything.
-/

namespace Sentinel.Webauthn

open Numerals

/-! ## Authenticator data -/

def flagBE : UInt8 := 0x08
def flagBS : UInt8 := 0x10
def flagAT : UInt8 := 0x40
def flagED : UInt8 := 0x80

def maxCredentialId : Nat := 1023

def maxAuthenticatorData : Nat := 4096

/-- What is read from accepted authenticator data. -/
structure AuthenticatorData where
  rpIdHash : Bytes
  flags : UInt8
  signCount : Nat
  credentialId : Option Bytes
  credentialPublicKey : Option Bytes
  deriving DecidableEq, Repr

/-- The attested credential data: the identifier, the public key and where it ends. -/
def readAttested (data : Bytes) (offset : Nat) : Option (Bytes × Bytes × Nat) :=
  if offset + 18 > data.length then none
  else
    let length := ofBytes .big (data.extract (offset + 16) (offset + 18))
    let offset := offset + 18
    if ¬(1 ≤ length ∧ length ≤ maxCredentialId) ∨ offset + length > data.length then none
    else
      let stop := offset + length
      (cborDecodePrefix data stop).map fun (_, keyStop) => (data.extract offset stop, data.extract stop keyStop, keyStop)

/-- Where the extensions end. -/
def readExtensions (data : Bytes) (offset : Nat) : Option Nat :=
  (cborDecodePrefix data offset).bind fun (extensions, offset) => if extensions.isMap then some offset else none

def parseAuthenticatorData (data : Bytes) : Option AuthenticatorData :=
  if h : 37 ≤ data.length ∧ data.length ≤ maxAuthenticatorData then
    let rpHash := data.extract 0 32
    let flags := data.get ⟨32, by omega⟩
    let count := ofBytes .big (data.extract 33 37)
    let attested :=
      if flags &&& flagAT ≠ 0 then (readAttested data 37).map fun (id, key, offset) => (some id, some key, offset)
      else some (none, none, 37)
    attested.bind fun (credentialId, publicKey, offset) =>
      (if flags &&& flagED ≠ 0 then readExtensions data offset else some offset).bind fun offset =>
        if offset ≠ data.length then none
        else if flags &&& flagBS ≠ 0 ∧ flags &&& flagBE = 0 then none
        else some ⟨rpHash, flags, count, credentialId, publicKey⟩
  else none

/-- Attested credential data: an AAGUID, which is skipped, a credential identifier with its length, and one item. -/
structure Attested where
  aaguid : Bytes
  credentialId : Bytes
  publicKey : Bytes
  length_aaguid : aaguid.length = 16
  length_id : 1 ≤ credentialId.length ∧ credentialId.length ≤ maxCredentialId
  key_item : ∃ v, cborDecode publicKey = some v

def Attested.encode (a : Attested) : Bytes :=
  a.aaguid ++ (toBytes .big 2 a.credentialId.length ++ (a.credentialId ++ a.publicKey))

/-- A reading of authenticator data. -/
structure Reading where
  rpHash : Bytes
  flags : UInt8
  count : Nat
  attested : Option Attested
  extensions : Option Bytes
  length_rpHash : rpHash.length = 32
  count_lt : count < 256 ^ 4
  attested_iff : attested.isSome ↔ flags &&& flagAT ≠ 0
  extensions_iff : extensions.isSome ↔ flags &&& flagED ≠ 0
  extensions_map : ∀ e ∈ extensions, ∃ v, cborDecode e = some v ∧ v.isMap = true
  backup : ¬(flags &&& flagBS ≠ 0 ∧ flags &&& flagBE = 0)

namespace Reading

def encode (r : Reading) : Bytes :=
  r.rpHash ++ (r.flags :: toBytes .big 4 r.count ++ ((r.attested.map Attested.encode).getD [] ++ r.extensions.getD []))

/-- The parts that are returned. -/
def data (r : Reading) : AuthenticatorData :=
  ⟨r.rpHash, r.flags, r.count, r.attested.map Attested.credentialId, r.attested.map Attested.publicKey⟩

end Reading

/-! ## base64url -/

def b64Alphabet : List Char := "ABCDEFGHIJKLMNOPQRSTUVWXYZabcdefghijklmnopqrstuvwxyz0123456789-_".toList

def b64Digits (n v : Nat) : List Char := (digits 64 n v).map fun d => b64Alphabet.getD d 'A'

/-- `base64.urlsafe_b64encode`: three bytes are four digits, and the last group is padded. -/
def urlsafeB64Encode : Bytes → List Char
  | [] => []
  | [a] => b64Digits 2 (ofBytes .big [a] * 16) ++ ['=', '=']
  | [a, b] => b64Digits 3 (ofBytes .big [a, b] * 4) ++ ['=']
  | a :: b :: c :: rest => b64Digits 4 (ofBytes .big [a, b, c]) ++ urlsafeB64Encode rest

/-- A `base64.urlsafe_b64decode`; `none` if it raises. -/
structure Base64 where
  decode : List Char → Option Bytes
  decode_encode : ∀ value, decode (urlsafeB64Encode value) = some value

def b64Number (cs : List Char) : Nat := value 64 (cs.map b64Alphabet.idxOf)

/-- The decoder of RFC 4648. -/
def urlsafeB64Decode : List Char → Option Bytes
  | [] => some []
  | a :: b :: c :: d :: rest =>
    if d = '=' then
      if c = '=' then some (toBytes .big 1 (b64Number [a, b] / 16)) else some (toBytes .big 2 (b64Number [a, b, c] / 4))
    else (urlsafeB64Decode rest).map (toBytes .big 3 (b64Number [a, b, c, d]) ++ ·)
  | _ => none

def b64urlEncode (value : Bytes) : String :=
  String.ofList (urlsafeB64Encode value |>.reverse.dropWhile (· == '=') |>.reverse)

def b64urlDecode (base64 : Base64) (value : String) (limit : Nat) : Option Bytes :=
  let chars := value.toList
  if chars = [] ∨ chars.length > (limit * 4 + 2) / 3 + 1 then none
  else if chars.any (128 ≤ ·.toNat) ∨ chars.any (· ∉ b64Alphabet) ∨ chars.length % 4 = 1 then none
  else
    (base64.decode (chars ++ List.replicate ((4 - chars.length % 4) % 4) '=')).bind fun decoded =>
      if b64urlEncode decoded ≠ value ∨ ¬(1 ≤ decoded.length ∧ decoded.length ≤ limit) then none else some decoded

end Sentinel.Webauthn
