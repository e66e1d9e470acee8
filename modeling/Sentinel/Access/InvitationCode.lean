import Sentinel.Lib.Numerals

/-!
# Invitation codes

`server/app/auth/invitation_code.py`: the display form of a secret and its strict parser. Texts are lists of characters
inside; an index into the alphabet is always below its length.
-/

namespace Sentinel.Access.InvitationCode

open Numerals

def codeBytes : Nat := 20

/-- `GROUP`. -/
def groupSize : Nat := 4

def alphabet : List Char := "0123456789ABCDEFGHJKMNPQRSTVWXYZ".toList

/-- `_CHARACTERS`. -/
def characters : Nat := codeBytes * 8 / 5

def displayLength : Nat := characters + characters / groupSize - 1

/-- What is raised: `InvalidInvitationCode`, or the `OverflowError` of `int.to_bytes`. -/
inductive CodeError
  | invalid
  | overflow
  deriving DecidableEq, Repr

/-- `_encode`. -/
def encode (secret : List UInt8) : String :=
  let value := ofBytes .big secret
  let chars := (List.range characters).map fun index => alphabet.getD ((value >>> (5 * index)) &&& 31) '0'
  let plain := chars.reverse
  let groups := (List.range (characters / groupSize)).map fun i => (plain.drop (groupSize * i)).take groupSize
  String.ofList (List.intercalate ['-'] groups)

def formatInvitationCode (secret : List UInt8) : Except CodeError String :=
  if secret.length = codeBytes then .ok (encode secret) else .error .invalid

/-- What is left after so many characters of the alphabet. -/
def matchClass : Nat → List Char → Option (List Char)
  | 0, cs => some cs
  | _ + 1, [] => none
  | n + 1, c :: cs => if c ∈ alphabet then matchClass n cs else none

/-- What is left after so many further groups, each after a hyphen. -/
def matchGroups : Nat → List Char → Option (List Char)
  | 0, cs => some cs
  | _ + 1, [] => none
  | n + 1, c :: cs => if c = '-' then (matchClass groupSize cs).bind (matchGroups n) else none

/-- `_CANONICAL.fullmatch`. -/
def canonical (cs : List Char) : Bool :=
  (matchClass groupSize cs).bind (matchGroups (characters / groupSize - 1)) == some []

def parseInvitationCode (value : String) : Except CodeError (List UInt8) :=
  let cs := value.toList
  if cs.length ≠ displayLength ∨ canonical cs = false then .error .invalid
  else
    let number := cs.foldl (fun number c => if c ≠ '-' then (number <<< 5) ||| alphabet.idxOf c else number) 0
    if number < 256 ^ codeBytes then .ok (toBytes .big codeBytes number) else .error .overflow

end Sentinel.Access.InvitationCode
