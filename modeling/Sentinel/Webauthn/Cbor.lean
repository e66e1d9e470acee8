import Sentinel.Lib.Numerals

/-!
# The strict CBOR decoder

`_cbor_item` of `server/app/auth/webauthn.py`, and the encodings that it is to decode. `none` is
`WebAuthnVerificationError`. The recursion is on the levels that are left below `_MAX_DEPTH`.
-/

namespace Sentinel.Webauthn

open Numerals

/-- A byte string. -/
abbrev Bytes := List UInt8

/-! ## Values -/

/-- The keys of a map that are accepted. -/
inductive Key
  | int (n : Int)
  | text (s : String)
  deriving DecidableEq, Repr

/-- A map is the list of its items, in the order in which they were inserted. -/
inductive Value
  | int (n : Int)
  | bytes (bs : Bytes)
  | text (s : String)
  | list (vs : List Value)
  | map (es : List (Key × Value))
  | bool (b : Bool)
  | null

def Key.value : Key → Value
  | .int n => .int n
  | .text s => .text s

/-- `isinstance(key, (int, str)) and not isinstance(key, bool)`. -/
def Value.key? : Value → Option Key
  | .int n => some (.int n)
  | .text s => some (.text s)
  | _ => none

def Value.isMap : Value → Bool
  | .map _ => true
  | _ => false

/-! ## The decoder -/

def maxDepth : Nat := 8

def maxItems : Nat := 256

/-- The initial byte of an item taken apart, its argument, and where it ends. -/
structure Head where
  major : Nat
  info : Nat
  argument : Nat
  next : Nat
  deriving DecidableEq, Repr

def readHead (data : Bytes) (offset : Nat) : Option Head :=
  if h : offset < data.length then
    let initial := (data.get ⟨offset, h⟩).toNat
    let offset := offset + 1
    let major := initial >>> 5
    let info := initial &&& 0x1F
    if info < 24 then some ⟨major, info, info, offset⟩
    else if info ∈ [24, 25, 26, 27] then
      let size := 1 <<< (info - 24)
      if offset + size > data.length then none
      else some ⟨major, info, ofBytes .big (data.extract offset (offset + size)), offset + size⟩
    else none
  else none

/-- The bytes of a string. -/
def readRaw (data : Bytes) (offset argument : Nat) : Option (Bytes × Nat) :=
  let stop := offset + argument
  if stop > data.length then none else some (data.extract offset stop, stop)

/-- `raw.decode("utf-8")`. -/
def decodeUtf8 (raw : Bytes) : Option String := String.fromUTF8? ⟨raw.toArray⟩

/-- The loop of an array. -/
def readItems (decode : Nat → Option (Value × Nat)) : Nat → Nat → Option (List Value × Nat)
  | 0, offset => some ([], offset)
  | n + 1, offset =>
    (decode offset).bind fun (item, offset) =>
      (readItems decode n offset).map fun (items, offset) => (item :: items, offset)

/-- The loop of a map, with the items it has so far. -/
def readEntries (decode : Nat → Option (Value × Nat)) :
    Nat → List (Key × Value) → Nat → Option (List (Key × Value) × Nat)
  | 0, result, offset => some (result, offset)
  | n + 1, result, offset =>
    (decode offset).bind fun (item, offset) =>
      item.key?.bind fun key =>
        if key ∈ result.map Prod.fst then none
        else (decode offset).bind fun (value, offset) => readEntries decode n (result ++ [(key, value)]) offset

def simple : Nat → Option Value
  | 20 => some (.bool false)
  | 21 => some (.bool true)
  | 22 => some .null
  | _ => none

/-- `_cbor_item`, with the levels that are left. -/
def item (data : Bytes) : Nat → Nat → Option (Value × Nat)
  | 0, _ => none
  | levels + 1, offset =>
    (readHead data offset).bind fun head =>
      match head.major with
      | 0 => some (.int head.argument, head.next)
      | 1 => some (.int (-1 - head.argument), head.next)
      | 2 => (readRaw data head.next head.argument).map fun (raw, stop) => (.bytes raw, stop)
      | 3 => (readRaw data head.next head.argument).bind fun (raw, stop) =>
          (decodeUtf8 raw).map fun text => (.text text, stop)
      | 4 =>
        if head.argument > maxItems then none
        else (readItems (item data levels) head.argument head.next).map fun (items, stop) => (.list items, stop)
      | 5 =>
        if head.argument > maxItems then none
        else (readEntries (item data levels) head.argument [] head.next).map fun (es, stop) => (.map es, stop)
      | 7 => if head.info < 24 then (simple head.argument).map fun value => (value, head.next) else none
      | _ => none

def cborItem (data : Bytes) (offset depth : Nat) : Option (Value × Nat) := item data (maxDepth + 1 - depth) offset

def cborDecodePrefix (data : Bytes) (offset : Nat) : Option (Value × Nat) := cborItem data offset 0

def cborDecode (data : Bytes) : Option Value :=
  (cborDecodePrefix data 0).bind fun (value, stop) => if stop = data.length then some value else none

/-! ## Encodings -/

/-- A definite-length head: the argument in the initial byte, or in the 1, 2, 4 or 8 bytes after it. -/
inductive IsHead (major argument : Nat) : Nat → Bytes → Prop
  | short (h : argument < 24) : IsHead major argument argument [UInt8.ofNat (major * 32 + argument)]
  | long (k : Nat) (hk : k < 4) (h : argument < 256 ^ 2 ^ k) :
      IsHead major argument (24 + k) (UInt8.ofNat (major * 32 + (24 + k)) :: toBytes .big (2 ^ k) argument)

def utf8 (s : String) : Bytes := s.toByteArray.data.toList

/-- An item of a map: the encoding of its key, then that of its value. -/
def EntryWith (E : Value → Bytes → Prop) (e : Key × Value) (enc : Bytes) : Prop :=
  ∃ k v, E e.1.value k ∧ E e.2 v ∧ enc = k ++ v

/-- An encoding of a value, where `E` says what encodes a value inside of it. -/
inductive EncodesWith (E : Value → Bytes → Prop) : Value → Bytes → Prop
  | unsigned {n info : Nat} {hd : Bytes} (h : IsHead 0 n info hd) : EncodesWith E (.int n) hd
  | negative {n info : Nat} {hd : Bytes} (h : IsHead 1 n info hd) : EncodesWith E (.int (-1 - n)) hd
  | bytes {bs : Bytes} {info : Nat} {hd : Bytes} (h : IsHead 2 bs.length info hd) : EncodesWith E (.bytes bs) (hd ++ bs)
  | text {s : String} {info : Nat} {hd : Bytes} (h : IsHead 3 (utf8 s).length info hd) :
      EncodesWith E (.text s) (hd ++ utf8 s)
  | list {vs : List Value} {encs : List Bytes} {info : Nat} {hd : Bytes} (h : IsHead 4 vs.length info hd)
      (hs : List.Forall₂ E vs encs) : EncodesWith E (.list vs) (hd ++ encs.flatten)
  | map {es : List (Key × Value)} {encs : List Bytes} {info : Nat} {hd : Bytes} (h : IsHead 5 es.length info hd)
      (hs : List.Forall₂ (EntryWith E) es encs) : EncodesWith E (.map es) (hd ++ encs.flatten)
  | bool (b : Bool) : EncodesWith E (.bool b) [if b then 0xF5 else 0xF4]
  | null : EncodesWith E .null [0xF6]

/-- The encodings with so many levels, the value itself included. -/
def EncodesIn : Nat → Value → Bytes → Prop
  | 0 => fun _ _ => False
  | n + 1 => EncodesWith (EncodesIn n)

/-- The byte string is a definite-length encoding of the value. -/
def Encodes (v : Value) (enc : Bytes) : Prop := ∃ n, EncodesIn n v enc

/-- How many values a value consists of, itself and the keys of its maps included. -/
def Value.nodes : Value → Nat
  | .list vs => 1 + (vs.map nodes).sum
  | .map es => 1 + (es.map fun e => 1 + e.2.nodes).sum
  | _ => 1
decreasing_by
  all_goals simp_wf
  · have := List.sizeOf_lt_of_mem ‹_›
    omega
  · have := List.sizeOf_lt_of_mem ‹_›
    rcases e with ⟨k, v⟩
    simp at this ⊢
    omega

/-- No value inside of it stands in more than so many others. -/
def Value.NestedIn : Nat → Value → Prop
  | 0, .list vs => vs = []
  | 0, .map es => es = []
  | n + 1, .list vs => ∀ v ∈ vs, v.NestedIn n
  | n + 1, .map es => ∀ e ∈ es, e.2.NestedIn n
  | _, _ => True

/-- No array and no map has more than `_MAX_ITEMS` entries, and no map has a key twice. -/
inductive Value.Limited : Value → Prop
  | int (n : Int) : Limited (.int n)
  | bytes (bs : Bytes) : Limited (.bytes bs)
  | text (s : String) : Limited (.text s)
  | list {vs : List Value} (hlen : vs.length ≤ maxItems) (hvs : ∀ v ∈ vs, v.Limited) : Limited (.list vs)
  | map {es : List (Key × Value)} (hlen : es.length ≤ maxItems) (hkeys : (es.map Prod.fst).Nodup)
      (hes : ∀ e ∈ es, e.2.Limited) : Limited (.map es)
  | bool (b : Bool) : Limited (.bool b)
  | null : Limited .null

end Sentinel.Webauthn
