import Mathlib
import Sentinel.Lib.Numerals

/-!
# The socket tables of the kernel

`_decode_address` and `_parse_proc_net` of `server/app/auth/reservation.py`, and how the kernel prints the tables. A text is
the list of its characters. The one error of these functions, `MALFORMED_PROC_NET`, is `none`.
-/

namespace Sentinel.Reservation

/-! ## Listeners -/

/-- An address of a socket. -/
inductive Address
  | v4 (value : BitVec 32)
  | v6 (value : BitVec 128)
  deriving DecidableEq, Repr

/-- The protocols that are read. -/
inductive TransportProtocol
  | tcp
  | udp
  deriving DecidableEq, Repr

/-- What two listeners are compared by. -/
structure Endpoint where
  address : Address
  port : Nat
  protocol : TransportProtocol := .tcp
  deriving DecidableEq, Repr

/-- A listening socket. -/
structure Listener extends Endpoint where
  inode : Option Nat := none
  deriving DecidableEq, Repr

namespace ProcNet

open Numerals

/-- A text, as it is read. -/
abbrev Text := List Char

def maxProcNetLines : Nat := 1000000

/-! ## Characters -/

/-- `str.isspace` of one character, which `strip` and `split` go by. -/
def isSpace (c : Char) : Bool :=
  [0x20, 0x85, 0xa0, 0x1680, 0x2028, 0x2029, 0x202f, 0x205f, 0x3000].contains c.toNat ||
    decide (0x09 ≤ c.toNat ∧ c.toNat ≤ 0x0d) || decide (0x1c ≤ c.toNat ∧ c.toNat ≤ 0x1f) ||
    decide (0x2000 ≤ c.toNat ∧ c.toNat ≤ 0x200a)

/-- What ends a line for `splitlines`. -/
def isLineBreak (c : Char) : Bool :=
  [0x85, 0x2028, 0x2029].contains c.toNat || decide (0x0a ≤ c.toNat ∧ c.toNat ≤ 0x0d) ||
    decide (0x1c ≤ c.toNat ∧ c.toNat ≤ 0x1e)

def isUpperHex (c : Char) : Bool := decide ('0' ≤ c ∧ c ≤ '9') || decide ('A' ≤ c ∧ c ≤ 'F')

/-- The value of a character of `[0-9A-Fa-f]`. -/
def hexValue (c : Char) : Option Nat :=
  if '0' ≤ c ∧ c ≤ '9' then some (c.toNat - 48)
  else if 'A' ≤ c ∧ c ≤ 'F' then some (c.toNat - 55)
  else if 'a' ≤ c ∧ c ≤ 'f' then some (c.toNat - 87)
  else none

/-- The capital hexadecimal digit that is printed. -/
def hexChar (d : Nat) : Char :=
  ['0', '1', '2', '3', '4', '5', '6', '7', '8', '9', 'A', 'B', 'C', 'D', 'E', 'F'].getD d '0'

/-- The tables of the character database: the decimal digits, which `\d` and `int` accept in every script, and `upper`.
What they have for the digits that the kernel prints is stated. -/
structure CharacterData where
  decimal : Char → Option Nat
  upper : Char → Text
  decimal_hexChar : ∀ d < 10, decimal (hexChar d) = some d
  upper_hexChar : ∀ d < 16, upper (hexChar d) = [hexChar d]

/-- The tables restricted to one script. -/
instance : Inhabited CharacterData :=
  ⟨fun c => (hexValue c).filter (· < 10), fun c => [c.toUpper], by decide, by decide⟩

/-! ## Lines and columns -/

/-- Of a line feed after a carriage return, only the second ends the line. -/
def splitlines : Text → List Text
  | [] => []
  | c :: rest =>
    if c = '\r' ∧ rest.head? = some '\n' then splitlines rest
    else if isLineBreak c then [] :: splitlines rest
    else
      match splitlines rest with
      | [] => [[c]]
      | line :: lines => (c :: line) :: lines

def split (line : Text) : List Text := (line.splitOnP isSpace).filter (!·.isEmpty)

/-- `not line.strip()`. -/
def isBlank (line : Text) : Bool := line.all isSpace

/-! ## Parsing -/

section Parse

variable (chars : CharacterData) (order : ByteOrder) (ipv6 : Bool)

/-- `bytes.fromhex`. -/
def fromHex : List Nat → List UInt8
  | a :: b :: rest => UInt8.ofNat (16 * a + b) :: fromHex rest
  | _ => []

/-- Each word from the host's byte order to that of the network. -/
def swapWords : List UInt8 → List UInt8
  | a :: b :: c :: d :: rest => order.arrange [a, b, c, d] ++ swapWords rest
  | rest => order.arrange rest

def width : Nat := if ipv6 then 32 else 8

def addressOf (raw : List UInt8) : Address :=
  if ipv6 then .v6 (BitVec.ofNat 128 (ofBytes .big raw)) else .v4 (BitVec.ofNat 32 (ofBytes .big raw))

def hexDigits (n : Nat) (text : Text) : Option (List Nat) :=
  if text.length = n ∧ ∀ c ∈ text, (hexValue c).isSome then some (text.filterMap hexValue) else none

def decodeAddress (text : Text) : Option Address :=
  (hexDigits (width ipv6) text).map fun ds => addressOf ipv6 (swapWords order (fromHex ds))

/-- `\d+:`. -/
def isSlot (text : Text) : Bool :=
  text.getLast? == some ':' && text.dropLast != [] && text.dropLast.all fun c => (chars.decimal c).isSome

/-- `int` of a text that is `\d{1,20}`. -/
def inodeNumber (text : Text) : Option Nat :=
  if (1 ≤ text.length ∧ text.length ≤ 20) ∧ ∀ c ∈ text, (chars.decimal c).isSome then
    some (value 10 (text.filterMap chars.decimal))
  else none

def listening : TransportProtocol → Text
  | .tcp => ['0', 'A']
  | .udp => ['0', '7']

def parseRow (protocol : TransportProtocol) (line : Text) : Option (Option Listener) :=
  match split line with
  | slot :: endpoint :: _ :: st :: _ :: _ :: _ :: _ :: _ :: ino :: _ =>
    if isSlot chars slot then
      match inodeNumber chars ino with
      | none => none
      | some inode =>
        let state := st.flatMap chars.upper
        if state.length = 2 ∧ state.all isUpperHex then
          match endpoint.splitOn ':' with
          | [address, port] =>
            match hexDigits 4 port, decodeAddress order ipv6 address with
            | some ds, some decoded =>
              if state = listening protocol then some (some ⟨⟨decoded, value 16 ds, protocol⟩, some inode⟩) else some none
            | _, _ => none
          | _ => none
        else none
    else none
  | _ => none

def parseRows (protocol : TransportProtocol) : List Text → Option (List Listener)
  | [] => some []
  | line :: lines =>
    if isBlank line then parseRows protocol lines
    else
      match parseRow chars order ipv6 protocol line with
      | none => none
      | some found => (parseRows protocol lines).map (found.toList ++ ·)

def headerColumns : List Text :=
  ["sl".toList, "local_address".toList, if ipv6 then "remote_address".toList else "rem_address".toList, "st".toList]

def parseProcNet (protocol : TransportProtocol) (text : Text) : Option (List Listener) :=
  match splitlines text with
  | [] => none
  | header :: lines =>
    if lines.length + 1 > maxProcNetLines then none
    else if (split header).take 4 ≠ headerColumns ipv6 then none
    else parseRows chars order ipv6 protocol lines

end Parse

/-! ## What the kernel prints -/

/-- A line of columns, with blanks before, between and after them. -/
inductive Columns : List Text → Text → Prop
  | nil {pad : Text} (hpad : ∀ c ∈ pad, c = ' ') : Columns [] pad
  | cons {pad field rest : Text} {fields : List Text} (hpad : ∀ c ∈ pad, c = ' ')
      (hfield : field ≠ [] ∧ ∀ c ∈ field, isSpace c = false) (hsep : ∀ c ∈ rest.head?, c = ' ')
      (hrest : Columns fields rest) : Columns (field :: fields) (pad ++ (field ++ rest))

/-- `%0nX`. -/
def hexText (n v : Nat) : Text := (digits 16 n v).map hexChar

/-- `%lu`. -/
def decimalText (n : Nat) : Text := if n = 0 then ['0'] else (Nat.digits 10 n).reverse.map hexChar

/-- Each word of four bytes as a number of the host. -/
def wordsText (order : ByteOrder) : List UInt8 → Text
  | a :: b :: c :: d :: rest => hexText 8 (ofBytes order [a, b, c, d]) ++ wordsText order rest
  | _ => []

def networkBytes : Address → List UInt8
  | .v4 value => toBytes .big 4 value.toNat
  | .v6 value => toBytes .big 16 value.toNat

def isV6 : Address → Bool
  | .v4 _ => false
  | .v6 _ => true

/-- A socket of a table, with the columns of its row that are not read. -/
structure Socket (ipv6 : Bool) where
  slot : Nat
  address : Address
  port : Nat
  remote : Text
  state : Nat
  middle : Text × Text × Text × Text × Text
  inode : Nat
  extra : List Text
  family : isV6 address = ipv6
  port_range : 1 ≤ port ∧ port ≤ 65535
  state_lt : state < 256
  inode_lt : inode < 2 ^ 64

namespace Socket

variable {ipv6 : Bool} (s : Socket ipv6)

def columns (order : ByteOrder) : List Text :=
  (decimalText s.slot ++ [':']) :: (wordsText order (networkBytes s.address) ++ ':' :: hexText 4 s.port) :: s.remote ::
    hexText 2 s.state :: s.middle.1 :: s.middle.2.1 :: s.middle.2.2.1 :: s.middle.2.2.2.1 :: s.middle.2.2.2.2 ::
    decimalText s.inode :: s.extra

/-- A listening TCP socket, or an unconnected UDP socket. -/
def isListening (protocol : TransportProtocol) : Bool :=
  match protocol with
  | .tcp => s.state == 10
  | .udp => s.state == 7

def listener (protocol : TransportProtocol) : Listener := ⟨⟨s.address, s.port, protocol⟩, some s.inode⟩

end Socket

/-- The text of the table of these sockets. -/
def Table (order : ByteOrder) (ipv6 : Bool) (sockets : List (Socket ipv6)) (text : Text) : Prop :=
  ∃ more header lines, Columns (headerColumns ipv6 ++ more) header ∧
    List.Forall₂ (fun s line => Columns (Socket.columns s order) line) sockets lines ∧
    text = (header :: lines).flatMap (· ++ ['\n'])

/-! ## Rows that are understood -/

/-- The parts of a row that are read. -/
structure Row where
  slot : Text
  address : Text
  port : Text
  state : Text
  inode : Text

namespace Row

variable (chars : CharacterData) (order : ByteOrder) (ipv6 : Bool) (r : Row)

/-- The row stands in this line. -/
def In (line : Text) : Prop :=
  ∃ remote c₄ c₅ c₆ c₇ c₈ extra, split line =
    (r.slot ++ [':']) :: (r.address ++ ':' :: r.port) :: remote :: r.state :: c₄ :: c₅ :: c₆ :: c₇ :: c₈ :: r.inode :: extra

/-- The fields of a row have their form. -/
structure WellFormed : Prop where
  slot : r.slot ≠ [] ∧ ∀ c ∈ r.slot, (chars.decimal c).isSome
  address : r.address.length = width ipv6 ∧ ∀ c ∈ r.address, (hexValue c).isSome
  port : r.port.length = 4 ∧ ∀ c ∈ r.port, (hexValue c).isSome
  state : ∃ d e, isUpperHex d ∧ isUpperHex e ∧ r.state.flatMap chars.upper = [d, e]
  inode : (1 ≤ r.inode.length ∧ r.inode.length ≤ 20) ∧ ∀ c ∈ r.inode, (chars.decimal c).isSome

def isListening (protocol : TransportProtocol) : Bool := r.state.flatMap chars.upper == listening protocol

def listener (protocol : TransportProtocol) : Listener :=
  ⟨⟨addressOf ipv6 (swapWords order (fromHex (r.address.filterMap hexValue))), value 16 (r.port.filterMap hexValue),
    protocol⟩, some (value 10 (r.inode.filterMap chars.decimal))⟩

end Row

end ProcNet

end Sentinel.Reservation
