import Mathlib

/-!
# MJPG pre-check

`inspect_frame` of `server/app/detection/roi/mjpg.py`. Reading outside the data raises an `IndexError`, which the model keeps
apart from a refusal. The sizes of the negotiated format and the trailing limit are any integers.
-/

namespace Sentinel.Detection.Mjpg

/-! ## Markers and limits -/

def soi : UInt8 := 0xD8

def eoi : UInt8 := 0xD9

def sos : UInt8 := 0xDA

def dht : UInt8 := 0xC4

def dqt : UInt8 := 0xDB

def dri : UInt8 := 0xDD

def com : UInt8 := 0xFE

def supportedSof (marker : UInt8) : Bool := marker == 0xC0 || marker == 0xC1

def otherSof (marker : UInt8) : Bool :=
  [0xC2, 0xC3, 0xC5, 0xC6, 0xC7, 0xC9, 0xCA, 0xCB, 0xCD, 0xCE, 0xCF].contains marker

def application (marker : UInt8) : Bool := decide (0xE0 ≤ marker) && decide (marker < 0xF0)

def restart (byte : UInt8) : Bool := decide (0xD0 ≤ byte) && decide (byte < 0xD8)

def maximumDecodePixels : Nat := 3840 * 2160

def maximumFrameBytes : Nat := 32 * 1024 * 1024

def maximumBytesPerPixel : Nat := 2

def headerAllowanceBytes : Nat := 256 * 1024

def maximumSegments : Nat := 64

def maximumFill : Nat := 16

def scanChunkBytes : Nat := 1024 * 1024

/-- The reasons of the refusals of the pre-check. -/
inductive Reason
  | frameTooLarge
  | missingSoi
  | markerInvalid
  | segmentInvalid
  | unsupportedProcess
  | sofInvalid
  | sofDimensionMismatch
  | sofMissing
  | scanInvalid
  | missingEoi
  | trailingBytesExceeded
  | trailingMarker
  deriving DecidableEq, Repr

/-- What is raised: `MjpgFrameRejected` with its reason, or the `IndexError` of a read outside the data. -/
inductive Failure
  | rejected (reason : Reason)
  | indexError
  deriving DecidableEq, Repr

/-- What the header of an accepted frame declares. -/
structure JpegStructure where
  width : Int
  height : Int
  components : Nat
  mcuWidth : Nat
  mcuHeight : Nat
  huffmanTables : Bool
  stop : Nat
  trailing : Nat
  deriving DecidableEq, Repr

/-- What the frame header says: the components and the size of an MCU. -/
structure Frame where
  components : Nat
  mcuWidth : Nat
  mcuHeight : Nat
  deriving DecidableEq, Repr

def reject {α : Type} (reason : Reason) : Except Failure α := .error (.rejected reason)

/-! ## Reading -/

/-- `data[offset]`. -/
def byteAt (data : List UInt8) (offset : Nat) : Except Failure UInt8 :=
  match data[offset]? with
  | some byte => .ok byte
  | none => .error .indexError

/-- `_u16`. -/
def u16 (data : List UInt8) (offset : Nat) : Except Failure Nat := do
  let high ← byteAt data offset
  let low ← byteAt data (offset + 1)
  return high.toNat * 256 + low.toNat

/-- `bytes.find` of a pair in what is left of the data from an index on. -/
def findPair (first second : UInt8) (index : Nat) : List UInt8 → Option Nat
  | a :: b :: rest => if a = first ∧ b = second then some index else findPair first second (index + 1) (b :: rest)
  | _ => none

/-- `frame_byte_budget`. -/
def frameByteBudget (width height maximumTrailing : Int) : Int :=
  min maximumFrameBytes (maximumBytesPerPixel * width * height + headerAllowanceBytes + maximumTrailing)

/-! ## The scan -/

/-- A byte that may follow `0xFF` inside the scan, other than another `0xFF`. -/
def mayFollow (byte : UInt8) : Bool := byte == 0x00 || restart byte

/-- `_ENTROPY_CLASSES`. -/
def entropyClass (byte : UInt8) : UInt8 := if byte == 0xFF then 0xFF else if mayFollow byte then 0x00 else 0x01

/-- The loop over the chunks of the scan: no forbidden pair begins from an index up to the limit. -/
def scanChunks (chunk : Nat) (hchunk : 0 < chunk) (data : List UInt8) (limit start : Nat) : Except Failure Unit :=
  if _hstart : start < limit then
    let stop := min (start + chunk) limit
    -- one byte past the chunk, so a pair across the boundary is checked
    if (findPair 0xFF 0x01 0 (((data.take (stop + 1)).drop start).map entropyClass)).isSome then reject .scanInvalid
    else scanChunks chunk hchunk data limit stop
  else .ok ()
termination_by limit - start

/-- `_entropy_end`. -/
def entropyEnd (chunk : Nat) (hchunk : 0 < chunk) (data : List UInt8) (position : Nat) : Except Failure Nat := do
  let found := findPair 0xFF eoi position (data.drop position)
  scanChunks chunk hchunk data (found.getD data.length) position
  match found with
  | none => reject .missingEoi
  | some index => return index + 2

/-! ## Headers -/

/-- The components of a frame header: their sampling factors. -/
def frameComponents (data : List UInt8) : Nat → Nat → List UInt8 → Except Failure (List (Nat × Nat))
  | 0, _, _ => .ok []
  | count + 1, offset, identifiers => do
    let identifier ← byteAt data offset
    let sampling ← byteAt data (offset + 1)
    let table ← byteAt data (offset + 2)
    let horizontal := sampling.toNat / 16
    let vertical := sampling.toNat % 16
    if identifiers.contains identifier || !(decide (1 ≤ horizontal) && decide (horizontal ≤ 4)) ||
        !(decide (1 ≤ vertical) && decide (vertical ≤ 4)) || decide (3 < table.toNat) then
      reject .sofInvalid
    else
      let rest ← frameComponents data count (offset + 3) (identifier :: identifiers)
      return (horizontal, vertical) :: rest

/-- The size of an MCU: one block for a single component, else the largest factors. -/
def mcuOf (factors : List (Nat × Nat)) : Frame :=
  if factors.length = 1 then ⟨factors.length, 8, 8⟩
  else ⟨factors.length, 8 * (factors.map Prod.fst).foldr max 0, 8 * (factors.map Prod.snd).foldr max 0⟩

/-- `_frame_header`. -/
def frameHeader (data : List UInt8) (body length : Nat) (width height : Int) : Except Failure Frame :=
  if length < 8 then reject .sofInvalid
  else do
    let precision ← byteAt data body
    let rows ← u16 data (body + 1)
    let columns ← u16 data (body + 3)
    let count ← byteAt data (body + 5)
    if precision.toNat ≠ 8 ∨ ¬(count.toNat = 1 ∨ count.toNat = 3) ∨ length ≠ 8 + 3 * count.toNat then reject .sofInvalid
    else if rows = 0 ∨ columns = 0 then reject .sofInvalid
    else if ¬((columns : Int) = width ∧ (rows : Int) = height) ∨ maximumDecodePixels < columns * rows then
      reject .sofDimensionMismatch
    else do
      let factors ← frameComponents data count.toNat (body + 6) []
      if 10 < (factors.map fun f => f.1 * f.2).sum then reject .sofInvalid
      else return mcuOf factors

/-- `_scan_header`. -/
def scanHeader (data : List UInt8) (body length components : Nat) : Except Failure Unit :=
  if length < 6 then reject .scanInvalid
  else do
    let count ← byteAt data body
    if count.toNat ≠ components ∨ length ≠ 6 + 2 * count.toNat then reject .scanInvalid
    else do
      let tail := body + 1 + 2 * count.toNat
      let start ← byteAt data tail
      let stop ← byteAt data (tail + 1)
      let approximation ← byteAt data (tail + 2)
      if ¬(start.toNat = 0 ∧ stop.toNat = 63 ∧ approximation.toNat = 0) then reject .scanInvalid
      else return ()

/-! ## Segments -/

/-- The fill bytes before a marker: the index of the last `0xFF`. -/
def skipFill (data : List UInt8) : Nat → Nat → Except Failure Nat
  | left, position => do
    let next ← byteAt data (position + 1)
    if next = 0xFF then
      match left with
      | 0 => reject .markerInvalid
      | left + 1 => if data.length ≤ position + 1 + 1 then reject .markerInvalid else skipFill data left (position + 1)
    else return position

/-- A segment's marker, the index of its body, its length and the index after it. -/
structure Located where
  marker : UInt8
  body : Nat
  length : Nat
  stop : Nat
  deriving DecidableEq, Repr

/-- The start of the loop of `inspect_frame`: the marker and the length of the next segment. -/
def nextSegment (data : List UInt8) (position : Nat) : Except Failure Located :=
  if data.length ≤ position + 1 then reject .markerInvalid
  else do
    let first ← byteAt data position
    if first ≠ 0xFF then reject .markerInvalid
    else do
      let position ← skipFill data maximumFill position
      let marker ← byteAt data (position + 1)
      if marker = 0x00 ∨ marker = 0x01 ∨ marker = soi ∨ marker = eoi ∨ restart marker then reject .markerInvalid
      else if data.length < position + 4 then reject .segmentInvalid
      else do
        let length ← u16 data (position + 2)
        if length < 2 ∨ data.length < position + 2 + length then reject .segmentInvalid
        else return ⟨marker, position + 4, length, position + 2 + length⟩

/-- The end of `inspect_frame`, at a scan. -/
def inspectScan (data : List UInt8) (width height maximumTrailing : Int) (frame : Frame) (huffman : Bool) (segment : Located) :
    Except Failure JpegStructure := do
  scanHeader data segment.body segment.length frame.components
  let scanEnd ← entropyEnd scanChunkBytes (by decide) data segment.stop
  let trailing := data.length - scanEnd
  if maximumTrailing < trailing then reject .trailingBytesExceeded
  else
    let tail := data.drop scanEnd
    if (findPair 0xFF soi 0 tail).isSome || (findPair 0xFF eoi 0 tail).isSome then reject .trailingMarker
    else
      return { width := width, height := height, components := frame.components, mcuWidth := frame.mcuWidth
               mcuHeight := frame.mcuHeight, huffmanTables := huffman, stop := scanEnd, trailing := trailing }

/-- The loop of `inspect_frame`, with the number of segments that may still come. -/
def inspectLoop (data : List UInt8) (width height maximumTrailing : Int) :
    Nat → Nat → Option Frame → Bool → Except Failure JpegStructure
  | 0, _, _, _ => reject .segmentInvalid
  | segments + 1, position, frame, huffman => do
    let segment ← nextSegment data position
    if supportedSof segment.marker then
      if frame.isSome then reject .sofInvalid
      else do
        let frame ← frameHeader data segment.body segment.length width height
        inspectLoop data width height maximumTrailing segments segment.stop (some frame) huffman
    else if otherSof segment.marker || segment.marker == 0xCC then reject .unsupportedProcess
    else if segment.marker == dht then inspectLoop data width height maximumTrailing segments segment.stop frame true
    else if segment.marker == sos then
      match frame with
      | none => reject .sofMissing
      | some frame => inspectScan data width height maximumTrailing frame huffman segment
    else if [dqt, dri, com].contains segment.marker || application segment.marker then
      inspectLoop data width height maximumTrailing segments segment.stop frame huffman
    else reject .markerInvalid

def inspectFrame (data : List UInt8) (width height maximumTrailing : Int) : Except Failure JpegStructure :=
  if frameByteBudget width height maximumTrailing < data.length then reject .frameTooLarge
  else if data.length < 4 then reject .missingSoi
  else do
    let first ← byteAt data 0
    if first ≠ 0xFF then reject .missingSoi
    else do
      let second ← byteAt data 1
      if second ≠ soi then reject .missingSoi
      else inspectLoop data width height maximumTrailing maximumSegments 2 none false

/-! ## The grammar -/

/-- A marker segment. -/
structure Segment where
  fill : Nat
  marker : UInt8
  body : List UInt8

namespace Segment

/-- A two-byte number, the high byte first. -/
def pair (n : Nat) : List UInt8 := [UInt8.ofNat (n / 256), UInt8.ofNat (n % 256)]

def bytes (s : Segment) : List UInt8 :=
  List.replicate (s.fill + 1) 0xFF ++ s.marker :: (pair (s.body.length + 2) ++ s.body)

/-- At most sixteen fill bytes, and a length that two bytes can state. -/
structure WellFormed (s : Segment) : Prop where
  fill_le : s.fill ≤ 16
  length_lt : s.body.length + 2 < 65536

/-- The kinds of segment before the scan. -/
def allowed (s : Segment) : Bool :=
  supportedSof s.marker || s.marker == dht || [dqt, dri, com].contains s.marker || application s.marker

end Segment

/-- A component of a frame header. -/
structure Component where
  identifier : UInt8
  sampling : UInt8
  table : UInt8

namespace Component

def bytes (c : Component) : List UInt8 := [c.identifier, c.sampling, c.table]

/-- Its sampling factors. -/
def factors (c : Component) : Nat × Nat := (c.sampling.toNat / 16, c.sampling.toNat % 16)

/-- The bounds of a component of the frame header. -/
structure Valid (c : Component) : Prop where
  horizontal : 1 ≤ c.factors.1 ∧ c.factors.1 ≤ 4
  vertical : 1 ≤ c.factors.2 ∧ c.factors.2 ≤ 4
  table : c.table.toNat ≤ 3

end Component

/-- The body of a frame header with the negotiated size: eight bits, one or three components with different identifiers, and at
most ten blocks in an MCU. -/
structure FrameBody (body : List UInt8) (width height : Int) (components : List Component) : Prop where
  body_eq : ∃ rows columns : Nat, rows < 65536 ∧ columns < 65536 ∧ 0 < rows ∧ 0 < columns ∧ (columns : Int) = width ∧
    (rows : Int) = height ∧ columns * rows ≤ maximumDecodePixels ∧
    body = 8 :: (Segment.pair rows ++ (Segment.pair columns ++ UInt8.ofNat components.length :: components.flatMap Component.bytes))
  count : components.length = 1 ∨ components.length = 3
  distinct : (components.map Component.identifier).Nodup
  valid : ∀ c ∈ components, c.Valid
  blocks : (components.map fun c => c.factors.1 * c.factors.2).sum ≤ 10

/-- The body of a scan header over all components of the full spectrum. -/
def ScanBody (body : List UInt8) (components : Nat) : Prop :=
  ∃ (count : UInt8) (selectors : List UInt8), count.toNat = components ∧ selectors.length = 2 * components ∧
    body = count :: (selectors ++ [0, 63, 0])

/-- Entropy-coded data before the end marker: a `0xFF` is followed by `00`, a restart marker or another `0xFF`. -/
def EntropyData (entropy : List UInt8) : Prop :=
  (entropy ++ [0xFF]).IsChain fun a b => a = 0xFF → mayFollow b = true ∨ b = 0xFF

/-- The single-scan grammar. -/
structure Grammar (data : List UInt8) (width height maximumTrailing : Int) (segments : List Segment) (sof scan : Segment)
    (components : List Component) (entropy tail : List UInt8) : Prop where
  data_eq : data = 0xFF :: soi :: (segments.flatMap Segment.bytes ++ (scan.bytes ++ (entropy ++ 0xFF :: eoi :: tail)))
  count : segments.length + 1 ≤ maximumSegments
  wellFormed : ∀ s ∈ segments, s.WellFormed
  allowed : ∀ s ∈ segments, s.allowed = true
  sof_eq : segments.filter (fun s => supportedSof s.marker) = [sof]
  frame : FrameBody sof.body width height components
  scan_wellFormed : scan.WellFormed
  scan_marker : scan.marker = sos
  scan : ScanBody scan.body components.length
  entropy : EntropyData entropy
  trailing : (tail.length : Int) ≤ maximumTrailing
  no_soi : ¬[0xFF, soi] <:+: tail
  no_eoi : ¬[0xFF, eoi] <:+: tail

end Sentinel.Detection.Mjpg
