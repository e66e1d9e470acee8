import Sentinel.Detection.Proofs.MjpgSegmentProofs

/-!
# The pre-check accepts the single-scan grammar

The loop over the segments follows the grammar piece by piece, and raises nothing but a refusal.
-/

namespace Sentinel.Detection.Mjpg

variable {data rest : List UInt8} {position : Nat}

/-! ## The whole frame -/

/-- What comes after the scan header, up to the end of the data. -/
structure Trails (left : List UInt8) (maximumTrailing : Int) (entropy tail : List UInt8) : Prop where
  left_eq : left = entropy ++ 0xFF :: eoi :: tail
  entropy : EntropyData entropy
  trailing : (tail.length : Int) ≤ maximumTrailing
  no_soi : ¬[0xFF, soi] <:+: tail
  no_eoi : ¬[0xFF, eoi] <:+: tail

variable {entropy tail : List UInt8} {segments : List Segment}

theorem drop_tail (h : data.drop position = entropy ++ 0xFF :: eoi :: tail) :
    data.drop (position + entropy.length + 2) = tail := by
  have hhead : data.drop position = (entropy ++ [0xFF, eoi]) ++ tail := by
    rw [h]
    simp
  have hafter := drop_of_drop hhead
  rwa [List.length_append, ← Nat.add_assoc] at hafter

variable {width height maximumTrailing : Int} {frame : Frame} {huffman : Bool} {s : Segment}

theorem inspectScan_complete (hdrop : data.drop position = s.bytes ++ rest) (hscan : ScanBody s.body frame.components)
    (htrails : Trails rest maximumTrailing entropy tail) :
    ∃ result, inspectScan data width height maximumTrailing frame huffman (s.located position) = .ok result := by
  have hrest : data.drop (position + s.bytes.length) = entropy ++ 0xFF :: eoi :: tail := by
    rw [drop_of_drop hdrop, htrails.left_eq]
  have hends := scanEnds_iff.2 ⟨entropy, tail, hrest, htrails.entropy, rfl⟩
  have htail := drop_tail hrest
  have hlength : data.length - (position + s.bytes.length + entropy.length + 2) = tail.length := by
    rw [← List.length_drop, htail]
  rcases entropyEnd_spec scanChunkBytes (by decide) data (s.located position).stop with ⟨index, hok, hindex⟩ | ⟨-, hnone⟩
  · obtain rfl := hindex.unique hends
    have hsoi : ¬(findPair 0xFF soi 0 tail).isSome = true := fun h => htrails.no_soi (pair_infix_iff.2 ((findPair_isSome_iff 0).1 h))
    have heoi : ¬(findPair 0xFF eoi 0 tail).isSome = true := fun h => htrails.no_eoi (pair_infix_iff.2 ((findPair_isSome_iff 0).1 h))
    unfold inspectScan
    rw [Segment.located_length, scanHeader_complete hscan (Segment.drop_body hdrop), ok_bind,
      hok, ok_bind]
    dsimp only
    rw [htail, hlength, if_neg (not_lt.2 htrails.trailing), if_neg]
    · exact ⟨_, rfl⟩
    · rw [Bool.or_eq_true]
      exact fun h => h.elim hsoi heoi
  · exact absurd hends (hnone _)

theorem inspectScan_spec (hdrop : data.drop position = s.bytes ++ data.drop (position + s.bytes.length)) :
    (∃ result entropy tail, inspectScan data width height maximumTrailing frame huffman (s.located position) = .ok result ∧
      ScanBody s.body frame.components ∧ Trails (data.drop (position + s.bytes.length)) maximumTrailing entropy tail) ∨
    ∃ reason, inspectScan data width height maximumTrailing frame huffman (s.located position) = reject reason := by
  unfold inspectScan
  rcases scanHeader_spec frame.components (Segment.drop_body hdrop) with ⟨hscan, hok⟩ | ⟨reason, hreject⟩
  swap
  · refine .inr ⟨reason, ?_⟩
    rw [Segment.located_length, hreject]
    rfl
  rw [Segment.located_length, hok, ok_bind]
  rcases entropyEnd_spec scanChunkBytes (by decide) data (s.located position).stop with ⟨index, hok, hindex⟩ | ⟨⟨reason, hreject⟩, -⟩
  swap
  · refine .inr ⟨reason, ?_⟩
    rw [hreject]
    rfl
  obtain ⟨entropy, tail, hrest, hentropy, rfl⟩ := scanEnds_iff.1 hindex
  have htail := drop_tail hrest
  have hlength : data.length - ((s.located position).stop + entropy.length + 2) = tail.length := by
    rw [← List.length_drop, htail]
  rw [hok, ok_bind]
  dsimp only
  rw [htail, hlength]
  split_ifs with htrailing hmarkers
  · exact .inr ⟨_, rfl⟩
  · exact .inr ⟨_, rfl⟩
  rw [Bool.or_eq_true, not_or, findPair_isSome_iff, findPair_isSome_iff, ← pair_infix_iff, ← pair_infix_iff] at hmarkers
  exact .inl ⟨_, entropy, tail, rfl, hscan, hrest, hentropy, not_lt.1 htrailing, hmarkers.1, hmarkers.2⟩

/-- The frame that the scan is read with: the one already seen, or that of the only frame header. -/
def FrameOf (width height : Int) : Option Frame → List Segment → Frame → Prop
  | some frame, segments, final => segments.filter (fun s => supportedSof s.marker) = [] ∧ final = frame
  | none, segments, final => ∃ sof components, segments.filter (fun s => supportedSof s.marker) = [sof] ∧
      FrameBody sof.body width height components ∧ final = mcuOf (components.map Component.factors)

/-- What is left of the data at a segment, with the number of segments that may still come. -/
structure Remains (left : List UInt8) (width height maximumTrailing : Int) (count : Nat) (frame : Option Frame)
    (segments : List Segment) (scan : Segment) (final : Frame) (entropy tail : List UInt8) : Prop where
  left_eq : left = segments.flatMap Segment.bytes ++ (scan.bytes ++ (entropy ++ 0xFF :: eoi :: tail))
  count : segments.length + 1 ≤ count
  wellFormed : ∀ s ∈ segments, s.WellFormed
  allowed : ∀ s ∈ segments, s.allowed = true
  frame : FrameOf width height frame segments final
  scan_wellFormed : scan.WellFormed
  scan_marker : scan.marker = sos
  scan : ScanBody scan.body final.components
  trails : Trails (entropy ++ 0xFF :: eoi :: tail) maximumTrailing entropy tail

/-- What the loop does at a segment before the scan: which frame it goes on with. -/
def AfterSegment (width height : Int) (frame : Option Frame) (s : Segment) (frame' : Option Frame) : Prop :=
  if supportedSof s.marker then frame = none ∧ ∃ components, FrameBody s.body width height components ∧
    frame' = some (mcuOf (components.map Component.factors))
  else frame' = frame

theorem FrameOf.cons_iff {frame : Option Frame} {final : Frame} : FrameOf width height frame (s :: segments) final ↔
      ∃ frame', AfterSegment width height frame s frame' ∧ FrameOf width height frame' segments final := by
  unfold AfterSegment
  by_cases hsof : supportedSof s.marker = true
  · simp only [hsof, if_true]
    constructor
    · intro h
      cases frame with
      | some frame => simp [FrameOf, hsof] at h
      | none =>
        obtain ⟨sof, components, hfilter, hbody, hfinal⟩ := h
        rw [List.filter_cons_of_pos (by simpa using hsof), List.cons_eq_cons] at hfilter
        exact ⟨_, ⟨rfl, components, hfilter.1 ▸ hbody, rfl⟩, hfilter.2, hfinal⟩
    · rintro ⟨_, ⟨rfl, components, hbody, rfl⟩, hfilter, hfinal⟩
      refine ⟨s, components, ?_, hbody, hfinal⟩
      rw [List.filter_cons_of_pos (by simpa using hsof), hfilter]
  · simp only [hsof, Bool.false_eq_true, if_false, exists_eq_left]
    have hfilter : (s :: segments).filter (fun s => supportedSof s.marker) = segments.filter fun s => supportedSof s.marker :=
      List.filter_cons_of_neg (by simpa using hsof)
    cases frame <;> simp only [FrameOf, hfilter]

theorem marks_of_allowed (h : s.allowed = true ∨ s.marker = sos) : Marks s.marker := by
  simp only [Segment.allowed, supportedSof, application, dht, dqt, dri, com, sos, Bool.or_eq_true, Bool.and_eq_true, beq_iff_eq,
    decide_eq_true_eq, List.contains_iff_mem, List.mem_cons, List.not_mem_nil, or_false, UInt8.le_iff_toNat_le,
    UInt8.lt_iff_toNat_lt, ← UInt8.toNat_inj] at h
  simp only [Marks, restart, soi, eoi, ne_eq, Bool.and_eq_true, decide_eq_true_eq, UInt8.le_iff_toNat_le, UInt8.lt_iff_toNat_lt,
    ← UInt8.toNat_inj]
  simp only [UInt8.reduceToNat] at h ⊢
  omega

/-- The tables and application segments before the scan have markers of their own. -/
theorem not_other_of_allowed (h : s.allowed = true) (hsof : ¬supportedSof s.marker = true) :
    ¬(otherSof s.marker || s.marker == 0xCC) = true ∧ ¬(s.marker == sos) = true ∧
      ((s.marker == dht) = true ∨ ([dqt, dri, com].contains s.marker || application s.marker) = true) := by
  simp only [Segment.allowed, supportedSof, otherSof, application, dht, dqt, dri, com, sos, Bool.or_eq_true, Bool.and_eq_true,
    beq_iff_eq, decide_eq_true_eq, List.contains_iff_mem, List.mem_cons, List.not_mem_nil, or_false, UInt8.le_iff_toNat_le,
    UInt8.lt_iff_toNat_lt, ← UInt8.toNat_inj, UInt8.reduceToNat] at h hsof ⊢
  omega

variable {count : Nat} {frame' frame? : Option Frame} {segments : List Segment} {scan : Segment} {final : Frame}
  {entropy tail : List UInt8}

theorem Remains.cons (hdrop : data.drop position = s.bytes ++ data.drop (position + s.bytes.length)) (hs : s.WellFormed)
    (hallowed : s.allowed = true) (hafter : AfterSegment width height frame? s frame')
    (h : Remains (data.drop (position + s.bytes.length)) width height maximumTrailing count frame' segments scan final entropy
      tail) :
    Remains (data.drop position) width height maximumTrailing (count + 1) frame? (s :: segments) scan final entropy tail :=
  { h with
    left_eq := by rw [hdrop, h.left_eq, List.flatMap_cons, List.append_assoc]
    count := Nat.succ_le_succ h.count
    wellFormed := List.forall_mem_cons.2 ⟨hs, h.wellFormed⟩
    allowed := List.forall_mem_cons.2 ⟨hallowed, h.allowed⟩
    frame := FrameOf.cons_iff.2 ⟨frame', hafter, h.frame⟩ }

/-- The outcome is a refusal, or what is left of the data is of the grammar. -/
def Reads (left : List UInt8) (width height maximumTrailing : Int) (count : Nat) (frame? : Option Frame)
    (outcome : Except Failure JpegStructure) : Prop :=
  (∃ result segments scan final entropy tail, outcome = .ok result ∧
    Remains left width height maximumTrailing count frame? segments scan final entropy tail) ∨
  ∃ reason, outcome = reject reason

theorem Reads.cons {outcome : Except Failure JpegStructure}
    (hdrop : data.drop position = s.bytes ++ data.drop (position + s.bytes.length)) (hs : s.WellFormed)
    (hallowed : s.allowed = true) (hafter : AfterSegment width height frame? s frame')
    (h : Reads (data.drop (position + s.bytes.length)) width height maximumTrailing count frame' outcome) :
    Reads (data.drop position) width height maximumTrailing (count + 1) frame? outcome := by
  rcases h with ⟨result, segments, scan, final, entropy, tail, hok, h⟩ | hreject
  · exact .inl ⟨result, s :: segments, scan, final, entropy, tail, hok, h.cons hdrop hs hallowed hafter⟩
  · exact .inr hreject

theorem inspectLoop_succ (hnext : nextSegment data position = .ok (s.located position)) (count : Nat) (frame? : Option Frame)
    (huffman : Bool) : inspectLoop data width height maximumTrailing (count + 1) position frame? huffman =
      if supportedSof s.marker then
        if frame?.isSome then reject .sofInvalid
        else do
          let frame ← frameHeader data (s.located position).body (s.body.length + 2) width height
          inspectLoop data width height maximumTrailing count (s.located position).stop (some frame) huffman
      else if otherSof s.marker || s.marker == 0xCC then reject .unsupportedProcess
      else if s.marker == dht then inspectLoop data width height maximumTrailing count (s.located position).stop frame? true
      else if s.marker == sos then
        match frame? with
        | none => reject .sofMissing
        | some frame => inspectScan data width height maximumTrailing frame huffman (s.located position)
      else if [dqt, dri, com].contains s.marker || application s.marker then
        inspectLoop data width height maximumTrailing count (s.located position).stop frame? huffman
      else reject .markerInvalid := by
  rw [inspectLoop, hnext, ok_bind]
  rfl

theorem inspectLoop_spec (count : Nat) : ∀ (position : Nat) (frame? : Option Frame) (huffman : Bool),
    Reads (data.drop position) width height maximumTrailing count frame?
      (inspectLoop data width height maximumTrailing count position frame? huffman) := by
  induction count with
  | zero => exact fun position frame? huffman => .inr ⟨.segmentInvalid, rfl⟩
  | succ count ih =>
    intro position frame? huffman
    rcases nextSegment_spec data position with ⟨s, hs, -, hdrop, hnext⟩ | ⟨reason, hreject⟩
    swap
    · refine .inr ⟨reason, ?_⟩
      rw [inspectLoop, hreject]
      rfl
    rw [inspectLoop_succ hnext]
    by_cases hsof : supportedSof s.marker = true
    · rw [if_pos hsof]
      have hallowed : s.allowed = true := by simp [Segment.allowed, hsof]
      cases frame? with
      | some frame => exact .inr ⟨.sofInvalid, rfl⟩
      | none =>
        rw [if_neg (by simp)]
        rcases frameHeader_spec width height (Segment.drop_body hdrop) with ⟨components, hbody, hok⟩ | ⟨reason, hreject⟩
        · rw [hok, ok_bind]
          refine (ih _ _ huffman).cons hdrop hs hallowed ?_
          rw [AfterSegment, if_pos hsof]
          exact ⟨rfl, components, hbody, rfl⟩
        · refine .inr ⟨reason, ?_⟩
          rw [hreject]
          rfl
    rw [if_neg hsof]
    -- a segment of tables or of an application leaves the frame as it is
    have hsame : AfterSegment width height frame? s frame? := by rw [AfterSegment, if_neg hsof]
    have hgo (hallowed : s.allowed = true) (huffman : Bool) :=
      (ih (s.located position).stop frame? huffman).cons hdrop hs hallowed hsame
    split_ifs with hother hdht hsos hknown
    · exact .inr ⟨_, rfl⟩
    · refine hgo ?_ true
      simp [Segment.allowed, hdht]
    · cases frame? with
      | none => exact .inr ⟨.sofMissing, rfl⟩
      | some frame =>
        rcases inspectScan_spec hdrop with ⟨result, entropy, tail, hok, hscan, htrails⟩ | hreject
        · refine .inl ⟨result, [], s, frame, entropy, tail, hok, ?_⟩
          have hleft := htrails.left_eq
          rw [hleft] at htrails hdrop
          exact ⟨hdrop, Nat.le_add_left 1 count, nofun, nofun, ⟨rfl, rfl⟩, hs, beq_iff_eq.1 hsos, hscan, htrails⟩
        · exact .inr hreject
    · refine hgo ?_ huffman
      rw [Segment.allowed, Bool.or_assoc, hknown, Bool.or_true]
    · exact .inr ⟨_, rfl⟩

theorem inspectLoop_complete (segments : List Segment) : ∀ (count position : Nat) (frame? : Option Frame) (huffman : Bool),
    Remains (data.drop position) width height maximumTrailing count frame? segments scan final entropy tail →
    ∃ result, inspectLoop data width height maximumTrailing count position frame? huffman = .ok result := by
  induction segments with
  | nil =>
    intro count position frame? huffman h
    obtain ⟨count, rfl⟩ := Nat.exists_eq_add_of_le' h.count
    have hdrop : data.drop position = scan.bytes ++ (entropy ++ 0xFF :: eoi :: tail) := h.left_eq
    rw [List.length_nil, Nat.zero_add,
      inspectLoop_succ (nextSegment_complete h.scan_wellFormed (marks_of_allowed (.inr h.scan_marker)) hdrop), h.scan_marker,
      if_neg (by decide), if_neg (by decide), if_neg (by decide), if_pos (by decide)]
    cases frame? with
    | none =>
      obtain ⟨sof, components, hfilter, -⟩ := h.frame
      cases hfilter
    | some frame =>
      obtain ⟨-, rfl⟩ := h.frame
      exact inspectScan_complete hdrop h.scan h.trails
  | cons s segments ih =>
    intro count position frame? huffman h
    obtain ⟨count, rfl⟩ := Nat.exists_eq_add_of_le' ((Nat.le_add_left 1 _).trans h.count)
    obtain ⟨hs, hwellFormed⟩ := List.forall_mem_cons.1 h.wellFormed
    obtain ⟨hallowed, hallowedRest⟩ := List.forall_mem_cons.1 h.allowed
    obtain ⟨frame', hafter, hframe⟩ := FrameOf.cons_iff.1 h.frame
    have hdrop : data.drop position =
        s.bytes ++ (segments.flatMap Segment.bytes ++ (scan.bytes ++ (entropy ++ 0xFF :: eoi :: tail))) := by
      rw [h.left_eq, List.flatMap_cons, List.append_assoc]
    have hrest : Remains (data.drop (s.located position).stop) width height maximumTrailing count frame' segments scan final entropy
        tail :=
      ⟨drop_of_drop hdrop, Nat.le_of_succ_le_succ h.count, hwellFormed, hallowedRest, hframe, h.scan_wellFormed, h.scan_marker,
        h.scan, h.trails⟩
    rw [inspectLoop_succ (nextSegment_complete hs (marks_of_allowed (.inl hallowed)) hdrop)]
    unfold AfterSegment at hafter
    by_cases hsof : supportedSof s.marker = true
    · rw [if_pos hsof] at hafter ⊢
      obtain ⟨rfl, components, hbody, rfl⟩ := hafter
      rw [if_neg (by simp), frameHeader_complete hbody (Segment.drop_body hdrop), ok_bind]
      exact ih count _ _ huffman hrest
    · rw [if_neg hsof] at hafter ⊢
      subst hafter
      obtain ⟨hother, hsos, hkind⟩ := not_other_of_allowed hallowed hsof
      rw [if_neg hother]
      by_cases hdht : (s.marker == dht) = true
      · rw [if_pos hdht]
        exact ih count _ _ true hrest
      · rw [if_neg hdht, if_neg hsos, if_pos (hkind.resolve_left hdht)]
        exact ih count _ _ huffman hrest

theorem components_mcuOf (components : List Component) :
    (mcuOf (components.map Component.factors)).components = components.length := by
  unfold mcuOf
  split_ifs <;> simp

/-- The grammar is what is left after the first marker, read from the start. -/
theorem grammar_iff : (∃ segments sof scan components entropy tail,
      Grammar data width height maximumTrailing segments sof scan components entropy tail) ↔
    ∃ left, data = 0xFF :: soi :: left ∧ ∃ segments scan final entropy tail,
      Remains left width height maximumTrailing maximumSegments none segments scan final entropy tail := by
  constructor
  · rintro ⟨segments, sof, scan, components, entropy, tail, h⟩
    refine ⟨_, h.data_eq, segments, scan, _, entropy, tail, rfl, h.count, h.wellFormed, h.allowed,
      ⟨sof, components, h.sof_eq, h.frame, rfl⟩, h.scan_wellFormed, h.scan_marker, ?_, rfl, h.entropy, h.trailing, h.no_soi, h.no_eoi⟩
    rw [components_mcuOf]
    exact h.scan
  · rintro ⟨left, rfl, segments, scan, final, entropy, tail, h⟩
    obtain ⟨sof, components, hsof, hframe, rfl⟩ := h.frame
    refine ⟨segments, sof, scan, components, entropy, tail, by rw [h.left_eq], h.count, h.wellFormed, h.allowed, hsof, hframe,
      h.scan_wellFormed, h.scan_marker, components_mcuOf components ▸ h.scan, h.trails.entropy, h.trails.trailing,
      h.trails.no_soi, h.trails.no_eoi⟩

/-- The pre-check refuses, or the data is of the grammar and within the budget. -/
theorem inspectFrame_spec (data : List UInt8) (width height maximumTrailing : Int) :
    (∃ result, inspectFrame data width height maximumTrailing = .ok result) ∧
      (data.length : Int) ≤ frameByteBudget width height maximumTrailing ∧
      (∃ segments sof scan components entropy tail,
        Grammar data width height maximumTrailing segments sof scan components entropy tail) ∨
    ∃ reason, inspectFrame data width height maximumTrailing = reject reason := by
  unfold inspectFrame
  by_cases hlarge : frameByteBudget width height maximumTrailing < data.length
  · exact .inr ⟨_, if_pos hlarge⟩
  rw [if_neg hlarge]
  by_cases hshort : data.length < 4
  · exact .inr ⟨_, if_pos hshort⟩
  rw [if_neg hshort]
  obtain ⟨first, hfirst, hdropFirst⟩ := @exists_drop data 0 (by omega)
  obtain ⟨second, hsecond, hdropSecond⟩ := @exists_drop data 1 (by omega)
  rw [byteAt_ok hfirst, ok_bind]
  by_cases hff : first = 0xFF
  swap
  · exact .inr ⟨_, if_pos hff⟩
  rw [if_neg (not_not.2 hff), byteAt_ok hsecond, ok_bind]
  by_cases hsoi : second = soi
  swap
  · exact .inr ⟨_, if_pos hsoi⟩
  rw [if_neg (not_not.2 hsoi)]
  rcases inspectLoop_spec maximumSegments 2 none false with ⟨result, segments, scan, final, entropy, tail, hok, h⟩ | hreject
  · refine .inl ⟨⟨result, hok⟩, not_lt.1 hlarge, grammar_iff.2 ⟨data.drop 2, ?_, segments, scan, final, entropy, tail, h⟩⟩
    rw [← hff, ← hsoi, ← hdropSecond, ← hdropFirst, List.drop_zero]
  · exact .inr hreject

theorem inspectFrame_complete {sof scan : Segment} {components : List Component}
    (hbudget : (data.length : Int) ≤ frameByteBudget width height maximumTrailing)
    (h : Grammar data width height maximumTrailing segments sof scan components entropy tail) :
    ∃ result, inspectFrame data width height maximumTrailing = .ok result := by
  obtain ⟨left, rfl, segments, scan, final, entropy, tail, h⟩ := grammar_iff.1 ⟨_, _, _, _, _, _, h⟩
  have hlength : 4 ≤ (0xFF :: soi :: left).length := by
    have := congrArg List.length h.left_eq
    simp only [List.length_append, List.length_cons] at this ⊢
    omega
  have hdrop : left = (0xFF :: soi :: left).drop 2 := rfl
  rw [hdrop] at h
  unfold inspectFrame
  rw [if_neg (not_lt.2 hbudget), if_neg (not_lt.2 hlength), byteAt_ok rfl, ok_bind, if_neg (not_not.2 rfl), byteAt_ok rfl, ok_bind,
    if_neg (not_not.2 rfl)]
  exact inspectLoop_complete segments maximumSegments 2 none false h

/-- For any data, sizes and trailing limit the pre-check ends and raises nothing but a refusal, so it never reads outside the
data; it accepts exactly the data of the grammar that is within the byte budget of the negotiated format. For any chunk size the
scan ends exactly after the first end marker, if every `0xFF` before it is followed by a byte that may follow it. -/
theorem inspectFrame_accepts_iff_grammar (data : List UInt8) (width height maximumTrailing : Int) :
    (∀ failure, inspectFrame data width height maximumTrailing = .error failure → ∃ reason, failure = .rejected reason) ∧
    ((∃ result, inspectFrame data width height maximumTrailing = .ok result) ↔
      (data.length : Int) ≤ frameByteBudget width height maximumTrailing ∧
      ∃ segments sof scan components entropy tail,
        Grammar data width height maximumTrailing segments sof scan components entropy tail) ∧
    ∀ (chunk : Nat) (hchunk : 0 < chunk) (position : Nat),
      (∀ failure, entropyEnd chunk hchunk data position = .error failure → ∃ reason, failure = .rejected reason) ∧
      ∀ stop, entropyEnd chunk hchunk data position = .ok stop ↔ ∃ index, stop = index + 2 ∧ ScanEnds data position index := by
  refine ⟨?_, ?_, ?_⟩
  · intro failure hfailure
    rcases inspectFrame_spec data width height maximumTrailing with ⟨⟨result, hok⟩, -⟩ | ⟨reason, hreject⟩
    · rw [hok] at hfailure
      cases hfailure
    · rw [hreject] at hfailure
      cases hfailure
      exact ⟨reason, rfl⟩
  · constructor
    · rintro ⟨result, hok⟩
      rcases inspectFrame_spec data width height maximumTrailing with ⟨-, h⟩ | ⟨reason, hreject⟩
      · exact h
      · rw [hreject] at hok
        cases hok
    · rintro ⟨hbudget, segments, sof, scan, components, entropy, tail, h⟩
      exact inspectFrame_complete hbudget h
  · intro chunk hchunk position
    rcases entropyEnd_spec chunk hchunk data position with ⟨index, hok, hends⟩ | ⟨⟨reason, hreject⟩, hnone⟩
    · rw [hok]
      refine ⟨nofun, fun stop => ⟨fun h => ⟨index, (Except.ok.inj h).symm, hends⟩, ?_⟩⟩
      rintro ⟨index', rfl, hends'⟩
      rw [hends.unique hends']
    · rw [hreject]
      refine ⟨fun failure h => ⟨reason, (Except.error.inj h).symm⟩, fun stop => ⟨nofun, ?_⟩⟩
      rintro ⟨index, -, hends⟩
      exact absurd hends (hnone index)

/-! ## A frame of the grammar beyond the budget -/

/-- The frame header of one pixel. -/
def pixelHeader : Segment := ⟨0, 0xC0, [8, 0, 1, 0, 1, 1, 1, 0x11, 0]⟩

/-- The scan header of one component. -/
def pixelScan : Segment := ⟨0, 0xDA, [1, 1, 0, 0, 63, 0]⟩

/-- A frame of one pixel with a number of zeros in its scan. -/
def longFrame (n : Nat) : List UInt8 :=
  0xFF :: soi :: ([pixelHeader].flatMap Segment.bytes ++ (pixelScan.bytes ++ (List.replicate n 0 ++ 0xFF :: eoi :: [])))

theorem entropyData_replicate (n : Nat) : EntropyData (List.replicate n 0) := by
  refine List.isChain_iff_getElem.2 ?_
  intro i hi hff
  rw [List.length_append, List.length_replicate, List.length_singleton] at hi
  rw [List.getElem_append_left (by rw [List.length_replicate]; omega), List.getElem_replicate] at hff
  cases hff

theorem longFrame_grammar (n : Nat) :
    Grammar (longFrame n) 1 1 0 [pixelHeader] pixelHeader pixelScan [⟨1, 0x11, 0⟩] (List.replicate n 0) [] where
  data_eq := rfl
  count := by decide
  wellFormed := List.forall_mem_singleton.2 ⟨by decide, by decide⟩
  allowed := by decide
  sof_eq := rfl
  frame := ⟨⟨1, 1, by decide, by decide, by decide, by decide, rfl, rfl, by decide, rfl⟩, .inl rfl, by decide,
    List.forall_mem_singleton.2 ⟨by decide, by decide, by decide⟩, by decide⟩
  scan_wellFormed := ⟨by decide, by decide⟩
  scan_marker := rfl
  scan := ⟨1, [1, 0], rfl, rfl, rfl⟩
  entropy := entropyData_replicate n
  trailing := le_rfl
  no_soi := by decide
  no_eoi := by decide

theorem length_longFrame (n : Nat) : (longFrame n).length = n + 27 := by
  have hheader : pixelHeader.bytes.length = 13 := rfl
  have hscan : pixelScan.bytes.length = 10 := rfl
  simp only [longFrame, List.length_cons, List.length_append, List.flatMap_cons, List.flatMap_nil, List.length_replicate,
    List.length_nil, hheader, hscan]
  omega

/-- A frame of one pixel with 300000 zeros in its scan is of the grammar and is refused. -/
theorem longFrame_refused : (∃ segments sof scan components entropy tail,
      Grammar (longFrame 300000) 1 1 0 segments sof scan components entropy tail) ∧
    inspectFrame (longFrame 300000) 1 1 0 = reject .frameTooLarge := by
  refine ⟨⟨_, _, _, _, _, _, longFrame_grammar 300000⟩, if_pos ?_⟩
  rw [length_longFrame]
  decide

end Sentinel.Detection.Mjpg
