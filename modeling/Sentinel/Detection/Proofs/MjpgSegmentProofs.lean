import Sentinel.Detection.Proofs.MjpgScanProofs

/-!
# The segments and headers of the pre-check

Each reader at an index is described by what is left of the data there: it finds the piece that the data begins with, or
refuses, and it accepts every piece of the grammar.
-/

namespace Sentinel.Detection.Mjpg

variable {data rest body : List UInt8} {position offset : Nat}

/-! ## Segments -/

variable {marker : UInt8} {components : List Component}

theorem skipFill_marker (hbyte : data[position + 1]? = some marker) (hmarker : marker ≠ 0xFF) (left : Nat) :
    skipFill data left position = .ok position := by
  cases left <;> simp [skipFill, byteAt_ok hbyte, hmarker, ok_bind] <;> rfl

theorem skipFill_zero (hbyte : data[position + 1]? = some 0xFF) : skipFill data 0 position = reject .markerInvalid := by
  simp [skipFill, byteAt_ok hbyte, ok_bind]

theorem skipFill_succ (hbyte : data[position + 1]? = some 0xFF) (left : Nat) : skipFill data (left + 1) position =
    if data.length ≤ position + 1 + 1 then reject .markerInvalid else skipFill data left (position + 1) := by
  rw [skipFill, byteAt_ok hbyte, ok_bind, if_pos rfl]

/-- The loop over fill bytes stops at the last `0xFF` before a marker, or refuses. -/
theorem skipFill_spec (data : List UInt8) (left : Nat) : ∀ position, position + 1 < data.length →
    (∃ fill marker, fill ≤ left ∧ marker ≠ 0xFF ∧
      data.drop (position + 1) = List.replicate fill 0xFF ++ marker :: data.drop (position + fill + 2) ∧
      skipFill data left position = .ok (position + fill)) ∨
    ∃ reason, skipFill data left position = reject reason := by
  induction left with
  | zero =>
    intro position hlt
    obtain ⟨byte, hbyte, hdrop⟩ := exists_drop hlt
    by_cases hff : byte = 0xFF
    · exact .inr ⟨.markerInvalid, skipFill_zero (hff ▸ hbyte)⟩
    · exact .inl ⟨0, byte, le_rfl, hff, hdrop, skipFill_marker hbyte hff 0⟩
  | succ left ih =>
    intro position hlt
    obtain ⟨byte, hbyte, hdrop⟩ := exists_drop hlt
    by_cases hff : byte = 0xFF
    · subst hff
      rw [skipFill_succ hbyte]
      split_ifs with hshort
      · exact .inr ⟨_, rfl⟩
      · rcases ih (position + 1) (not_le.1 hshort) with ⟨fill, marker, hle, hmarker, hdrop', hok⟩ | hreject
        · refine .inl ⟨fill + 1, marker, Nat.succ_le_succ hle, hmarker, ?_, ?_⟩
          · rw [hdrop, hdrop', List.replicate_succ, List.cons_append, Nat.add_right_comm position 1 fill,
              Nat.add_assoc position fill 1]
          · rw [hok, Nat.add_assoc, Nat.add_comm 1]
        · exact .inr hreject
    · exact .inl ⟨0, byte, Nat.zero_le _, hff, hdrop, skipFill_marker hbyte hff _⟩

theorem skipFill_complete (hmarker : marker ≠ 0xFF) : ∀ (fill left position : Nat), fill ≤ left →
    data.drop (position + 1) = List.replicate fill 0xFF ++ marker :: rest → skipFill data left position = .ok (position + fill) := by
  intro fill
  induction fill with
  | zero =>
    intro left position _ hdrop
    exact skipFill_marker (head_of_drop hdrop) hmarker left
  | succ fill ih =>
    intro left position hle hdrop
    obtain ⟨left, rfl⟩ := Nat.exists_eq_add_of_le' (Nat.lt_of_lt_of_le (Nat.succ_pos fill) hle)
    rw [List.replicate_succ, List.cons_append] at hdrop
    have hnext := tail_of_drop hdrop
    have hlong : ¬data.length ≤ position + 1 + 1 := by
      intro hshort
      rw [List.drop_eq_nil_of_le hshort] at hnext
      simp at hnext
    rw [skipFill_succ (head_of_drop hdrop), if_neg hlong, ih left (position + 1) (Nat.le_of_succ_le_succ hle) hnext,
      Nat.add_assoc, Nat.add_comm 1]

/-- The markers that may begin a segment. -/
def Marks (marker : UInt8) : Prop :=
  marker ≠ 0xFF ∧ ¬(marker = 0x00 ∨ marker = 0x01 ∨ marker = soi ∨ marker = eoi ∨ restart marker = true)

/-- A segment where it stands in the data. -/
def Segment.located (s : Segment) (position : Nat) : Located where
  marker := s.marker
  body := position + s.fill + 4
  length := s.body.length + 2
  stop := position + s.bytes.length

theorem Segment.located_length (s : Segment) (position : Nat) : (s.located position).length = s.body.length + 2 := rfl

theorem Segment.length_bytes (s : Segment) : s.bytes.length = s.fill + 4 + s.body.length := by
  simp [Segment.bytes, Segment.pair]
  omega

theorem Segment.bytes_ne_nil (s : Segment) : s.bytes ≠ [] := by
  simp [Segment.bytes]

theorem Segment.drop_body {s : Segment} (h : data.drop position = s.bytes ++ rest) :
    data.drop (s.located position).body = s.body ++ rest := by
  have hhead : data.drop position =
      (List.replicate (s.fill + 1) 0xFF ++ s.marker :: pair (s.body.length + 2)) ++ (s.body ++ rest) := by
    rw [h, Segment.bytes]
    simp
  have hafter := drop_of_drop hhead
  have hlength : (List.replicate (s.fill + 1) 0xFF ++ s.marker :: pair (s.body.length + 2)).length = s.fill + 4 := by
    simp [Segment.pair]
  rw [hlength, ← Nat.add_assoc] at hafter
  exact hafter

theorem toNat_ofNat_of_lt {n : Nat} (hn : n < 256) : (UInt8.ofNat n).toNat = n := by
  rw [UInt8.toNat_ofNat']
  omega

theorem u16_pair {n : Nat} (hn : n < 65536) (h : data.drop offset = Segment.pair n ++ rest) : u16 data offset = .ok n := by
  rw [u16, byteAt_ok (head_of_drop h), ok_bind, byteAt_ok (head_of_drop (tail_of_drop h)), ok_bind,
    toNat_ofNat_of_lt (by omega), toNat_ofNat_of_lt (by omega)]
  exact congrArg Except.ok (by omega)

theorem exists_pair (hlt : offset + 1 < data.length) :
    ∃ n < 65536, data.drop offset = Segment.pair n ++ data.drop (offset + 2) := by
  obtain ⟨high, -, hdrop⟩ := @exists_drop data offset (by omega)
  obtain ⟨low, -, hdrop'⟩ := exists_drop hlt
  have hhigh := high.toNat_lt
  have hlow := low.toNat_lt
  refine ⟨high.toNat * 256 + low.toNat, by omega, ?_⟩
  have hfirst : (high.toNat * 256 + low.toNat) / 256 = high.toNat := by omega
  have hsecond : (high.toNat * 256 + low.toNat) % 256 = low.toNat := by omega
  rw [Segment.pair, hfirst, hsecond, UInt8.ofNat_toNat, UInt8.ofNat_toNat, hdrop, hdrop']
  rfl

theorem drop_marker {fill : Nat} (h : data.drop position = List.replicate (fill + 1) 0xFF ++ marker :: rest) :
    data.drop (position + fill + 1) = marker :: rest ∧ data.drop (position + fill + 2) = rest := by
  have hmarker := drop_of_drop h
  rw [List.length_replicate, ← Nat.add_assoc] at hmarker
  exact ⟨hmarker, tail_of_drop hmarker⟩

theorem nextSegment_eq {fill : Nat} (hlt : position + 1 < data.length) (hfirst : data[position]? = some 0xFF)
    (hfill : skipFill data maximumFill position = .ok (position + fill)) (hbyte : data[position + fill + 1]? = some marker) :
    nextSegment data position =
      if marker = 0x00 ∨ marker = 0x01 ∨ marker = soi ∨ marker = eoi ∨ restart marker then reject .markerInvalid
      else if data.length < position + fill + 4 then reject .segmentInvalid
      else do
        let length ← u16 data (position + fill + 2)
        if length < 2 ∨ data.length < position + fill + 2 + length then reject .segmentInvalid
        else return ⟨marker, position + fill + 4, length, position + fill + 2 + length⟩ := by
  rw [nextSegment, if_neg (not_le.2 hlt), byteAt_ok hfirst, ok_bind, if_neg (not_not.2 rfl), hfill, ok_bind, byteAt_ok hbyte, ok_bind]

theorem nextSegment_complete {s : Segment} (hs : s.WellFormed) (hmarker : Marks s.marker)
    (h : data.drop position = s.bytes ++ rest) : nextSegment data position = .ok (s.located position) := by
  have hlength := length_of_drop h s.bytes_ne_nil
  have hsize := s.length_bytes
  have hhead : data.drop position =
      List.replicate (s.fill + 1) 0xFF ++ s.marker :: (Segment.pair (s.body.length + 2) ++ (s.body ++ rest)) := by
    rw [h, Segment.bytes]
    simp
  obtain ⟨hdrop, hafter⟩ := drop_marker hhead
  rw [List.replicate_succ, List.cons_append] at hhead
  have hskip := skipFill_complete hmarker.1 s.fill maximumFill position hs.fill_le (tail_of_drop hhead)
  rw [nextSegment_eq (by omega) (head_of_drop hhead) hskip (head_of_drop hdrop),
    if_neg hmarker.2, if_neg (by omega), u16_pair hs.length_lt hafter, ok_bind, if_neg (by omega)]
  have hstop : position + s.fill + 2 + (s.body.length + 2) = position + s.bytes.length := by omega
  rw [hstop]
  rfl

/-- The reader of segments refuses, or finds a segment where the data begins with one. -/
theorem nextSegment_spec (data : List UInt8) (position : Nat) :
    (∃ s : Segment, s.WellFormed ∧ Marks s.marker ∧ data.drop position = s.bytes ++ data.drop (position + s.bytes.length) ∧
      nextSegment data position = .ok (s.located position)) ∨
    ∃ reason, nextSegment data position = reject reason := by
  by_cases hlt : position + 1 < data.length
  swap
  · exact .inr ⟨.markerInvalid, if_pos (not_lt.1 hlt)⟩
  obtain ⟨first, hfirst, hdropFirst⟩ := @exists_drop data position (by omega)
  by_cases hff : first = 0xFF
  swap
  · refine .inr ⟨.markerInvalid, ?_⟩
    rw [nextSegment, if_neg (not_le.2 hlt), byteAt_ok hfirst, ok_bind, if_pos hff]
  subst hff
  rcases skipFill_spec data maximumFill position hlt with ⟨fill, marker, hfill, hmarker, hdrop, hskip⟩ | ⟨reason, hreject⟩
  swap
  · refine .inr ⟨reason, ?_⟩
    rw [nextSegment, if_neg (not_le.2 hlt), byteAt_ok hfirst, ok_bind, if_neg (not_not.2 rfl), hreject]
    rfl
  have hhead : data.drop position = List.replicate (fill + 1) 0xFF ++ marker :: data.drop (position + fill + 2) := by
    rw [hdropFirst, hdrop, List.replicate_succ]
    rfl
  rw [nextSegment_eq hlt hfirst hskip (head_of_drop (drop_marker hhead).1)]
  by_cases hstandalone : marker = 0x00 ∨ marker = 0x01 ∨ marker = soi ∨ marker = eoi ∨ restart marker = true
  · exact .inr ⟨_, if_pos hstandalone⟩
  rw [if_neg hstandalone]
  by_cases hshort : data.length < position + fill + 4
  · exact .inr ⟨_, if_pos hshort⟩
  obtain ⟨n, hn, hpair⟩ := @exists_pair data (position + fill + 2) (by omega)
  rw [if_neg hshort, u16_pair hn hpair, ok_bind]
  by_cases hlength : n < 2 ∨ data.length < position + fill + 2 + n
  · exact .inr ⟨_, if_pos hlength⟩
  rw [if_neg hlength]
  let s : Segment := ⟨fill, marker, (data.drop (position + fill + 4)).take (n - 2)⟩
  have hbody : s.body.length = n - 2 := by
    simp only [s, List.length_take, List.length_drop]
    omega
  have hsize : s.bytes.length = fill + 2 + n := by
    rw [s.length_bytes, hbody]
    show fill + 4 + (n - 2) = fill + 2 + n
    omega
  have hpairEq : Segment.pair (s.body.length + 2) = Segment.pair n := by
    rw [hbody]
    congr 1
    omega
  refine .inl ⟨s, ⟨hfill, by omega⟩, ⟨hmarker, hstandalone⟩, ?_, ?_⟩
  · have hafter : data.drop (position + s.bytes.length) = (data.drop (position + fill + 4)).drop (n - 2) := by
      rw [List.drop_drop, hsize]
      congr 1
      omega
    rw [hafter, Segment.bytes, hpairEq, hhead, hpair]
    simp [s]
  · have hstop : position + s.bytes.length = position + fill + 2 + n := by omega
    rw [Segment.located, hstop, hbody, Nat.sub_add_cancel (by omega)]
    rfl

/-! ## Headers -/

/-- Components that the header accepts after others. -/
structure Accepted (identifiers : List UInt8) (components : List Component) : Prop where
  distinct : (components.map Component.identifier).Nodup
  fresh : ∀ c ∈ components, c.identifier ∉ identifiers
  valid : ∀ c ∈ components, c.Valid

theorem Accepted.cons_iff {identifiers : List UInt8} {c : Component} :
    Accepted identifiers (c :: components) ↔ (c.identifier ∉ identifiers ∧ c.Valid) ∧
      Accepted (c.identifier :: identifiers) components := by
  constructor
  · rintro ⟨hdistinct, hfresh, hvalid⟩
    rw [List.map_cons, List.nodup_cons] at hdistinct
    refine ⟨⟨hfresh c List.mem_cons_self, hvalid c List.mem_cons_self⟩, hdistinct.2, ?_,
      fun c' h => hvalid c' (List.mem_cons_of_mem _ h)⟩
    intro c' hc' hmem
    rcases List.mem_cons.1 hmem with heq | hmem
    · exact hdistinct.1 (heq ▸ List.mem_map_of_mem hc')
    · exact hfresh c' (List.mem_cons_of_mem _ hc') hmem
  · rintro ⟨⟨hfresh, hvalid⟩, hdistinct, hrest, hvalids⟩
    refine ⟨?_, ?_, List.forall_mem_cons.2 ⟨hvalid, hvalids⟩⟩
    · rw [List.map_cons, List.nodup_cons]
      refine ⟨fun hmem => ?_, hdistinct⟩
      obtain ⟨c', hc', heq⟩ := List.mem_map.1 hmem
      exact hrest c' hc' (heq ▸ List.mem_cons_self)
    · exact List.forall_mem_cons.2 ⟨hfresh, fun c' hc' hmem => hrest c' hc' (List.mem_cons_of_mem _ hmem)⟩

theorem frameComponents_spec (components : List Component) : ∀ (offset : Nat) (identifiers : List UInt8),
    data.drop offset = components.flatMap Component.bytes ++ rest →
    frameComponents data components.length offset identifiers = .ok (components.map Component.factors) ∧
      Accepted identifiers components ∨
    frameComponents data components.length offset identifiers = reject .sofInvalid ∧ ¬Accepted identifiers components := by
  induction components with
  | nil => exact fun offset identifiers _ => .inl ⟨rfl, List.nodup_nil, nofun, nofun⟩
  | cons c components ih =>
    intro offset identifiers h
    rw [List.flatMap_cons, List.append_assoc] at h
    have hbyte : ∀ k < 3, data[offset + k]? = c.bytes[k]? := fun k hk => getElem?_of_drop h hk
    have hidentifier : data[offset]? = some c.identifier := hbyte 0 (by omega)
    have hsampling : data[offset + 1]? = some c.sampling := hbyte 1 (by omega)
    have htable : data[offset + 2]? = some c.table := hbyte 2 (by omega)
    have hafter : data.drop (offset + 3) = components.flatMap Component.bytes ++ rest := drop_of_drop h
    rw [List.length_cons, frameComponents, byteAt_ok hidentifier, ok_bind, byteAt_ok hsampling, ok_bind, byteAt_ok htable, ok_bind]
    have hbad : (identifiers.contains c.identifier || !(decide (1 ≤ c.sampling.toNat / 16) && decide (c.sampling.toNat / 16 ≤ 4)) ||
        !(decide (1 ≤ c.sampling.toNat % 16) && decide (c.sampling.toNat % 16 ≤ 4)) || decide (3 < c.table.toNat)) = true ↔
        ¬(c.identifier ∉ identifiers ∧ c.Valid) := by
      have hvalid : c.Valid ↔ (1 ≤ c.sampling.toNat / 16 ∧ c.sampling.toNat / 16 ≤ 4) ∧
          (1 ≤ c.sampling.toNat % 16 ∧ c.sampling.toNat % 16 ≤ 4) ∧ c.table.toNat ≤ 3 :=
        ⟨fun h => ⟨h.horizontal, h.vertical, h.table⟩, fun h => ⟨h.1, h.2.1, h.2.2⟩⟩
      rw [hvalid]
      simp only [Bool.or_eq_true, List.contains_iff_mem, Bool.not_eq_true', Bool.and_eq_false_iff, decide_eq_false_iff_not,
        decide_eq_true_eq]
      by_cases hmem : c.identifier ∈ identifiers
      · simp [hmem]
      · simp only [hmem, not_false_eq_true, true_and, false_or]
        omega
    rw [Accepted.cons_iff]
    by_cases hgood : c.identifier ∉ identifiers ∧ c.Valid
    · rcases ih (offset + 3) (c.identifier :: identifiers) hafter with ⟨hok, haccepted⟩ | ⟨hreject, haccepted⟩
      · refine .inl ⟨?_, hgood, haccepted⟩
        rw [if_neg (fun h => hbad.1 h hgood), hok]
        rfl
      · refine .inr ⟨?_, fun h => haccepted h.2⟩
        rw [if_neg (fun h => hbad.1 h hgood), hreject]
        rfl
    · exact .inr ⟨if_pos (hbad.2 hgood), fun h => hgood h.1⟩

theorem exists_components (n : Nat) : ∀ l : List UInt8, l.length = 3 * n →
    ∃ components : List Component, components.length = n ∧ components.flatMap Component.bytes = l := by
  induction n with
  | zero => exact fun l hl => ⟨[], rfl, (List.length_eq_zero_iff.1 hl).symm⟩
  | succ n ih =>
    intro l hl
    match l with
    | a :: b :: c :: l =>
      obtain ⟨components, hlength, hflat⟩ := ih l (by simp only [List.length_cons] at hl; omega)
      exact ⟨⟨a, b, c⟩ :: components, by rw [List.length_cons, hlength], by rw [List.flatMap_cons, hflat]; rfl⟩
    | [] | [_] | [_, _] =>
      simp only [List.length_cons, List.length_nil] at hl
      omega

theorem frameHeader_eq {precision count : UInt8} {rows columns : Nat} {more : List UInt8} (hrows : rows < 65536)
    (hcolumns : columns < 65536)
    (h : data.drop position = precision :: (Segment.pair rows ++ (Segment.pair columns ++ count :: (more ++ rest))))
    (width height : Int) :
    frameHeader data position (more.length + 8) width height =
      if precision.toNat ≠ 8 ∨ ¬(count.toNat = 1 ∨ count.toNat = 3) ∨ more.length + 8 ≠ 8 + 3 * count.toNat then reject .sofInvalid
      else if rows = 0 ∨ columns = 0 then reject .sofInvalid
      else if ¬((columns : Int) = width ∧ (rows : Int) = height) ∨ maximumDecodePixels < columns * rows then
        reject .sofDimensionMismatch
      else do
        let factors ← frameComponents data count.toNat (position + 6) []
        if 10 < (factors.map fun f => f.1 * f.2).sum then reject .sofInvalid
        else return mcuOf factors := by
  have hrowsAt := tail_of_drop h
  have hcolumnsAt : data.drop (position + 3) = Segment.pair columns ++ count :: (more ++ rest) := drop_of_drop hrowsAt
  have hcountAt : data.drop (position + 5) = count :: (more ++ rest) := drop_of_drop hcolumnsAt
  rw [frameHeader, if_neg (by omega), byteAt_ok (head_of_drop h), ok_bind, u16_pair hrows hrowsAt, ok_bind,
    u16_pair hcolumns hcolumnsAt, ok_bind, byteAt_ok (head_of_drop hcountAt), ok_bind]

theorem frameHeader_complete {width height : Int} (hbody : FrameBody body width height components)
    (h : data.drop position = body ++ rest) :
    frameHeader data position (body.length + 2) width height = .ok (mcuOf (components.map Component.factors)) := by
  obtain ⟨rows, columns, hrows, hcolumns, hrowsPos, hcolumnsPos, hwidth, hheight, hpixels, rfl⟩ := hbody.body_eq
  have hcount : (UInt8.ofNat components.length).toNat = components.length := by
    refine toNat_ofNat_of_lt ?_
    rcases hbody.count with h | h <;> omega
  have hflat : (components.flatMap Component.bytes).length = 3 * components.length := by
    simp [Component.bytes, Nat.mul_comm]
  have hafter : data.drop (position + 6) = components.flatMap Component.bytes ++ rest := by
    rw [← List.drop_drop, h]
    rfl
  have hlength : (8 :: (Segment.pair rows ++ (Segment.pair columns ++
      UInt8.ofNat components.length :: components.flatMap Component.bytes))).length + 2 =
      (components.flatMap Component.bytes).length + 8 := by
    simp [Segment.pair]
  have hread : data.drop position = 8 :: (Segment.pair rows ++ (Segment.pair columns ++
      UInt8.ofNat components.length :: (components.flatMap Component.bytes ++ rest))) := by
    rw [h]
    simp
  have hpart := hbody.count
  rw [hlength, frameHeader_eq hrows hcolumns hread, hcount, hflat, if_neg, if_neg, if_neg]
  · rcases frameComponents_spec components (position + 6) [] hafter with ⟨hok, -⟩ | ⟨-, hnot⟩
    · rw [hok, ok_bind, if_neg]
      · rfl
      · rw [List.map_map]
        exact not_lt.2 hbody.blocks
    · exact absurd ⟨hbody.distinct, nofun, hbody.valid⟩ hnot
  · rintro (hsize | hmany)
    · exact hsize ⟨hwidth, hheight⟩
    · omega
  · omega
  · rintro (hprecision | hcount | hlength)
    · exact hprecision rfl
    · exact hcount hpart
    · omega

theorem frameHeader_spec (width height : Int) (h : data.drop position = body ++ rest) :
    (∃ components, FrameBody body width height components ∧
      frameHeader data position (body.length + 2) width height = .ok (mcuOf (components.map Component.factors))) ∨
    ∃ reason, frameHeader data position (body.length + 2) width height = reject reason := by
  by_cases hshort : body.length + 2 < 8
  · exact .inr ⟨_, if_pos hshort⟩
  obtain ⟨precision, rows, columns, count, more, hrows, hcolumns, rfl⟩ : ∃ (precision : UInt8) (rows columns : Nat) (count : UInt8)
      (more : List UInt8), rows < 65536 ∧ columns < 65536 ∧
        body = precision :: (Segment.pair rows ++ (Segment.pair columns ++ count :: more)) := by
    obtain ⟨precision, -, hprecision⟩ := @exists_drop body 0 (by omega)
    obtain ⟨rows, hrows, hrowsAt⟩ := @exists_pair body 1 (by omega)
    obtain ⟨columns, hcolumns, hcolumnsAt⟩ := @exists_pair body 3 (by omega)
    obtain ⟨count, -, hcount⟩ := @exists_drop body 5 (by omega)
    refine ⟨precision, rows, columns, count, body.drop 6, hrows, hcolumns, ?_⟩
    rw [← hcount, ← hcolumnsAt, ← hrowsAt, ← hprecision, List.drop_zero]
  have hlength : (precision :: (Segment.pair rows ++ (Segment.pair columns ++ count :: more))).length + 2 = more.length + 8 := by
    simp [Segment.pair]
  have hread : data.drop position = precision :: (Segment.pair rows ++ (Segment.pair columns ++ count :: (more ++ rest))) := by
    rw [h]
    simp
  have hafter : data.drop (position + 6) = more ++ rest := by
    rw [← List.drop_drop, hread]
    rfl
  rw [hlength, frameHeader_eq hrows hcolumns hread]
  split_ifs with hfixed hempty hsize
  · exact .inr ⟨_, rfl⟩
  · exact .inr ⟨_, rfl⟩
  · exact .inr ⟨_, rfl⟩
  rw [not_or, not_or, not_not, not_not, not_not] at hfixed
  rw [not_or, not_not] at hsize
  rw [not_or] at hempty
  obtain ⟨components, hcount, rfl⟩ := exists_components count.toNat more (by omega)
  rw [← hcount]
  rcases frameComponents_spec components (position + 6) [] hafter with ⟨hok, haccepted⟩ | ⟨hreject, -⟩
  · rw [hok, ok_bind]
    split_ifs with hblocks
    · exact .inr ⟨_, rfl⟩
    · refine .inl ⟨components, ⟨?_, hcount ▸ hfixed.2.1, haccepted.distinct, haccepted.valid, ?_⟩, rfl⟩
      · refine ⟨rows, columns, hrows, hcolumns, by omega, by omega, hsize.1.1, hsize.1.2, by omega, ?_⟩
        have hprecision : precision = 8 := UInt8.toNat_inj.1 hfixed.1
        rw [hcount, UInt8.ofNat_toNat, hprecision]
      · rw [List.map_map] at hblocks
        exact not_lt.1 hblocks
  · exact .inr ⟨_, by rw [hreject]; rfl⟩

theorem scanHeader_complete {components : Nat} (hbody : ScanBody body components)
    (h : data.drop position = body ++ rest) : scanHeader data position (body.length + 2) components = .ok () := by
  obtain ⟨count, selectors, rfl, hselectors, rfl⟩ := hbody
  have hlength : (count :: (selectors ++ [0, 63, 0])).length + 2 = 6 + 2 * count.toNat := by
    simp [hselectors]
    omega
  have htail : data.drop (position + 1 + 2 * count.toNat) = [0, 63, 0] ++ rest := by
    have hhead : data.drop position = (count :: selectors) ++ ([0, 63, 0] ++ rest) := by
      rw [h]
      simp
    have hafter := drop_of_drop hhead
    rw [List.length_cons, hselectors] at hafter
    rw [← hafter]
    congr 1
    omega
  have hstart : data[position + 1 + 2 * count.toNat]? = some 0 := getElem?_of_drop htail (k := 0) (by decide)
  have hstop : data[position + 1 + 2 * count.toNat + 1]? = some 63 := getElem?_of_drop htail (by decide)
  have happroximation : data[position + 1 + 2 * count.toNat + 2]? = some 0 := getElem?_of_drop htail (by decide)
  rw [hlength, scanHeader, if_neg (by omega), byteAt_ok (head_of_drop h), ok_bind, if_neg (by omega)]
  dsimp only
  rw [byteAt_ok hstart, ok_bind, byteAt_ok hstop, ok_bind, byteAt_ok happroximation, ok_bind]
  rfl

theorem scanHeader_spec (components : Nat) (h : data.drop position = body ++ rest) :
    ScanBody body components ∧ scanHeader data position (body.length + 2) components = .ok () ∨
    ∃ reason, scanHeader data position (body.length + 2) components = reject reason := by
  by_cases hshort : body.length + 2 < 6
  · exact .inr ⟨_, if_pos hshort⟩
  obtain ⟨count, hcount, hhead⟩ := @exists_drop body 0 (by omega)
  have hread : data[position]? = some count := by
    rw [← Nat.add_zero position, getElem?_of_drop h (by omega), hcount]
  rw [scanHeader, if_neg hshort, byteAt_ok hread, ok_bind]
  by_cases hfixed : count.toNat ≠ components ∨ body.length + 2 ≠ 6 + 2 * count.toNat
  · exact .inr ⟨_, if_pos hfixed⟩
  rw [if_neg hfixed]
  rw [not_or, not_not, not_not] at hfixed
  obtain ⟨start, hstart, hstartAt⟩ := @exists_drop body (1 + 2 * count.toNat) (by omega)
  obtain ⟨stop, hstop, hstopAt⟩ := @exists_drop body (1 + 2 * count.toNat + 1) (by omega)
  obtain ⟨approximation, happroximation, happroximationAt⟩ := @exists_drop body (1 + 2 * count.toNat + 1 + 1) (by omega)
  have hread : ∀ k < body.length, data[position + k]? = body[k]? := fun k hk => getElem?_of_drop h hk
  have hnone : body.drop (1 + 2 * count.toNat + 1 + 1 + 1) = [] := List.drop_eq_nil_of_le (by omega)
  dsimp only
  rw [Nat.add_assoc position 1, byteAt_ok ((hread _ (by omega)).trans hstart), ok_bind, Nat.add_assoc position,
    byteAt_ok ((hread _ (by omega)).trans hstop), ok_bind, Nat.add_assoc position,
    byteAt_ok ((hread _ (by omega)).trans happroximation), ok_bind]
  by_cases hspectrum : start.toNat = 0 ∧ stop.toNat = 63 ∧ approximation.toNat = 0
  · refine .inl ⟨⟨count, (body.drop 1).take (2 * count.toNat), hfixed.1, ?_, ?_⟩, if_neg (not_not.2 hspectrum)⟩
    · rw [List.length_take, List.length_drop]
      omega
    · have hstartEq : start = 0 := UInt8.toNat_inj.1 hspectrum.1
      have hstopEq : stop = 63 := UInt8.toNat_inj.1 hspectrum.2.1
      have happroximationEq : approximation = 0 := UInt8.toNat_inj.1 hspectrum.2.2
      have hspectrumAt : (body.drop 1).drop (2 * count.toNat) = [0, 63, 0] := by
        rw [List.drop_drop, hstartAt, hstopAt, happroximationAt, hnone, hstartEq, hstopEq, happroximationEq]
      rw [← hspectrumAt, List.take_append_drop, ← hhead, List.drop_zero]
  · exact .inr ⟨_, if_pos hspectrum⟩

end Sentinel.Detection.Mjpg
