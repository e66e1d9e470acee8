import Sentinel.Detection.Mjpg

/-!
# The scan of the pre-check

The chunks of the scan together see every pair of bytes before the end marker, for any chunk size.
-/

namespace Sentinel.Detection.Mjpg

variable {data rest body : List UInt8} {position offset index start : Nat}

/-! ## Reading -/

theorem ok_bind {α β : Type} (a : α) (f : α → Except Failure β) : (Except.ok a >>= f) = f a := rfl

variable {byte : UInt8}

theorem byteAt_ok (h : data[offset]? = some byte) : byteAt data offset = .ok byte := by
  rw [byteAt, h]

theorem getElem?_of_drop (h : data.drop position = body ++ rest) {k : Nat} (hk : k < body.length) :
    data[position + k]? = body[k]? := by
  rw [← List.getElem?_drop, h, List.getElem?_append_left hk]

theorem drop_of_drop (h : data.drop position = body ++ rest) : data.drop (position + body.length) = rest := by
  rw [← List.drop_drop, h, List.drop_left]

theorem length_of_drop (h : data.drop position = body ++ rest) (hne : body ≠ []) :
    position + body.length + rest.length = data.length := by
  have hlength := congrArg List.length h
  have hpos := List.length_pos_iff.2 hne
  rw [List.length_drop, List.length_append] at hlength
  omega

theorem head_of_drop (h : data.drop position = byte :: rest) : data[position]? = some byte := by
  rw [← Nat.add_zero position, ← List.getElem?_drop, h]
  rfl

theorem tail_of_drop (h : data.drop position = byte :: rest) : data.drop (position + 1) = rest :=
  @drop_of_drop data rest [byte] position h

theorem exists_drop (hlt : position < data.length) :
    ∃ byte, data[position]? = some byte ∧ data.drop position = byte :: data.drop (position + 1) :=
  ⟨data[position], List.getElem?_eq_getElem hlt, List.drop_eq_getElem_cons hlt⟩

/-! ## Pairs -/

/-- Two bytes in turn. -/
def PairAt (l : List UInt8) (first second : UInt8) (i : Nat) : Prop := l[i]? = some first ∧ l[i + 1]? = some second

section Pairs

variable {first second : UInt8} {l : List UInt8} {i : Nat}

theorem pairAt_drop : PairAt (data.drop position) first second i ↔ PairAt data first second (position + i) := by
  rw [PairAt, PairAt, List.getElem?_drop, List.getElem?_drop, Nat.add_assoc]

theorem findPair_spec (first second : UInt8) (l : List UInt8) : ∀ index,
    (∃ k, findPair first second index l = some (index + k) ∧ PairAt l first second k ∧ ∀ j < k, ¬PairAt l first second j) ∨
    findPair first second index l = none ∧ ∀ k, ¬PairAt l first second k := by
  induction l with
  | nil => exact fun index => .inr ⟨rfl, by simp [PairAt]⟩
  | cons a l ih =>
    intro index
    cases l with
    | nil => exact .inr ⟨rfl, by simp [PairAt]⟩
    | cons b l =>
      by_cases h : a = first ∧ b = second
      · obtain ⟨rfl, rfl⟩ := h
        exact .inl ⟨0, if_pos ⟨rfl, rfl⟩, ⟨rfl, rfl⟩, fun j hj => absurd hj (Nat.not_lt_zero j)⟩
      · have hzero : ¬PairAt (a :: b :: l) first second 0 := by simpa [PairAt] using h
        rw [findPair, if_neg h]
        rcases ih (index + 1) with ⟨k, hfind, hpair, hfirst⟩ | ⟨hfind, hnone⟩
        · refine .inl ⟨k + 1, by rw [hfind, Nat.add_assoc, Nat.add_comm 1], hpair, fun j hj => ?_⟩
          cases j with
          | zero => exact hzero
          | succ j => exact hfirst j (Nat.lt_of_succ_lt_succ hj)
        · refine .inr ⟨hfind, fun k => ?_⟩
          cases k with
          | zero => exact hzero
          | succ k => exact hnone k

theorem findPair_isSome_iff (index : Nat) : (findPair first second index l).isSome = true ↔ ∃ k, PairAt l first second k := by
  rcases findPair_spec first second l index with ⟨k, hfind, hpair, -⟩ | ⟨hfind, hnone⟩
  · simp only [hfind, Option.isSome_some, true_iff]
    exact ⟨k, hpair⟩
  · simpa [hfind] using hnone

theorem pair_infix_iff : [first, second] <:+: l ↔ ∃ k, PairAt l first second k := by
  constructor
  · rintro ⟨before, after, rfl⟩
    exact ⟨before.length, by simp [PairAt]⟩
  · rintro ⟨k, hfirst, hsecond⟩
    obtain ⟨hk, hfirst⟩ := List.getElem?_eq_some_iff.1 hfirst
    obtain ⟨hk', hsecond⟩ := List.getElem?_eq_some_iff.1 hsecond
    refine ⟨l.take k, l.drop (k + 2), ?_⟩
    have hdrop : l.drop k = first :: second :: l.drop (k + 2) := by
      rw [List.drop_eq_getElem_cons hk, hfirst, List.drop_eq_getElem_cons hk', hsecond]
    rw [List.append_assoc, List.cons_append, List.cons_append, List.nil_append, ← hdrop, List.take_append_drop]

end Pairs

/-! ## The scan -/

/-- A `0xFF` followed by a byte that may not follow it. -/
def ForbiddenAt (data : List UInt8) (i : Nat) : Prop :=
  data[i]? = some 0xFF ∧ ∃ byte, data[i + 1]? = some byte ∧ ¬(mayFollow byte = true ∨ byte = 0xFF)

theorem entropyClass_eq_ff (byte : UInt8) : entropyClass byte = 0xFF ↔ byte = 0xFF := by
  unfold entropyClass
  by_cases hff : byte = 0xFF
  · simp [hff]
  · by_cases hfollow : mayFollow byte = true <;> simp [hff, hfollow]

theorem entropyClass_eq_one (byte : UInt8) : entropyClass byte = 0x01 ↔ ¬(mayFollow byte = true ∨ byte = 0xFF) := by
  unfold entropyClass
  by_cases hff : byte = 0xFF
  · simp [hff]
  · by_cases hfollow : mayFollow byte = true <;> simp [hff, hfollow]

/-- A forbidden pair of the chunk is one of the data that begins within it. -/
theorem chunk_forbidden_iff {stop : Nat} :
    (findPair 0xFF 0x01 0 (((data.take (stop + 1)).drop start).map entropyClass)).isSome = true ↔
      ∃ i, start ≤ i ∧ i < stop ∧ ForbiddenAt data i := by
  have hget : ∀ k, (((data.take (stop + 1)).drop start).map entropyClass)[k]? =
      if start + k < stop + 1 then data[start + k]?.map entropyClass else none := by
    intro k
    rw [List.getElem?_map, List.getElem?_drop, List.getElem?_take]
    split_ifs <;> rfl
  rw [findPair_isSome_iff]
  simp only [PairAt, hget, ForbiddenAt]
  constructor
  · rintro ⟨k, hfirst, hsecond⟩
    have hk : start + (k + 1) < stop + 1 := by
      by_contra hge
      rw [if_neg hge] at hsecond
      cases hsecond
    rw [if_pos (by omega), Option.map_eq_some_iff] at hfirst
    rw [if_pos hk, Option.map_eq_some_iff] at hsecond
    obtain ⟨a, ha, hclass⟩ := hfirst
    obtain ⟨b, hb, hclass'⟩ := hsecond
    rw [entropyClass_eq_ff] at hclass
    rw [entropyClass_eq_one] at hclass'
    exact ⟨start + k, by omega, by omega, hclass ▸ ha, b, hb, hclass'⟩
  · rintro ⟨i, hstart, hstop, hff, byte, hbyte, hforbidden⟩
    obtain ⟨k, rfl⟩ := Nat.exists_eq_add_of_le hstart
    refine ⟨k, ?_, ?_⟩
    · rw [if_pos (by omega), hff]
      rfl
    · rw [if_pos (by omega), ← Nat.add_assoc, hbyte, Option.map_some, (entropyClass_eq_one byte).2 hforbidden]

theorem scanChunks_spec (chunk : Nat) (hchunk : 0 < chunk) (data : List UInt8) (limit start : Nat) :
    scanChunks chunk hchunk data limit start = .ok () ∧ (∀ i, start ≤ i → i < limit → ¬ForbiddenAt data i) ∨
    scanChunks chunk hchunk data limit start = reject .scanInvalid ∧ ∃ i, start ≤ i ∧ i < limit ∧ ForbiddenAt data i := by
  induction start using scanChunks.induct chunk hchunk data limit with
  | case1 start hstart stop hfound =>
    right
    rw [scanChunks, dif_pos hstart]
    obtain ⟨i, hle, hlt, hforbidden⟩ := chunk_forbidden_iff.1 hfound
    exact ⟨if_pos hfound, i, hle, hlt.trans_le (min_le_right _ _), hforbidden⟩
  | case2 start hstart stop hfound ih =>
    rw [scanChunks, dif_pos hstart]
    dsimp only
    rw [if_neg hfound]
    have hbefore : ∀ i, start ≤ i → i < stop → ¬ForbiddenAt data i :=
      fun i hle hlt hforbidden => hfound (chunk_forbidden_iff.2 ⟨i, hle, hlt, hforbidden⟩)
    have hstop : start ≤ stop := le_min (Nat.le_add_right _ _) hstart.le
    rcases ih with ⟨hok, hnone⟩ | ⟨hreject, i, hle, hlt, hforbidden⟩
    · refine .inl ⟨hok, fun i hle hlt => ?_⟩
      by_cases hi : i < stop
      · exact hbefore i hle hi
      · exact hnone i (not_lt.1 hi) hlt
    · exact .inr ⟨hreject, i, hstop.trans hle, hlt, hforbidden⟩
  | case3 start hstart =>
    left
    rw [scanChunks, dif_neg hstart]
    exact ⟨rfl, fun i hle hlt => absurd (hle.trans_lt hlt) hstart⟩

/-- The scan ends after the first end marker, when every `0xFF` before it is followed by a byte that may follow it. -/
structure ScanEnds (data : List UInt8) (position index : Nat) : Prop where
  le : position ≤ index
  marker : PairAt data 0xFF eoi index
  first : ∀ i, position ≤ i → i < index → ¬PairAt data 0xFF eoi i
  followed : ∀ i, position ≤ i → i < index → data[i]? = some 0xFF →
    ∃ byte, data[i + 1]? = some byte ∧ (mayFollow byte = true ∨ byte = 0xFF)

theorem ScanEnds.unique {index' : Nat} (h : ScanEnds data position index) (h' : ScanEnds data position index') : index = index' := by
  by_contra hne
  rcases lt_or_gt_of_ne hne with hlt | hgt
  · exact h'.first index h.le hlt h.marker
  · exact h.first index' h'.le hgt h'.marker

theorem entropyEnd_spec (chunk : Nat) (hchunk : 0 < chunk) (data : List UInt8) (position : Nat) :
    (∃ index, entropyEnd chunk hchunk data position = .ok (index + 2) ∧ ScanEnds data position index) ∨
    (∃ reason, entropyEnd chunk hchunk data position = reject reason) ∧ ∀ index, ¬ScanEnds data position index := by
  unfold entropyEnd
  rcases findPair_spec 0xFF eoi (data.drop position) position with ⟨k, hfind, hpair, hfirst⟩ | ⟨hfind, hnone⟩
  · rw [hfind]
    rw [pairAt_drop] at hpair
    have hfirst : ∀ i, position ≤ i → i < position + k → ¬PairAt data 0xFF eoi i := by
      intro i hle hlt
      obtain ⟨j, rfl⟩ := Nat.exists_eq_add_of_le hle
      rw [← pairAt_drop]
      exact hfirst j (by omega)
    rcases scanChunks_spec chunk hchunk data (position + k) position with ⟨hok, hclean⟩ | ⟨hreject, i, hle, hlt, hforbidden⟩
    · left
      refine ⟨position + k, ?_, Nat.le_add_right _ _, hpair, hfirst, ?_⟩
      · simp only [Option.getD_some, hok]
        rfl
      · intro i hle hlt hff
        have hnext : i + 1 < data.length := by
          obtain ⟨hlength, -⟩ := List.getElem?_eq_some_iff.1 hpair.1
          omega
        refine ⟨data[i + 1], List.getElem?_eq_getElem hnext, ?_⟩
        by_contra hnot
        exact hclean i hle hlt ⟨hff, _, List.getElem?_eq_getElem hnext, hnot⟩
    · right
      refine ⟨⟨.scanInvalid, ?_⟩, ?_⟩
      · simp only [Option.getD_some, hreject]
        rfl
      · intro index hends
        -- the first end marker is the only one at which the scan can end
        have hindex : position + k ≤ index := not_lt.1 fun hlt => hfirst index hends.le hlt hends.marker
        obtain ⟨hff, byte, hbyte, hnot⟩ := hforbidden
        obtain ⟨byte', hbyte', hmay⟩ := hends.followed i hle (hlt.trans_le hindex) hff
        rw [hbyte, Option.some_inj] at hbyte'
        exact hnot (hbyte' ▸ hmay)
  · right
    rw [hfind]
    refine ⟨?_, ?_⟩
    · rcases scanChunks_spec chunk hchunk data data.length position with ⟨hok, -⟩ | ⟨hreject, -⟩
      · exact ⟨.missingEoi, by simp only [Option.getD_none, hok]; rfl⟩
      · exact ⟨.scanInvalid, by simp only [Option.getD_none, hreject]; rfl⟩
    · intro index hends
      obtain ⟨k, rfl⟩ := Nat.exists_eq_add_of_le hends.le
      exact hnone k (pairAt_drop.2 hends.marker)

theorem entropyData_iff {entropy tail : List UInt8} (hdrop : data.drop position = entropy ++ 0xFF :: tail) :
    EntropyData entropy ↔ ∀ k < entropy.length, data[position + k]? = some 0xFF →
      ∃ byte, data[position + k + 1]? = some byte ∧ (mayFollow byte = true ∨ byte = 0xFF) := by
  have hdrop' : data.drop position = (entropy ++ [0xFF]) ++ tail := by
    rw [hdrop, List.append_assoc]
    rfl
  have hlength : (entropy ++ [0xFF]).length = entropy.length + 1 := by simp
  have hget : ∀ k (hk : k < (entropy ++ [0xFF]).length), data[position + k]? = some (entropy ++ [0xFF])[k] := by
    intro k hk
    rw [getElem?_of_drop hdrop' hk, List.getElem?_eq_getElem hk]
  rw [EntropyData, List.isChain_iff_getElem]
  constructor
  · intro hchain k hk hff
    rw [hget k (by omega), Option.some_inj] at hff
    exact ⟨_, hget (k + 1) (by omega), hchain k (by omega) hff⟩
  · intro hfollowed k hk hff
    obtain ⟨byte, hbyte, hmay⟩ := hfollowed k (by omega) (by rw [hget k (by omega), hff])
    rw [Nat.add_assoc, hget (k + 1) hk, Option.some_inj] at hbyte
    exact hbyte ▸ hmay

theorem scanEnds_iff : ScanEnds data position index ↔
    ∃ entropy tail, data.drop position = entropy ++ 0xFF :: eoi :: tail ∧ EntropyData entropy ∧ index = position + entropy.length := by
  constructor
  · intro h
    obtain ⟨k, rfl⟩ := Nat.exists_eq_add_of_le h.le
    obtain ⟨hlt, hff⟩ := List.getElem?_eq_some_iff.1 h.marker.1
    obtain ⟨hlt', heoi⟩ := List.getElem?_eq_some_iff.1 h.marker.2
    have hdrop : data.drop (position + k) = 0xFF :: eoi :: data.drop (position + k + 1 + 1) := by
      rw [List.drop_eq_getElem_cons hlt, hff, List.drop_eq_getElem_cons hlt', heoi]
    have hsplit : data.drop position = (data.drop position).take k ++ 0xFF :: eoi :: data.drop (position + k + 1 + 1) := by
      rw [← hdrop, ← List.drop_drop, List.take_append_drop]
    have hlength : ((data.drop position).take k).length = k := by
      rw [List.length_take, List.length_drop]
      omega
    refine ⟨_, _, hsplit, (entropyData_iff hsplit).2 ?_, by rw [hlength]⟩
    intro i hi hffi
    exact h.followed (position + i) (Nat.le_add_right _ _) (by omega) hffi
  · rintro ⟨entropy, tail, hdrop, hentropy, rfl⟩
    have hfollowed := (entropyData_iff hdrop).1 hentropy
    have hafter := drop_of_drop hdrop
    refine ⟨Nat.le_add_right _ _, ⟨head_of_drop hafter, head_of_drop (tail_of_drop hafter)⟩, ?_, ?_⟩
    · rintro i hle hlt ⟨hff, heoi⟩
      obtain ⟨k, rfl⟩ := Nat.exists_eq_add_of_le hle
      obtain ⟨byte, hbyte, hmay⟩ := hfollowed k (by omega) hff
      rw [hbyte, Option.some_inj] at heoi
      subst heoi
      revert hmay
      decide
    · intro i hle hlt hff
      obtain ⟨k, rfl⟩ := Nat.exists_eq_add_of_le hle
      exact hfollowed k (by omega) hff

end Sentinel.Detection.Mjpg
