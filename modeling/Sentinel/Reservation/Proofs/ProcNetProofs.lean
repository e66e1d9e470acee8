import Sentinel.Reservation.ProcNet

/-!
# Proofs: the socket tables of the kernel

A row is read exactly if it is well formed (`parseRow_iff`), so the whole table is read exactly if all its rows are
(`parseRows_iff`). A row that the kernel prints is well formed and has the address, port and inode of its socket.
-/

namespace Sentinel.Reservation.ProcNet

open Numerals

variable {chars : CharacterData} {order : ByteOrder} {ipv6 : Bool} {protocol : TransportProtocol}

/-! ## Digits -/

variable {ds : List Nat} {n : Nat} {text address line field : Text} {lines fields : List Text}

theorem filterMap_map_hexChar {f : Char → Option Nat} {b : Nat} (hf : ∀ d < b, f (hexChar d) = some d) (hds : ∀ d ∈ ds, d < b) :
    (∀ c ∈ ds.map hexChar, (f c).isSome) ∧ (ds.map hexChar).filterMap f = ds := by
  constructor
  · intro c hc
    obtain ⟨d, hd, rfl⟩ := List.mem_map.mp hc
    rw [hf d (hds d hd)]
    rfl
  · rw [List.filterMap_map]
    induction ds with
    | nil => rfl
    | cons d ds ih =>
      have hd : (f ∘ hexChar) d = some d := hf d (hds d List.mem_cons_self)
      rw [List.filterMap_cons_some hd, ih fun e he => hds e (List.mem_cons_of_mem d he)]

theorem hexValue_hexChar : ∀ d < 16, hexValue (hexChar d) = some d := by decide

theorem isUpperHex_hexChar : ∀ d < 16, isUpperHex (hexChar d) = true := by decide

/-! ## Rows -/

theorem hexDigits_eq_some :
    hexDigits n text = some ds ↔ (text.length = n ∧ ∀ c ∈ text, (hexValue c).isSome) ∧ text.filterMap hexValue = ds := by
  rw [hexDigits, Option.ite_none_right_eq_some, Option.some.injEq]

theorem inodeNumber_eq_some : inodeNumber chars text = some n ↔
      ((1 ≤ text.length ∧ text.length ≤ 20) ∧ ∀ c ∈ text, (chars.decimal c).isSome) ∧
        value 10 (text.filterMap chars.decimal) = n := by
  rw [inodeNumber, Option.ite_none_right_eq_some, Option.some.injEq]

theorem isSlot_iff : isSlot chars text = true ↔
      ∃ slot, text = slot ++ [':'] ∧ slot ≠ [] ∧ ∀ c ∈ slot, (chars.decimal c).isSome := by
  unfold isSlot
  simp only [Bool.and_eq_true, beq_iff_eq, bne_iff_ne, List.all_eq_true]
  constructor
  · rintro ⟨⟨hlast, hne⟩, hall⟩
    exact ⟨text.dropLast, (List.dropLast_append_getLast? _ hlast).symm, hne, hall⟩
  · rintro ⟨slot, rfl, hne, hall⟩
    simpa using ⟨hne, by simpa using hall⟩

theorem eq_of_splitOn {port : Text} (h : text.splitOn ':' = [address, port]) : text = address ++ ':' :: port := by
  have hjoin : [':'].intercalate (text.splitOn ':') = text := List.intercalate_splitOn ':'
  rw [h] at hjoin
  simpa using hjoin.symm

theorem splitOn_eq {port : Text} (haddress : ':' ∉ address) (hport : ':' ∉ port) :
    (address ++ ':' :: port).splitOn ':' = [address, port] := by
  have hnot {text : Text} (h : ':' ∉ text) : ∀ c ∈ text, (c == ':') = false := by
    intro c hc
    rw [beq_eq_false_iff_ne]
    rintro rfl
    exact h hc
  rw [List.splitOn, List.splitOnP_append_cons_of_forall_mem (hnot haddress) ':' (by simp),
    List.splitOnP_eq_singleton (hnot hport)]

theorem state_iff {state : Text} :
    state.length = 2 ∧ state.all isUpperHex = true ↔ ∃ d e, isUpperHex d ∧ isUpperHex e ∧ state = [d, e] := by
  constructor
  · rintro ⟨hlen, hall⟩
    obtain ⟨d, e, rfl⟩ := List.length_eq_two.mp hlen
    simp only [List.all_cons, List.all_nil, Bool.and_true, Bool.and_eq_true] at hall
    exact ⟨d, e, hall.1, hall.2, rfl⟩
  · rintro ⟨d, e, hd, he, rfl⟩
    simp [hd, he]

theorem Row.WellFormed.colon_notMem {r : Row} (h : r.WellFormed chars ipv6) : ':' ∉ r.address ∧ ':' ∉ r.port := by
  have hcolon : (hexValue ':').isSome = false := by decide
  constructor
  · intro hmem
    simpa [hcolon] using h.address.2 ':' hmem
  · intro hmem
    simpa [hcolon] using h.port.2 ':' hmem

theorem parseRow_iff {found : Option Listener} : parseRow chars order ipv6 protocol line = some found ↔
      ∃ r : Row, r.In line ∧ r.WellFormed chars ipv6 ∧
        found = if r.isListening chars protocol then some (r.listener chars order ipv6 protocol) else none := by
  constructor
  · intro h
    unfold parseRow at h
    split at h
    case h_2 => cases h
    rename_i slot endpoint remote st c₄ c₅ c₆ c₇ c₈ ino extra hsplit
    by_cases hslot : isSlot chars slot = true
    swap
    · rw [if_neg hslot] at h
      cases h
    rw [if_pos hslot] at h
    cases hino : inodeNumber chars ino with
    | none =>
      rw [hino] at h
      cases h
    | some inode =>
      rw [hino] at h
      dsimp only at h
      by_cases hstate : (st.flatMap chars.upper).length = 2 ∧ (st.flatMap chars.upper).all isUpperHex = true
      swap
      · rw [if_neg hstate] at h
        cases h
      rw [if_pos hstate] at h
      split at h
      case h_2 => cases h
      rename_i address port hendpoint
      split at h
      case h_2 => cases h
      rename_i ds decoded hport hdecoded
      obtain ⟨slot, rfl, hdigits⟩ := isSlot_iff.mp hslot
      obtain ⟨hinode, rfl⟩ := inodeNumber_eq_some.mp hino
      obtain ⟨hfour, rfl⟩ := hexDigits_eq_some.mp hport
      obtain ⟨ds, hds, rfl⟩ := Option.map_eq_some_iff.mp hdecoded
      obtain ⟨haddress, rfl⟩ := hexDigits_eq_some.mp hds
      refine ⟨⟨slot, address, port, st, ino⟩, ?_, ⟨hdigits, haddress, hfour, state_iff.mp hstate, hinode⟩, ?_⟩
      · exact ⟨remote, c₄, c₅, c₆, c₇, c₈, extra, by rw [hsplit, eq_of_splitOn hendpoint]⟩
      · simp only [Row.isListening, Row.listener, beq_iff_eq]
        split_ifs at h ⊢ <;> exact (Option.some.inj h).symm
  · rintro ⟨r, ⟨remote, c₄, c₅, c₆, c₇, c₈, extra, hsplit⟩, hwell, rfl⟩
    have hslot := isSlot_iff.mpr ⟨r.slot, rfl, hwell.slot⟩
    have hino := inodeNumber_eq_some.mpr ⟨hwell.inode, rfl⟩
    have hport := hexDigits_eq_some.mpr ⟨hwell.port, rfl⟩
    have haddress := hexDigits_eq_some.mpr ⟨hwell.address, rfl⟩
    have hendpoint := splitOn_eq hwell.colon_notMem.1 hwell.colon_notMem.2
    unfold parseRow
    rw [hsplit]
    dsimp only
    rw [if_pos hslot, hino]
    dsimp only
    rw [if_pos (state_iff.mpr hwell.state), hendpoint]
    dsimp only
    rw [hport, decodeAddress, haddress]
    simp only [Option.map_some, Row.isListening, Row.listener, beq_iff_eq]
    split_ifs <;> rfl

theorem parseRows_iff {listeners : List Listener} : parseRows chars order ipv6 protocol lines = some listeners ↔
      ∃ rows : List Row, List.Forall₂ (fun line r => r.In line ∧ r.WellFormed chars ipv6) (lines.filter (!isBlank ·)) rows ∧
        listeners = (rows.filter (·.isListening chars protocol)).map (·.listener chars order ipv6 protocol) := by
  induction lines generalizing listeners with
  | nil =>
    rw [parseRows, Option.some.injEq]
    constructor
    · rintro rfl
      exact ⟨[], .nil, rfl⟩
    · rintro ⟨rows, hrows, rfl⟩
      cases hrows
      rfl
  | cons line lines ih =>
    unfold parseRows
    by_cases hblank : isBlank line = true
    · rw [if_pos hblank, ih, List.filter_cons_of_neg (by simp [hblank])]
    rw [if_neg hblank, List.filter_cons_of_pos (by simp [hblank])]
    constructor
    · intro h
      cases hrow : parseRow chars order ipv6 protocol line with
      | none =>
        rw [hrow] at h
        cases h
      | some found =>
        rw [hrow] at h
        obtain ⟨rest, hrest, rfl⟩ := Option.map_eq_some_iff.mp h
        obtain ⟨r, hin, hwell, rfl⟩ := parseRow_iff.mp hrow
        obtain ⟨rows, hrows, rfl⟩ := ih.mp hrest
        refine ⟨r :: rows, .cons ⟨hin, hwell⟩ hrows, ?_⟩
        by_cases hlistening : r.isListening chars protocol = true
        · rw [if_pos hlistening, List.filter_cons_of_pos (by simpa using hlistening)]
          rfl
        · rw [if_neg hlistening, List.filter_cons_of_neg (by simpa using hlistening)]
          rfl
    · rintro ⟨rows, hrows, rfl⟩
      cases hrows with
      | @cons _ r _ rows hr hrows =>
        rw [parseRow_iff.mpr ⟨r, hr.1, hr.2, rfl⟩]
        dsimp only
        rw [ih.mpr ⟨rows, hrows, rfl⟩]
        by_cases hlistening : r.isListening chars protocol = true
        · rw [if_pos hlistening, List.filter_cons_of_pos (by simpa using hlistening)]
          rfl
        · rw [if_neg hlistening, List.filter_cons_of_neg (by simpa using hlistening)]
          rfl

/-! ## Lines and columns -/

theorem split_space {c : Char} (hc : isSpace c = true) (line : Text) : split (c :: line) = split line := by
  rw [split, List.splitOnP_cons_eq_if_modifyHead, if_pos hc]
  rfl

theorem split_field {rest : Text} (hfield : field ≠ [] ∧ ∀ c ∈ field, isSpace c = false) (hsep : ∀ c ∈ rest.head?, c = ' ') :
    split (field ++ rest) = field :: split rest := by
  cases rest with
  | nil =>
    rw [List.append_nil, split, List.splitOnP_eq_singleton hfield.2, List.filter_cons_of_pos (by simpa using hfield.1)]
    rfl
  | cons c rest =>
    obtain rfl : c = ' ' := hsep c rfl
    rw [split_space (by decide), split, List.splitOnP_append_cons_of_forall_mem hfield.2 ' ' (by decide),
      List.filter_cons_of_pos (by simpa using hfield.1)]
    rfl

theorem split_pad {pad : Text} (hpad : ∀ c ∈ pad, c = ' ') : split (pad ++ line) = split line := by
  induction pad with
  | nil => rfl
  | cons c pad ih =>
    obtain rfl : c = ' ' := hpad c List.mem_cons_self
    rw [List.cons_append, split_space (by decide), ih fun d hd => hpad d (List.mem_cons_of_mem _ hd)]

theorem Columns.split_eq (h : Columns fields line) : split line = fields := by
  induction h with
  | @nil pad hpad =>
    rw [← List.append_nil pad, split_pad hpad]
    rfl
  | cons hpad hfield hsep _ ih => rw [split_pad hpad, split_field hfield hsep, ih]

theorem isLineBreak_false {c : Char} (hc : c = ' ' ∨ isSpace c = false) : isLineBreak c = false := by
  rcases hc with rfl | hc
  · decide
  · simp only [isSpace, isLineBreak, Bool.or_eq_false_iff, decide_eq_false_iff_not, List.contains_eq_mem] at hc ⊢
    simp at hc ⊢
    omega

theorem Columns.isLineBreak_false (h : Columns fields line) : ∀ c ∈ line, isLineBreak c = false := by
  induction h with
  | nil hpad => exact fun c hc => ProcNet.isLineBreak_false (.inl (hpad c hc))
  | cons hpad hfield _ _ ih =>
    intro c hc
    rcases List.mem_append.mp hc with hc | hc
    · exact ProcNet.isLineBreak_false (.inl (hpad c hc))
    rcases List.mem_append.mp hc with hc | hc
    · exact ProcNet.isLineBreak_false (.inr (hfield.2 c hc))
    · exact ih c hc

theorem Columns.isBlank_false (h : Columns (field :: fields) line) : isBlank line = false := by
  cases h with
  | @cons pad _ rest _ _ hfield =>
    obtain ⟨c, hc⟩ := List.exists_mem_of_ne_nil field hfield.1
    rw [isBlank, List.all_eq_false]
    exact ⟨c, by simp [hc], by simp [hfield.2 c hc]⟩

theorem splitlines_line {rest : Text} (h : ∀ c ∈ line, isLineBreak c = false) :
    splitlines (line ++ '\n' :: rest) = line :: splitlines rest := by
  induction line with
  | nil =>
    rw [List.nil_append, splitlines, if_neg (by simp), if_pos (by decide)]
  | cons c line ih =>
    have hc := h c List.mem_cons_self
    have hreturn : c ≠ '\r' := by
      rintro rfl
      exact absurd hc (by decide)
    rw [List.cons_append, splitlines, if_neg (by simp [hreturn]), if_neg (by simp [hc]),
      ih fun d hd => h d (List.mem_cons_of_mem _ hd)]

theorem splitlines_lines (h : ∀ line ∈ lines, ∀ c ∈ line, isLineBreak c = false) :
    splitlines (lines.flatMap (· ++ ['\n'])) = lines := by
  induction lines with
  | nil => rfl
  | cons line lines ih =>
    rw [List.flatMap_cons, List.append_assoc, List.singleton_append, splitlines_line (h line List.mem_cons_self),
      ih fun l hl => h l (List.mem_cons_of_mem _ hl)]

/-! ## Addresses -/

theorem fromHex_digits (v : Nat) (ds : List Nat) : fromHex (digits 16 8 v ++ ds) = toBytes .big 4 v ++ fromHex ds := by
  have hpair (i : Nat) : 16 * (v / 16 ^ (2 * i + 1) % 16) + v / 16 ^ (2 * i) % 16 = v / 256 ^ i % 256 := by
    rw [show 256 = 16 ^ 2 by rfl, ← pow_mul, pow_succ 16 (2 * i), ← Nat.div_div_eq_div_mul]
    omega
  have h₀ := hpair 0
  have h₁ := hpair 1
  have h₂ := hpair 2
  have h₃ := hpair 3
  norm_num at h₀ h₁ h₂ h₃
  simp [digits, toBytes, ByteOrder.arrange, List.range_succ, fromHex, h₀, h₁, h₂, h₃]

theorem swapWords_word {order : ByteOrder} {word : List UInt8} (hword : word.length = 4) (rest : List UInt8) :
    swapWords order (word ++ rest) = order.arrange word ++ swapWords order rest := by
  obtain ⟨a, b, c, d, rfl⟩ := List.length_eq_four.mp hword
  rfl

theorem wordsText_eq {bs : List UInt8} (hbs : 4 ∣ bs.length) :
    ∃ ds, wordsText order bs = ds.map hexChar ∧ (∀ d ∈ ds, d < 16) ∧ ds.length = 2 * bs.length ∧
      swapWords order (fromHex ds) = bs := by
  fun_induction wordsText order bs with
  | case1 a b c d rest ih =>
    obtain ⟨ds, htext, hlt, hlen, hswap⟩ := ih (by simpa [Nat.add_assoc] using hbs)
    refine ⟨digits 16 8 (ofBytes order [a, b, c, d]) ++ ds, ?_, ?_, ?_, ?_⟩
    · rw [htext, hexText, List.map_append]
    · intro e he
      rcases List.mem_append.mp he with he | he
      · exact lt_of_mem_digits (by decide) he
      · exact hlt e he
    · simp [hlen]
      omega
    · have hword : order.arrange (toBytes .big 4 (ofBytes order [a, b, c, d])) = [a, b, c, d] :=
        toBytes_ofBytes order [a, b, c, d]
      rw [fromHex_digits, swapWords_word (length_toBytes _ _ _), hword, hswap]
      rfl
  | case2 bs hshort =>
    have hnil : bs = [] := by
      match bs, hbs with
      | [], _ => rfl
      | [_], h | [_, _], h | [_, _, _], h => norm_num at h
      | a :: b :: c :: d :: rest, _ => exact absurd rfl (hshort a b c d rest)
    refine ⟨[], rfl, by simp, by simp [hnil], ?_⟩
    rw [hnil]
    cases order <;> rfl

theorem length_networkBytes (a : Address) : (networkBytes a).length = if isV6 a then 16 else 4 := by
  cases a <;> simp [networkBytes, isV6]

theorem addressOf_networkBytes (a : Address) : addressOf (isV6 a) (networkBytes a) = a := by
  cases a with
  | v4 value =>
    have hlt : value.toNat < 256 ^ 4 := value.isLt
    simp [addressOf, networkBytes, isV6, ofBytes_toBytes hlt]
  | v6 value =>
    have hlt : value.toNat < 256 ^ 16 := value.isLt
    simp [addressOf, networkBytes, isV6, ofBytes_toBytes hlt]

/-! ## The rows that are printed -/

theorem decimalText_eq (n : Nat) :
    ∃ ds, decimalText n = ds.map hexChar ∧ (∀ d ∈ ds, d < 10) ∧ ds ≠ [] ∧ value 10 ds = n ∧
      ∀ k, 0 < k → n < 10 ^ k → ds.length ≤ k := by
  unfold decimalText
  by_cases hn : n = 0
  · rw [if_pos hn, hn]
    exact ⟨[0], rfl, by simp, by simp, rfl, fun k hk _ => hk⟩
  · rw [if_neg hn]
    refine ⟨(Nat.digits 10 n).reverse, rfl, ?_, ?_, ?_, ?_⟩
    · intro d hd
      exact Nat.digits_lt_base (by decide) (List.mem_reverse.mp hd)
    · simpa using Nat.digits_ne_nil_iff_ne_zero.mpr hn
    · rw [value_eq_ofDigits, List.reverse_reverse, Nat.ofDigits_digits]
    · intro k _ hlt
      rw [List.length_reverse]
      exact (Nat.digits_length_le_iff (by decide) n).mpr hlt

theorem hexText_two (v : Nat) : hexText 2 v = [hexChar (v / 16 % 16), hexChar (v % 16)] := by
  simp [hexText, digits, List.range_succ]

theorem hexText_inj {v w : Nat} (hv : v < 16 ^ n) (hw : w < 16 ^ n) : hexText n v = hexText n w ↔ v = w := by
  constructor
  · intro h
    have hmap {u : Nat} : (hexText n u).filterMap hexValue = digits 16 n u :=
      (filterMap_map_hexChar hexValue_hexChar fun d hd => lt_of_mem_digits (by decide) hd).2
    rw [← value_digits hv, ← value_digits hw, ← hmap, ← hmap, h]
  · rintro rfl
    rfl

namespace Socket

variable (s : Socket ipv6)

def row (order : ByteOrder) : Row :=
  ⟨decimalText s.slot, wordsText order (networkBytes s.address), hexText 4 s.port, hexText 2 s.state, decimalText s.inode⟩

theorem row_spec (order : ByteOrder) (protocol : TransportProtocol) :
    (s.row order).WellFormed chars ipv6 ∧ (s.row order).isListening chars protocol = s.isListening protocol ∧
      (s.row order).listener chars order ipv6 protocol = s.listener protocol := by
  have hdigits {n v : Nat} : ∀ d ∈ digits 16 n v, d < 16 := fun d hd => lt_of_mem_digits (by decide) hd
  obtain ⟨slot, hslot, hslot_lt, hslot_ne, -, -⟩ := decimalText_eq s.slot
  obtain ⟨inode, hinode, hinode_lt, hinode_ne, hinode_value, hinode_len⟩ := decimalText_eq s.inode
  have hdvd : 4 ∣ (networkBytes s.address).length := by
    rw [length_networkBytes]
    split_ifs <;> decide
  obtain ⟨address, haddress, haddress_lt, haddress_len, hswap⟩ := @wordsText_eq order _ hdvd
  obtain ⟨hslot_some, -⟩ := filterMap_map_hexChar chars.decimal_hexChar hslot_lt
  obtain ⟨hinode_some, hinode_map⟩ := filterMap_map_hexChar chars.decimal_hexChar hinode_lt
  obtain ⟨haddress_some, haddress_map⟩ := filterMap_map_hexChar hexValue_hexChar haddress_lt
  obtain ⟨hport_some, hport_map⟩ := filterMap_map_hexChar hexValue_hexChar (@hdigits 4 s.port)
  have hport : s.port < 16 ^ 4 := by
    have hrange := s.port_range.2
    omega
  have hupper : (hexText 2 s.state).flatMap chars.upper = hexText 2 s.state := by
    rw [hexText_two]
    simp [chars.upper_hexChar _ (Nat.mod_lt _ _)]
  refine ⟨⟨?_, ?_, ?_, ?_, ?_⟩, ?_, ?_⟩
  · simp only [row]
    rw [hslot]
    exact ⟨by simpa using hslot_ne, hslot_some⟩
  · simp only [row]
    rw [haddress]
    refine ⟨?_, haddress_some⟩
    rw [List.length_map, haddress_len, length_networkBytes, s.family, width]
    cases ipv6 <;> rfl
  · exact ⟨by simp [row, hexText], hport_some⟩
  · have hlt (d : Nat) : isUpperHex (hexChar (d % 16)) = true := isUpperHex_hexChar _ (Nat.mod_lt _ (by decide))
    exact ⟨_, _, hlt _, hlt _, hupper.trans (hexText_two s.state)⟩
  · simp only [row]
    rw [hinode]
    refine ⟨⟨?_, ?_⟩, hinode_some⟩
    · simpa [Nat.one_le_iff_ne_zero] using hinode_ne
    · rw [List.length_map]
      exact hinode_len 20 (by decide) (s.inode_lt.trans (by decide))
  · have hstate : s.state < 16 ^ 2 := s.state_lt
    have htext : listening protocol = hexText 2 (if protocol = .tcp then 10 else 7) := by cases protocol <;> rfl
    have hten : (if protocol = .tcp then 10 else 7) < 16 ^ 2 := by split_ifs <;> decide
    rw [Row.isListening, row, hupper, htext, Bool.eq_iff_iff, beq_iff_eq, hexText_inj hstate hten]
    cases protocol <;> simp [isListening]
  · simp only [row, Row.listener, listener]
    rw [haddress, hinode, hexText, haddress_map, hswap, hport_map, hinode_map, hinode_value, value_digits hport]
    have hfamily := addressOf_networkBytes s.address
    rw [s.family] at hfamily
    rw [hfamily]

end Socket

theorem lines_printed {sockets : List (Socket ipv6)}
    (h : List.Forall₂ (fun s line => Columns (Socket.columns s order) line) sockets lines) :
    (∀ line ∈ lines, ∀ c ∈ line, isLineBreak c = false) ∧
      List.Forall₂ (fun line r => Row.In r line ∧ r.WellFormed chars ipv6) (lines.filter (!isBlank ·))
        (sockets.map (·.row order)) := by
  induction h with
  | nil => exact ⟨by simp, .nil⟩
  | @cons s line sockets lines hline _ ih =>
    obtain ⟨hbreaks, hrows⟩ := ih
    refine ⟨List.forall_mem_cons.mpr ⟨hline.isLineBreak_false, hbreaks⟩, ?_⟩
    rw [List.filter_cons_of_pos (by simp [hline.isBlank_false])]
    refine .cons ⟨⟨_, _, _, _, _, _, _, hline.split_eq⟩, ?_⟩ hrows
    exact (s.row_spec order .tcp).1

theorem listeners_printed (sockets : List (Socket ipv6)) :
    ((sockets.map (·.row order)).filter (·.isListening chars protocol)).map (·.listener chars order ipv6 protocol) =
      (sockets.filter (·.isListening protocol)).map (·.listener protocol) := by
  rw [List.filter_map, List.map_map]
  have hfilter : (fun r : Row => r.isListening chars protocol) ∘ (fun s : Socket ipv6 => s.row order) =
      fun s => s.isListening protocol := by
    funext s
    exact (s.row_spec order protocol).2.1
  have hmap : (fun r : Row => r.listener chars order ipv6 protocol) ∘ (fun s : Socket ipv6 => s.row order) =
      fun s => s.listener protocol := by
    funext s
    exact (s.row_spec order protocol).2.2
  rw [hfilter, hmap]

/-- The text of a table is read to the listeners of its sockets, and of a text that is read, every row is well formed and
those that listen are the result. -/
theorem proc_net_loses_nothing (chars : CharacterData) (order : ByteOrder) (ipv6 : Bool) (protocol : TransportProtocol) :
    (∀ (sockets : List (Socket ipv6)) (text : Text), sockets.length < maxProcNetLines → Table order ipv6 sockets text →
      parseProcNet chars order ipv6 protocol text =
        some ((sockets.filter (·.isListening protocol)).map (·.listener protocol))) ∧
    ∀ (text : Text) (listeners : List Listener), parseProcNet chars order ipv6 protocol text = some listeners →
      ∃ (header : Text) (lines : List Text) (rows : List Row), splitlines text = header :: lines ∧
        List.Forall₂ (fun line r => r.In line ∧ r.WellFormed chars ipv6) (lines.filter (!isBlank ·)) rows ∧
        listeners = (rows.filter (·.isListening chars protocol)).map (·.listener chars order ipv6 protocol) := by
  constructor
  · rintro sockets text hcount ⟨more, header, lines, hheader, hlines, rfl⟩
    obtain ⟨hbreaks, hrows⟩ := @lines_printed chars order ipv6 _ _ hlines
    have hheader_take : (split header).take 4 = headerColumns ipv6 := by
      rw [hheader.split_eq]
      exact List.take_left' rfl
    have hlength := hlines.length_eq
    rw [parseProcNet, splitlines_lines (List.forall_mem_cons.mpr ⟨hheader.isLineBreak_false, hbreaks⟩)]
    dsimp only
    rw [if_neg (by omega), if_neg (not_not.mpr hheader_take)]
    exact parseRows_iff.mpr ⟨_, hrows, (listeners_printed sockets).symm⟩
  · intro text listeners h
    unfold parseProcNet at h
    cases hsplit : splitlines text with
    | nil =>
      rw [hsplit] at h
      cases h
    | cons header lines =>
      rw [hsplit] at h
      dsimp only at h
      split_ifs at h
      obtain ⟨rows, hrows, hlisteners⟩ := parseRows_iff.mp h
      exact ⟨header, lines, rows, rfl, hrows, hlisteners⟩

end Sentinel.Reservation.ProcNet
