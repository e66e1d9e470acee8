import Sentinel.Lib.Spans
import Sentinel.Webauthn.Cbor

/-!
# Proofs: the strict CBOR decoder

`item_iff` says exactly what the decoder accepts: at an offset stands an encoding of the value that it returns, with no
more levels than are left, and the offset that it returns is the end of this encoding. Bounds, locality and the round trip
are read off from it.
-/

namespace Sentinel.Webauthn

open Numerals

variable {data : Bytes} {offset stop n : Nat} {v : Value}

/-! ## Heads -/

theorem toNat_initial {major info : Nat} (hmajor : major < 8) (hinfo : info < 32) :
    (UInt8.ofNat (major * 32 + info)).toNat = major * 32 + info := by
  rw [UInt8.toNat_ofNat', Nat.mod_eq_of_lt]
  norm_num
  omega

theorem shiftRight_five (b : Nat) : b >>> 5 = b / 32 := Nat.shiftRight_eq_div_pow b 5

theorem and_mask (b : Nat) : b &&& 0x1F = b % 32 := Nat.and_two_pow_sub_one_eq_mod b 5

/-- The bytes of a numeral of a fixed size, where the data are long enough. -/
theorem numeral_span {size : Nat} (h : offset + size ≤ data.length) :
    let number := ofBytes .big (data.extract offset (offset + size))
    number < 256 ^ size ∧ Span data offset (toBytes .big size number) (offset + size) := by
  have hspan := Span.of_extract (Nat.le_add_right offset size) h
  have hlen : (data.extract offset (offset + size)).length = size := by
    have hstop := hspan.2
    omega
  have hlt := ofBytes_lt .big (data.extract offset (offset + size))
  have hbytes := toBytes_ofBytes .big (data.extract offset (offset + size))
  rw [hlen] at hlt hbytes
  exact ⟨hlt, hbytes.symm ▸ hspan⟩

variable {argument : Nat} {enc : Bytes}

theorem IsHead.length_pos {major info : Nat} {hd : Bytes} (h : IsHead major argument info hd) : 0 < hd.length := by
  cases h <;> simp

theorem readHead_iff {head : Head} :
    readHead data offset = some head ↔
      ∃ hd, Span data offset hd head.next ∧ head.major < 8 ∧ IsHead head.major head.argument head.info hd := by
  constructor
  · intro h
    unfold readHead at h
    split_ifs at h with hlt
    set initial := (data.get ⟨offset, hlt⟩).toNat with hinitial
    have hbyte : data[offset]? = some (UInt8.ofNat (initial / 32 * 32 + initial % 32)) := by
      rw [Nat.div_add_mod', hinitial, UInt8.ofNat_toNat]
      simp [hlt]
    have hbound : initial < 256 := UInt8.toNat_lt _
    have hspan : Span data offset [UInt8.ofNat (initial / 32 * 32 + initial % 32)] (offset + 1) :=
      Span.singleton_iff.mpr ⟨hbyte, rfl⟩
    simp only [shiftRight_five, and_mask] at h
    split_ifs at h with hshort hlong hend
    · obtain rfl := Option.some.inj h
      exact ⟨_, hspan, by dsimp only; omega, .short hshort⟩
    · obtain rfl := Option.some.inj h
      obtain ⟨k, hk, hinfo⟩ : ∃ k < 4, initial % 32 = 24 + k := by
        refine ⟨initial % 32 - 24, ?_, ?_⟩ <;> simp at hlong <;> omega
      have hsize : 1 <<< (initial % 32 - 24) = 2 ^ k := by
        rw [Nat.shiftLeft_eq, hinfo, Nat.add_sub_cancel_left, Nat.one_mul]
      rw [hsize] at hend ⊢
      obtain ⟨hargument, hrest⟩ := numeral_span (Nat.not_lt.mp hend)
      rw [hinfo] at hspan
      refine ⟨_, Span.append_iff.mpr ⟨_, hspan, hrest⟩, by dsimp only; omega, ?_⟩
      simpa [hinfo] using @IsHead.long (initial / 32) _ k hk hargument
  · rintro ⟨hd, hspan, hmajor, hhead⟩
    obtain ⟨major, info, argument, next⟩ := head
    dsimp only at hspan hmajor hhead
    -- the initial byte, whatever follows it
    have hinitial (info : Nat) (hinfo : info < 32) (rest : Bytes)
        (h : Span data offset (UInt8.ofNat (major * 32 + info) :: rest) next) :
        ∃ hlt : offset < data.length, (data.get ⟨offset, hlt⟩).toNat >>> 5 = major ∧
          (data.get ⟨offset, hlt⟩).toNat &&& 0x1F = info ∧ Span data (offset + 1) rest next := by
      obtain ⟨mid, hfirst, hrest⟩ := Span.append_iff.mp (show Span data offset ([_] ++ rest) next from h)
      obtain ⟨hget, rfl⟩ := Span.singleton_iff.mp hfirst
      obtain ⟨hlt, hget⟩ := List.getElem?_eq_some_iff.mp hget
      have hbyte : (data.get ⟨offset, hlt⟩).toNat = major * 32 + info := by
        rw [List.get_eq_getElem, hget, toNat_initial hmajor hinfo]
      refine ⟨hlt, ?_, ?_, hrest⟩
      · rw [hbyte, shiftRight_five]
        omega
      · rw [hbyte, and_mask]
        omega
    cases hhead with
    | short h =>
      obtain ⟨hlt, hmaj, hinf, hrest⟩ := hinitial info (by omega) [] hspan
      rw [Span.nil_iff] at hrest
      simp only [readHead, hlt, hmaj, hinf, hrest, h, dite_true, if_true]
    | long k hk h =>
      obtain ⟨hlt, hmaj, hinf, hrest⟩ := hinitial (24 + k) (by omega) _ hspan
      have hsize : 1 <<< (24 + k - 24) = 2 ^ k := by
        rw [Nat.shiftLeft_eq, Nat.add_sub_cancel_left, Nat.one_mul]
      have hnext : next = offset + 1 + 2 ^ k := by
        have hstop := hrest.2
        rwa [length_toBytes] at hstop
      have hend : next ≤ data.length := hspan.stop_le (by simp)
      have hmem : 24 + k ∈ [24, 25, 26, 27] := by
        simp
        omega
      have hextract := hrest.extract_eq
      simp only [readHead, hlt, hmaj, hinf, hmem, hsize, dite_true, if_true]
      rw [if_neg (by omega), if_neg (by omega), ← hnext, hextract, ofBytes_toBytes h]

/-! ## Strings -/

theorem readRaw_iff {raw : Bytes} (hoffset : offset ≤ data.length) :
    readRaw data offset argument = some (raw, stop) ↔ Span data offset raw stop ∧ raw.length = argument := by
  unfold readRaw
  dsimp only
  constructor
  · intro h
    split_ifs at h with hend
    obtain ⟨rfl, rfl⟩ := Prod.mk.inj (Option.some.inj h)
    have hspan := Span.of_extract (Nat.le_add_right offset argument) (Nat.not_lt.mp hend)
    refine ⟨hspan, ?_⟩
    have hstop := hspan.2
    omega
  · rintro ⟨hspan, rfl⟩
    have hstop := hspan.2
    have hend : stop ≤ data.length := by
      by_cases hnil : raw = []
      · simp only [hnil, List.length_nil, Nat.add_zero] at hstop
        omega
      · exact hspan.stop_le hnil
    rw [if_neg (by omega), ← hstop, hspan.extract_eq]

theorem decodeUtf8_iff {raw : Bytes} {s : String} : decodeUtf8 raw = some s ↔ raw = utf8 s := by
  unfold decodeUtf8 String.fromUTF8? utf8
  constructor
  · intro h
    split_ifs at h with hvalid
    obtain rfl := Option.some.inj h
    simp [String.fromUTF8]
  · rintro rfl
    have hvalid : (ByteArray.mk s.toByteArray.data.toList.toArray).IsValidUTF8 := by simpa using s.isValidUTF8
    rw [dif_pos hvalid]
    simp [String.fromUTF8]

/-! ## Arrays and maps -/

section Loops

variable {E : Value → Bytes → Prop} {decode : Nat → Option (Value × Nat)}

theorem readItems_iff (hdecode : ∀ o v e, decode o = some (v, e) ↔ ∃ enc, Span data o enc e ∧ E v enc) {vs : List Value} :
    readItems decode n offset = some (vs, stop) ↔
      vs.length = n ∧ ∃ encs, List.Forall₂ E vs encs ∧ Span data offset encs.flatten stop := by
  induction n generalizing offset vs with
  | zero =>
    cases vs with
    | nil => simp [readItems, eq_comm]
    | cons v vs => simp [readItems]
  | succ n ih =>
    simp only [readItems, Option.bind_eq_some_iff, Option.map_eq_some_iff, Prod.exists, Prod.mk.injEq]
    constructor
    · rintro ⟨v, mid, hv, vs', stop', hvs, rfl, rfl⟩
      obtain ⟨enc, hspan, hE⟩ := (hdecode _ _ _).mp hv
      obtain ⟨hlen, encs, hEs, hspans⟩ := ih.mp hvs
      refine ⟨by simp [hlen], enc :: encs, .cons hE hEs, ?_⟩
      exact Span.append_iff.mpr ⟨mid, hspan, hspans⟩
    · rintro ⟨hlen, encs, hEs, hspan⟩
      cases hEs with
      | nil => simp at hlen
      | cons hE hEs =>
        obtain ⟨mid, hfirst, hrest⟩ := Span.append_iff.mp hspan
        exact ⟨_, mid, (hdecode _ _ _).mpr ⟨_, hfirst, hE⟩, _, stop, ih.mpr ⟨by simpa using hlen, _, hEs, hrest⟩, rfl, rfl⟩

theorem key?_iff {item : Value} {key : Key} : item.key? = some key ↔ item = key.value := by
  cases item <;> cases key <;> simp [Value.key?, Key.value]

theorem readEntries_iff (hdecode : ∀ o v e, decode o = some (v, e) ↔ ∃ enc, Span data o enc e ∧ E v enc)
    {result es : List (Key × Value)} (hresult : (result.map Prod.fst).Nodup) :
    readEntries decode n result offset = some (es, stop) ↔
      ∃ new, es = result ++ new ∧ new.length = n ∧ (es.map Prod.fst).Nodup ∧
        ∃ encs, List.Forall₂ (EntryWith E) new encs ∧ Span data offset encs.flatten stop := by
  induction n generalizing offset result with
  | zero =>
    simp only [readEntries, Option.some.injEq, Prod.mk.injEq, List.length_eq_zero_iff]
    constructor
    · rintro ⟨rfl, rfl⟩
      exact ⟨[], by simp, rfl, hresult, [], .nil, by simp⟩
    · rintro ⟨_, rfl, rfl, -, encs, hEs, hspan⟩
      cases hEs
      simp_all
  | succ n ih =>
    simp only [readEntries, Option.bind_eq_some_iff, Prod.exists, key?_iff]
    constructor
    · rintro ⟨item, mid, hitem, key, rfl, h⟩
      split_ifs at h with hkey
      simp only [Option.bind_eq_some_iff, Prod.exists] at h
      obtain ⟨v, mid', hv, hes⟩ := h
      obtain ⟨k, hspan, hk⟩ := (hdecode _ _ _).mp hitem
      obtain ⟨enc, hspan', hE⟩ := (hdecode _ _ _).mp hv
      have hresult' : ((result ++ [(key, v)]).map Prod.fst).Nodup := by
        rw [List.map_append, List.nodup_append]
        refine ⟨hresult, by simp, ?_⟩
        intro a ha b hb hab
        simp only [List.map_cons, List.map_nil, List.mem_singleton] at hb
        exact hkey (hb ▸ hab ▸ ha)
      obtain ⟨new, rfl, hlen, hnodup, encs, hEs, hspans⟩ := (ih hresult').mp hes
      refine ⟨(key, v) :: new, by simp, by simp [hlen], hnodup, (k ++ enc) :: encs, .cons ⟨k, enc, hk, hE, rfl⟩ hEs, ?_⟩
      exact Span.append_iff.mpr ⟨mid', Span.append_iff.mpr ⟨mid, hspan, hspan'⟩, hspans⟩
    · rintro ⟨new, rfl, hlen, hnodup, encs, hEs, hspan⟩
      cases hEs with
      | nil => simp at hlen
      | @cons e enc new encs hentry hEs =>
        obtain ⟨key, v⟩ := e
        obtain ⟨k, enc, hk, hE, rfl⟩ := hentry
        obtain ⟨mid', hfirst, hrest⟩ := Span.append_iff.mp hspan
        obtain ⟨mid, hspan, hspan'⟩ := Span.append_iff.mp hfirst
        have hsplit : result ++ (key, v) :: new = (result ++ [(key, v)]) ++ new := by simp
        have hkey : key ∉ result.map Prod.fst := by
          rw [List.map_append, List.nodup_append] at hnodup
          intro hmem
          exact hnodup.2.2 key hmem key (by simp) rfl
        have hresult' : ((result ++ [(key, v)]).map Prod.fst).Nodup := by
          rw [hsplit, List.map_append] at hnodup
          exact (List.nodup_append.mp hnodup).1
        refine ⟨_, mid, (hdecode _ _ _).mpr ⟨k, hspan, hk⟩, key, rfl, ?_⟩
        rw [if_neg hkey]
        simp only [Option.bind_eq_some_iff, Prod.exists]
        refine ⟨v, mid', (hdecode _ _ _).mpr ⟨enc, hspan', hE⟩, (ih hresult').mpr ?_⟩
        exact ⟨new, hsplit, by simpa using hlen, hnodup, encs, hEs, hrest⟩

end Loops

/-! ## Items -/

theorem key_limited (key : Key) : key.value.Limited := by
  cases key with
  | int n => exact .int n
  | text s => exact .text s

theorem entryWith_limited :
    (EntryWith fun v enc => v.Limited ∧ EncodesIn n v enc) = fun e enc => e.2.Limited ∧ EntryWith (EncodesIn n) e enc := by
  funext e enc
  refine propext ⟨?_, ?_⟩
  · rintro ⟨k, enc, hk, hv, rfl⟩
    exact ⟨hv.1, k, enc, hk.2, hv.2, rfl⟩
  · rintro ⟨hlimited, k, enc, hk, hv, rfl⟩
    exact ⟨k, enc, ⟨key_limited _, hk⟩, ⟨hlimited, hv⟩, rfl⟩

theorem item_iff :
    item data n offset = some (v, stop) ↔ ∃ enc, Span data offset enc stop ∧ v.Limited ∧ EncodesIn n v enc := by
  induction n generalizing offset v stop with
  | zero => simp [item, EncodesIn]
  | succ n ih =>
    have hdecode : ∀ o v e, item data n o = some (v, e) ↔
        ∃ enc, Span data o enc e ∧ (v.Limited ∧ EncodesIn n v enc) := fun o v e => ih
    constructor
    · intro h
      obtain ⟨head, hread, h⟩ := Option.bind_eq_some_iff.mp (show (readHead data offset).bind _ = _ from h)
      obtain ⟨hd, hspan, -, hhead⟩ := readHead_iff.mp hread
      have hnext : head.next ≤ data.length := hspan.stop_le (List.ne_nil_of_length_pos hhead.length_pos)
      obtain ⟨major, info, argument, next⟩ := head
      dsimp only at h hspan hhead hnext
      split at h
      · obtain ⟨rfl, rfl⟩ := Prod.mk.inj (Option.some.inj h)
        exact ⟨hd, hspan, .int _, .unsigned hhead⟩
      · obtain ⟨rfl, rfl⟩ := Prod.mk.inj (Option.some.inj h)
        exact ⟨hd, hspan, .int _, .negative hhead⟩
      · simp only [Option.map_eq_some_iff, Prod.exists, Prod.mk.injEq] at h
        obtain ⟨raw, stop', hraw, rfl, rfl⟩ := h
        obtain ⟨hspan', rfl⟩ := (readRaw_iff hnext).mp hraw
        exact ⟨hd ++ raw, Span.append_iff.mpr ⟨next, hspan, hspan'⟩, .bytes _, .bytes hhead⟩
      · simp only [Option.bind_eq_some_iff, Option.map_eq_some_iff, Prod.exists, Prod.mk.injEq] at h
        obtain ⟨raw, stop', hraw, s, hs, rfl, rfl⟩ := h
        obtain ⟨hspan', rfl⟩ := (readRaw_iff hnext).mp hraw
        obtain rfl := decodeUtf8_iff.mp hs
        exact ⟨hd ++ utf8 s, Span.append_iff.mpr ⟨next, hspan, hspan'⟩, .text _, .text hhead⟩
      · split_ifs at h with hitems
        simp only [Option.map_eq_some_iff, Prod.exists, Prod.mk.injEq] at h
        obtain ⟨vs, stop', hvs, rfl, rfl⟩ := h
        obtain ⟨rfl, encs, hEs, hspan'⟩ := (readItems_iff hdecode).mp hvs
        obtain ⟨hlimited, hencs⟩ := (List.forall₂_and_left _ _).mp hEs
        exact ⟨hd ++ encs.flatten, Span.append_iff.mpr ⟨next, hspan, hspan'⟩, .list (Nat.not_lt.mp hitems) hlimited,
          .list hhead hencs⟩
      · split_ifs at h with hitems
        simp only [Option.map_eq_some_iff, Prod.exists, Prod.mk.injEq] at h
        obtain ⟨es, stop', hes, rfl, rfl⟩ := h
        obtain ⟨new, rfl, rfl, hnodup, encs, hEs, hspan'⟩ := (readEntries_iff hdecode (by simp)).mp hes
        rw [entryWith_limited] at hEs
        obtain ⟨hlimited, hencs⟩ := (List.forall₂_and_left _ _).mp hEs
        exact ⟨hd ++ encs.flatten, Span.append_iff.mpr ⟨next, hspan, hspan'⟩,
          .map (Nat.not_lt.mp hitems) hnodup hlimited, .map hhead hencs⟩
      · split_ifs at h with hinfo
        simp only [Option.map_eq_some_iff, Prod.mk.injEq] at h
        obtain ⟨value, hvalue, rfl, rfl⟩ := h
        cases hhead with
        | long k => omega
        | short =>
          unfold simple at hvalue
          split at hvalue
          · obtain rfl := Option.some.inj hvalue
            exact ⟨_, hspan, .bool _, .bool false⟩
          · obtain rfl := Option.some.inj hvalue
            exact ⟨_, hspan, .bool _, .bool true⟩
          · obtain rfl := Option.some.inj hvalue
            exact ⟨_, hspan, .null, .null⟩
          · cases hvalue
      · cases h
    · rintro ⟨enc, hspan, hlimited, henc⟩
      have hread {major argument info mid : Nat} {hd : Bytes} (hspan : Span data offset hd mid) (hmajor : major < 8)
          (hhead : IsHead major argument info hd) :
          readHead data offset = some ⟨major, info, argument, mid⟩ ∧ mid ≤ data.length :=
        ⟨readHead_iff.mpr ⟨hd, hspan, hmajor, hhead⟩, hspan.stop_le (List.ne_nil_of_length_pos hhead.length_pos)⟩
      cases henc with
      | unsigned hhead => simp [item, (hread hspan (by omega) hhead).1]
      | negative hhead => simp [item, (hread hspan (by omega) hhead).1]
      | bytes hhead =>
        obtain ⟨mid, hfirst, hrest⟩ := Span.append_iff.mp hspan
        obtain ⟨hhead, hmid⟩ := hread hfirst (by omega) hhead
        simp [item, hhead, (readRaw_iff hmid).mpr ⟨hrest, rfl⟩]
      | text hhead =>
        obtain ⟨mid, hfirst, hrest⟩ := Span.append_iff.mp hspan
        obtain ⟨hhead, hmid⟩ := hread hfirst (by omega) hhead
        simp [item, hhead, (readRaw_iff hmid).mpr ⟨hrest, rfl⟩, decodeUtf8_iff.mpr rfl]
      | list hhead hencs =>
        obtain ⟨mid, hfirst, hrest⟩ := Span.append_iff.mp hspan
        obtain ⟨hhead, -⟩ := hread hfirst (by omega) hhead
        cases hlimited with
        | list hlen hvs =>
          have hitems := (readItems_iff hdecode).mpr ⟨rfl, _, (List.forall₂_and_left _ _).mpr ⟨hvs, hencs⟩, hrest⟩
          simp [item, hhead, hitems, Nat.not_lt.mpr hlen]
      | map hhead hencs =>
        obtain ⟨mid, hfirst, hrest⟩ := Span.append_iff.mp hspan
        obtain ⟨hhead, -⟩ := hread hfirst (by omega) hhead
        cases hlimited with
        | map hlen hkeys hes =>
          have hboth := (List.forall₂_and_left _ _).mpr ⟨hes, hencs⟩
          rw [← entryWith_limited] at hboth
          have hentries := (readEntries_iff hdecode (by simp)).mpr
            ⟨_, (List.nil_append _).symm, rfl, hkeys, _, hboth, hrest⟩
          simp [item, hhead, hentries, Nat.not_lt.mpr hlen]
      | bool b =>
        have hhead : IsHead 7 (if b then 21 else 20) (if b then 21 else 20) [if b then 0xF5 else 0xF4] := by
          cases b
          · exact .short (by decide)
          · exact .short (by decide)
        cases b <;> simp [item, (hread hspan (by omega) hhead).1, simple]
      | null =>
        have hhead : IsHead 7 22 22 [0xF6] := .short (by decide)
        simp [item, (hread hspan (by omega) hhead).1, simple]

/-! ## Size and nesting -/

theorem sum_le_length_flatten {α : Type} {R : α → Bytes → Prop} {size : α → Nat} {xs : List α} {encs : List Bytes}
    (h : List.Forall₂ R xs encs) (hsize : ∀ x enc, R x enc → size x ≤ enc.length) :
    (xs.map size).sum ≤ encs.flatten.length := by
  induction h with
  | nil => simp
  | cons hR _ ih =>
    have hx := hsize _ _ hR
    simp only [List.map_cons, List.sum_cons, List.flatten_cons, List.length_append]
    omega

theorem nodes_le (h : EncodesIn n v enc) : v.nodes ≤ enc.length := by
  induction n generalizing v enc with
  | zero => exact h.elim
  | succ n ih =>
    cases h with
    | unsigned hhead | negative hhead =>
      have hpos := hhead.length_pos
      simp only [Value.nodes]
      omega
    | bytes hhead | text hhead =>
      have hpos := hhead.length_pos
      simp only [Value.nodes, List.length_append]
      omega
    | list hhead hencs =>
      have hpos := hhead.length_pos
      have hsum := @sum_le_length_flatten _ _ Value.nodes _ _ hencs fun _ _ hv => ih hv
      simp only [Value.nodes, List.length_append]
      omega
    | map hhead hencs =>
      have hpos := hhead.length_pos
      have hentry : ∀ e enc, EntryWith (EncodesIn n) e enc → 1 + e.2.nodes ≤ enc.length := by
        rintro e enc ⟨k, enc', hk, hv, rfl⟩
        have hkey := ih hk
        have hvalue := ih hv
        have hone : e.1.value.nodes = 1 := by cases e.1 <;> simp [Key.value, Value.nodes]
        rw [List.length_append]
        omega
      have hsum := sum_le_length_flatten hencs hentry
      simp only [Value.nodes, List.length_append]
      omega
    | bool b | null => simp [Value.nodes]

theorem exists_of_forall₂ {α : Type} {R : α → Bytes → Prop} {xs : List α} {encs : List Bytes}
    (h : List.Forall₂ R xs encs) : ∀ x ∈ xs, ∃ enc, R x enc := by
  induction h with
  | nil => simp
  | cons hR _ ih =>
    intro x hx
    rcases List.mem_cons.mp hx with rfl | hx
    · exact ⟨_, hR⟩
    · exact ih x hx

theorem nestedIn_of_encodesIn (h : EncodesIn (n + 1) v enc) : v.NestedIn n := by
  induction n generalizing v enc with
  | zero =>
    cases h with
    | list hhead hencs =>
      cases hencs with
      | nil => rfl
      | cons hv => exact hv.elim
    | map hhead hencs =>
      cases hencs with
      | nil => rfl
      | cons hentry =>
        obtain ⟨_, _, hk, -⟩ := hentry
        exact hk.elim
    | _ => trivial
  | succ n ih =>
    cases h with
    | list hhead hencs =>
      intro v hv
      obtain ⟨enc, henc⟩ := exists_of_forall₂ hencs v hv
      exact ih henc
    | map hhead hencs =>
      intro e he
      obtain ⟨_, _, _, -, henc, -⟩ := exists_of_forall₂ hencs e he
      exact ih henc
    | _ => trivial

theorem encodesIn_of_nestedIn {m : Nat} (h : EncodesIn m v enc) (hnested : v.NestedIn n) : EncodesIn (n + 1) v enc := by
  induction m generalizing v enc n with
  | zero => exact h.elim
  | succ m ih =>
    cases h with
    | unsigned hhead => exact .unsigned hhead
    | negative hhead => exact .negative hhead
    | bytes hhead => exact .bytes hhead
    | text hhead => exact .text hhead
    | @list vs encs info hd hhead hencs =>
      refine .list hhead ?_
      cases n with
      | zero =>
        obtain rfl : vs = [] := hnested
        cases hencs
        exact .nil
      | succ n =>
        have hinner : ∀ v ∈ vs, v.NestedIn n := hnested
        refine ((List.forall₂_and_left _ _).mpr ⟨hinner, hencs⟩).imp ?_
        rintro v enc ⟨hv, henc⟩
        exact ih henc hv
    | @map es encs info hd hhead hencs =>
      refine .map hhead ?_
      cases n with
      | zero =>
        obtain rfl : es = [] := hnested
        cases hencs
        exact .nil
      | succ n =>
        have hinner : ∀ e ∈ es, e.2.NestedIn n := hnested
        refine ((List.forall₂_and_left _ _).mpr ⟨hinner, hencs⟩).imp ?_
        rintro e _ ⟨hv, k, enc, hk, henc, rfl⟩
        have hkey : e.1.value.NestedIn n := by cases n <;> cases e.1 <;> trivial
        exact ⟨k, enc, ih hk hkey, ih henc hv, rfl⟩
    | bool b => exact .bool b
    | null => exact .null

/-! ## The decoder -/

/-- The strict CBOR decoder is safe and complete. What it returns ends after the offset and inside of the data, it is
returned wherever the same bytes stand, and it has no more values than bytes, stays within the depth that is left and
within the limits of arrays and maps. Every definite-length encoding of a value within depth and limits is decoded to it,
with the position after it. -/
theorem cbor_item_safe_complete :
    (∀ data offset depth v stop, cborItem data offset depth = some (v, stop) →
      offset < stop ∧ stop ≤ data.length ∧ v.nodes ≤ stop - offset ∧ v.NestedIn (maxDepth - depth) ∧ v.Limited ∧
      ∀ data' offset', data'.extract offset' (offset' + (stop - offset)) = data.extract offset stop →
        cborItem data' offset' depth = some (v, offset' + (stop - offset))) ∧
    ∀ v enc, Encodes v enc → v.NestedIn maxDepth → v.Limited →
      ∀ before after, cborItem (before ++ enc ++ after) before.length 0 = some (v, before.length + enc.length) := by
  constructor
  · intro data offset depth v stop h
    obtain ⟨enc, hspan, hlimited, henc⟩ := item_iff.mp h
    have hstop := hspan.2
    have hnodes := nodes_le henc
    have hpos : 0 < v.nodes := by cases v <;> simp [Value.nodes]
    have hne : enc ≠ [] := List.ne_nil_of_length_pos (by omega)
    refine ⟨by omega, hspan.stop_le hne, by omega, ?_, hlimited, ?_⟩
    · by_cases hdepth : depth ≤ maxDepth
      · rw [Nat.sub_add_comm hdepth] at henc
        exact nestedIn_of_encodesIn henc
      · rw [show maxDepth + 1 - depth = 0 by omega] at henc
        exact henc.elim
    · intro data' offset' heq
      rw [hspan.extract_eq, show stop - offset = enc.length by omega] at heq
      rw [show stop - offset = enc.length by omega]
      exact item_iff.mpr ⟨enc, Span.of_extract_eq heq, hlimited, henc⟩
  · rintro v enc ⟨m, henc⟩ hnested hlimited before after
    exact item_iff.mpr ⟨enc, Span.middle before enc after, hlimited, encodesIn_of_nestedIn henc hnested⟩

/-- The texts that `cbor_decode` accepts are a prefix-free code: none of them begins another one. -/
theorem cborDecode_antichain : IsAntichain (· <+: ·) {data : Bytes | (cborDecode data).isSome} := by
  have hwhole : ∀ data : Bytes, (cborDecode data).isSome → ∃ v, cborItem data 0 0 = some (v, data.length) := by
    intro data h
    obtain ⟨v, hv⟩ := Option.isSome_iff_exists.mp h
    obtain ⟨⟨w, stop⟩, hitem, hstop⟩ := Option.bind_eq_some_iff.mp hv
    obtain ⟨rfl, -⟩ := Option.ite_none_right_eq_some.mp hstop
    exact ⟨w, hitem⟩
  rintro data hdata _ hlonger hne ⟨rest, rfl⟩
  obtain ⟨v, hv⟩ := hwhole data hdata
  obtain ⟨v', hv'⟩ := hwhole _ hlonger
  obtain ⟨enc, hspan, hlimited, henc⟩ := item_iff.mp hv
  obtain rfl : data = enc := by simpa using hspan.extract_eq
  -- the shorter text is read the same way at the beginning of the longer one
  have hshort : cborItem (data ++ rest) 0 0 = some (v, data.length) :=
    item_iff.mpr ⟨data, by simpa using Span.middle [] data rest, hlimited, henc⟩
  obtain ⟨-, hlength⟩ : v = v' ∧ data.length = (data ++ rest).length := by simpa using hshort.symm.trans hv'
  have hrest : rest = [] := by simpa using hlength
  exact hne (by simp [hrest])

end Sentinel.Webauthn
