import Mathlib.Tactic

/-!
# Numerals of a fixed width

Digits stand with the most significant one first. A number below `b ^ n` and its `n` digits in base `b` determine each
other (`value_digits`, `digits_value`). A byte string denotes a number in either byte order.
-/

namespace Sentinel.Numerals

/-- The number that the digits denote. -/
def value (b : Nat) (ds : List Nat) : Nat := ds.foldl (fun n d => n * b + d) 0

/-- The lowest `n` digits of a number. -/
def digits (b n v : Nat) : List Nat := ((List.range n).map fun i => v / b ^ i % b).reverse

variable {b n v : Nat} {ds es : List Nat}

theorem value_eq_ofDigits (b : Nat) (ds : List Nat) : value b ds = Nat.ofDigits b ds.reverse := by
  induction ds using List.reverseRecOn with
  | nil => rfl
  | append_singleton ds d ih =>
    have hfold : value b (ds ++ [d]) = value b ds * b + d := by simp [value]
    rw [hfold, ih, List.reverse_append, List.reverse_singleton, List.singleton_append, Nat.ofDigits_cons]
    ring

theorem value_lt (hb : 1 < b) (h : ∀ d ∈ ds, d < b) : value b ds < b ^ ds.length := by
  rw [value_eq_ofDigits, ← List.length_reverse]
  refine Nat.ofDigits_lt_base_pow_length hb ?_
  intro d hd
  exact h d (List.mem_reverse.mp hd)

theorem value_inj (hb : 1 < b) (hlen : ds.length = es.length) (hds : ∀ d ∈ ds, d < b) (hes : ∀ e ∈ es, e < b)
    (h : value b ds = value b es) : ds = es := by
  rw [value_eq_ofDigits, value_eq_ofDigits] at h
  have hrev : ds.reverse = es.reverse := by
    refine Nat.ofDigits_inj_of_len_eq hb (by simp [hlen]) ?_ ?_ h
    · intro d hd
      exact hds d (List.mem_reverse.mp hd)
    · intro e he
      exact hes e (List.mem_reverse.mp he)
  exact List.reverse_injective hrev

@[simp] theorem length_digits (b n v : Nat) : (digits b n v).length = n := by simp [digits]

theorem lt_of_mem_digits (hb : 0 < b) {d : Nat} (hd : d ∈ digits b n v) : d < b := by
  simp only [digits, List.mem_reverse, List.mem_map] at hd
  obtain ⟨i, -, rfl⟩ := hd
  exact Nat.mod_lt _ hb

theorem value_digits_mod (b n v : Nat) : value b (digits b n v) = v % b ^ n := by
  rw [value_eq_ofDigits, digits, List.reverse_reverse]
  induction n with
  | zero => simp [Nat.mod_one]
  | succ n ih =>
    rw [List.range_succ, List.map_append, Nat.ofDigits_append, ih, Nat.mod_pow_succ]
    simp

theorem value_digits (h : v < b ^ n) : value b (digits b n v) = v := by
  rw [value_digits_mod, Nat.mod_eq_of_lt h]

theorem digits_value (hb : 1 < b) (h : ∀ d ∈ ds, d < b) : digits b ds.length (value b ds) = ds := by
  refine value_inj hb (by simp) (fun d hd => lt_of_mem_digits (by omega) hd) h ?_
  exact value_digits (value_lt hb h)

/-! ## Bytes -/

/-- The order of the bytes of a word. -/
inductive ByteOrder
  | little
  | big
  deriving DecidableEq, Repr

/-- Bytes as they stand in memory, the most significant one first. -/
def ByteOrder.arrange (order : ByteOrder) (bs : List UInt8) : List UInt8 :=
  match order with
  | .little => bs.reverse
  | .big => bs

/-- `int.from_bytes`. -/
def ofBytes (order : ByteOrder) (bs : List UInt8) : Nat := value 256 ((order.arrange bs).map UInt8.toNat)

/-- `int.to_bytes`, of a number that fits. -/
def toBytes (order : ByteOrder) (n v : Nat) : List UInt8 := order.arrange ((digits 256 n v).map UInt8.ofNat)

@[simp] theorem ByteOrder.length_arrange (order : ByteOrder) (bs : List UInt8) :
    (order.arrange bs).length = bs.length := by
  cases order <;> simp [arrange]

@[simp] theorem ByteOrder.arrange_arrange (order : ByteOrder) (bs : List UInt8) :
    order.arrange (order.arrange bs) = bs := by
  cases order <;> simp [arrange]

@[simp] theorem length_toBytes (order : ByteOrder) (n v : Nat) : (toBytes order n v).length = n := by simp [toBytes]

theorem toNat_lt_of_mem {bs : List UInt8} : ∀ d ∈ bs.map UInt8.toNat, d < 256 := by
  intro d hd
  obtain ⟨b, -, rfl⟩ := List.mem_map.mp hd
  exact b.toNat_lt

theorem ofBytes_lt (order : ByteOrder) (bs : List UInt8) : ofBytes order bs < 256 ^ bs.length := by
  have h := value_lt (by decide) (@toNat_lt_of_mem (order.arrange bs))
  simpa [ofBytes] using h

theorem ofBytes_toBytes {order : ByteOrder} (h : v < 256 ^ n) : ofBytes order (toBytes order n v) = v := by
  have hmap : ((digits 256 n v).map UInt8.ofNat).map UInt8.toNat = digits 256 n v := by
    rw [List.map_map]
    nth_rewrite 2 [← List.map_id (digits 256 n v)]
    refine List.map_congr_left ?_
    intro d hd
    have hlt : d < 256 := lt_of_mem_digits (by decide) hd
    simp [Nat.mod_eq_of_lt hlt]
  rw [ofBytes, toBytes, ByteOrder.arrange_arrange, hmap, value_digits h]

theorem toBytes_ofBytes (order : ByteOrder) (bs : List UInt8) : toBytes order bs.length (ofBytes order bs) = bs := by
  have h := digits_value (by decide) (@toNat_lt_of_mem (order.arrange bs))
  simp only [List.length_map, ByteOrder.length_arrange] at h
  have hmap : ((order.arrange bs).map UInt8.toNat).map UInt8.ofNat = order.arrange bs := by simp [Function.comp_def]
  rw [toBytes, ofBytes, h, hmap, ByteOrder.arrange_arrange]

end Sentinel.Numerals
