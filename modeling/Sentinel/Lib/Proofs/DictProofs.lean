import Sentinel.Lib.Dict

/-!
# Lookup, size and order of insertion-ordered dictionaries

How `get?`, `keys` and `size` act on the results of the operations of `Sentinel.Lib.Dict`.
-/

namespace Sentinel.Dict

variable {κ ν σ : Type} [DecidableEq κ]

/-! ## Lookup -/

theorem find?_eq_some_iff {l : List (κ × ν)} (hl : (l.map Prod.fst).Nodup) {k : κ} {e : κ × ν} :
    l.find? (fun e => e.1 = k) = some e ↔ e ∈ l ∧ e.1 = k := by
  constructor
  · intro h
    exact ⟨List.mem_of_find?_eq_some h, by simpa using List.find?_some h⟩
  · rintro ⟨he, rfl⟩
    obtain ⟨e', he'⟩ : ∃ e', l.find? (fun x => x.1 = e.1) = some e' := by
      rw [← Option.isSome_iff_exists, List.find?_isSome]
      exact ⟨e, he, by simp⟩
    have hm := List.mem_of_find?_eq_some he'
    have hk : e'.1 = e.1 := by simpa using List.find?_some he'
    rw [he', List.inj_on_of_nodup_map hl hm he hk]

theorem get?_eq_some_iff {d : Dict κ ν} {k : κ} {v : ν} :
    d.get? k = some v ↔ (k, v) ∈ d.entries := by
  unfold get?
  rw [Option.map_eq_some_iff]
  constructor
  · rintro ⟨e, he, rfl⟩
    obtain ⟨hm, hk⟩ := (find?_eq_some_iff d.nodup).mp he
    obtain ⟨a, b⟩ := e
    simp only at hk
    exact hk ▸ hm
  · intro h
    exact ⟨(k, v), (find?_eq_some_iff d.nodup).mpr ⟨h, rfl⟩, rfl⟩

theorem get?_eq_none_iff {d : Dict κ ν} {k : κ} : d.get? k = none ↔ k ∉ d.keys := by
  constructor
  · intro h hk
    obtain ⟨⟨a, v⟩, he, rfl⟩ := List.mem_map.mp hk
    rw [get?_eq_some_iff.mpr he] at h
    exact Option.some_ne_none _ h
  · intro h
    cases hv : d.get? k with
    | none => rfl
    | some v => exact absurd (List.mem_map.mpr ⟨_, get?_eq_some_iff.mp hv, rfl⟩) h

theorem mem_keys_iff {d : Dict κ ν} {k : κ} : k ∈ d.keys ↔ ∃ v, d.get? k = some v := by
  rw [← not_iff_not, ← get?_eq_none_iff, Option.eq_none_iff_forall_ne_some, not_exists]

theorem mem_values_iff {d : Dict κ ν} {v : ν} : v ∈ d.values ↔ ∃ k, d.get? k = some v := by
  unfold values
  rw [List.mem_map]
  constructor
  · rintro ⟨⟨k, w⟩, he, rfl⟩
    exact ⟨k, get?_eq_some_iff.mpr he⟩
  · rintro ⟨k, hk⟩
    exact ⟨(k, v), get?_eq_some_iff.mp hk, rfl⟩

theorem get?_filter (d : Dict κ ν) (p : κ → ν → Bool) (k : κ) :
    (d.filter p).get? k = (d.get? k).filter (p k) := by
  ext v
  rw [Option.filter_eq_some_iff, get?_eq_some_iff, get?_eq_some_iff]
  simp [filter]

@[simp] theorem get?_erase_self (d : Dict κ ν) (k : κ) : (d.erase k).get? k = none := by
  unfold erase
  rw [get?_filter]
  cases d.get? k <;> simp [Option.filter]

theorem get?_erase_of_ne (d : Dict κ ν) {k k' : κ} (h : k' ≠ k) :
    (d.erase k).get? k' = d.get? k' := by
  unfold erase
  rw [get?_filter]
  cases d.get? k' <;> simp [Option.filter, h]

theorem get?_erase (d : Dict κ ν) (k k' : κ) :
    (d.erase k).get? k' = if k' = k then none else d.get? k' := by
  split_ifs with h
  · rw [h, get?_erase_self]
  · exact get?_erase_of_ne d h

theorem get?_replace (d : Dict κ ν) (k : κ) (v : ν) (k' : κ) :
    (d.replace k v).get? k' = if k' = k then (d.get? k).map fun _ => v else d.get? k' := by
  ext w
  rw [get?_eq_some_iff]
  simp only [replace, List.mem_map]
  split_ifs with h
  · subst h
    simp only [Option.map_eq_some_iff, get?_eq_some_iff]
    constructor
    · rintro ⟨⟨a, b⟩, he, hab⟩
      by_cases ha : a = k'
      · subst ha
        simp only [if_true, Prod.mk.injEq, true_and] at hab
        exact ⟨b, he, hab⟩
      · simp only [if_neg ha, Prod.mk.injEq] at hab
        exact absurd hab.1 ha
    · rintro ⟨b, he, rfl⟩
      exact ⟨(k', b), he, by simp⟩
  · rw [get?_eq_some_iff]
    constructor
    · rintro ⟨⟨a, b⟩, he, hab⟩
      by_cases ha : a = k
      · simp only [if_pos ha, Prod.mk.injEq] at hab
        exact absurd hab.1.symm h
      · simp only [if_neg ha] at hab
        exact hab ▸ he
    · intro he
      exact ⟨(k', w), he, by simp [h]⟩

@[simp] theorem get?_set_self (d : Dict κ ν) (k : κ) (v : ν) : (d.set k v).get? k = some v := by
  unfold set
  split_ifs with h
  · obtain ⟨w, hw⟩ := mem_keys_iff.mp h
    rw [get?_replace, if_pos rfl, hw]
    rfl
  · rw [get?_eq_some_iff]
    simp

theorem get?_set_of_ne (d : Dict κ ν) {k k' : κ} (v : ν) (h : k' ≠ k) :
    (d.set k v).get? k' = d.get? k' := by
  unfold set
  split_ifs with hk
  · rw [get?_replace, if_neg h]
  · ext w
    rw [get?_eq_some_iff, get?_eq_some_iff]
    simp [h]

theorem get?_set (d : Dict κ ν) (k k' : κ) (v : ν) :
    (d.set k v).get? k' = if k' = k then some v else d.get? k' := by
  split_ifs with h
  · rw [h, get?_set_self]
  · exact get?_set_of_ne d v h

theorem get?_update (d newer : Dict κ ν) (k : κ) : (d.update newer).get? k = (newer.get? k).or (d.get? k) := by
  obtain ⟨entries, nodup⟩ := newer
  unfold update
  induction entries generalizing d with
  | nil => rfl
  | cons e entries ih =>
    obtain ⟨hnew, hnodup⟩ := List.nodup_cons.1 nodup
    have hrest := ih (d.set e.1 e.2) hnodup
    simp only [List.foldl_cons]
    rw [hrest, get?_set]
    by_cases he : k = e.1
    · subst he
      have hnone : (⟨entries, hnodup⟩ : Dict κ ν).get? e.1 = none := get?_eq_none_iff.2 hnew
      rw [hnone, if_pos rfl]
      simp [get?]
    · rw [if_neg he]
      have hne : e.1 ≠ k := Ne.symm he
      simp [get?, hne]

theorem get?_modify (d : Dict κ ν) (k : κ) (f : ν → ν) (k' : κ) :
    (d.modify k f).get? k' = if k' = k then (d.get? k).map f else d.get? k' := by
  unfold modify
  cases hk : d.get? k with
  | none =>
    split_ifs with h
    · rw [h, hk]; rfl
    · rfl
  | some v => simp [get?_replace, hk]

/-! ## Size -/

theorem size_replace (d : Dict κ ν) (k : κ) (v : ν) : (d.replace k v).size = d.size := by
  simp [size, replace]

theorem size_modify (d : Dict κ ν) (k : κ) (f : ν → ν) : (d.modify k f).size = d.size := by
  unfold modify
  split
  · rfl
  · exact size_replace d k _

theorem size_set_of_some {d : Dict κ ν} {k : κ} {w : ν} (h : d.get? k = some w) (v : ν) :
    (d.set k v).size = d.size := by
  unfold set
  rw [dif_pos (mem_keys_iff.mpr ⟨w, h⟩), size_replace]

theorem size_set_of_none {d : Dict κ ν} {k : κ} (h : d.get? k = none) (v : ν) :
    (d.set k v).size = d.size + 1 := by
  unfold set
  rw [dif_neg (get?_eq_none_iff.mp h)]
  simp [size]

omit [DecidableEq κ] in
theorem size_filter_le (d : Dict κ ν) (p : κ → ν → Bool) : (d.filter p).size ≤ d.size :=
  List.length_filter_le _ _

theorem size_erase_le (d : Dict κ ν) (k : κ) : (d.erase k).size ≤ d.size := size_filter_le d _

end Sentinel.Dict
