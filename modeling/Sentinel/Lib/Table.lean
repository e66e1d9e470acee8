import Mathlib.Tactic

/-!
# Tables with a primary key

A table is a list of rows, in the order of their insertion, no two of which have the same key. The
operations are those of SQL statements on one table: insert a row whose key is free, update or delete
the rows that meet a condition.
-/

namespace Sentinel

/-- A UUID, as its 128-bit integer. -/
abbrev UUID := Nat

variable {α κ : Type} {key : α → κ}

/-- The rows of a table with primary key `key`. -/
structure Table (key : α → κ) where
  rows : List α
  nodup : (rows.map key).Nodup

namespace Table

/-- The table without rows. -/
def empty : Table key := ⟨[], List.nodup_nil⟩

/-- No row has the key. -/
def Free (t : Table key) (k : κ) : Prop := ∀ a ∈ t.rows, key a ≠ k

instance [DecidableEq κ] (t : Table key) (k : κ) : Decidable (t.Free k) :=
  inferInstanceAs (Decidable (∀ a ∈ t.rows, key a ≠ k))

/-- The row with the key. -/
def find? [DecidableEq κ] (t : Table key) (k : κ) : Option α := t.rows.find? fun a => key a = k

/-- Insert a row; a row whose key is taken is not inserted. -/
def insert [DecidableEq κ] (t : Table key) (a : α) : Table key :=
  if h : t.Free (key a) then
    ⟨t.rows ++ [a], by
      rw [List.map_append, List.nodup_append]
      refine ⟨t.nodup, List.nodup_singleton _, ?_⟩
      rintro _ hk k' hk' rfl
      obtain ⟨b, hb, heq⟩ := List.mem_map.mp hk
      exact h b hb (heq.trans (List.mem_singleton.mp hk'))⟩
  else t

/-- Change every row; keys stay. -/
def update (t : Table key) (f : α → α) (hf : ∀ a, key (f a) = key a) : Table key :=
  ⟨t.rows.map f, by
    rw [List.map_map, show key ∘ f = key from funext hf]
    exact t.nodup⟩

/-- Insert a row, in the place of the row with its key if there is one. -/
def put [DecidableEq κ] (t : Table key) (a : α) : Table key :=
  if t.Free (key a) then t.insert a
  else t.update (fun b => if key b = key a then a else b) fun b => by
    split_ifs with h
    · exact h.symm
    · rfl

/-- Delete the rows that meet the condition. -/
def delete (t : Table key) (p : α → Bool) : Table key :=
  ⟨t.rows.filter fun a => !p a, t.nodup.sublist (List.filter_sublist.map key)⟩

variable {t : Table key} {a b : α} {k : κ}

theorem eq_of_key (ha : a ∈ t.rows) (hb : b ∈ t.rows) (h : key a = key b) : a = b :=
  List.inj_on_of_nodup_map t.nodup ha hb h

theorem mem_of_find? [DecidableEq κ] (h : t.find? k = some a) : a ∈ t.rows ∧ key a = k :=
  ⟨List.mem_of_find?_eq_some h, by simpa using List.find?_some h⟩

theorem find?_of_mem [DecidableEq κ] (ha : a ∈ t.rows) : t.find? (key a) = some a := by
  cases hf : t.find? (key a) with
  | none =>
    have := List.find?_eq_none.mp hf a ha
    simp at this
  | some b =>
    obtain ⟨hb, heq⟩ := mem_of_find? hf
    rw [eq_of_key hb ha heq]

@[simp]
theorem mem_insert [DecidableEq κ] : b ∈ (t.insert a).rows ↔ b ∈ t.rows ∨ b = a ∧ t.Free (key a) := by
  unfold insert
  split_ifs with h
  · simp [h]
  · simp [h]

theorem rows_insert [DecidableEq κ] (h : t.Free (key a)) : (t.insert a).rows = t.rows ++ [a] := by
  unfold insert
  rw [dif_pos h]

@[simp]
theorem mem_update {f : α → α} {hf : ∀ a, key (f a) = key a} :
    b ∈ (t.update f hf).rows ↔ ∃ a ∈ t.rows, f a = b :=
  List.mem_map

theorem mem_put [DecidableEq κ] : b ∈ (t.put a).rows ↔ b = a ∨ b ∈ t.rows ∧ key b ≠ key a := by
  unfold put
  split_ifs with hfree
  · simp only [mem_insert, hfree, and_true]
    constructor
    · rintro (hb | rfl)
      · exact .inr ⟨hb, hfree b hb⟩
      · exact .inl rfl
    · rintro (rfl | ⟨hb, -⟩)
      · exact .inr rfl
      · exact .inl hb
  · simp only [mem_update]
    constructor
    · rintro ⟨c, hc, rfl⟩
      split_ifs with hk
      · exact .inl rfl
      · exact .inr ⟨hc, hk⟩
    · rintro (rfl | ⟨hb, hk⟩)
      · obtain ⟨c, hc, hk⟩ : ∃ c ∈ t.rows, key c = key b := by simpa [Free] using hfree
        exact ⟨c, hc, if_pos hk⟩
      · exact ⟨b, hb, if_neg hk⟩

@[simp]
theorem mem_delete {p : α → Bool} : b ∈ (t.delete p).rows ↔ b ∈ t.rows ∧ p b = false := by
  simp [delete]

theorem find?_eq_none [DecidableEq κ] : t.find? k = none ↔ t.Free k := by
  simp [find?, Free]

/-- Every row of the second table goes on from one of the first, and every row of the first goes on in
the second. -/
structure Corresponds (R : α → α → Prop) (t t' : Table key) : Prop where
  back : ∀ b ∈ t'.rows, ∃ a ∈ t.rows, R a b
  forth : ∀ a ∈ t.rows, ∃ b ∈ t'.rows, R a b

section Corresponds

variable {R : α → α → Prop} {f : α → α} {t' : Table key}

theorem Corresponds.map (ht : t'.rows = t.rows.map f) (h : ∀ a, R a (f a)) : Corresponds R t t' where
  back b hb := by
    obtain ⟨a, ha, rfl⟩ := List.mem_map.mp (ht ▸ hb)
    exact ⟨a, ha, h a⟩
  forth a ha := ⟨f a, ht ▸ List.mem_map_of_mem ha, h a⟩

/-- An update of the row with one key. -/
theorem Corresponds.map_key [DecidableEq κ] (hR : ∀ a, R a a)
    (ht : t'.rows = t.rows.map fun a => if key a = k then f a else a) (h : ∀ a, key a = k → R a (f a)) :
    Corresponds R t t' := by
  refine .map ht fun a => ?_
  split_ifs with ha
  · exact h a ha
  · exact hR a

theorem Corresponds.refl (hR : ∀ a, R a a) : Corresponds R t t :=
  ⟨fun a ha => ⟨a, ha, hR a⟩, fun a ha => ⟨a, ha, hR a⟩⟩

end Corresponds

end Table

/-- How a write transaction ends. -/
inductive Ending
  | committed
  | rolledBack
  | unknown
  deriving DecidableEq

end Sentinel
