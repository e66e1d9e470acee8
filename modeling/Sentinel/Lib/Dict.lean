import Mathlib.Tactic

/-!
# Insertion-ordered dictionaries

A dictionary whose iteration order is the order in which its keys were first inserted: assigning to
a key that is already present keeps its position, a new key goes to the end, and a key that is
deleted and assigned again moves to the end. The keys of `entries` are distinct by construction.
-/

namespace Sentinel

/-- An insertion-ordered dictionary from `κ` to `ν`. -/
structure Dict (κ ν : Type) where
  entries : List (κ × ν)
  nodup : (entries.map Prod.fst).Nodup

namespace Dict

variable {κ ν σ : Type}

/-- The dictionary without any item. -/
def empty : Dict κ ν := ⟨[], List.nodup_nil⟩

instance : EmptyCollection (Dict κ ν) := ⟨empty⟩

/-- The keys, oldest first. -/
def keys (d : Dict κ ν) : List κ := d.entries.map Prod.fst

/-- The values, in the order of their keys. -/
def values (d : Dict κ ν) : List ν := d.entries.map Prod.snd

/-- The number of items. -/
def size (d : Dict κ ν) : Nat := d.entries.length

/-- Apply `f` to every value; the keys and their order stay. -/
def map {μ : Type} (f : ν → μ) (d : Dict κ ν) : Dict κ μ :=
  ⟨d.entries.map fun e => (e.1, f e.2), by
    rw [List.map_map]
    exact d.nodup⟩

/-- Keep the items that satisfy `p`. -/
def filter (p : κ → ν → Bool) (d : Dict κ ν) : Dict κ ν :=
  ⟨d.entries.filter fun e => p e.1 e.2, by
    exact d.nodup.sublist (List.Sublist.map _ List.filter_sublist)⟩

variable [DecidableEq κ]

/-- The value stored under `k`. -/
def get? (d : Dict κ ν) (k : κ) : Option ν := (d.entries.find? fun e => e.1 = k).map Prod.snd

/-- Delete the item of `k`; nothing happens when there is none. -/
def erase (d : Dict κ ν) (k : κ) : Dict κ ν := d.filter fun k' _ => k' ≠ k

/-- Overwrite the value of `k` where it stands. -/
def replace (d : Dict κ ν) (k : κ) (v : ν) : Dict κ ν :=
  ⟨d.entries.map fun e => if e.1 = k then (k, v) else e, by
    have h : (d.entries.map fun e => if e.1 = k then (k, v) else e).map Prod.fst =
        d.entries.map Prod.fst := by
      rw [List.map_map]
      refine List.map_congr_left fun e _ => ?_
      simp only [Function.comp_apply]
      split_ifs with he
      · exact he.symm
      · rfl
    rw [h]
    exact d.nodup⟩

/-- Assign `v` to `k`. -/
def set (d : Dict κ ν) (k : κ) (v : ν) : Dict κ ν :=
  if h : k ∈ d.keys then d.replace k v
  else ⟨d.entries ++ [(k, v)], by
    rw [List.map_append, List.nodup_append]
    refine ⟨d.nodup, List.nodup_singleton _, ?_⟩
    intro a ha b hb hab
    simp only [List.map_cons, List.map_nil, List.mem_singleton] at hb
    exact h (hb ▸ hab ▸ ha)⟩

/-- Assign all items of another dictionary. -/
def update (d newer : Dict κ ν) : Dict κ ν := newer.entries.foldl (fun d e => d.set e.1 e.2) d

/-- Apply `f` to the value of `k`, when there is one. -/
def modify (d : Dict κ ν) (k : κ) (f : ν → ν) : Dict κ ν :=
  match d.get? k with
  | none => d
  | some v => d.replace k (f v)

end Dict

end Sentinel
