import Mathlib.Tactic

/-!
# Parts of a sequence at an offset

What a parser that carries an offset has read: the part of its input from one offset to another. Parts that follow each
other are one part (`Span.append_iff`), and a part does not depend on what surrounds it.
-/

namespace Sentinel

variable {α : Type} {data part part' : List α} {start stop : Nat}

/-- The part stands in the data from `start` to `stop`. -/
def Span (data : List α) (start : Nat) (part : List α) (stop : Nat) : Prop :=
  part <+: data.drop start ∧ stop = start + part.length

namespace Span

@[simp] theorem nil_iff : Span data start [] stop ↔ stop = start := by simp [Span]

theorem append_iff :
    Span data start (part ++ part') stop ↔ ∃ mid, Span data start part mid ∧ Span data mid part' stop := by
  constructor
  · rintro ⟨⟨rest, hrest⟩, rfl⟩
    refine ⟨start + part.length, ⟨⟨part' ++ rest, by simpa using hrest⟩, rfl⟩, ⟨rest, ?_⟩, ?_⟩
    · rw [← List.drop_drop, ← hrest]
      simp
    · simp [Nat.add_assoc]
  · rintro ⟨mid, ⟨⟨rest, hrest⟩, rfl⟩, ⟨rest', hrest'⟩, rfl⟩
    rw [← List.drop_drop, ← hrest, List.drop_left] at hrest'
    refine ⟨⟨rest', ?_⟩, ?_⟩
    · rw [List.append_assoc, hrest', hrest]
    · simp [Nat.add_assoc]

theorem singleton_iff {x : α} : Span data start [x] stop ↔ data[start]? = some x ∧ stop = start + 1 := by
  have hhead : [x] <+: data.drop start ↔ data[start]? = some x := by
    rw [← List.head?_drop]
    cases data.drop start with
    | nil => simp
    | cons y rest => simp [List.cons_prefix_cons, eq_comm]
  simp [Span, hhead]

theorem stop_le (h : Span data start part stop) (hne : part ≠ []) : stop ≤ data.length := by
  obtain ⟨hpart, rfl⟩ := h
  have hlen := hpart.length_le
  have hpos := List.length_pos_of_ne_nil hne
  rw [List.length_drop] at hlen
  omega

theorem extract_eq (h : Span data start part stop) : data.extract start stop = part := by
  obtain ⟨⟨rest, hrest⟩, rfl⟩ := h
  rw [List.extract_eq_take_drop, Nat.add_sub_cancel_left, ← hrest, List.take_left]

theorem of_extract (hle : start ≤ stop) (hstop : stop ≤ data.length) : Span data start (data.extract start stop) stop := by
  rw [List.extract_eq_take_drop]
  refine ⟨List.take_prefix _ _, ?_⟩
  rw [List.length_take, List.length_drop]
  omega

theorem of_extract_eq (h : data.extract start (start + part.length) = part) :
    Span data start part (start + part.length) := by
  rw [List.extract_eq_take_drop, Nat.add_sub_cancel_left] at h
  exact ⟨h ▸ List.take_prefix _ _, rfl⟩

theorem whole (data : List α) : Span data 0 data data.length := by simp [Span]

theorem eq_of_whole (h : Span data 0 part data.length) : part = data := by
  obtain ⟨hpart, hlen⟩ := h
  rw [List.drop_zero] at hpart
  exact hpart.eq_of_length (by omega)

theorem middle (before part after : List α) :
    Span (before ++ part ++ after) before.length part (before.length + part.length) := by
  refine ⟨⟨after, ?_⟩, rfl⟩
  rw [List.append_assoc, List.drop_left]

end Span

end Sentinel
