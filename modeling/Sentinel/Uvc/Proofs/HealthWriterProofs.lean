import Sentinel.Lib.Proofs.DictProofs
import Sentinel.Uvc.HealthWriter

/-!
# Coalesced health writes

The row, the values in flight and the staged values are layers: read from the top, they hold what was staged, whatever is taken
out, committed or put back. A value that was last made durable is in the row unless one of the layers above replaces it, so a
write that is not material changes nothing but `last_seen_at`.
-/

namespace Sentinel.Uvc.HealthWriter

variable {ν : Type} {out : List (Act ν)} {w w' : Writer ν} {values : Values ν} {act : Act ν}

/-! ## Layers -/

/-- A staged value. -/
def Writer.stagedAt (w : Writer ν) (k : String) : Option ν := (w.staged.getD ∅).get? k

/-- The layers of the values in flight and of the staged values over the row. -/
structure Layers (w : Writer ν) (values : Values ν) (out : List (Act ν)) : Prop where
  /-- Read from the top, the layers hold what was staged. -/
  covers : ∀ k x, (expected out).get? k = some x → (w.stagedAt k).or ((values.get? k).or (w.row.get? k)) = some x
  /-- A value that was last made durable is in the row, unless a layer above replaces it. -/
  durable : ∀ k x, w.durable.get? k = some x → w.row.get? k = some x ∨ (values.get? k).isSome ∨ (w.stagedAt k).isSome

theorem expected_get? (out : List (Act ν)) (k : String) :
    (expected out).get? k = ((fences out).get? k).or ((updates out).get? k) := Dict.get?_update _ _ _

theorem empty_get? (k : String) : (∅ : Values ν).get? k = none := rfl

theorem Layers.quiet (h : Layers w values out) : Layers w values (.quiet :: out) := ⟨h.covers, h.durable⟩

theorem Layers.stage (h : Layers w values out) (hfence : w.fence.getD ∅ = fences out) (update : Values ν) :
    Layers (w.stage update) values (.staged update :: out) := by
  have hstaged (k : String) : (w.stage update).stagedAt k =
      ((fences out).get? k).or ((update.get? k).or (w.stagedAt k)) := by
    simp only [Writer.stagedAt, Writer.stage, Option.getD_some, Dict.get?_update, hfence]
  constructor
  · intro k x hx
    rw [expected_get?] at hx
    simp only [fences, updates, Dict.get?_update] at hx
    have hold := h.covers k x
    rw [expected_get?] at hold
    show Option.or ((w.stage update).stagedAt k) ((values.get? k).or (w.row.get? k)) = _
    rw [hstaged]
    cases hf : (fences out).get? k with
    | some y => simpa [hf] using hx
    | none =>
      cases hu : update.get? k with
      | some y => simpa [hf, hu] using hx
      | none => simpa [hf, hu] using hold (by simpa [hf, hu] using hx)
  · intro k x hx
    rcases h.durable k x hx with hrow | hflight | hstaged'
    · exact .inl hrow
    · exact .inr (.inl hflight)
    · refine .inr (.inr ?_)
      rw [hstaged]
      simp [hstaged']

theorem Layers.pin (h : Layers w values out) (hfence : w.fence.getD ∅ = fences out) (fence : Values ν) :
    Layers (w.pin fence) values (.fenced fence :: out) := by
  have hstaged (k : String) : (w.pin fence).stagedAt k =
      ((fence.get? k).or ((fences out).get? k)).or (w.stagedAt k) := by
    simp only [Writer.stagedAt, Writer.pin, Option.getD_some, Dict.get?_update, hfence]
  constructor
  · intro k x hx
    rw [expected_get?] at hx
    simp only [fences, updates, Dict.get?_update] at hx
    have hold := h.covers k x
    rw [expected_get?] at hold
    show Option.or ((w.pin fence).stagedAt k) ((values.get? k).or (w.row.get? k)) = _
    rw [hstaged]
    cases hf : (fence.get? k).or ((fences out).get? k) with
    | some y => simpa [hf] using hx
    | none =>
      obtain ⟨hnew, hnone⟩ := Option.or_eq_none_iff.1 hf
      simpa using hold (by simpa [hnew, hnone] using hx)
  · intro k x hx
    rcases h.durable k x hx with hrow | hflight | hstaged'
    · exact .inl hrow
    · exact .inr (.inl hflight)
    · refine .inr (.inr ?_)
      rw [hstaged]
      simp [hstaged']

theorem Layers.take (h : Layers w ∅ out) (hstaged : w.staged = some values) (unpersisted : Bool) :
    Layers { w with staged := none, unpersisted } values out := by
  have hat (k : String) : w.stagedAt k = values.get? k := by simp [Writer.stagedAt, hstaged]
  constructor
  · intro k x hx
    have := h.covers k x hx
    rw [hat] at this
    simpa [Writer.stagedAt, empty_get?] using this
  · intro k x hx
    rcases h.durable k x hx with hrow | hflight | hstaged'
    · exact .inl hrow
    · cases hflight
    · exact .inr (.inl (hat k ▸ hstaged'))

theorem Layers.commit (h : Layers w values out) : Layers (w.commit values) values out := by
  constructor
  · intro k x hx
    have := h.covers k x hx
    simp only [Writer.commit, Dict.get?_update]
    cases hv : values.get? k <;> simpa [hv, Writer.stagedAt] using this
  · intro k x hx
    simp only [Writer.commit, Dict.get?_update]
    cases hv : values.get? k with
    | some y => exact .inr (.inl rfl)
    | none => simpa [hv, Writer.stagedAt] using h.durable k x hx

/-- After a write that raised its values are put back under what was staged since. -/
theorem Layers.restage (h : Layers w values out) (hfence : w.fence.getD ∅ = fences out) :
    Layers (w.restage values) ∅ out := by
  have hstaged (k : String) : (w.restage values).stagedAt k =
      ((fences out).get? k).or ((w.stagedAt k).or (values.get? k)) := by
    simp only [Writer.stagedAt, Writer.restage, Option.getD_some, Dict.get?_update, hfence]
  constructor
  · intro k x hx
    have hold := h.covers k x hx
    show Option.or ((w.restage values).stagedAt k) (w.row.get? k) = _
    rw [hstaged]
    rw [expected_get?] at hx
    cases hf : (fences out).get? k with
    | some y => simpa [hf] using hx
    | none => simpa [empty_get?, Option.or_assoc] using hold
  · intro k x hx
    rcases h.durable k x hx with hrow | hflight | hstaged'
    · exact .inl hrow
    · exact .inr (.inr (by rw [hstaged]; simp [hflight]))
    · exact .inr (.inr (by rw [hstaged]; simp [hstaged']))

theorem Layers.settle (h : Layers w values out) (hrow : ∀ k x, values.get? k = some x → w.row.get? k = some x) :
    Layers (w.settle values) ∅ out := by
  constructor
  · intro k x hx
    have := h.covers k x hx
    show Option.or (w.stagedAt k) (w.row.get? k) = _
    cases hv : values.get? k with
    | some y =>
      rw [hrow k y hv]
      simpa [hv] using this
    | none => simpa [hv] using this
  · intro k x hx
    simp only [Writer.settle, Dict.get?_update] at hx
    cases hv : values.get? k with
    | some y =>
      refine .inl ?_
      rw [← hx, hv]
      exact hrow k y hv
    | none =>
      rw [hv] at hx
      rcases h.durable k x hx with hrow | hflight | hstaged'
      · exact .inl hrow
      · simp [hv] at hflight
      · exact .inr (.inr hstaged')

/-! ## What holds of the writer and of the threads -/

/-- What was last made durable is in the row, apart from the time of the last refresh. -/
def Writer.Persisted (w : Writer ν) : Prop := ∀ k x, k ≠ lastSeenAt → w.durable.get? k = some x → w.row.get? k = some x

/-- The fence and the mark agree with what was observed. -/
structure Sound (out : List (Act ν)) (w : Writer ν) : Prop where
  fence : w.fence.getD ∅ = fences out
  free : w.io = none → Layers w ∅ out
  marked : w.unpersisted = false → w.Persisted

/-- The thread holds `_io`. -/
def Pc.holds : Pc ν → Bool
  | .taking | .writing _ | .settling _ | .failing _ _ | .releasing _ => true
  | _ => false

/-- The values change nothing but the time of the last refresh, of what was last made durable. -/
def Writer.Routine (w : Writer ν) (values : Values ν) : Prop :=
  ∀ k x, k ≠ lastSeenAt → values.get? k = some x → w.durable.get? k = some x

/-- What a thread knows where it stands. -/
def Asserts (t : Thread) (pc : Pc ν) (out : List (Act ν)) (w : Writer ν) : Prop :=
  match pc with
  | .taking | .releasing _ => w.io = some t ∧ Layers w ∅ out
  | .writing values => w.io = some t ∧ Layers w values out ∧ (w.unpersisted = false → w.Routine values)
  | .settling values => w.io = some t ∧ Layers w values out ∧ ∀ k x, values.get? k = some x → w.row.get? k = some x
  | .failing values _ => w.io = some t ∧ Layers w values out
  | _ => w.io ≠ some t

variable {t u : Thread} {pc : Pc ν}

theorem Asserts.io (h : Asserts t pc out w) : w.io = some t ↔ pc.holds = true := by
  cases pc <;> simp only [Asserts] at h <;> simp [Pc.holds, h]

theorem Asserts.of_not_holds (hpc : pc.holds = false) (h : w.io ≠ some t) : Asserts t pc out w := by
  cases pc <;> first | exact h | cases hpc

/-- What a thread that does not hold `_io` does to the writer. -/
structure Apart (act : Act ν) (w w' : Writer ν) : Prop where
  row : w'.row = w.row
  durable : w'.durable = w.durable
  unpersisted : w'.unpersisted = false → w.unpersisted = false
  fence : ∀ out, w.fence.getD ∅ = fences out → w'.fence.getD ∅ = fences (act :: out)
  layers : ∀ values out, w.fence.getD ∅ = fences out → Layers w values out → Layers w' values (act :: out)

theorem Apart.of_same (hstaged : w'.staged = w.staged) (hfence : w'.fence = w.fence) (hrow : w'.row = w.row)
    (hdurable : w'.durable = w.durable) (hmark : w'.unpersisted = false → w.unpersisted = false) :
    Apart .quiet w w' := by
  refine ⟨hrow, hdurable, hmark, fun out h => hfence ▸ h, ?_⟩
  intro values out _ h
  constructor
  · intro k x hx
    have := h.covers k x hx
    simpa [Writer.stagedAt, hstaged, hrow] using this
  · intro k x hx
    have := h.durable k x (hdurable ▸ hx)
    simpa [Writer.stagedAt, hstaged, hrow] using this

theorem Asserts.apart (h : Asserts u pc out w) (ha : Apart act w w') (hfence : w.fence.getD ∅ = fences out)
    (hio : pc.holds = true → w'.io = w.io) (hfree : pc.holds = false → w'.io ≠ some u) : Asserts u pc (act :: out) w' := by
  cases hpc : pc.holds with
  | false => exact .of_not_holds hpc (hfree hpc)
  | true =>
    have hheld : w'.io = some u := (hio hpc).trans (h.io.2 hpc)
    cases pc with
    | taking => exact ⟨hheld, ha.layers _ _ hfence h.2⟩
    | releasing next => exact ⟨hheld, ha.layers _ _ hfence h.2⟩
    | failing values fatal => exact ⟨hheld, ha.layers _ _ hfence h.2⟩
    | writing values =>
      refine ⟨hheld, ha.layers _ _ hfence h.2.1, ?_⟩
      intro hmark k x hk hx
      rw [ha.durable]
      exact h.2.2 (ha.unpersisted hmark) k x hk hx
    | settling values =>
      refine ⟨hheld, ha.layers _ _ hfence h.2.1, ?_⟩
      intro k x hx
      rw [ha.row]
      exact h.2.2 k x hx
    | _ => cases hpc

section Move

variable [DecidableEq ν] {i : Input ν}

theorem move_apart (hpc : pc.holds = false) :
    let m := move i t pc w
    Apart m.1 w m.2.2 ∧
      (m.2.1.holds = false ∧ m.2.2.io = w.io ∨ w.io = none ∧ m.2.1 = .taking ∧ m.2.2.io = some t) := by
  have hmark (values : Values ν) : Apart .quiet w (w.markMaterial values) :=
    .of_same rfl rfl rfl rfl fun h => (Bool.or_eq_false_iff.1 h).1
  cases pc with
  | outside =>
    dsimp only [move]
    split
    · rename_i values
      refine ⟨⟨rfl, rfl, id, fun _ h => h, fun _ _ hfence h => h.stage hfence values⟩, .inl ⟨rfl, rfl⟩⟩
    · rename_i values
      refine ⟨⟨rfl, rfl, id, ?_, fun _ _ hfence h => h.pin hfence values⟩, .inl ⟨rfl, rfl⟩⟩
      intro out h
      exact congrArg (fun d => Dict.update d values) h
    · exact ⟨.of_same rfl rfl rfl rfl id, .inl ⟨rfl, rfl⟩⟩
    · split
      · exact ⟨.of_same rfl rfl rfl rfl id, .inl ⟨rfl, rfl⟩⟩
      · exact ⟨hmark _, .inl ⟨rfl, rfl⟩⟩
    · refine ⟨.of_same rfl rfl rfl rfl id, .inl ⟨?_, rfl⟩⟩
      dsimp only
      split <;> rfl
    · exact ⟨.of_same rfl rfl rfl rfl id, .inl ⟨rfl, rfl⟩⟩
  | acquiring =>
    dsimp only [move]
    split
    · exact ⟨.of_same rfl rfl rfl rfl id, .inl ⟨rfl, rfl⟩⟩
    · rename_i hio
      exact ⟨.of_same rfl rfl rfl rfl id, .inr ⟨hio, rfl, rfl⟩⟩
  | leaving fatal =>
    refine ⟨.of_same rfl rfl rfl rfl id, .inl ⟨?_, rfl⟩⟩
    cases t <;> cases fatal <;> rfl
  | checking | handing | starting =>
    dsimp only [move]
    split <;> exact ⟨.of_same rfl rfl rfl rfl id, .inl ⟨rfl, rfl⟩⟩
  | looping | done | startFailed => exact ⟨.of_same rfl rfl rfl rfl id, .inl ⟨rfl, rfl⟩⟩
  | _ => cases hpc

theorem routine_of_not_material (h : w.material values = false) : w.Routine values := by
  intro k x hk hx
  have hitem := List.any_eq_false.1 h (k, x) (Dict.get?_eq_some_iff.1 hx)
  simpa [hk] using hitem

omit [DecidableEq ν] in
/-- A committed write that was routine leaves what was last made durable in the row. -/
theorem Writer.Persisted.commit (h : w.Persisted) (hroutine : w.Routine values) : (w.commit values).Persisted := by
  intro k x hk hx
  simp only [Writer.commit, Dict.get?_update] at hx ⊢
  cases hv : values.get? k with
  | none => exact h k x hk hx
  | some y =>
    have : w.durable.get? k = some y := hroutine k y hk hv
    rw [this] at hx
    exact hx

omit [DecidableEq ν] in
theorem write_own (hsound : Sound out w) (h : Asserts t (.writing values) out w) :
    let m := write i values w
    Sound (.quiet :: out) m.2 ∧ Asserts t m.1 (.quiet :: out) m.2 := by
  obtain ⟨hio, hlayers, hroutine⟩ := h
  have hheld (hfree : w.io = none) : False := by cases hio.symm.trans hfree
  have hcommit : Sound (.quiet :: out) (w.commit values) := by
    refine ⟨hsound.fence, fun hfree => (hheld hfree).elim, ?_⟩
    intro hmark
    exact (hsound.marked hmark).commit (hroutine hmark)
  unfold write
  split
  · exact ⟨⟨hsound.fence, fun hfree => (hheld hfree).elim, hsound.marked⟩, hio, hlayers.quiet⟩
  · exact ⟨hcommit, hio, hlayers.commit.quiet⟩
  · refine ⟨hcommit, hio, hlayers.commit.quiet, ?_⟩
    intro k x hx
    simp [Writer.commit, Dict.get?_update, hx]

/-- The thread that holds `_io` keeps what it knows, and what holds of the writer. -/
theorem move_own (hsound : Sound out w) (h : Asserts t pc out w) :
    let m := move i t pc w
    Sound (m.1 :: out) m.2.2 ∧ Asserts t m.2.1 (m.1 :: out) m.2.2 := by
  cases hpc : pc.holds with
  | false =>
    obtain ⟨happart, hnext⟩ := @move_apart ν w t pc _ i hpc
    have hfree : (move i t pc w).2.2.io = none → Layers (move i t pc w).2.2 ∅ ((move i t pc w).1 :: out) := by
      intro hio
      rcases hnext with ⟨_, hsame⟩ | ⟨_, _, htaken⟩
      · exact happart.layers _ _ hsound.fence (hsound.free (hsame.symm.trans hio))
      · cases htaken.symm.trans hio
    refine ⟨⟨happart.fence _ hsound.fence, hfree, ?_⟩, ?_⟩
    · intro hmark k x hk hx
      rw [happart.durable] at hx
      rw [happart.row]
      exact hsound.marked (happart.unpersisted hmark) k x hk hx
    · rcases hnext with ⟨hholds, hsame⟩ | ⟨hnone, htaking, htaken⟩
      · refine .of_not_holds hholds ?_
        rw [hsame]
        exact fun hio => by simp [h.io.1 hio] at hpc
      · rw [htaking]
        exact ⟨htaken, happart.layers _ _ hsound.fence (hsound.free hnone)⟩
  | true =>
    have hio := h.io.2 hpc
    have hheld (hfree : w.io = none) : False := by cases hio.symm.trans hfree
    cases pc with
    | taking =>
      obtain ⟨_, hlayers⟩ := h
      dsimp only [move]
      split
      · exact ⟨⟨hsound.fence, fun hfree => (hheld hfree).elim, hsound.marked⟩, hio, hlayers.quiet⟩
      · rename_i values hstaged
        refine ⟨⟨hsound.fence, fun hfree => (hheld hfree).elim, ?_⟩, hio, (hlayers.take hstaged _).quiet, ?_⟩
        · exact fun hmark => hsound.marked (Bool.or_eq_false_iff.1 hmark).1
        · exact fun hmark => routine_of_not_material (w := w) (Bool.or_eq_false_iff.1 hmark).2
    | writing values => exact write_own hsound h
    | settling values =>
      obtain ⟨_, hlayers, hrow⟩ := h
      have hsettled := hlayers.settle hrow
      refine ⟨⟨hsound.fence, fun hfree => (hheld hfree).elim, ?_⟩, hio, hsettled.quiet⟩
      -- the mark is cleared with nothing staged, or it was not set
      intro hmark k x hk hx
      rcases Bool.and_eq_false_iff.1 hmark with hmark | hnone
      · replace hx : (w.durable.update values).get? k = some x := hx
        rw [Dict.get?_update] at hx
        cases hv : values.get? k with
        | some y =>
          rw [← hx, hv]
          exact hrow k y hv
        | none =>
          rw [hv] at hx
          exact hsound.marked hmark k x hk hx
      · rcases hsettled.durable k x hx with hrow | hflight | hstaged
        · exact hrow
        · cases hflight
        · have hempty : w.staged = none := by simpa using hnone
          simp [Writer.stagedAt, Writer.settle, hempty, empty_get?] at hstaged
    | failing values fatal =>
      exact ⟨⟨hsound.fence, fun hfree => (hheld hfree).elim, fun h => by cases h⟩, hio, (h.2.restage hsound.fence).quiet⟩
    | releasing next =>
      have hlayers : Layers { w with io := none } ∅ (.quiet :: out) := ⟨h.2.covers, h.2.durable⟩
      refine ⟨⟨hsound.fence, fun _ => hlayers, hsound.marked⟩, ?_⟩
      cases next <;> rintro ⟨⟩
    | _ => cases hpc

theorem move_held (hpc : pc.holds = true) (hio : w.io = some t) (hne : u ≠ t) : (move i t pc w).2.2.io ≠ some u := by
  have hkept : w.io ≠ some u := by
    rw [hio]
    exact fun h => hne (Option.some.inj h).symm
  cases pc with
  | taking =>
    dsimp only [move]
    split <;> exact hkept
  | writing values =>
    dsimp only [move, write]
    split <;> exact hkept
  | settling values | failing values fatal => exact hkept
  | releasing next => exact nofun
  | _ => cases hpc

theorem move_other (hsound : Sound out w) (ht : Asserts t pc out w) {pc' : Pc ν} (hu : Asserts u pc' out w) (hne : u ≠ t) :
    let m := move i t pc w
    Asserts u pc' (m.1 :: out) m.2.2 := by
  cases hpc : pc.holds with
  | true =>
    have hio := ht.io.2 hpc
    refine .of_not_holds ?_ (move_held hpc hio hne)
    rw [← Bool.not_eq_true, ← hu.io, hio]
    exact fun h => hne (Option.some.inj h).symm
  | false =>
    obtain ⟨happart, hnext⟩ := @move_apart ν w t pc _ i hpc
    refine hu.apart happart hsound.fence ?_ ?_
    · intro hpc'
      rcases hnext with ⟨_, hsame⟩ | ⟨hnone, _⟩
      · exact hsame
      · cases (hu.io.2 hpc').symm.trans hnone
    · intro hpc'
      rcases hnext with ⟨_, hsame⟩ | ⟨_, _, htaken⟩
      · rw [hsame]
        exact fun hio => by simp [hu.io.1 hio] at hpc'
      · rw [htaken]
        exact fun h => hne (Option.some.inj h).symm

theorem move_cleared (hmark : w.unpersisted = true) (hcleared : (move i t pc w).2.2.unpersisted = false) :
    (move i t pc w).2.1 = .releasing .returning ∧ (move i t pc w).2.2.staged = none := by
  cases hpc : pc.holds with
  | false => cases hmark.symm.trans ((move_apart hpc).1.unpersisted hcleared)
  | true =>
    cases pc with
    | taking =>
      dsimp only [move] at hcleared
      split at hcleared
      · cases hmark.symm.trans hcleared
      · cases hmark.symm.trans (Bool.or_eq_false_iff.1 hcleared).1
    | writing values =>
      dsimp only [move, write] at hcleared
      split at hcleared <;> cases hmark.symm.trans hcleared
    | settling values =>
      have hempty : w.staged = none := by simpa [move, Writer.settle, hmark] using hcleared
      exact ⟨by simp [move, hempty], hempty⟩
    | failing values fatal => cases hcleared
    | releasing next => cases hmark.symm.trans hcleared
    | _ => cases hpc

end Move

/-! ## Runs -/

section Run

variable {row : Values ν} {h : List (WriterEvent ν)} {s : State ν}

theorem holds_of_reaches [DecidableEq ν] (hs : Reaches step (State.init row) h s) :
    Threads.Holds Sound Asserts (Threads.observed h) s := by
  refine Threads.invariant (C := fun _ => True) ?_ ?_ ?_ hs fun _ _ => trivial
  · refine ⟨⟨rfl, fun _ => ⟨nofun, nofun⟩, fun _ => nofun⟩, fun t => nofun⟩
  · exact fun i t s out _ hold => move_own hold.shared (hold.thread t)
  · exact fun i t u s out _ hne hold => move_other hold.shared (hold.thread t) (hold.thread u) hne

theorem inFlight_io (hold : Threads.Holds Sound Asserts out s) {t : Thread} (h : (s.pc t).inFlight.isSome = true) :
    s.shared.io = some t := by
  refine (hold.thread t).io.2 ?_
  cases hpc : s.pc t <;> simp_all [Pc.inFlight, Pc.holds]

/-- With nothing staged and no write in flight the row holds what was staged. -/
theorem row_expected (hold : Threads.Holds Sound Asserts out s) (hstaged : s.shared.staged = none)
    (hquiet : ∀ t, (s.pc t).inFlight = none) {k : String} {x : ν} (hx : (expected out).get? k = some x) :
    s.shared.row.get? k = some x := by
  have hlayers : Layers s.shared ∅ out := by
    cases hio : s.shared.io with
    | none => exact hold.shared.free hio
    | some t =>
      have ht := hold.thread t
      have hholds := ht.io.1 hio
      have hnone := hquiet t
      generalize s.pc t = pc at ht hholds hnone
      cases pc with
      | taking => exact ht.2
      | releasing next => exact ht.2
      | writing values => cases hnone
      | settling values => cases hnone
      | failing values fatal => cases hnone
      | _ => cases hholds
  simpa [Writer.stagedAt, hstaged, empty_get?] using hlayers.covers k x hx

end Run

/-- At most one write is in flight. With nothing staged and no write in flight the row holds the fold of what was staged, with
the fence on top. The source is marked while a write is in flight that changes more than `last_seen_at`, and the mark is
cleared only with nothing staged and everything that was staged in the row. -/
theorem health_writes [DecidableEq ν] {row : Values ν} {h : List (WriterEvent ν)} {s : State ν}
    (hs : Reaches step (State.init row) h s) :
    (∀ t u, (s.pc t).inFlight.isSome = true → (s.pc u).inFlight.isSome = true → t = u) ∧
    (s.shared.staged = none → (∀ t, (s.pc t).inFlight = none) →
      ∀ k x, (expected (Threads.observed h)).get? k = some x → s.shared.row.get? k = some x) ∧
    (∀ t values k x, s.pc t = .writing values → k ≠ lastSeenAt → values.get? k = some x → s.shared.row.get? k ≠ some x →
      s.shared.unpersisted = true) ∧
    ∀ later e earlier, h = later ++ e :: earlier → e.before.shared.unpersisted = true → e.after.shared.unpersisted = false →
      e.after.shared.staged = none ∧
        ∀ k x, (expected (Threads.observed (e :: earlier))).get? k = some x → e.after.shared.row.get? k = some x := by
  have hold := holds_of_reaches hs
  refine ⟨?_, fun hstaged hquiet k x hx => row_expected hold hstaged hquiet hx, ?_, ?_⟩
  · intro t u ht hu
    exact Option.some.inj ((inFlight_io hold ht).symm.trans (inFlight_io hold hu))
  · intro t values k x hpc hk hx hrow
    have ht := hold.thread t
    rw [hpc] at ht
    by_contra hmark
    rw [Bool.not_eq_true] at hmark
    exact hrow (hold.shared.marked hmark k x hk (ht.2.2 hmark k x hk hx))
  · rintro later e earlier rfl hmark hcleared
    obtain ⟨s', hs'⟩ := hs.of_append
    have hold' := holds_of_reaches hs'
    rw [hs'.after_eq] at hold'
    have he := hs'.head
    rw [he] at hcleared
    obtain ⟨hpc, hstaged⟩ := move_cleared hmark hcleared
    have hafter : e.after.shared.staged = none := by rw [he]; exact hstaged
    have hthread := hold'.thread e.input.1
    have hat : e.after.pc e.input.1 = .releasing .returning := by
      rw [he]
      simpa [Event.of, Threads.step] using hpc
    rw [hat] at hthread
    refine ⟨hafter, fun k x hx => ?_⟩
    simpa [Writer.stagedAt, hafter, empty_get?] using hthread.2.covers k x hx

/-- A value that a camera stages. -/
def firstState : Values Nat := ⟨[("health_state", 1)], List.nodup_singleton _⟩

/-- The first write of a source is in flight. -/
def firstWrite : List (Thread × Input Nat) :=
  [(.caller 0, .stage firstState), (.caller 0, .flush true), (.caller 0, .go), (.caller 0, .go)]

theorem health_writes_first : (perform step (State.init ∅) firstWrite).2.shared.unpersisted = true :=
  (health_writes (Reaches.perform step (State.init ∅) firstWrite)).2.2.1 (.caller 0) firstState "health_state" 1
    rfl (by decide) rfl nofun

end Sentinel.Uvc.HealthWriter
