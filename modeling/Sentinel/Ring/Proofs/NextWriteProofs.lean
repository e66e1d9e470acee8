import Sentinel.Ring.Proofs.ChargeProofs

/-!
# The next-write check is the full simulation

`_next_write_refused` checks only the last append before each change of the credit. The charge is monotone in the appends
and the credit is constant in between, so this finds a refusal exactly if some simulated append does not fit.
-/

namespace Sentinel.Ring

/-! ## Consecutive times -/

variable {t : Int}

/-- Every time from the first to the last lies between two consecutive ones. -/
theorem exists_consecutive (times : List Int) {a z : Int} (ha : a ≤ t) (hz : t < z) :
    ∃ p ∈ (a :: times).zip (times ++ [z]), p.1 ≤ t ∧ t < p.2 := by
  induction times generalizing a with
  | nil => exact ⟨(a, z), List.mem_singleton_self _, ha, hz⟩
  | cons b times ih =>
    by_cases hb : b ≤ t
    · obtain ⟨p, hp, h⟩ := ih hb
      exact ⟨p, List.mem_cons_of_mem _ hp, h⟩
    · exact ⟨(a, b), List.mem_cons_self, ha, not_le.mp hb⟩

/-- Two consecutive times of an increasing list are in order, with none of them in between. -/
theorem consecutive {times : List Int} {a z : Int} (hsorted : (a :: times).Pairwise (· < ·)) (hz : ∀ x ∈ times, x < z)
    {p : Int × Int} (hp : p ∈ (a :: times).zip (times ++ [z])) (hlt : a < z) :
    a ≤ p.1 ∧ p.1 < p.2 ∧ p.2 ≤ z ∧ ∀ x ∈ times, x ≤ p.1 ∨ p.2 ≤ x := by
  induction times generalizing a with
  | nil =>
    obtain rfl : p = (a, z) := List.mem_singleton.mp hp
    exact ⟨le_rfl, hlt, le_rfl, nofun⟩
  | cons b times ih =>
    obtain ⟨hab, hsorted⟩ := List.pairwise_cons.mp hsorted
    have hbt := (List.pairwise_cons.mp hsorted).1
    have hb : a < b := hab b List.mem_cons_self
    rcases List.mem_cons.mp hp with rfl | hp
    · refine ⟨le_rfl, hb, (hz b List.mem_cons_self).le, fun x hx => .inr ?_⟩
      rcases List.mem_cons.mp hx with rfl | hx
      · exact le_rfl
      · exact (hbt x hx).le
    · obtain ⟨h₁, h₂, h₃, h₄⟩ := ih hsorted (fun x hx => hz x (List.mem_cons_of_mem _ hx)) hp (hz b List.mem_cons_self)
      refine ⟨hb.le.trans h₁, h₂, h₃, fun x hx => ?_⟩
      rcases List.mem_cons.mp hx with rfl | hx
      · exact .inl h₁
      · exact h₄ x hx

namespace NextWrite

variable (w : NextWrite)

/-! ## The simulated appends -/

/-- The time of a simulated append of a source: one cadence after the other from its next append on. -/
def appendTime (source : UUID) (profile : SegmentProfile) (k : Nat) : Int :=
  w.nextAppend source profile + k * profile.segmentDurationUs

/-- The simulated appends of a source at or before a time. -/
noncomputable def appendsThrough (t : Int) (source : UUID) (profile : SegmentProfile) : Nat :=
  {k : Nat | w.appendTime source profile k ≤ t}.ncard

def creditThrough (t : Int) : Nat :=
  (((w.storedCredits ++ w.simulatedCredits).filter fun credit => credit.1 ≤ t).map Prod.snd).sum

/-- The appends through a time, charged together, do not fit over the reserve and the ledger's headroom. -/
def Short (t : Int) (charge : Nat) : Prop :=
  w.free + w.creditThrough t < w.reserve + roundUp w.headroom w.unit + charge

variable {w}

theorem lt_countThrough_iff {source : UUID} {profile : SegmentProfile} {k : Nat} :
    k < w.countThrough t source profile ↔ w.appendTime source profile k ≤ t := by
  have hcadence : (0 : Int) < profile.segmentDurationUs := by
    have := profile.cadence.1
    unfold second at this
    omega
  unfold countThrough appendTime
  split
  next hle =>
    rw [Int.lt_toNat, Int.lt_add_one_iff, Int.le_ediv_iff_mul_le hcadence]
    omega
  next hlt =>
    have := mul_nonneg (Int.natCast_nonneg k) hcadence.le
    omega

theorem countThrough_eq (t : Int) (source : UUID) (profile : SegmentProfile) :
    w.countThrough t source profile = w.appendsThrough t source profile := by
  have hset : {k : Nat | w.appendTime source profile k ≤ t} = Set.Iio (w.countThrough t source profile) :=
    Set.ext fun _ => lt_countThrough_iff.symm
  rw [appendsThrough, hset, Set.ncard_eq_toFinset_card', Set.toFinset_Iio, Nat.card_Iio]

variable {t' : Int} {credits : List (Int × Nat)} {reclaim : Nat}

theorem countThrough_mono (h : t ≤ t') (source : UUID) (profile : SegmentProfile) :
    w.countThrough t source profile ≤ w.countThrough t' source profile :=
  le_of_forall_lt fun _ hk => lt_countThrough_iff.mpr ((lt_countThrough_iff.mp hk).trans h)

theorem consumed_mono (h : t ≤ t') : w.consumed t ≤ w.consumed t' := by
  have hwf : ∀ e ∈ w.configuration.profiles.entries, (w.recent e.1 e.2).Wf w.unit := fun _ _ => recentOf_wf ..
  exact batchCharge_mono hwf fun e _ => countThrough_mono h e.1 e.2

/-- A source appends at the time. -/
def Appends (w : NextWrite) (t : Int) : Prop :=
  ∃ e ∈ w.configuration.profiles.entries, ∃ k, t = w.appendTime e.1 e.2 k

/-- The counts through two times are the same if no append lies between them. -/
theorem countsThrough_eq_iff (h : t ≤ t') : w.countsThrough t' = w.countsThrough t ↔ ∀ x, t < x → x ≤ t' → ¬ w.Appends x := by
  unfold countsThrough
  rw [List.map_inj_left]
  constructor
  · rintro hcounts _ hlt hle ⟨e, he, k, rfl⟩
    have hcount : w.countThrough t' e.1 e.2 = w.countThrough t e.1 e.2 := hcounts e he
    have hk := lt_countThrough_iff.mpr hle
    rw [hcount] at hk
    exact absurd (lt_countThrough_iff.mp hk) (not_le.mpr hlt)
  · intro hnone e he
    refine le_antisymm (le_of_forall_lt fun k hk => ?_) (countThrough_mono h _ _)
    refine lt_countThrough_iff.mpr (not_lt.mp fun hlt => ?_)
    exact hnone _ hlt (lt_countThrough_iff.mp hk) ⟨e, he, k, rfl⟩

theorem consumed_congr (h : w.countsThrough t' = w.countsThrough t) : w.consumed t' = w.consumed t := by
  refine congrArg (batchCharge · w.unit) (List.map_congr_left fun e he => ?_)
  have hcount : w.countThrough t' e.1 e.2 = w.countThrough t e.1 e.2 := List.map_inj_left.mp h e he
  exact congrArg (·, w.recent e.1 e.2) hcount

theorem now_le_appendTime (source : UUID) (profile : SegmentProfile) (k : Nat) : w.now ≤ w.appendTime source profile k := by
  have hnow : w.now ≤ w.nextAppend source profile := by
    unfold nextAppend
    split
    · cases w.lastEnd source with
      | none => exact le_rfl
      | some last => exact le_max_left _ _
    · exact le_rfl
  exact hnow.trans (le_add_of_nonneg_right (by positivity))

theorem now_le_latest : w.now ≤ w.latest := by
  change w.now ≤ ((w.configuration.profiles.entries.map fun e => w.nextAppend e.1 e.2).max?).getD w.now
  cases hmax : (w.configuration.profiles.entries.map fun e => w.nextAppend e.1 e.2).max? with
  | none => exact le_rfl
  | some m =>
    obtain ⟨e, -, rfl⟩ := List.mem_map.mp (List.max?_eq_some_iff.mp hmax).1
    simpa [appendTime] using w.now_le_appendTime e.1 e.2 0

/-! ## The credits -/

theorem credits_perm : w.credits.Perm (w.storedCredits ++ w.simulatedCredits) := List.perm_insertionSort _ _

theorem credits_sorted : w.credits.Pairwise fun a b => a.1 ≤ b.1 := by
  let upTo (a b : Int × Nat) : Prop := a.1 < b.1 ∨ (a.1 = b.1 ∧ a.2 ≤ b.2)
  have : Std.Total upTo := ⟨fun a b => by simp only [upTo]; omega⟩
  have : IsTrans _ upTo := ⟨fun a b c => by simp only [upTo]; omega⟩
  have hsorted : w.credits.Pairwise upTo := List.pairwise_insertionSort ..
  exact hsorted.imp fun h => h.elim le_of_lt fun h => h.1.le

theorem creditThrough_eq (t : Int) :
    w.creditThrough t = ((w.credits.filter fun credit => credit.1 ≤ t).map Prod.snd).sum :=
  ((credits_perm.symm.filter _).map _).sum_eq

theorem creditThrough_congr {b : Int} (hbt : b ≤ t) (hnone : ∀ credit ∈ w.credits, credit.1 ≤ t → credit.1 ≤ b) :
    w.creditThrough t = w.creditThrough b := by
  rw [creditThrough_eq, creditThrough_eq]
  have hfilter : (w.credits.filter fun credit => decide (credit.1 ≤ t)) =
      w.credits.filter fun credit => decide (credit.1 ≤ b) :=
    List.filter_congr fun credit hc => decide_eq_decide.mpr ⟨hnone credit hc, fun h => h.trans hbt⟩
  rw [hfilter]

/-- The credits still to come, and those counted before, are the credit at every time from the next interval on. -/
def Counted (w : NextWrite) (credits : List (Int × Nat)) (reclaim : Nat) (first : Int) : Prop :=
  (credits.Pairwise fun a b => a.1 ≤ b.1) ∧
    ∀ t, first ≤ t → reclaim + ((credits.filter fun credit => credit.1 ≤ t).map Prod.snd).sum = w.creditThrough t

theorem Counted.pass {first : Int} (h : w.Counted credits reclaim first) :
    let reclaim' := reclaim + ((credits.takeWhile fun credit => credit.1 ≤ first).map Prod.snd).sum
    reclaim' = w.creditThrough first ∧
      ∀ next, first ≤ next → w.Counted (credits.dropWhile fun credit => credit.1 ≤ first) reclaim' next := by
  intro reclaim'
  have hdue : ∀ credit ∈ credits.takeWhile fun credit => credit.1 ≤ first, credit.1 ≤ first := fun credit hc => by
    simpa using List.all_eq_true.mp List.all_takeWhile credit hc
  have hsplit (t : Int) (ht : first ≤ t) : reclaim' + (((credits.dropWhile fun credit => credit.1 ≤ first).filter
      fun credit => credit.1 ≤ t).map Prod.snd).sum = w.creditThrough t := by
    have hself : (credits.takeWhile fun credit => decide (credit.1 ≤ first)).filter (fun credit => decide (credit.1 ≤ t)) =
        credits.takeWhile fun credit => decide (credit.1 ≤ first) :=
      List.filter_eq_self.mpr fun credit hc => by simpa using (hdue credit hc).trans ht
    rw [← h.2 t ht]
    conv_rhs => rw [← List.takeWhile_append_dropWhile (p := fun credit => decide (credit.1 ≤ first)) (l := credits)]
    rw [List.filter_append, hself, List.map_append, List.sum_append, Nat.add_assoc]
  have hdrop : (credits.dropWhile fun credit => decide (credit.1 ≤ first)).Pairwise fun a b => a.1 ≤ b.1 :=
    h.1.sublist (List.dropWhile_sublist _)
  refine ⟨?_, fun next hn => ⟨hdrop, fun t ht => hsplit t (hn.trans ht)⟩⟩
  rw [← hsplit first le_rfl]
  -- the list is sorted, so nothing after the first later credit counts yet
  have hnone : ∀ credit ∈ credits.dropWhile fun credit => credit.1 ≤ first, first < credit.1 := by
    cases hd : credits.dropWhile fun credit => decide (credit.1 ≤ first) with
    | nil => exact nofun
    | cons head rest =>
      rw [hd] at hdrop
      have hhead : first < head.1 := by
        have := List.head?_dropWhile_not (fun credit : Int × Nat => decide (credit.1 ≤ first)) credits
        rw [hd] at this
        simpa using this
      intro credit hc
      rcases List.mem_cons.mp hc with rfl | hc
      · exact hhead
      · exact hhead.trans_le ((List.pairwise_cons.mp hdrop).1 credit hc)
  rw [List.filter_eq_nil_iff.mpr fun credit hc => by simpa using hnone credit hc]
  rfl

/-! ## The scan -/

/-- The scan finds an interval with an append in which the appends through its end do not fit. -/
theorem scan_iff {intervals : List (Int × Int)} (hsorted : (intervals.map Prod.fst).Pairwise (· ≤ ·))
    (hcounted : ∀ first ∈ (intervals.map Prod.fst).head?, w.Counted credits reclaim first) :
    w.scan intervals credits reclaim = true ↔ ∃ p ∈ intervals,
      w.countsThrough (p.2 - 1) ≠ w.countsThrough (p.1 - 1) ∧ w.Short p.1 (w.consumed (p.2 - 1)) := by
  induction intervals generalizing credits reclaim with
  | nil => simp [scan]
  | cons p rest ih =>
    obtain ⟨first, finish⟩ := p
    rw [List.map_cons, List.pairwise_cons] at hsorted
    obtain ⟨hreclaim, hpass⟩ := (hcounted first rfl).pass
    have hrest := ih hsorted.2 fun next hn => hpass next (hsorted.1 next (List.mem_of_mem_head? hn))
    rw [hreclaim] at hrest
    simp only [List.mem_cons, exists_eq_or_imp, ← hrest, scan, hreclaim]
    split
    next hcounts => simp [hcounts]
    next hcounts =>
      split
      next hshort => exact ⟨fun _ => .inl ⟨hcounts, hshort⟩, fun _ => rfl⟩
      next hfits => exact ⟨.inr, fun h => h.resolve_left fun h => hfits h.2⟩

theorem boundaries_spec : (w.now :: w.boundaries).Pairwise (· < ·) ∧ (∀ x ∈ w.boundaries, x < w.latest + 1) ∧
    ∀ credit ∈ w.credits, w.now < credit.1 → credit.1 ≤ w.latest → credit.1 ∈ w.boundaries := by
  have hmem (x : Int) : x ∈ w.boundaries ↔ (∃ credit ∈ w.credits, credit.1 = x) ∧ w.now < x ∧ x ≤ w.latest := by
    unfold boundaries
    rw [List.mem_insertionSort, List.mem_dedup, List.mem_filter, List.mem_map]
    simp
  refine ⟨List.pairwise_cons.mpr ⟨fun x hx => ((hmem x).mp hx).2.1, ?_⟩,
    fun x hx => Int.lt_add_one_iff.mpr ((hmem x).mp hx).2.2, fun credit hc h₁ h₂ => (hmem _).mpr ⟨⟨credit, hc, rfl⟩, h₁, h₂⟩⟩
  have hnodup : w.boundaries.Nodup := (List.perm_insertionSort _ _).nodup_iff.mpr (List.nodup_dedup _)
  have hsorted : w.boundaries.Pairwise (· ≤ ·) := List.pairwise_insertionSort ..
  exact (hsorted.and hnodup).imp fun h => lt_of_le_of_ne h.1 h.2

/-- `_next_write_refused` refuses exactly if some simulated append, of any source and up to the latest next append, does
not fit: the free space and the credits that count by then, less the charge for all appends by then, are below the reserve
and the headroom of the ledger. -/
theorem next_write_refused_iff (w : NextWrite) :
    w.refused = true ↔ ∃ e ∈ w.configuration.profiles.entries, ∃ k, w.appendTime e.1 e.2 k ≤ w.latest ∧
      w.Short (w.appendTime e.1 e.2 k) (batchCharge (w.configuration.profiles.entries.map fun (source, profile) =>
        (w.appendsThrough (w.appendTime e.1 e.2 k) source profile, w.recent source profile)) w.unit) := by
  obtain ⟨hsorted, hlast, hcredit⟩ := w.boundaries_spec
  have hfst : ((w.now :: w.boundaries).zip (w.boundaries ++ [w.latest + 1])).map Prod.fst = w.now :: w.boundaries :=
    List.map_fst_zip (by simp)
  have hscan : w.refused = true ↔ _ := scan_iff (by rw [hfst]; exact hsorted.imp le_of_lt) fun first _ =>
    ⟨credits_sorted, fun t _ => by rw [Nat.zero_add, creditThrough_eq]⟩
  have hconsumed (t : Int) : batchCharge (w.configuration.profiles.entries.map fun (source, profile) =>
      (w.appendsThrough t source profile, w.recent source profile)) w.unit = w.consumed t := by
    unfold consumed
    simp only [countThrough_eq]
  have hlatest : w.now < w.latest + 1 := Int.lt_add_one_iff.mpr now_le_latest
  -- within an interval the credit does not change
  have hconst {p : Int × Int} (hp : p ∈ (w.now :: w.boundaries).zip (w.boundaries ++ [w.latest + 1])) {t : Int}
      (hpt : p.1 ≤ t) (htp : t < p.2) :
      w.creditThrough t = w.creditThrough p.1 ∧ t ≤ w.latest := by
    obtain ⟨hnow, -, hend, hgap⟩ := consecutive hsorted hlast hp hlatest
    refine ⟨creditThrough_congr hpt fun credit hc ht => not_lt.mp fun hlt => ?_, by omega⟩
    rcases hgap _ (hcredit credit hc (by omega) (by omega)) with h | h
    · exact absurd hlt (not_lt.mpr h)
    · omega
  simp only [hconsumed]
  rw [hscan]
  constructor
  · rintro ⟨p, hp, hcounts, hshort⟩
    obtain ⟨-, hlt, -, -⟩ := consecutive hsorted hlast hp hlatest
    rw [Ne, countsThrough_eq_iff (by omega)] at hcounts
    push Not at hcounts
    obtain ⟨x, hx₁, hx₂, hx⟩ := hcounts
    -- the last append of the interval
    obtain ⟨t, ⟨ht₁, ht₂, e, he, k, rfl⟩, hgreatest⟩ := Int.exists_greatest_of_bdd
      (P := fun t => p.1 ≤ t ∧ t < p.2 ∧ w.Appends t) ⟨p.2, fun t ht => ht.2.1.le⟩ ⟨x, by omega, by omega, hx⟩
    obtain ⟨hsame, hle⟩ := hconst hp ht₁ ht₂
    have hcongr : w.consumed (p.2 - 1) = w.consumed (w.appendTime e.1 e.2 k) := by
      refine consumed_congr ((countsThrough_eq_iff (by omega)).mpr fun y hy₁ hy₂ hy => ?_)
      exact absurd (hgreatest y ⟨by omega, by omega, hy⟩) (not_le.mpr hy₁)
    refine ⟨e, he, k, hle, ?_⟩
    rw [Short, hsame, ← hcongr]
    exact hshort
  · rintro ⟨e, he, k, hle, hshort⟩
    obtain ⟨p, hp, hp₁, hp₂⟩ := exists_consecutive w.boundaries (w.now_le_appendTime e.1 e.2 k)
      (Int.lt_add_one_iff.mpr hle)
    obtain ⟨hsame, -⟩ := hconst hp hp₁ hp₂
    refine ⟨p, hp, ?_, ?_⟩
    · rw [Ne, countsThrough_eq_iff (by omega)]
      exact fun h => h _ (by omega) (by omega) ⟨e, he, k, rfl⟩
    · rw [Short, hsame] at hshort
      exact hshort.trans_le (Nat.add_le_add_left (consumed_mono (by omega)) _)

end NextWrite

end Sentinel.Ring
