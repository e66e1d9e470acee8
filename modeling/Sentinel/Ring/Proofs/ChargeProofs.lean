import Sentinel.Ring.Charge

/-!
# The charge of a batch

`_measured_charge` computes the statistics of the aligned past batches; the charge is monotone in the counts, bounded by the
recent maxima, whole allocation units, at least the exact value and independent of the order of the sources.
-/

namespace Sentinel.Ring

/-! ## Rounding -/

theorem dvd_roundUp (value unit : Nat) : unit ∣ roundUp value unit := Dvd.intro_left _ rfl

theorem le_roundUp {unit : Nat} (hunit : 0 < unit) (value : Nat) : value ≤ roundUp value unit := by
  have hdiv := Nat.div_add_mod (value + unit - 1) unit
  have hmod := Nat.mod_lt (value + unit - 1) hunit
  unfold roundUp
  rw [Nat.mul_comm]
  omega

theorem roundUp_mono {value value' : Nat} (unit : Nat) (h : value ≤ value') : roundUp value unit ≤ roundUp value' unit :=
  Nat.mul_le_mul_right _ (Nat.div_le_div_right (by omega))

theorem dvd_min {unit a b : Nat} (ha : unit ∣ a) (hb : unit ∣ b) : unit ∣ min a b := by
  rcases min_choice a b with h | h <;> rw [h] <;> assumption

theorem ceilRoot_le_iff (square : Rat) (r : Nat) : ceilRoot square ≤ r ↔ square ≤ (r : Rat) ^ 2 := by
  have hceil : square ≤ (r : Rat) ^ 2 ↔ ⌈square⌉.toNat ≤ r * r := by
    rw [Int.toNat_le, Int.ceil_le]
    push_cast
    rw [sq]
  have hroot := Nat.sqrt_le ⌈square⌉.toNat
  rw [hceil]
  unfold ceilRoot
  dsimp only
  split
  next hlt =>
    rw [Nat.add_one_le_iff, Nat.sqrt_lt]
    refine ⟨le_of_lt, fun h => lt_of_le_of_ne h fun heq => ?_⟩
    rw [heq, Nat.sqrt_eq] at hlt
    exact lt_irrefl _ hlt
  next hge =>
    have heq := le_antisymm hroot (not_lt.mp hge)
    rw [Nat.add_zero]
    conv_rhs => rw [← heq]
    exact Nat.mul_self_le_mul_self_iff.symm

theorem ceilRoot_mono {square square' : Rat} (h : square ≤ square') : ceilRoot square ≤ ceilRoot square' :=
  (ceilRoot_le_iff _ _).mpr (h.trans ((ceilRoot_le_iff _ _).mp le_rfl))

theorem sqrt_le_ceilRoot (square : Rat) : √(square : ℝ) ≤ ceilRoot square := by
  rw [Real.sqrt_le_left (Nat.cast_nonneg _)]
  exact_mod_cast (ceilRoot_le_iff square _).mp le_rfl

theorem ceil_toNat_mono {q q' : Rat} (h : q ≤ q') : ⌈q⌉.toNat ≤ ⌈q'⌉.toNat := Int.toNat_le_toNat (Int.ceil_mono h)

theorem le_ceil_toNat (q : Rat) : (q : ℝ) ≤ (⌈q⌉.toNat : ℝ) := by
  have h : q ≤ (⌈q⌉.toNat : Rat) := (Int.le_ceil q).trans (by exact_mod_cast Int.self_le_toNat ⌈q⌉)
  exact_mod_cast h

/-! ## Recent allocations -/

/-- `_recent_allocations` keeps the mean below the cap, and the cap in whole units. -/
theorem recentOf_wf (l : Ledger) (after : Option Int) (allocations : Allocations) (unit : Nat) (atBound : Bool)
    (source : UUID) (profile : SegmentProfile) : (recentOf l after allocations unit atBound source profile).Wf unit := by
  unfold recentOf
  generalize (if atBound = true then [] else recentRows l source after) = rows
  dsimp only
  split
  next largest smallest _ _ =>
    have hdvd : unit ∣ min (roundUp (profile.segmentBytes false) unit) (roundUp largest unit) :=
      dvd_min (dvd_roundUp _ _) (dvd_roundUp _ _)
    split
    · exact ⟨Nat.cast_nonneg _, le_rfl, le_rfl, hdvd⟩
    · next hcount =>
      refine ⟨le_min ?_ (Nat.cast_nonneg _), min_le_right _ _, ?_, hdvd⟩
      · refine div_nonneg (List.sum_nonneg fun x hx => ?_) (Nat.cast_nonneg _)
        obtain ⟨size, -, rfl⟩ := List.mem_map.mp hx
        exact Nat.cast_nonneg _
      · refine div_nonneg (List.sum_nonneg fun x hx => ?_) ?_
        · obtain ⟨size, -, rfl⟩ := List.mem_map.mp hx
          exact sq_nonneg _
        · have hle : 1 ≤ ((rows.take recentAllocationSegments).map fun row =>
              (allocations.get? row.id).getD (roundUp (profile.segmentBytes false) unit)).length := by
            unfold minimumSpreadSamples at hcount
            omega
          exact sub_nonneg.mpr (by exact_mod_cast hle)
  next => exact ⟨Nat.cast_nonneg _, le_rfl, le_rfl, dvd_roundUp _ _⟩

/-! ## Past batches -/

variable {α : Type} {samples : List (List Sample)} {appends appends' : List (Nat × Recent)}

theorem getElem?_filterMap_of_isSome {β : Type} {f : α → Option β} {l : List α} (h : ∀ a ∈ l, (f a).isSome) (i : Nat) :
    (l.filterMap f)[i]? = l[i]?.bind f := by
  induction l generalizing i with
  | nil => rfl
  | cons a l ih =>
    obtain ⟨b, hb⟩ := Option.isSome_iff_exists.mp (h a List.mem_cons_self)
    rw [List.filterMap_cons_some hb]
    cases i with
    | zero => exact hb.symm
    | succ i => exact ih (fun a ha => h a (List.mem_cons_of_mem _ ha)) i

theorem filterMap_getElem?_range (l : List α) (n : Nat) : (List.range n).filterMap (l[·]?) = l.take n := by
  induction n with
  | zero => rfl
  | succ n ih =>
    rw [List.range_succ, List.filterMap_append, ih, List.take_add_one, List.filterMap_cons, List.filterMap_nil]
    cases l[n]? <;> rfl

theorem alignedBatches_le {source : List Sample} (hs : source ∈ samples) : alignedBatches samples ≤ source.length := by
  have hlen : alignedBatches samples ≤ (pastBatches samples).length := (List.takeWhile_prefix aligned).length_le
  refine hlen.trans ?_
  unfold pastBatches
  rw [List.length_map, List.length_range]
  cases hmin : (samples.map List.length).min? with
  | none => exact Nat.zero_le _
  | some m => exact (List.min?_eq_some_iff.mp hmin).2 _ (List.mem_map_of_mem hs)

/-- The sizes a source has in the aligned batches are those of its last samples. -/
theorem column_of_batches (appends : List (Nat × Recent)) {i : Nat} (hi : i < appends.length) :
    ((pastBatches (appends.map fun a => a.2.samples)).takeWhile aligned).filterMap
        (fun batch => batch[i]?.map fun sample => (sample.size : Rat)) =
      appends[i].2.column (alignedBatches (appends.map fun a => a.2.samples)) := by
  generalize hsamples : (appends.map fun a => a.2.samples) = samples
  have hi' : samples[i]? = some appends[i].2.samples := by
    rw [← hsamples, List.getElem?_map, List.getElem?_eq_getElem hi]
    rfl
  have hbatches : (pastBatches samples).takeWhile aligned =
      (List.range (alignedBatches samples)).map fun j => samples.filterMap (·[j]?) := by
    have hpre := List.takeWhile_prefix (l := pastBatches samples) aligned
    have hle : alignedBatches samples ≤ (pastBatches samples).length := hpre.length_le
    have htake : (pastBatches samples).takeWhile aligned = (pastBatches samples).take (alignedBatches samples) :=
      List.prefix_iff_eq_take.mp hpre
    rw [htake]
    unfold pastBatches at hle ⊢
    rw [List.length_map, List.length_range] at hle
    rw [← List.map_take, List.take_range, Nat.min_eq_left hle]
  rw [hbatches, List.filterMap_map]
  have hcol : ∀ j ∈ List.range (alignedBatches samples),
      ((fun batch : List Sample => batch[i]?.map fun sample => (sample.size : Rat)) ∘ fun j => samples.filterMap (·[j]?)) j =
        (appends[i].2.samples[j]?).map fun sample => (sample.size : Rat) := by
    intro j hj
    have hsome : ∀ source ∈ samples, (source[j]?).isSome := fun source hs => by
      rw [List.getElem?_eq_getElem ((List.mem_range.mp hj).trans_le (alignedBatches_le hs))]
      rfl
    dsimp only [Function.comp]
    rw [getElem?_filterMap_of_isSome hsome, hi']
    rfl
  rw [List.filterMap_congr hcol, ← List.map_filterMap, filterMap_getElem?_range]
  rfl

/-! ## The measured charge -/

/-- A sum over unordered pairs, with the pairs of different sources counted twice, is the sum over all pairs. -/
theorem sum_pairs {f : α → α → Rat} (hf : ∀ a b, f a b = f b a) (l : List α) {term : Nat → Nat → Rat}
    (hterm : ∀ (i j : Nat) (hi : i < l.length) (hj : j < l.length), term i j = (if i = j then 1 else 2) * f l[i] l[j]) :
    ((List.range l.length).map fun i => (((List.range l.length).drop i).map fun j => term i j).sum).sum =
      (l.map fun a => (l.map fun b => f a b).sum).sum := by
  induction l generalizing term with
  | nil => rfl
  | cons a l ih =>
    have hrest := @ih (fun i j => term (i + 1) (j + 1)) fun i j hi hj => by
      rw [hterm (i + 1) (j + 1) (Nat.succ_lt_succ hi) (Nat.succ_lt_succ hj)]
      simp
    have hfirst : ((List.range l.length).map fun j => term 0 (j + 1)).sum = (l.map fun b => 2 * f a b).sum := by
      congr 1
      refine List.ext_getElem (by simp) fun j hj hj' => ?_
      have hjl : j < l.length := by simpa using hj'
      simp [hterm 0 (j + 1) (Nat.succ_pos _) (Nat.succ_lt_succ hjl)]
    have hsymm : (l.map fun b => f b a).sum = (l.map fun b => f a b).sum :=
      congrArg List.sum (List.map_congr_left fun b _ => hf b a)
    simp only [List.length_cons, List.range_succ_eq_map, List.map_cons, List.sum_cons, List.map_map, Function.comp_def,
      List.drop_zero, List.drop_succ_cons, ← List.map_drop, Nat.succ_eq_add_one, List.sum_map_add] at hrest ⊢
    rw [hrest, hfirst, hsymm, hterm 0 0 (Nat.succ_pos _) (Nat.succ_pos _), List.sum_map_mul_left]
    simp only [List.getElem_cons_zero, if_true]
    ring

theorem covariance_comm (n : Nat) (r r' : Recent) : r.covariance n r' = r'.covariance n r := by
  unfold Recent.covariance
  rw [List.zipWith_comm]
  simp only [mul_comm]

theorem measuredCharge_eq (appends : List (Nat × Recent)) {n : Nat}
    (hn : alignedBatches (appends.map fun a => a.2.samples) = n) :
    measuredCharge appends =
      if Measured appends then
        some (⌈(appends.map fun a => (a.1 : Rat) * a.2.measuredMean n).sum⌉.toNat +
          ceilRoot (measuredVariance n appends * deviationFactor ^ 2 * ((n + 1) * (n - 1) / (n * (n - 3)))))
      else none := by
  have hsizes : ((List.range appends.length).map fun i =>
      ((pastBatches (appends.map fun a => a.2.samples)).takeWhile aligned).filterMap
        fun batch => batch[i]?.map fun sample => (sample.size : Rat)) = appends.map fun a => a.2.column n := by
    refine List.ext_getElem (by simp) fun i hi hi' => ?_
    have hil : i < appends.length := by simpa using hi'
    rw [List.getElem_map, List.getElem_range, List.getElem_map, column_of_batches appends hil, hn]
  have hlength : ((pastBatches (appends.map fun a => a.2.samples)).takeWhile aligned).length = n := hn
  unfold measuredCharge Measured
  simp only [hsizes, hlength, hn]
  by_cases hlen : appends.length < 2
  · rw [if_pos hlen, if_neg fun h => absurd h.1 (not_le.mpr hlen)]
  by_cases hcount : n < minimumMeasuredBatches
  · rw [if_neg hlen, if_pos hcount, if_neg fun h => absurd h.2 (not_le.mpr hcount)]
  rw [if_neg hlen, if_neg hcount, if_pos ⟨not_lt.mp hlen, not_lt.mp hcount⟩]
  congr 3
  · congr 2
    have hcounts : (do let a ← appends.map Prod.fst; pure (a : Rat)) = appends.map fun a => (a.1 : Rat) :=
      (List.map_eq_flatMap ..).symm.trans (List.map_map ..)
    rw [hcounts, List.map_map, List.zipWith_map, List.zipWith_self]
    rfl
  · congr 2
    refine sum_pairs (f := fun a b => (a.1 : Rat) * b.1 * max 0 (a.2.covariance n b.2)) (fun a b => ?_) appends
      fun i j hi hj => ?_
    · rw [covariance_comm, mul_comm (a.1 : Rat)]
    · have hget {β : Type} (g : Nat × Recent → β) (d : β) {k : Nat} (hk : k < appends.length) :
          (appends.map g).getD k d = g appends[k] := by
        simp [hk]
      simp only [List.map_map, hget _ _ hi, hget _ _ hj, Function.comp_apply]
      split_ifs with hzero
      · rcases hzero with h | h <;> simp [h]
      · rcases hzero with h | h <;> simp [h]
      · simp only [Recent.covariance, Recent.measuredMean]
        ring
      · simp only [Recent.covariance, Recent.measuredMean]
        ring

/-! ## The laws of the charge -/

variable {unit : Nat}

theorem batchCharge_eq (appends : List (Nat × Recent)) (unit : Nat) :
    batchCharge appends unit = min (capCharge appends) (roundUp ((measuredCharge appends).getD
      (⌈(appends.map fun a => (a.1 : Rat) * a.2.mean).sum⌉.toNat +
        (appends.map fun a => ceilRoot (a.2.variance * (deviationFactor * a.1) ^ 2)).sum)) unit) := by
  unfold batchCharge capCharge
  cases measuredCharge appends <;> rfl

theorem measuredMean_nonneg (n : Nat) (r : Recent) : 0 ≤ r.measuredMean n := by
  refine div_nonneg (List.sum_nonneg fun x hx => ?_) (Nat.cast_nonneg _)
  obtain ⟨sample, -, rfl⟩ := List.mem_map.mp hx
  exact Nat.cast_nonneg _

/-- The factor of a prediction bound from enough past batches is not negative. -/
theorem widening_nonneg {n : Nat} (hn : minimumMeasuredBatches ≤ n) :
    (0 : Rat) ≤ (n + 1) * (n - 1) / (n * (n - 3)) := by
  unfold minimumMeasuredBatches at hn
  have hn' : (10 : Rat) ≤ n := by exact_mod_cast hn
  have h₁ : (0 : Rat) ≤ n - 1 := by linarith
  have h₃ : (0 : Rat) ≤ n - 3 := by linarith
  positivity

section Monotone

variable {ι : Type} {sources : List ι} {recent : ι → Recent} {count more : ι → Nat}

theorem measuredVariance_mono (n : Nat) (h : ∀ s ∈ sources, count s ≤ more s) :
    measuredVariance n (sources.map fun s => (count s, recent s)) ≤
      measuredVariance n (sources.map fun s => (more s, recent s)) := by
  unfold measuredVariance
  simp only [List.map_map, Function.comp_def]
  refine List.sum_le_sum fun a ha => List.sum_le_sum fun b hb => ?_
  have hab : (count a : Rat) * count b ≤ more a * more b := by exact_mod_cast Nat.mul_le_mul (h a ha) (h b hb)
  exact mul_le_mul_of_nonneg_right hab (le_max_left _ _)

/-- More appends are never charged less: neither formula credits anything, and the history decides which applies. -/
theorem batchCharge_mono (hwf : ∀ s ∈ sources, (recent s).Wf unit) (h : ∀ s ∈ sources, count s ≤ more s) :
    batchCharge (sources.map fun s => (count s, recent s)) unit ≤
      batchCharge (sources.map fun s => (more s, recent s)) unit := by
  have hcast (s : ι) (hs : s ∈ sources) : (count s : Rat) ≤ more s := by exact_mod_cast h s hs
  rw [batchCharge_eq, batchCharge_eq]
  refine min_le_min ?_ (roundUp_mono unit ?_)
  · simp only [capCharge, List.map_map]
    exact List.sum_le_sum fun s hs => Nat.mul_le_mul_right _ (h s hs)
  · have hsamples (count : ι → Nat) : ((sources.map fun s => (count s, recent s)).map fun a => a.2.samples) =
        sources.map fun s => (recent s).samples := by simp
    rw [measuredCharge_eq _ rfl, measuredCharge_eq _ rfl]
    simp only [Measured, hsamples, List.length_map]
    split_ifs with hm
    · refine Nat.add_le_add (ceil_toNat_mono ?_) (ceilRoot_mono ?_)
      · simp only [List.map_map, Function.comp_def]
        exact List.sum_le_sum fun s hs => mul_le_mul_of_nonneg_right (hcast s hs) (measuredMean_nonneg _ _)
      · refine mul_le_mul_of_nonneg_right ?_ (widening_nonneg hm.2)
        exact mul_le_mul_of_nonneg_right (measuredVariance_mono _ h) (sq_nonneg _)
    · refine Nat.add_le_add (ceil_toNat_mono ?_) ?_
      · simp only [List.map_map, Function.comp_def]
        exact List.sum_le_sum fun s hs => mul_le_mul_of_nonneg_right (hcast s hs) (hwf s hs).mean_nonneg
      · simp only [List.map_map, Function.comp_def]
        refine List.sum_le_sum fun s hs => ceilRoot_mono (mul_le_mul_of_nonneg_left ?_ (hwf s hs).variance_nonneg)
        exact pow_le_pow_left₀ (by unfold deviationFactor; positivity)
          (mul_le_mul_of_nonneg_left (hcast s hs) (by norm_num [deviationFactor])) 2

end Monotone

theorem exactCharge_le (hunit : 0 < unit) (appends : List (Nat × Recent)) :
    exactCharge appends ≤ (roundUp ((measuredCharge appends).getD
      (⌈(appends.map fun a => (a.1 : Rat) * a.2.mean).sum⌉.toNat +
        (appends.map fun a => ceilRoot (a.2.variance * (deviationFactor * a.1) ^ 2)).sum)) unit : Nat) := by
  refine le_trans ?_ (Nat.cast_le.mpr (le_roundUp hunit _))
  rw [measuredCharge_eq _ rfl]
  unfold exactCharge
  dsimp only
  split_ifs with hm
  · rw [Option.getD_some, Nat.cast_add]
    refine add_le_add (le_ceil_toNat _) (le_trans (le_of_eq ?_) (sqrt_le_ceilRoot _))
    obtain ⟨-, hn⟩ := hm
    unfold minimumMeasuredBatches at hn
    generalize alignedBatches _ = n at hn ⊢
    have hn' : (10 : ℝ) ≤ n := by exact_mod_cast hn
    have h₀ : (n : ℝ) ≠ 0 := by linarith
    have h₃ : (n : ℝ) - 3 ≠ 0 := by linarith
    have hsquare : ((measuredVariance n appends * deviationFactor ^ 2 * ((n + 1) * (n - 1) / (n * (n - 3))) : ℚ) : ℝ) =
        2 ^ 2 * (measuredVariance n appends * (1 + 1 / n) * ((n - 1) / (n - 3))) := by
      unfold deviationFactor
      push_cast
      field_simp
    rw [hsquare, Real.sqrt_mul (sq_nonneg 2) _, Real.sqrt_sq zero_le_two]
  · rw [Option.getD_none, Nat.cast_add]
    refine add_le_add (le_ceil_toNat _) ?_
    rw [← List.sum_map_mul_left, Nat.cast_list_sum, List.map_map]
    refine List.sum_le_sum fun a ha => le_trans (le_of_eq ?_) (sqrt_le_ceilRoot _)
    unfold deviationFactor
    push_cast
    rw [Real.sqrt_mul' _ (sq_nonneg _), Real.sqrt_sq (by positivity)]
    ring

/-! ## The order of the sources -/

theorem perm_min? [LinearOrder α] {l l' : List α} (h : l.Perm l') : l.min? = l'.min? :=
  Option.ext fun a => by simp only [List.min?_eq_some_iff, h.mem_iff]

theorem perm_max? [LinearOrder α] {l l' : List α} (h : l.Perm l') : l.max? = l'.max? :=
  Option.ext fun a => by simp only [List.max?_eq_some_iff, h.mem_iff]

theorem aligned_perm {past past' : List Sample} (h : past.Perm past') : aligned past = aligned past' := by
  unfold aligned
  rw [perm_max? (h.map Sample.start), perm_min? (h.map Sample.stop),
    ((h.map fun sample => sample.stop - sample.start).dedup).length_eq]

theorem alignedBatches_perm {samples' : List (List Sample)} (h : samples.Perm samples') :
    alignedBatches samples = alignedBatches samples' := by
  unfold alignedBatches pastBatches
  rw [perm_min? (h.map List.length)]
  generalize List.range _ = indices
  induction indices with
  | nil => rfl
  | cons j indices ih =>
    simp only [List.map_cons, List.takeWhile_cons, aligned_perm (h.filterMap (·[j]?))]
    split
    · rw [List.length_cons, List.length_cons, ih]
    · rfl

theorem measuredVariance_perm (n : Nat) (h : appends.Perm appends') :
    measuredVariance n appends = measuredVariance n appends' := by
  unfold measuredVariance
  rw [(h.map _).sum_eq]
  exact congrArg List.sum (List.map_congr_left fun a _ => (h.map _).sum_eq)

theorem batchCharge_perm (h : appends.Perm appends') (unit : Nat) : batchCharge appends unit = batchCharge appends' unit := by
  have hn := alignedBatches_perm (h.map fun a => a.2.samples)
  have hiff : Measured appends ↔ Measured appends' := by rw [Measured, Measured, hn, h.length_eq]
  have hmeasured : measuredCharge appends = measuredCharge appends' := by
    rw [measuredCharge_eq appends hn, measuredCharge_eq appends' rfl, measuredVariance_perm _ h, (h.map _).sum_eq]
    exact if_congr hiff rfl rfl
  rw [batchCharge_eq, batchCharge_eq, hmeasured, capCharge, (h.map _).sum_eq, (h.map _).sum_eq, (h.map _).sum_eq]
  rfl

/-- `_batch_charge` is monotone, bounded and free of the order of the sources. For the statistics that
`_recent_allocations` computes, more appends of any source are never charged less; the charge is never above every append
at its recent maximum; it is a whole number of units and, unless that maximum binds, at least its exact real value. -/
theorem batch_charge_laws (hunit : 0 < unit) {ι : Type} (sources : List ι) (recent : ι → Recent)
    (hwf : ∀ s ∈ sources, (recent s).Wf unit) (count : ι → Nat) :
    let appends := sources.map fun s => (count s, recent s)
    (∀ more : ι → Nat, (∀ s ∈ sources, count s ≤ more s) →
      batchCharge appends unit ≤ batchCharge (sources.map fun s => (more s, recent s)) unit) ∧
    batchCharge appends unit ≤ (sources.map fun s => count s * (recent s).cap).sum ∧
    unit ∣ batchCharge appends unit ∧
    (batchCharge appends unit < capCharge appends ∨ exactCharge appends ≤ capCharge appends →
      exactCharge appends ≤ batchCharge appends unit) ∧
    (∀ permuted, permuted.Perm appends → batchCharge permuted unit = batchCharge appends unit) ∧
    ∀ l after allocations atBound source profile,
      (recentOf l after allocations unit atBound source profile).Wf unit := by
  intro appends
  have hcap : capCharge appends = (sources.map fun s => count s * (recent s).cap).sum := by
    simp [capCharge, appends, Function.comp_def]
  have hexact := exactCharge_le hunit appends
  refine ⟨fun more h => batchCharge_mono hwf h, hcap ▸ ?_, ?_, fun h => ?_, fun _ h => batchCharge_perm h unit,
    fun l after allocations atBound source profile => recentOf_wf ..⟩
  · rw [batchCharge_eq]
    exact min_le_left _ _
  · rw [batchCharge_eq]
    refine dvd_min (hcap ▸ List.dvd_sum fun x hx => ?_) (dvd_roundUp _ _)
    obtain ⟨s, hs, rfl⟩ := List.mem_map.mp hx
    exact Dvd.dvd.mul_left (hwf s hs).dvd_cap _
  · rw [batchCharge_eq] at h ⊢
    rw [Nat.cast_min]
    rcases h with h | h
    · exact le_min (hexact.trans (Nat.cast_le.mpr (by omega))) hexact
    · exact le_min h hexact

/-- Three appends of one source at four bytes each, and two of another. -/
theorem batch_charge_laws_example :
    let recent : Nat → Recent := fun s => ⟨4 + s, 1, 4, 8, []⟩
    (∀ s ∈ [0, 1], (recent s).Wf 4) ∧
      batchCharge ([0, 1].map fun s => (3 - s, recent s)) 4 ≤ batchCharge ([0, 1].map fun s => (3, recent s)) 4 := by
  intro recent
  have hwf : ∀ s ∈ [0, 1], (recent s).Wf 4 := by
    intro s hs
    rcases List.mem_pair.mp hs with rfl | rfl <;>
      exact ⟨by norm_num [recent], by norm_num [recent], by norm_num [recent], by decide⟩
  exact ⟨hwf, (batch_charge_laws (by decide) [0, 1] recent hwf fun s => 3 - s).1 _ fun s _ => Nat.sub_le 3 s⟩

end Sentinel.Ring
