import Sentinel.Monitoring.DownTime

/-!
# The outage ratio is never under-counted

`Outages` is the true not-online time of a run of calls. `Inv` says that the bins from any bin of the window on hold exactly
the closed not-online time from its lower border on; the window begins inside the first bin that is kept.
-/

namespace Sentinel.Monitoring

/-! ## The true not-online time -/

/-- The closed not-online periods, the latest first, and the start of the one in progress. -/
structure Outages where
  closed : List (ℚ × ℚ) := []
  since : Option ℚ

def Outages.after (o : Outages) : DownCall → Outages
  | .start now => { o with since := some now }
  | .stop now => { closed := o.since.toList.map (fun since => (since, now)) ++ o.closed, since := none }
  | _ => o

/-- The outages of the calls, the latest first. -/
def outages (start : Option ℚ) : List DownCall → Outages
  | [] => { since := start }
  | call :: calls => (outages start calls).after call

/-- Start and stop alternate, at times that do not decrease. -/
def Orderly (start : Option ℚ) : List DownCall → Prop
  | [] => True
  | call :: calls => Orderly start calls ∧ (∀ t ∈ calls.map DownCall.now ++ start.toList, t ≤ call.now) ∧
    match call with
    | .start _ => (outages start calls).since = none
    | .stop _ => (outages start calls).since ≠ none
    | _ => True

theorem Orderly.of_append {start : Option ℚ} {newer calls : List DownCall} (h : Orderly start (newer ++ calls)) :
    Orderly start calls := by
  induction newer with
  | nil => exact h
  | cons call newer ih => exact ih h.1

/-- The time of a period inside an interval. -/
def within (lower upper : ℚ) (p : ℚ × ℚ) : ℚ := max 0 (min p.2 upper - max p.1 lower)

/-- The not-online periods until `now`, that in progress included. -/
def Outages.until (o : Outages) (now : ℚ) : List (ℚ × ℚ) := (o.since.toList.map fun since => (since, now)) ++ o.closed

/-- The true not-online time inside an interval, at `now`. -/
def Outages.time (o : Outages) (now lower upper : ℚ) : ℚ := ((o.until now).map (within lower upper)).sum

/-- The periods that `flapping` counts: the closed ones of positive length that end after `x`, and the one in progress. -/
def Outages.reaching (o : Outages) (x : ℚ) : Nat :=
  (o.closed.countP fun p => p.1 < p.2 ∧ x < p.2) + if o.since.isSome then 1 else 0

/-- The time of a period from `x` on. -/
def later (x : ℚ) (p : ℚ × ℚ) : ℚ := max 0 (p.2 - max p.1 x)

variable {b x a : ℚ}

theorem later_split {c : ℚ} (hab : a ≤ b) (hbc : b ≤ c) : later x (a, c) = later x (a, b) + later x (b, c) := by
  simp only [later, max_def]
  split_ifs <;> linarith

theorem later_eq_zero (h : b ≤ a ∨ b ≤ x) : later x (a, b) = 0 := by
  unfold later
  refine max_eq_left ?_
  rcases h with h | h
  · linarith [le_max_left a x]
  · linarith [le_max_right a x]

theorem later_eq_sub (hx : x ≤ a) (hab : a ≤ b) : later x (a, b) = b - a := by
  unfold later
  rw [max_eq_left hx, max_eq_right (sub_nonneg.2 hab)]

theorem later_clip {c : ℚ} (hc : c ≤ x) : later x (max a c, b) = later x (a, b) := by
  unfold later
  rw [max_assoc, max_eq_right hc]

/-! ## The bins -/

namespace DownTime

/-- The seconds in the bins from an index on. -/
def secondsFrom (bins : List (ℤ × ℚ)) (k : ℤ) : ℚ := ((bins.filter fun bin => k ≤ bin.1).map Prod.snd).sum

theorem secondsFrom_addBin (index k : ℤ) (seconds : ℚ) (bins : List (ℤ × ℚ)) :
    secondsFrom (addBin index seconds bins) k = secondsFrom bins k + if k ≤ index then seconds else 0 := by
  cases bins with
  | nil => by_cases hk : k ≤ index <;> simp [addBin, secondsFrom, hk]
  | cons bin bins =>
    unfold addBin secondsFrom
    by_cases hbin : bin.1 = index
    · by_cases hk : k ≤ index
      · simp [hbin, hk]
        ring
      · simp [hbin, hk]
    · by_cases hk : k ≤ index
      · simp [hbin, hk, add_comm]
      · simp [hbin, hk]

/-- The indices strictly decrease from the latest bin on. -/
def Descending (bins : List (ℤ × ℚ)) : Prop := bins.Pairwise fun later earlier => earlier.1 < later.1

variable {bins : List (ℤ × ℚ)} {window : ℚ} {d : DownTime} {p : ℚ × ℚ}

theorem Descending.addBin {index : ℤ} (h : Descending bins) (hle : ∀ bin ∈ bins, bin.1 ≤ index) (seconds : ℚ) :
    Descending (addBin index seconds bins) ∧
      ∀ bin ∈ addBin index seconds bins, bin.1 = index ∨ ∃ old ∈ bins, old.1 = bin.1 := by
  unfold Descending at *
  cases bins with
  | nil => simp [DownTime.addBin]
  | cons first bins =>
    unfold DownTime.addBin
    dsimp only
    by_cases hfirst : first.1 = index
    · rw [if_pos hfirst]
      refine ⟨?_, ?_⟩
      · exact List.pairwise_cons.2 (List.pairwise_cons.1 h)
      · intro bin hbin
        rcases List.mem_cons.1 hbin with rfl | hbin
        · exact .inl hfirst
        · exact .inr ⟨bin, List.mem_cons_of_mem _ hbin, rfl⟩
    · rw [if_neg hfirst]
      refine ⟨List.pairwise_cons.2 ⟨?_, h⟩, ?_⟩
      · intro bin hbin
        have hlt : first.1 < index := lt_of_le_of_ne (hle first List.mem_cons_self) hfirst
        rcases List.mem_cons.1 hbin with rfl | hbin
        · exact hlt
        · exact ((List.pairwise_cons.1 h).1 bin hbin).trans hlt
      · intro bin hbin
        rcases List.mem_cons.1 hbin with rfl | hbin
        · exact .inl rfl
        · exact .inr ⟨bin, hbin, rfl⟩

/-- The loop of `_add` runs to its end: the bins gain exactly the time from `begin` to `stop`, each part in its bin. -/
theorem addFrom_spec {width stop : ℚ} (hwidth : 0 < width) {rounds : Nat} {begin : ℚ} {index : ℤ}
    (hrounds : ⌈stop / width⌉ - index ≤ rounds) (hbegin : begin < stop → index * width ≤ begin ∧ begin < (index + 1) * width)
    (hbins : Descending bins) (hle : ∀ bin ∈ bins, bin.1 ≤ index) : let added := addFrom width stop rounds begin index bins
    Descending added ∧ (∀ bin ∈ added, bin.1 * width < stop ∨ ∃ old ∈ bins, old.1 = bin.1) ∧
      ∀ k : ℤ, secondsFrom added k = secondsFrom bins k + later (k * width) (begin, stop) := by
  induction rounds generalizing begin index bins with
  | zero =>
    have hdone : ¬begin < stop := by
      intro hlt
      have hceil : stop / width ≤ index := by
        refine (Int.le_ceil _).trans ?_
        exact_mod_cast (by omega : ⌈stop / width⌉ ≤ index)
      have := (div_le_iff₀ hwidth).1 hceil
      linarith [(hbegin hlt).1]
    refine ⟨hbins, fun bin hbin => .inr ⟨bin, hbin, rfl⟩, fun k => ?_⟩
    rw [later_eq_zero (.inl (not_lt.1 hdone)), add_zero]
    rfl
  | succ rounds ih =>
    unfold addFrom
    by_cases hlt : begin < stop
    case neg =>
      rw [if_neg hlt]
      refine ⟨hbins, fun bin hbin => .inr ⟨bin, hbin, rfl⟩, fun k => ?_⟩
      rw [later_eq_zero (.inl (not_lt.1 hlt)), add_zero]
    obtain ⟨hlower, hupper⟩ := hbegin hlt
    rw [if_pos hlt]
    dsimp only
    have hborder : begin < min stop ((index + 1) * width) := lt_min hlt hupper
    rw [if_pos hborder]
    obtain ⟨hadded, hmem⟩ := hbins.addBin hle (min stop ((index + 1) * width) - begin)
    have hle' : ∀ bin ∈ DownTime.addBin index (min stop ((index + 1) * width) - begin) bins, bin.1 ≤ index + 1 := by
      intro bin hbin
      rcases hmem bin hbin with h | ⟨old, hold, h⟩
      · omega
      · have := hle old hold
        omega
    have hnext : min stop ((index + 1) * width) < stop →
        ((index + 1 : ℤ) : ℚ) * width ≤ min stop ((index + 1) * width) ∧
          min stop ((index + 1) * width) < ((index + 1 : ℤ) + 1) * width := by
      intro h
      have hmin : min stop ((index + 1 : ℚ) * width) = (index + 1) * width := by
        rcases min_choice stop ((index + 1 : ℚ) * width) with h' | h'
        · rw [h'] at h
          exact absurd h (lt_irrefl _)
        · exact h'
      rw [hmin]
      push_cast
      constructor
      · exact le_rfl
      · nlinarith
    obtain ⟨hdescending, hindices, hseconds⟩ := ih (by push_cast at hrounds ⊢; omega) hnext hadded hle'
    refine ⟨hdescending, ?_, ?_⟩
    · intro bin hbin
      rcases hindices bin hbin with h | ⟨old, hold, h⟩
      · exact .inl h
      · rcases hmem old hold with h' | ⟨older, holder, h'⟩
        · left
          rw [← h, h']
          linarith
        · exact .inr ⟨older, holder, h'.trans h⟩
    · intro k
      rw [hseconds, secondsFrom_addBin, later_split hborder.le (min_le_left _ _), add_assoc]
      congr 2
      by_cases hk : k ≤ index
      · rw [if_pos hk, later_eq_sub _ hborder.le]
        refine le_trans ?_ hlower
        exact mul_le_mul_of_nonneg_right (by exact_mod_cast hk) hwidth.le
      · rw [if_neg hk, later_eq_zero (.inr _)]
        refine (min_le_right _ _).trans ?_
        refine mul_le_mul_of_nonneg_right ?_ hwidth.le
        exact_mod_cast (by omega : index + 1 ≤ k)

theorem trim_eq_filter (h : Descending bins) (first : ℤ) :
    (bins.rdropWhile fun bin => bin.1 < first) = bins.filter fun bin => first ≤ bin.1 := by
  induction bins using List.reverseRecOn with
  | nil => rfl
  | append_singleton bins bin ih =>
    obtain ⟨hbins, _, hlast⟩ := List.pairwise_append.1 h
    by_cases hbin : bin.1 < first
    · rw [List.rdropWhile_concat_pos _ _ _ (by simpa using hbin), ih hbins, List.filter_append]
      simp [hbin]
    · rw [List.rdropWhile_concat_neg _ _ _ (by simpa using hbin), List.filter_eq_self.2]
      intro x hx
      have hfirst := not_lt.1 hbin
      rcases List.mem_append.1 hx with hx | hx
      · exact decide_eq_true (hfirst.trans (hlast x hx bin (List.mem_singleton_self bin)).le)
      · rw [List.mem_singleton.1 hx]
        exact decide_eq_true hfirst

theorem secondsFrom_filter {first k : ℤ} (hk : first ≤ k) :
    secondsFrom (bins.filter fun bin => first ≤ bin.1) k = secondsFrom bins k := by
  unfold secondsFrom
  rw [List.filter_filter]
  congr 2
  refine List.filter_congr ?_
  intro bin _
  have : k ≤ bin.1 → first ≤ bin.1 := hk.trans
  by_cases hbin : k ≤ bin.1 <;> simp [hbin, this]

section Bins

variable {window : ℚ}

theorem binWidth_pos (hw : 0 < window) : 0 < binWidth window := div_pos hw (by norm_num [downBins])

theorem firstBin_mono (hw : 0 < window) {t now : ℚ} (h : t ≤ now) : firstBin window t ≤ firstBin window now := by
  refine Int.floor_le_floor ?_
  exact div_le_div_of_nonneg_right (by linarith) (binWidth_pos hw).le

theorem firstBin_border (hw : 0 < window) (now : ℚ) :
    firstBin window now * binWidth window ≤ now - window ∧
      now - window < (firstBin window now + 1) * binWidth window := by
  have hwidth := binWidth_pos hw
  exact ⟨(le_div_iff₀ hwidth).1 (Int.floor_le _), (div_lt_iff₀ hwidth).1 (Int.lt_floor_add_one _)⟩

theorem firstBin_eq (hw : 0 < window) (now : ℚ) : firstBin window now = ⌊now / binWidth window⌋ - downBins := by
  have hwidth := (binWidth_pos hw).ne'
  have hdiv : (now - window) / binWidth window = now / binWidth window - (downBins : ℕ) := by
    rw [sub_div]
    congr 1
    rw [div_eq_iff hwidth, binWidth]
    simp only [downBins]
    push_cast
    ring
  rw [firstBin, hdiv, Int.floor_sub_natCast]

theorem length_le (hw : 0 < window) (now : ℚ) (hbins : Descending bins) (hfirst : ∀ bin ∈ bins, firstBin window now ≤ bin.1)
    (hnow : ∀ bin ∈ bins, bin.1 * binWidth window ≤ now) : bins.length ≤ downBins + 2 := by
  have hnodup : (bins.map Prod.fst).Nodup :=
    List.pairwise_map.2 (List.Pairwise.imp (fun h => (ne_of_lt h).symm) hbins)
  have hsub : (bins.map Prod.fst).toFinset ⊆ Finset.Icc (firstBin window now) ⌊now / binWidth window⌋ := by
    intro i hi
    obtain ⟨bin, hbin, rfl⟩ := List.mem_map.1 (List.mem_toFinset.1 hi)
    rw [Finset.mem_Icc]
    exact ⟨hfirst bin hbin, Int.le_floor.2 ((le_div_iff₀ (binWidth_pos hw)).2 (hnow bin hbin))⟩
  have hcard := Finset.card_le_card hsub
  rw [List.toFinset_card_of_nodup hnodup, Int.card_Icc, List.length_map, firstBin_eq hw] at hcard
  omega

end Bins

/-! ## Runs -/

/-- The state against the true outages, at times `ts`. -/
structure Inv (window : ℚ) (ts : List ℚ) (o : Outages) (d : DownTime) : Prop where
  since : d.since = o.since
  last : ∀ t, d.last = some t → t ∈ ts
  progress : ∀ s, o.since = some s → s ∈ ts ∧ ∀ bin ∈ d.bins, bin.1 * binWidth window ≤ s
  closed : ∀ p ∈ o.closed, p.1 ≤ p.2 ∧ p.2 ∈ ts
  ordered : o.closed.Pairwise fun later earlier => earlier.2 ≤ later.2
  bins : Descending d.bins
  below : ∀ bin ∈ d.bins, ∃ t ∈ ts, bin.1 * binWidth window ≤ t
  seconds : ∀ now, (∀ t ∈ ts, t ≤ now) → ∀ k, firstBin window now ≤ k →
    secondsFrom d.bins k = (o.closed.map (later (k * binWidth window))).sum
  ends : d.ends = ((o.closed.filter fun p => p.1 < p.2).map Prod.snd).take 2

theorem clock_eq {now : ℚ} (h : ∀ t, d.last = some t → t ≤ now) : d.clock window now = (now, { d with last := some now }) := by
  unfold clock
  cases hlast : d.last with
  | none => rfl
  | some t =>
    dsimp only
    rw [if_neg (not_lt.2 (h t hlast))]

section Step

variable {window now : ℚ} {ts : List ℚ} {o : Outages} {d : DownTime}

theorem Inv.wait (h : Inv window ts o d) (now : ℚ) : Inv window (now :: ts) o d :=
  { h with
    last := fun t ht => List.mem_cons_of_mem _ (h.last t ht)
    progress := fun s hs => ⟨List.mem_cons_of_mem _ (h.progress s hs).1, (h.progress s hs).2⟩
    closed := fun p hp => ⟨(h.closed p hp).1, List.mem_cons_of_mem _ (h.closed p hp).2⟩
    below := fun bin hbin => by
      obtain ⟨t, ht, hle⟩ := h.below bin hbin
      exact ⟨t, List.mem_cons_of_mem _ ht, hle⟩
    seconds := fun now' hnow' => h.seconds now' fun t ht => hnow' t (List.mem_cons_of_mem _ ht) }

theorem Inv.clocked (h : Inv window ts o d) (hnow : ∀ t ∈ ts, t ≤ now) :
    d.clock window now = (now, { d with last := some now }) ∧ Inv window (now :: ts) o { d with last := some now } := by
  refine ⟨clock_eq fun t ht => hnow t (h.last t ht), { h.wait now with last := ?_ }⟩
  intro t ht
  cases ht
  exact List.mem_cons_self

theorem Inv.trim (hw : 0 < window) (h : Inv window ts o d) (hmem : now ∈ ts) : Inv window ts o (d.trim window now) := by
  have hbins : (d.trim window now).bins = d.bins.filter fun bin => firstBin window now ≤ bin.1 := trim_eq_filter h.bins _
  have hsub (bin : ℤ × ℚ) (hbin : bin ∈ (d.trim window now).bins) : bin ∈ d.bins := by
    rw [hbins] at hbin
    exact (List.mem_filter.1 hbin).1
  refine
    { h with
      progress := fun s hs => ⟨(h.progress s hs).1, fun bin hbin => (h.progress s hs).2 bin (hsub bin hbin)⟩
      bins := ?_
      below := fun bin hbin => h.below bin (hsub bin hbin)
      seconds := ?_ }
  · rw [hbins]
    exact List.Pairwise.filter _ h.bins
  · intro now' hnow' k hk
    rw [hbins, secondsFrom_filter ((firstBin_mono hw (hnow' now hmem)).trans hk)]
    exact h.seconds now' hnow' k hk

theorem Inv.start (h : Inv window ts o d) (hnow : ∀ t ∈ ts, t ≤ now) :
    Inv window (now :: ts) { o with since := some now } (d.start window now) := by
  obtain ⟨hclock, hclocked⟩ := h.clocked hnow
  unfold DownTime.start
  rw [hclock]
  refine { hclocked with since := rfl, progress := ?_ }
  intro s hs
  cases hs
  refine ⟨List.mem_cons_self, ?_⟩
  intro bin hbin
  obtain ⟨t, ht, hle⟩ := h.below bin hbin
  exact hle.trans (hnow t ht)

theorem Inv.flapping (hw : 0 < window) (h : Inv window ts o d) (hnow : ∀ t ∈ ts, t ≤ now) (offline : ℚ) :
    let d' := ({ d with last := some now } : DownTime).trim window now
    d.flapping window now offline = (decide (d'.periods window now ≥ 2 ∧ d'.total window now ≥ offline), d') ∧
      Inv window (now :: ts) o d' := by
  obtain ⟨hclock, hclocked⟩ := h.clocked hnow
  refine ⟨?_, hclocked.trim hw List.mem_cons_self⟩
  rw [DownTime.flapping, hclock]

/-- The time of a period that closes goes to the bins, as far as the window can still reach. -/
theorem Inv.add (hw : 0 < window) (h : Inv window ts o d) (hnow : ∀ t ∈ ts, t ≤ now) {s : ℚ} (hs : o.since = some s)
    (hlt : s < now) :
    Inv window (now :: ts) ⟨(s, now) :: o.closed, none⟩
      ({ d with since := none, last := some now, ends := (now :: d.ends).take 2 }.add window
        (max s (now - window - binWidth window)) now) := by
  have hwidth := binWidth_pos hw
  obtain ⟨hmem, hbelow⟩ := h.progress s hs
  set begin := max s (now - window - binWidth window)
  have hindex : ∀ bin ∈ d.bins, bin.1 ≤ ⌊begin / binWidth window⌋ := by
    intro bin hbin
    rw [Int.le_floor, le_div_iff₀ hwidth]
    exact (hbelow bin hbin).trans (le_max_left _ _)
  obtain ⟨hbins, hindices, hseconds⟩ := addFrom_spec hwidth (Int.self_le_toNat (⌈now / binWidth window⌉ - _))
    (fun _ => ⟨(le_div_iff₀ hwidth).1 (Int.floor_le (begin / binWidth window)),
      (div_lt_iff₀ hwidth).1 (Int.lt_floor_add_one _)⟩) h.bins hindex
  refine ⟨rfl, ?_, nofun, ?_, ?_, hbins, ?_, ?_, ?_⟩
  · intro t ht
    cases ht
    exact List.mem_cons_self
  · intro p hp
    rcases List.mem_cons.1 hp with rfl | hp
    · exact ⟨hlt.le, List.mem_cons_self⟩
    · exact ⟨(h.closed p hp).1, List.mem_cons_of_mem _ (h.closed p hp).2⟩
  · exact List.pairwise_cons.2 ⟨fun p hp => hnow p.2 (h.closed p hp).2, h.ordered⟩
  · intro bin hbin
    rcases hindices bin hbin with hbin | ⟨old, hold, heq⟩
    · exact ⟨now, List.mem_cons_self, hbin.le⟩
    · obtain ⟨t, ht, hle⟩ := h.below old hold
      exact ⟨t, List.mem_cons_of_mem _ ht, heq ▸ hle⟩
  · intro now' hnow' k hk
    have hclip : now - window - binWidth window ≤ k * binWidth window := by
      have hfirst : firstBin window now ≤ k := (firstBin_mono hw (hnow' now List.mem_cons_self)).trans hk
      have hborder := (firstBin_border hw now).2
      have hmul : (firstBin window now : ℚ) * binWidth window ≤ k * binWidth window :=
        mul_le_mul_of_nonneg_right (by exact_mod_cast hfirst) hwidth.le
      linarith
    rw [List.map_cons, List.sum_cons, ← later_clip hclip, add_comm,
      ← h.seconds now' (fun t ht => hnow' t (List.mem_cons_of_mem _ ht)) k hk]
    exact hseconds k
  · change (now :: d.ends).take 2 = _
    rw [h.ends, List.filter_cons, if_pos (decide_eq_true hlt), List.map_cons]
    simp [List.take_take]

theorem Inv.stop (hw : 0 < window) (h : Inv window ts o d) (hnow : ∀ t ∈ ts, t ≤ now) {s : ℚ} (hs : o.since = some s)
    (hsize : d.bins.length ≤ downBins + 2) :
    Inv window (now :: ts) ⟨(s, now) :: o.closed, none⟩ (d.stop window now) ∧
      (d.stop window now).bins.length ≤ downBins + 2 := by
  have hclock : ({ d with since := none } : DownTime).clock window now = (now, { d with since := none, last := some now }) :=
    clock_eq fun t ht => hnow t (h.last t ht)
  unfold DownTime.stop
  rw [hclock, h.since, hs]
  dsimp only
  by_cases hlt : s < now
  · rw [if_neg (not_le.2 hlt)]
    have hadd := h.add hw hnow hs hlt
    have htrim := hadd.trim hw List.mem_cons_self
    refine ⟨htrim, length_le hw now htrim.bins ?_ ?_⟩
    · intro bin hbin
      rw [DownTime.trim, trim_eq_filter hadd.bins] at hbin
      exact of_decide_eq_true (List.mem_filter.1 hbin).2
    · intro bin hbin
      obtain ⟨t, ht, hle⟩ := htrim.below bin hbin
      rcases List.mem_cons.1 ht with rfl | ht
      · exact hle
      · exact hle.trans (hnow t ht)
  · rw [if_pos (not_lt.1 hlt)]
    have heq : s = now := le_antisymm (hnow s (h.progress s hs).1) (not_lt.1 hlt)
    subst heq
    refine ⟨{ h.wait s with since := rfl, last := ?_, progress := nofun, closed := ?_, ordered := ?_, seconds := ?_, ends := ?_ },
      hsize⟩
    · intro t ht
      cases ht
      exact List.mem_cons_self
    · intro p hp
      rcases List.mem_cons.1 hp with rfl | hp
      · exact ⟨le_rfl, List.mem_cons_self⟩
      · exact (h.wait s).closed p hp
    · exact List.pairwise_cons.2 ⟨fun p hp => hnow p.2 (h.closed p hp).2, h.ordered⟩
    · intro now' hnow' k hk
      rw [List.map_cons, List.sum_cons, later_eq_zero (.inl le_rfl), zero_add]
      exact (h.wait s).seconds now' hnow' k hk
    · rw [List.filter_cons, if_neg (by simp)]
      exact h.ends

end Step

/-- A call in a run. -/
abbrev DownEvent := Event DownTime DownCall (Option Bool)

/-- The times of the calls. -/
def times (start : Option ℚ) (calls : List DownCall) : List ℚ := calls.map DownCall.now ++ start.toList

theorem Inv.init (window : ℚ) (start : Option ℚ) : Inv window (times start []) { since := start } (init start) := by
  refine ⟨rfl, ?_, ?_, nofun, .nil, .nil, nofun, fun _ _ _ _ => rfl, rfl⟩
  · intro t ht
    have hstart : start = some t := ht
    simp [times, hstart]
  · intro s hs
    have hstart : start = some s := hs
    exact ⟨by simp [times, hstart], nofun⟩

/-- In an orderly run the state is that of the true outages, and the bins are few. -/
theorem inv_of_reaches (hw : 0 < window) {start : Option ℚ} {h : List DownEvent} (hs : Reaches (step window) (init start) h d)
    (ho : Orderly start (h.map Event.input)) :
    Inv window (times start (h.map Event.input)) (outages start (h.map Event.input)) d ∧
      d.bins.length ≤ downBins + 2 := by
  induction hs with
  | start => exact ⟨Inv.init window start, Nat.zero_le _⟩
  | @next h d hs call ih =>
    rw [List.map_cons] at ho ⊢
    obtain ⟨ho, hnow, halternate⟩ := ho
    obtain ⟨hI, hsize⟩ := ih ho
    have htrimmed (d' : DownTime) (now : ℚ) : (d'.trim window now).bins.length ≤ d'.bins.length :=
      (List.rdropWhile_prefix _ _).length_le
    cases call with
    | start now =>
      have hnow : ∀ t ∈ times start (h.map Event.input), t ≤ now := hnow
      refine ⟨hI.start hnow, ?_⟩
      change (d.start window now).bins.length ≤ _
      rw [DownTime.start, (hI.clocked hnow).1]
      exact hsize
    | stop now =>
      obtain ⟨s, hsince⟩ := Option.ne_none_iff_exists'.1 halternate
      have hstop := hI.stop hw hnow hsince hsize
      have houtages : outages start (DownCall.stop now :: h.map Event.input) =
          ⟨(s, now) :: (outages start (h.map Event.input)).closed, none⟩ := by
        rw [outages, Outages.after, hsince]
        rfl
      exact ⟨houtages ▸ hstop.1, hstop.2⟩
    | trim now => exact ⟨(hI.wait now).trim hw List.mem_cons_self, (htrimmed d now).trans hsize⟩
    | flapping now offline =>
      have hnow : ∀ t ∈ times start (h.map Event.input), t ≤ now := hnow
      obtain ⟨hafter, hI'⟩ := hI.flapping hw hnow offline
      change Inv window _ _ (d.flapping window now offline).2 ∧ (d.flapping window now offline).2.bins.length ≤ _
      rw [hafter]
      exact ⟨hI', (htrimmed _ now).trans hsize⟩

/-! ## The ratio -/

theorem later_within {y : ℚ} (hxy : x ≤ y) (hp : p.1 ≤ p.2) : later x p = within x y p + later y p := by
  obtain ⟨a, b⟩ := p
  simp only [later, within, max_def, min_def] at *
  split_ifs <;> linarith

theorem within_later {lower upper : ℚ} (hp : p.2 ≤ upper) : within lower upper p = later lower p := by
  rw [within, min_eq_left hp, later]

/-- The last two of the ends that do not decrease tell whether two of all reach beyond a time. -/
theorem countP_take_two {ends : List ℚ} (h : ends.Pairwise fun later earlier => earlier ≤ later) (x : ℚ) :
    (ends.take 2).countP (fun stop => stop > x) = min 2 (ends.countP fun stop => stop > x) := by
  match ends with
  | [] => rfl
  | [a] => by_cases ha : a > x <;> simp [ha]
  | a :: b :: rest =>
    have hab : b ≤ a := (List.pairwise_cons.1 h).1 b (by simp)
    by_cases hb : b > x
    · have ha : a > x := lt_of_lt_of_le hb hab
      simp [ha, hb]
    · have hrest : rest.countP (fun stop => stop > x) = 0 := by
        rw [List.countP_eq_zero]
        intro c hc
        have hcb : c ≤ b := (List.pairwise_cons.1 (List.pairwise_cons.1 h).2).1 c hc
        simpa using hcb.trans (not_lt.1 hb)
      by_cases ha : a > x <;> simp [ha, hb, hrest]

section Ratio

variable {window now : ℚ} {ts : List ℚ} {o : Outages} {d : DownTime}

/-- The total is the true not-online time in the window, and what of the closed periods the first bin has before it. -/
theorem Inv.total (hw : 0 < window) (h : Inv window ts o d) (hnow : ∀ t ∈ ts, t ≤ now)
    (hfirst : ∀ bin ∈ d.bins, firstBin window now ≤ bin.1) :
    o.time now (now - window) now ≤ d.total window now ∧ d.total window now ≤
      o.time now (now - window) now + o.time now (firstBin window now * binWidth window) (now - window) := by
  have hborder := (firstBin_border hw now).1
  -- the closed periods: from the border of the first bin on, cut where the window begins
  have hclosed : (d.bins.map Prod.snd).sum =
      (o.closed.map (within (firstBin window now * binWidth window) (now - window))).sum +
        (o.closed.map (within (now - window) now)).sum := by
    have hall : secondsFrom d.bins (firstBin window now) = (d.bins.map Prod.snd).sum := by
      rw [secondsFrom, List.filter_eq_self.2 fun bin hbin => decide_eq_true (hfirst bin hbin)]
    rw [← hall, h.seconds now hnow _ le_rfl, ← List.sum_map_add]
    congr 1
    refine List.map_congr_left ?_
    intro p hp
    obtain ⟨hle, hend⟩ := h.closed p hp
    rw [later_within hborder hle, within_later (hnow _ hend)]
  have hpos : 0 ≤ (o.closed.map (within (firstBin window now * binWidth window) (now - window))).sum := by
    refine List.sum_nonneg ?_
    intro x hx
    obtain ⟨p, _, rfl⟩ := List.mem_map.1 hx
    exact le_max_left _ _
  unfold DownTime.total Outages.time Outages.until
  rw [hclosed, h.since]
  cases hsince : o.since with
  | none =>
    simp only [Option.toList_none, List.map_nil, List.nil_append]
    constructor <;> linarith
  | some s =>
    have hs : s ≤ now := hnow s (h.progress s hsince).1
    have hprogress : within (now - window) now (s, now) = now - max s (now - window) := by
      unfold within
      rw [min_self]
      exact max_eq_right (sub_nonneg.2 (max_le hs (by linarith)))
    have hbefore : 0 ≤ within (firstBin window now * binWidth window) (now - window) (s, now) := le_max_left _ _
    simp only [Option.toList_some, List.map_cons, List.map_nil, List.cons_append, List.nil_append, List.sum_cons, hprogress]
    constructor <;> linarith

theorem Inv.periods (h : Inv window ts o d) : 2 ≤ d.periods window now ↔ 2 ≤ o.reaching (now - window) := by
  have hordered : ((o.closed.filter fun p => p.1 < p.2).map Prod.snd).Pairwise fun later earlier => earlier ≤ later :=
    List.pairwise_map.2 (h.ordered.filter _)
  have hcount : (((o.closed.filter fun p => p.1 < p.2).map Prod.snd).countP fun stop => stop > now - window) =
      o.closed.countP fun p => p.1 < p.2 ∧ now - window < p.2 := by
    rw [List.countP_map, List.countP_filter]
    refine List.countP_congr ?_
    intro p _
    simp [and_comm]
  unfold DownTime.periods Outages.reaching
  rw [h.ends, countP_take_two hordered, hcount, h.since]
  split <;> omega

end Ratio

end DownTime

open DownTime in
/-- At every `flapping` call of an orderly run, the total covers the true not-online time of the window and exceeds it at most
by that of the rest of the first bin; two periods are counted exactly when two of positive length, or one and that in progress,
reach into the window; and the bins are few and their indices increase. -/
theorem outage_ratio {window : ℚ} (hw : 0 < window) {start : Option ℚ} {h : List DownEvent} {d : DownTime}
    (hs : Reaches (step window) (init start) h d) (ho : Orderly start (h.map Event.input)) :
    (∀ later e earlier now offline, h = later ++ e :: earlier → e.input = .flapping now offline →
      let o := outages start (earlier.map Event.input)
      (o.time now (now - window) now ≤ e.after.total window now ∧ e.after.total window now ≤
        o.time now (now - window) now + o.time now (firstBin window now * binWidth window) (now - window)) ∧
      (2 ≤ e.after.periods window now ↔ 2 ≤ o.reaching (now - window)) ∧
      e.output = some (decide (2 ≤ e.after.periods window now ∧ offline ≤ e.after.total window now))) ∧
    d.bins.Pairwise (fun later earlier => earlier.1 < later.1) ∧ d.bins.length ≤ downBins + 2 := by
  obtain ⟨hI, hsize⟩ := inv_of_reaches hw hs ho
  refine ⟨?_, hI.bins, hsize⟩
  rintro later e earlier now offline rfl hinput
  obtain ⟨hbefore, he⟩ := hs.event
  rw [List.map_append] at ho
  have ho := ho.of_append
  rw [List.map_cons, hinput] at ho
  obtain ⟨ho, hnow, _⟩ := ho
  have hnow : ∀ t ∈ times start (earlier.map Event.input), t ≤ now := hnow
  obtain ⟨hI, _⟩ := inv_of_reaches hw hbefore ho
  obtain ⟨hflapping, hI'⟩ := hI.flapping hw hnow offline
  set d' := ({ e.before with last := some now } : DownTime).trim window now with hd'
  have hafter : e.after = d' := by
    rw [he, hinput]
    exact congrArg Prod.snd hflapping
  have hout : e.output = some (decide (2 ≤ d'.periods window now ∧ offline ≤ d'.total window now)) := by
    rw [he, hinput]
    exact congrArg some (congrArg Prod.fst hflapping)
  rw [hafter]
  refine ⟨hI'.total hw ?_ ?_, hI'.periods, hout⟩
  · intro t ht
    rcases List.mem_cons.1 ht with rfl | ht
    · exact le_rfl
    · exact hnow t ht
  · intro bin hbin
    rw [hd', DownTime.trim, trim_eq_filter hI.bins] at hbin
    exact of_decide_eq_true (List.mem_filter.1 hbin).2

/-- Two outages, the second in progress. -/
def twoOutages : List DownCall := [.start 0, .stop 10, .start 20, .flapping 25 15]

open DownTime in
theorem outage_ratio_two : (perform (step 128) (init none) twoOutages).2.bins.length ≤ downBins + 2 :=
  (outage_ratio (by norm_num) (Reaches.perform (step 128) (init none) twoOutages)
    (by simp [perform, twoOutages, Event.of, Orderly, outages, Outages.after, DownCall.now]; norm_num)).2.2

open DownTime in
/-- A period that has only just begun counts: one of positive length and this one are two. -/
theorem outage_ratio_instant :
    let d := (perform (step 128) (init none) [.start 0, .stop 10, .start 20]).2
    let o := outages none [.start 20, .stop 10, .start 0]
    2 ≤ (d.flapping 128 20 15).2.periods 128 20 ∧
      (o.until 20).countP (fun p => p.1 < p.2 ∧ 20 - 128 < p.2) = 1 := by
  decide +kernel

end Sentinel.Monitoring
