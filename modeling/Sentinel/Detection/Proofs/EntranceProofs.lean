import Sentinel.Detection.Entrance

/-!
# Crossings are the settled passages through the door segment

`Meets` is the geometry of a crossing and `Passage` its law over a run of points. `Tracked` ties the side and the flag that a
track keeps to the run of its points; one `advance` keeps it and reports by the law. A call makes one move of each of its points,
and its assignments and crossings are those of the moves.
-/

namespace Sentinel.Detection.Entrance

variable {K : Type*} [Field K] [LinearOrder K]

/-! ## Geometry -/

/-- The closed segment between the points meets the line inside the closed entrance segment. -/
def EntranceLine.Meets (line : EntranceLine K) (a b : Point K) : Prop :=
  ∃ t u : K, 0 ≤ t ∧ t ≤ 1 ∧ 0 ≤ u ∧ u ≤ 1 ∧ a.x + t * (b.x - a.x) = line.start.x + u * line.dx ∧
    a.y + t * (b.y - a.y) = line.start.y + u * line.dy

/-- The side of the line that the point is on. -/
def EntranceLine.sign (line : EntranceLine K) (p : Point K) : SignType := SignType.sign (line.distance p)

section Geometry

variable [IsStrictOrderedRing K] (line : EntranceLine K)

theorem EntranceLine.square_pos : 0 < line.dx * line.dx + line.dy * line.dy := by
  have hx := mul_self_nonneg line.dx
  have hy := mul_self_nonneg line.dy
  rcases line.proper with h | h
  · have : 0 < line.dx * line.dx := mul_self_pos.2 (sub_ne_zero.2 h.symm)
    linarith
  · have : 0 < line.dy * line.dy := mul_self_pos.2 (sub_ne_zero.2 h.symm)
    linarith

theorem EntranceLine.length_pos : 0 < line.length := by
  refine lt_of_le_of_ne line.length_nonneg ?_
  intro h
  have hsq := line.length_sq
  rw [← h, mul_zero] at hsq
  exact line.square_pos.ne hsq

theorem EntranceLine.distance_mul (p : Point K) :
    line.distance p * line.length = line.dx * (p.y - line.start.y) - line.dy * (p.x - line.start.x) :=
  div_mul_cancel₀ _ line.length_pos.ne'

theorem EntranceLine.intersects_iff {a b : Point K} (hne : line.distance a ≠ line.distance b) :
    line.intersects a b = true ↔ line.Meets a b := by
  have hl := line.length_pos
  have ha := line.distance_mul a
  have hb := line.distance_mul b
  have hsq := line.square_pos
  have hsub : line.distance a - line.distance b ≠ 0 := sub_ne_zero.2 hne
  unfold intersects Meets
  dsimp only
  generalize line.distance a = da at *
  generalize line.distance b = db at *
  constructor
  · intro h
    split at h
    · cases h
    obtain ⟨h0, h1, h2, h3⟩ := of_decide_eq_true h
    refine ⟨da / (da - db), _, h0, h1, h2, h3, ?_, ?_⟩
    all_goals
      have ht : da / (da - db) * (da - db) = da := div_mul_cancel₀ _ hsub
      generalize da / (da - db) = t at ht ⊢
      have hline : line.dx * (a.y + t * (b.y - a.y) - line.start.y) = line.dy * (a.x + t * (b.x - a.x) - line.start.x) := by
        linear_combination -(1 - t) * ha - t * hb - line.length * ht
      rw [← sub_eq_iff_eq_add', div_mul_eq_mul_div, eq_div_iff hsq.ne']
    · linear_combination -line.dy * hline
    · linear_combination line.dx * hline
  · rintro ⟨t, u, ht0, ht1, hu0, hu1, hx, hy⟩
    -- the point of the segment on the line is where the distance vanishes
    have hzero : (1 - t) * da + t * db = 0 := by
      have : ((1 - t) * da + t * db) * line.length = 0 := by
        linear_combination (1 - t) * ha + t * hb + line.dx * hy - line.dy * hx
      rcases mul_eq_zero.1 this with h | h
      · exact h
      · exact absurd h hl.ne'
    have ht : da / (da - db) = t := by
      rw [div_eq_iff hsub]
      linear_combination hzero
    have hopposite : ¬(da = db ∨ da * db > 0) := by
      rintro (h | h)
      · exact hne h
      · have hsum : (1 - t) * (da * da) + t * (da * db) = 0 := by linear_combination da * hzero
        have h1 : 0 ≤ (1 - t) * (da * da) := mul_nonneg (sub_nonneg.2 ht1) (mul_self_nonneg da)
        have h2 : 0 ≤ t * (da * db) := mul_nonneg ht0 h.le
        have ht : t = 0 := by
          rcases mul_eq_zero.1 (le_antisymm (by linarith) h2) with h' | h'
          · exact h'
          · exact absurd h' h.ne'
        rw [ht, sub_zero, one_mul, zero_mul, add_zero] at hsum
        rw [mul_self_eq_zero.1 hsum, zero_mul] at h
        exact lt_irrefl 0 h
    rw [if_neg hopposite, decide_eq_true_iff, ht]
    have hu : ((a.x + t * (b.x - a.x) - line.start.x) * line.dx + (a.y + t * (b.y - a.y) - line.start.y) * line.dy) /
        (line.dx * line.dx + line.dy * line.dy) = u := by
      rw [div_eq_iff hsq.ne']
      linear_combination line.dx * hx + line.dy * hy
    rw [hu]
    exact ⟨ht0, ht1, hu0, hu1⟩

end Geometry

/-! ## The law of a run, the latest point first -/

/-- The side of the latest settled point. -/
def EntranceLine.lastSettled (line : EntranceLine K) : List (Point K) → SignType
  | [] => 0
  | p :: points => if line.settledSide p = 0 then line.lastSettled points else line.settledSide p

/-- The last change of the sign to `s`, from `b` to `a`, is through the entrance segment. -/
def EntranceLine.Through (line : EntranceLine K) (s : SignType) (points : List (Point K)) : Prop :=
  ∃ newer a b older, points = newer ++ a :: b :: older ∧ line.sign a = s ∧ line.sign b ≠ s ∧
    (newer ++ [a]).IsChain (fun x y => ¬(line.sign x = s ∧ line.sign y ≠ s)) ∧ line.Meets b a

/-- A point that settles a passage to the side `s`, after the earlier points of its run. -/
structure EntranceLine.Passage (line : EntranceLine K) (s : SignType) (p : Point K) (earlier : List (Point K)) : Prop where
  settled : line.settledSide p = s
  other : line.lastSettled earlier = -s
  through : line.Through s (p :: earlier)

/-- What the flag of a track remembers: the sign is `s` since a change through the segment, and nothing settled since. -/
def EntranceLine.Entered (line : EntranceLine K) (s : SignType) : List (Point K) → Prop
  | p :: q :: rest => (line.sign p = s ∧ line.settledSide p = 0) ∧
      (line.sign q ≠ s ∧ line.Meets q p ∨ line.sign q = s ∧ line.Entered s (q :: rest))
  | _ => False

variable {track : Track K} {sequence : Nat} {s : SignType} {x : Move K × Track K}

section Run

variable {line : EntranceLine K} {s : SignType} {p q : Point K} {points rest : List (Point K)}

theorem through_cons (hp : line.sign p = s) : line.Through s (p :: q :: rest) ↔
    line.sign q ≠ s ∧ line.Meets q p ∨ line.sign q = s ∧ line.Through s (q :: rest) := by
  constructor
  · rintro ⟨newer, a, b, older, hcut, ha, hb, hchain, hmeets⟩
    cases newer with
    | nil =>
      cases hcut
      exact .inl ⟨hb, hmeets⟩
    | cons x newer =>
      obtain ⟨rfl, hcut'⟩ := List.cons.inj hcut
      rw [List.cons_append, List.isChain_cons] at hchain
      refine .inr ⟨?_, newer, a, b, older, hcut', ha, hb, hchain.2, hmeets⟩
      have hhead := hchain.1 q (by cases newer <;> cases hcut <;> rfl)
      by_contra hq
      exact hhead ⟨hp, hq⟩
  · rintro (⟨hq, hmeets⟩ | ⟨hq, newer, a, b, older, hcut, ha, hb, hchain, hmeets⟩)
    · exact ⟨[], p, q, rest, rfl, hp, hq, by simp, hmeets⟩
    · refine ⟨p :: newer, a, b, older, by rw [hcut, List.cons_append], ha, hb, ?_, hmeets⟩
      rw [List.cons_append, List.isChain_cons]
      refine ⟨?_, hchain⟩
      rintro y hy ⟨_, hne⟩
      have : y = q := by cases newer <;> cases hcut <;> cases hy <;> rfl
      exact hne (this ▸ hq)

/-- The state of a track against the run of its points. -/
structure Tracked (line : EntranceLine K) (track : Track K) (run : List (Point K)) : Prop where
  latest : ∃ rest, run = track.point :: rest
  side : track.side = line.lastSettled run
  crossed : line.sign track.point ≠ 0 → (track.crossed = true ↔
    line.sign track.point ≠ track.side ∧ line.Entered (line.sign track.point) run)

theorem Tracked.start (hside : track.side = line.settledSide track.point) (hcrossed : track.crossed = false) :
    Tracked line track [track.point] := by
  refine ⟨⟨[], rfl⟩, ?_, ?_⟩
  · rw [hside]
    simp only [EntranceLine.lastSettled]
    split <;> simp_all
  · rintro -
    simp [hcrossed, EntranceLine.Entered]

variable [IsStrictOrderedRing K]

theorem settledSide_eq_sign (h : line.settledSide p ≠ 0) : line.settledSide p = line.sign p := by
  unfold EntranceLine.settledSide EntranceLine.sign at *
  dsimp only at *
  have hpos := line.fraction.1
  split at h
  case isFalse => exact absurd rfl h
  rename_i hfar
  rw [if_pos hfar]
  split
  · rw [sign_pos ‹_›]
  · rename_i hle
    have : line.distance p < 0 := by
      refine lt_of_le_of_ne (not_lt.1 hle) ?_
      intro h0
      rw [h0, abs_zero] at hfar
      exact absurd hfar hpos.not_gt
    rw [sign_neg this]

/-- Before the passage settles, the flag and the law look at the same change of sign. -/
theorem through_iff_entered (hs : s ≠ 0) (hlast : line.lastSettled (p :: points) = -s) (hp : line.sign p = s) :
    line.Through s (p :: points) ↔ line.Entered s (p :: points) := by
  have hneg : s ≠ -s ∧ 0 ≠ -s := by
    clear hlast hp
    revert s
    decide
  induction points generalizing p with
  | nil =>
    exfalso
    by_cases h : line.settledSide p = 0
    · rw [EntranceLine.lastSettled, if_pos h, EntranceLine.lastSettled] at hlast
      exact hneg.2 hlast
    · rw [EntranceLine.lastSettled, if_neg h, settledSide_eq_sign h, hp] at hlast
      exact hneg.1 hlast
  | cons q points ih =>
    have hunsettled : line.settledSide p = 0 := by
      by_contra h
      rw [EntranceLine.lastSettled, if_neg h, settledSide_eq_sign h, hp] at hlast
      exact hneg.1 hlast
    rw [EntranceLine.lastSettled, if_pos hunsettled] at hlast
    rw [through_cons hp, EntranceLine.Entered]
    simp only [hp, hunsettled, true_and]
    by_cases hq : line.sign q = s
    · simp only [ih hlast hq]
    · simp [hq]

theorem changes_iff : (line.distance q ≠ line.distance p ∧ line.distance q * line.distance p ≤ 0 ∧ line.distance p ≠ 0) ↔
    line.sign p ≠ 0 ∧ line.sign q ≠ line.sign p := by
  unfold EntranceLine.sign
  rcases lt_trichotomy (line.distance p) 0 with hp | hp | hp
  · rcases lt_trichotomy (line.distance q) 0 with hq | hq | hq
    · simp [sign_neg hp, sign_neg hq, (mul_pos_of_neg_of_neg hq hp).not_ge]
    · simp [hq, sign_neg hp, hp.ne, hp.ne']
    · simp [sign_neg hp, sign_pos hq, hp.ne, (hp.trans hq).ne', (mul_neg_of_pos_of_neg hq hp).le]
  · simp [hp]
  · rcases lt_trichotomy (line.distance q) 0 with hq | hq | hq
    · simp [sign_pos hp, sign_neg hq, hp.ne', (hq.trans hp).ne, (mul_neg_of_neg_of_pos hq hp).le]
    · simp [hq, sign_pos hp, hp.ne, hp.ne']
    · simp [sign_pos hp, sign_pos hq, (mul_pos hq hp).not_ge]

variable {run : List (Point K)}

theorem Tracked.flag (h : Tracked line track run) (hp : line.sign p ≠ 0) :
    (if line.distance track.point ≠ line.distance p ∧ line.distance track.point * line.distance p ≤ 0 ∧ line.distance p ≠ 0 then
      line.intersects track.point p && decide ((if line.distance p > 0 then 1 else -1) ≠ track.side)
    else track.crossed) = true ↔
      line.sign p ≠ track.side ∧ (line.sign track.point ≠ line.sign p ∧ line.Meets track.point p ∨
        line.sign track.point = line.sign p ∧ line.Entered (line.sign p) run) := by
  by_cases hchange : line.sign track.point = line.sign p
  · rw [if_neg (by rw [changes_iff]; simp [hchange])]
    rw [h.crossed (hchange ▸ hp), hchange]
    simp
  · have hcond := changes_iff.2 (And.intro hp hchange)
    have hsign : (if line.distance p > 0 then 1 else -1) = line.sign p := by
      unfold EntranceLine.sign
      split
      · rw [sign_pos ‹_›]
      · rw [sign_neg (lt_of_le_of_ne (not_lt.1 ‹_›) hcond.2.2)]
    rw [if_pos hcond, Bool.and_eq_true, decide_eq_true_iff, line.intersects_iff hcond.1, hsign]
    simp only [hchange, ne_eq, not_false_eq_true, true_and, false_and, or_false]
    exact and_comm

theorem Tracked.settle (hsettled : line.settledSide track.point ≠ 0) (hside : track.side = line.settledSide track.point)
    (hcrossed : track.crossed = false) : Tracked line track (track.point :: run) := by
  refine ⟨⟨run, rfl⟩, ?_, ?_⟩
  · rw [EntranceLine.lastSettled, if_neg hsettled, hside]
  · rintro -
    simp [hcrossed, hside, settledSide_eq_sign hsettled]

/-- One point more in the run: the track keeps up, and it reports by the law. -/
theorem Tracked.advance (h : Tracked line track run) (p : Point K) (ms : Nat) (hnext : sequence = track.sequence + 1) :
    Tracked line (track.advance line p ms sequence).2 (p :: run) ∧
      ∀ s, s ≠ 0 → ((track.advance line p ms sequence).1 = s ↔ line.Passage s p run) := by
  obtain ⟨rest, hrest⟩ := h.latest
  have hflag := h.flag (p := p)
  unfold Track.advance
  rw [if_neg (not_not_intro hnext)]
  dsimp only
  generalize (if line.distance track.point ≠ line.distance p ∧ line.distance track.point * line.distance p ≤ 0 ∧
    line.distance p ≠ 0 then line.intersects track.point p && decide ((if line.distance p > 0 then 1 else -1) ≠ track.side)
    else track.crossed) = crossed at hflag ⊢
  by_cases hsettled : line.settledSide p = 0
  case pos =>
    simp only [hsettled, ne_eq, not_true_eq_false, false_and, if_false]
    refine ⟨⟨⟨run, rfl⟩, ?_, ?_⟩, ?_⟩
    · rw [EntranceLine.lastSettled, if_pos hsettled]
      exact h.side
    · intro hsign
      rw [hflag hsign, hrest, EntranceLine.Entered, ← hrest]
      simp [hsettled]
    · intro s hs
      constructor
      · intro h0
        exact absurd h0.symm hs
      · intro hpassage
        exact absurd (hpassage.settled.symm.trans hsettled) hs
  have hsign := settledSide_eq_sign hsettled
  rw [hsign] at hsettled ⊢
  -- nothing is reported unless the settled side was the other one
  have hsame (hother : line.sign p ≠ -track.side ∨ track.side = 0) (s : SignType) (hs : s ≠ 0) :
      0 = s ↔ line.Passage s p run := by
    constructor
    · intro h0
      exact absurd h0.symm hs
    · intro hpassage
      have hp : line.sign p = s := hsign.symm.trans hpassage.settled
      have hside := h.side.trans hpassage.other
      rcases hother with hother | hother
      · exact absurd (by rw [hside, hp, neg_neg]) hother
      · exact absurd (neg_eq_iff_eq_neg.1 (hside.symm.trans hother)) (by simpa using hs)
  by_cases hzero : track.side = 0
  · simp only [hzero, ne_eq, not_true_eq_false, false_and, and_false, if_false, hsettled, not_false_eq_true, true_and, if_true]
    exact ⟨.settle (by rwa [hsign]) hsign.symm rfl, hsame (.inr hzero)⟩
  by_cases hequal : line.sign p = track.side
  · have hne : track.side ≠ -track.side := by
      revert hzero
      generalize track.side = side
      revert side
      decide
    simp only [hequal, ne_eq, not_true_eq_false, and_false, if_false, hzero, not_false_eq_true, true_and, if_true]
    exact ⟨.settle (by rwa [hsign]) (hequal.symm.trans hsign.symm) rfl, hsame (.inl (hequal ▸ hne))⟩
  rw [if_pos ⟨hsettled, hzero, hequal⟩]
  refine ⟨.settle (by rwa [hsign]) hsign.symm rfl, ?_⟩
  intro s hs
  have hopposite : track.side = -line.sign p := by
    revert hsettled hzero hequal
    generalize track.side = side
    generalize line.sign p = s'
    revert side s'
    decide
  have hlast : line.lastSettled run = -line.sign p := h.side.symm.trans hopposite
  have hthrough : line.Through (line.sign p) (p :: run) ↔ crossed = true := by
    rw [hflag hsettled, hrest, through_cons rfl]
    by_cases hq : line.sign track.point = line.sign p
    · rw [through_iff_entered hsettled (hrest ▸ hlast) hq]
      simp [hq, hequal]
    · simp [hq, hequal]
  constructor
  · intro hreport
    split at hreport
    case isFalse => exact absurd hreport.symm hs
    rename_i hcrossed
    cases hreport
    exact ⟨hsign, hlast, hthrough.2 hcrossed⟩
  · intro hpassage
    have hp : line.sign p = s := hsign.symm.trans hpassage.settled
    rw [if_pos (hthrough.1 (hp ▸ hpassage.through)), hp]

end Run

/-! ## The points of a track in a run of the tracker -/

/-- Where a person was at a frame. -/
structure Sample (K : Type*) [Field K] [LinearOrder K] where
  sequence : Nat
  point : Point K

/-- A call of `update` in a run. -/
abbrev TrackEvent (K : Type*) [Field K] [LinearOrder K] := Event (Tracker K) (Observed K) (Except TrackError TrackUpdate)

/-- The tracks that a call assigned its points to, read off its answer. -/
def placed (e : TrackEvent K) : List (Nat × Point K) :=
  match e.output with
  | .ok u => (u.assignments.zip e.input.points).map fun x => (x.1.2, x.2.point)
  | .error _ => []

/-- The points that were assigned to the track, the latest one first. -/
def trail (key : Nat) (h : List (TrackEvent K)) : List (Sample K) :=
  h.flatMap fun e => ((placed e).filter fun x => x.1 = key).map fun x => ⟨e.input.frame.sequence, x.2⟩

/-- The maximal run of consecutive sequence numbers that ends at the latest point. -/
def currentRun : List (Sample K) → List (Point K)
  | [] => []
  | [p] => [p.point]
  | p :: q :: rest => if p.sequence = q.sequence + 1 then p.point :: currentRun (q :: rest) else [p.point]

/-- The state of a track against all its points. -/
def Track.Of (track : Track K) (line : EntranceLine K) (samples : List (Sample K)) : Prop :=
  samples.head? = some ⟨track.sequence, track.point⟩ ∧ Tracked line track (currentRun samples)

section Follow

variable {line : EntranceLine K} {policy : TrackingPolicy K} {tracks : List (Nat × Track K)}
  {o : Observed K}

/-- A move reports by the law, for a track with these earlier points. -/
def Move.Lawful (m : Move K) (line : EntranceLine K) (sequence : Nat) (samples : List (Sample K)) : Prop :=
  ∃ path, currentRun (⟨sequence, m.point⟩ :: samples) = m.point :: path ∧
    ∀ s, s ≠ 0 → (m.direction = s ↔ line.Passage s m.point path)

theorem not_passage_nil {p : Point K} (hs : s ≠ 0) : ¬line.Passage s p [] := by
  intro h
  have hother : 0 = -s := h.other
  clear h
  revert s
  decide

theorem advance_latest (line : EntranceLine K) (track : Track K) (p : Point K) (ms sequence : Nat) :
    (track.advance line p ms sequence).2.point = p ∧ (track.advance line p ms sequence).2.sequence = sequence := by
  unfold Track.advance
  dsimp only
  split_ifs <;> exact ⟨rfl, rfl⟩

variable {samples : List (Sample K)} {minted : Nat}

theorem lawful_start {m : Move K} (hm : m.direction = 0) (hrun : currentRun (⟨sequence, m.point⟩ :: samples) = [m.point]) :
    m.Lawful line sequence samples := by
  refine ⟨[], hrun, ?_⟩
  intro s hs
  rw [hm]
  exact ⟨fun h => absurd h.symm hs, fun h => absurd h (not_passage_nil hs)⟩

theorem advance_of [IsStrictOrderedRing K] (h : track.Of line samples) (m : Move K) (ms sequence : Nat)
    (hm : m.direction = (track.advance line m.point ms sequence).1) :
    (track.advance line m.point ms sequence).2.Of line (⟨sequence, m.point⟩ :: samples) ∧ m.Lawful line sequence samples := by
  obtain ⟨hhead, htracked⟩ := h
  obtain ⟨hpoint, hsequence⟩ := advance_latest line track m.point ms sequence
  cases samples with
  | nil => cases hhead
  | cons q samples =>
    cases hhead
    by_cases hnext : sequence = track.sequence + 1
    · obtain ⟨hkeep, hlaw⟩ := htracked.advance m.point ms hnext
      have hrun : currentRun (⟨sequence, m.point⟩ :: ⟨track.sequence, track.point⟩ :: samples) =
          m.point :: currentRun (⟨track.sequence, track.point⟩ :: samples) := by rw [currentRun, if_pos hnext]
      refine ⟨⟨by rw [hpoint, hsequence]; rfl, hrun ▸ hkeep⟩, _, hrun, ?_⟩
      rw [hm]
      exact hlaw
    · have hrun : currentRun (⟨sequence, m.point⟩ :: ⟨track.sequence, track.point⟩ :: samples) = [m.point] := by
        rw [currentRun, if_neg hnext]
      rw [Track.advance, if_pos hnext] at hm ⊢
      refine ⟨⟨rfl, ?_⟩, lawful_start hm hrun⟩
      rw [hrun]
      exact .start rfl rfl

/-- A move starts a track, or it is the next point of the one that is associated with its point. -/
inductive Followed (line : EntranceLine K) (policy : TrackingPolicy K) (tracks : List (Nat × Track K)) (o : Observed K)
    (minted : Nat) : Move K × Track K → Prop
  | new (m : Move K) (hnone : associated policy tracks o.points m.personPoint = none) (hkey : minted ≤ m.key)
      (hm : m.direction = 0) :
    Followed line policy tracks o minted (m, ⟨m.point, o.observedMs, o.frame.sequence, line.settledSide m.point, false⟩)
  | next (m : Move K) (track : Track K) (htrack : associated policy tracks o.points m.personPoint = some (m.key, track))
      (hm : m.direction = (track.advance line m.point o.observedMs o.frame.sequence).1) :
    Followed line policy tracks o minted (m, (track.advance line m.point o.observedMs o.frame.sequence).2)

theorem associated_mem {points : List (PersonPoint K)} {p : PersonPoint K} {t : Nat × Track K}
    (h : associated policy tracks points p = some t) :
    t ∈ tracks ∧ t.2.near policy p = true ∧ (points.filter (t.2.near policy)).length = 1 := by
  unfold associated at h
  split at h
  · rename_i t' hfilter
    split at h
    · cases h
      have hmem : t ∈ tracks.filter fun t => t.2.near policy p := by simp [hfilter]
      exact ⟨(List.mem_filter.1 hmem).1, (List.mem_filter.1 hmem).2, ‹_›⟩
    · cases h
  · cases h

theorem follow_cons {p : PersonPoint K} {points : List (PersonPoint K)} :
    ∃ x minted', follow line policy tracks o minted (p :: points) = x :: follow line policy tracks o minted' points ∧
      Followed line policy tracks o minted x ∧ x.1.personPoint = p ∧ minted ≤ minted' ∧ minted' ≤ minted + 1 ∧
      (associated policy tracks o.points p = none → x.1.key < minted') := by
  rw [follow]
  cases h : associated policy tracks o.points p with
  | none => exact ⟨_, minted + 1, rfl, .new _ h le_rfl rfl, rfl, by omega, le_rfl, fun _ => by simp⟩
  | some t =>
    obtain ⟨key, track⟩ := t
    exact ⟨_, minted, rfl, .next _ track h rfl, rfl, le_rfl, by omega, nofun⟩

theorem Followed.mono {minted' : Nat} (h : Followed line policy tracks o minted' x) (hle : minted ≤ minted') :
    Followed line policy tracks o minted x := by
  cases h with
  | new m hnone hkey hm => exact .new m hnone (hle.trans hkey) hm
  | next m track htrack hm => exact .next m track htrack hm

/-- Every move of the loop is of one of the points, and the keys that the loop makes are numbered by the points. -/
theorem follow_mem {points : List (PersonPoint K)} (hx : x ∈ follow line policy tracks o minted points) :
    Followed line policy tracks o minted x ∧
      x.1.personPoint ∈ points ∧
      (associated policy tracks o.points x.1.personPoint = none → x.1.key < minted + points.length) := by
  induction points generalizing minted with
  | nil => cases hx
  | cons p points ih =>
    obtain ⟨y, minted', heq, hy, rfl, hle, hle', hkey⟩ := @follow_cons K _ _ line policy tracks o minted p points
    rw [heq] at hx
    rw [List.length_cons]
    rcases List.mem_cons.1 hx with rfl | hx
    · refine ⟨hy, List.mem_cons_self, ?_⟩
      intro hnone
      have := hkey hnone
      omega
    · obtain ⟨hfollowed, hmem, hkey'⟩ := ih hx
      refine ⟨hfollowed.mono hle, List.mem_cons_of_mem _ hmem, ?_⟩
      intro hnone
      have := hkey' hnone
      omega

theorem follow_points {points : List (PersonPoint K)} :
    (follow line policy tracks o minted points).map (fun x => x.1.personPoint) = points := by
  induction points generalizing minted with
  | nil => rfl
  | cons p points ih =>
    obtain ⟨x, minted', heq, _, hx, _⟩ := @follow_cons K _ _ line policy tracks o minted p points
    rw [heq, List.map_cons, hx, ih]

theorem follow_nodup {points : List (PersonPoint K)} (hkeys : (tracks.map Prod.fst).Nodup) (hlt : ∀ t ∈ tracks, t.1 < minted)
    (hsub : points.Sublist o.points) : ((follow line policy tracks o minted points).map fun x => x.1.key).Nodup := by
  induction points generalizing minted with
  | nil => exact List.nodup_nil
  | cons p points ih =>
    obtain ⟨x, minted', heq, hx, hp, hle, _, hkey⟩ := @follow_cons K _ _ line policy tracks o minted p points
    rw [heq, List.map_cons, List.nodup_cons]
    refine ⟨?_, ih (fun t ht => (hlt t ht).trans_le hle) ((List.sublist_cons_self p points).trans hsub)⟩
    intro hmem
    obtain ⟨y, hy, hyx⟩ := List.mem_map.1 hmem
    obtain ⟨hfollowed, hpoint, _⟩ := follow_mem hy
    have hbelow {key : Nat} {track : Track K} {q : PersonPoint K} (h : associated policy tracks o.points q = some (key, track)) :
        key < minted := hlt _ (associated_mem h).1
    cases hx with
    | new m hnone hge hm =>
      have hnew := hkey (hp ▸ hnone)
      cases hfollowed with
      | new m' _ hge' _ => exact (hge'.trans_eq hyx).not_gt hnew
      | next m' track' htrack' _ => exact (hbelow htrack').not_ge (hyx ▸ hge)
    | next m track htrack hm =>
      cases hfollowed with
      | new m' _ hge' _ => exact (hbelow htrack).not_ge (hle.trans (hyx ▸ hge'))
      | next m' track' htrack' _ =>
        -- both points are near the track, which has only one point near it
        obtain ⟨hin, hnear, hone⟩ := associated_mem htrack
        obtain ⟨hin', hnear', _⟩ := associated_mem htrack'
        have hsame := List.inj_on_of_nodup_map hkeys hin hin' hyx.symm
        rw [← hsame] at hnear'
        have htwo : 2 ≤ ((p :: points).filter (track.near policy)).length := by
          rw [List.filter_cons, if_pos (hp ▸ hnear), List.length_cons]
          have hpos : 0 < (points.filter (track.near policy)).length :=
            List.length_pos_of_mem (List.mem_filter.2 ⟨hpoint, hnear'⟩)
          omega
        have hle : _ ≤ (o.points.filter (track.near policy)).length := (hsub.filter (track.near policy)).length_le
        dsimp only at hone
        omega

end Follow

/-! ## Runs of the tracker -/

section Update

variable {sourceId : Nat} {line : EntranceLine K} {policy : TrackingPolicy K} {o : Observed K}
  {t : Tracker K} {h : List (TrackEvent K)}

/-- What `update` asks of an observation that it follows the tracks with. -/
structure Accepted (sourceId : Nat) (policy : TrackingPolicy K) (o : Observed K) (t : Tracker K) : Prop where
  source : o.frame.sourceId = sourceId
  candidates : (o.points.map PersonPoint.candidate).Nodup
  bounded : o.points.length ≤ policy.maxTracks
  authorized : o.authorized = true
  later : t.streamId = some o.frame.streamId → t.sequence < o.frame.sequence ∧ ∀ last ∈ t.lastMs, last ≤ o.observedMs

/-- The moves of an accepted observation, with the tracks after it. -/
def moved (line : EntranceLine K) (policy : TrackingPolicy K) (o : Observed K) (t : Tracker K) : List (Move K × Track K) :=
  follow line policy ((t.enter o.frame.streamId).live policy o.observedMs) o t.minted o.points

/-- What an update does: it makes the moves of an accepted observation, and nothing of any other, but may then forget all
tracks. -/
inductive Updated (sourceId : Nat) (line : EntranceLine K) (policy : TrackingPolicy K) (o : Observed K) (t : Tracker K) :
    Except TrackError TrackUpdate × Tracker K → Prop
  | refused (hnot : ¬Accepted sourceId policy o t) (r : Except TrackError TrackUpdate)
      (hr : ∀ u, r = .ok u → u.assignments = [] ∧ u.crossings = []) (t' : Tracker K)
      (htracks : t'.tracks = t.tracks ∨ t'.tracks = []) (hminted : t'.minted = t.minted) :
    Updated sourceId line policy o t (r, t')
  | followed (haccepted : Accepted sourceId policy o t) (t' : Tracker K)
      (htracks : t'.tracks = (moved line policy o t).map fun m => (m.1.key, m.2))
      (hminted : t'.minted = t.minted + o.points.length) :
    Updated sourceId line policy o t (.ok ⟨(moved line policy o t).map fun m => (m.1.candidate, m.1.key),
      (moved line policy o t).filterMap fun m => m.1.crossing line o, .sufficient⟩, t')

theorem enter_minted (streamId : Nat) : (t.enter streamId).minted = t.minted := by
  unfold Tracker.enter
  split <;> rfl

theorem live_sublist (streamId observedMs : Nat) : ((t.enter streamId).live policy observedMs).Sublist t.tracks := by
  refine List.filter_sublist.trans ?_
  unfold Tracker.enter
  split
  · exact List.nil_sublist _
  · exact .refl _

theorem enter_later : (¬((o.frame.sequence : Int) ≤ (t.enter o.frame.streamId).sequence ∨
    (t.enter o.frame.streamId).lastMs.any fun last => o.observedMs < last)) ↔
      (t.streamId = some o.frame.streamId → t.sequence < o.frame.sequence ∧ ∀ last ∈ t.lastMs, last ≤ o.observedMs) := by
  unfold Tracker.enter
  by_cases hstream : t.streamId = some o.frame.streamId
  · rw [if_neg (not_not_intro hstream)]
    simp [hstream, Option.any_eq_true]
  · rw [if_pos hstream]
    simp only [hstream, false_imp_iff, iff_true, Tracker.close, Option.any_none, Bool.false_eq_true, or_false, not_le]
    omega

theorem update_updated : Updated sourceId line policy o t (update sourceId line policy o t) := by
  have hempty (u : TrackUpdate) (hu : Except.ok (ε := TrackError) ⟨[], [], .unknown⟩ = .ok u) :
      u.assignments = [] ∧ u.crossings = [] := by
    cases hu
    exact ⟨rfl, rfl⟩
  unfold update
  dsimp only
  by_cases hvalid : o.frame.sourceId ≠ sourceId ∨ ¬(o.points.map PersonPoint.candidate).Nodup
  · rw [if_pos hvalid]
    refine .refused (fun h => ?_) _ (fun _ hu => by cases hu) _ (.inl rfl) rfl
    rcases hvalid with hsource | hnodup
    · exact hsource h.source
    · exact hnodup h.candidates
  rw [if_neg hvalid]
  by_cases hbounded : o.points.length > policy.maxTracks
  · rw [if_pos hbounded]
    exact .refused (fun h => hbounded.not_ge h.bounded) _ (fun _ hu => by cases hu) _ (.inr rfl) rfl
  rw [if_neg hbounded]
  by_cases hauthorized : o.authorized = true
  case neg =>
    rw [if_pos hauthorized]
    exact .refused (fun h => hauthorized h.authorized) _ hempty _ (.inr rfl) rfl
  rw [if_neg (not_not_intro hauthorized)]
  have hminted : (t.enter o.frame.streamId).minted = t.minted := enter_minted _
  by_cases hlater : (o.frame.sequence : Int) ≤ (t.enter o.frame.streamId).sequence ∨
      (t.enter o.frame.streamId).lastMs.any fun last => o.observedMs < last
  · rw [if_pos hlater]
    exact .refused (fun h => enter_later.2 h.later hlater) _ hempty _ (.inr rfl) hminted
  · rw [if_neg hlater, hminted]
    push Not at hvalid
    exact .followed ⟨hvalid.1, hvalid.2, not_lt.1 hbounded, hauthorized, enter_later.1 hlater⟩ _ rfl rfl

/-- The tracks are those of their points, under keys that are not made again. -/
structure Inv (line : EntranceLine K) (h : List (TrackEvent K)) (t : Tracker K) : Prop where
  tracked : ∀ x ∈ t.tracks, x.2.Of line (trail x.1 h)
  keys : (t.tracks.map Prod.fst).Nodup
  below : ∀ x ∈ t.tracks, x.1 < t.minted
  fresh : ∀ key, t.minted ≤ key → trail key h = []

variable {m : Nat × Point K} {e : TrackEvent K} {r : Except TrackError TrackUpdate} {before t' : Tracker K} {quality : Quality}
  {crossings : List Crossing}

theorem filter_key {moves : List (Nat × Point K)} (hnodup : (moves.map Prod.fst).Nodup) (hm : m ∈ moves) :
    moves.filter (fun x => x.1 = m.1) = [m] := by
  induction moves with
  | nil => cases hm
  | cons x moves ih =>
    rw [List.map_cons, List.nodup_cons] at hnodup
    rcases List.mem_cons.1 hm with rfl | hm
    · rw [List.filter_cons, if_pos (by simp), List.filter_eq_nil_iff.2]
      intro y hy hkey
      exact hnodup.1 (List.mem_map.2 ⟨y, hy, of_decide_eq_true hkey⟩)
    · have hne : x.1 ≠ m.1 := fun h => hnodup.1 (h ▸ List.mem_map_of_mem hm)
      rw [List.filter_cons, if_neg (by simpa using hne)]
      exact ih hnodup.2 hm

theorem trail_cons (hnodup : ((placed e).map Prod.fst).Nodup) (hm : m ∈ placed e) :
    trail m.1 (e :: h) = ⟨e.input.frame.sequence, m.2⟩ :: trail m.1 h := by
  rw [trail, List.flatMap_cons, filter_key hnodup hm]
  rfl

theorem trail_other {key : Nat} (hkey : ∀ m ∈ placed e, m.1 ≠ key) : trail key (e :: h) = trail key h := by
  rw [trail, List.flatMap_cons, List.filter_eq_nil_iff.2]
  · rfl
  · intro m hm
    simpa using hkey m hm

theorem placed_refused (hr : ∀ u, r = .ok u → u.assignments = [] ∧ u.crossings = []) : placed ⟨before, o, r, t'⟩ = [] := by
  cases r with
  | error => rfl
  | ok u =>
    rw [placed]
    dsimp only
    rw [(hr u rfl).1]
    rfl

/-- The answer of an accepted call places each of its points on the track of its move. -/
theorem placed_moved :
    placed ⟨before, o, .ok ⟨(moved line policy o t).map fun m => (m.1.candidate, m.1.key), crossings, quality⟩, t'⟩ =
      (moved line policy o t).map fun m => (m.1.key, m.1.point) := by
  have hpoints : o.points = (moved line policy o t).map fun m => m.1.personPoint := follow_points.symm
  rw [placed]
  dsimp only
  rw [hpoints, List.zip_map', List.map_map]
  rfl

theorem trail_moved (hkeys : ((moved line policy o t).map fun m => m.1.key).Nodup) (hx : x ∈ moved line policy o t) :
    trail x.1.key (⟨before, o, .ok ⟨(moved line policy o t).map fun m => (m.1.candidate, m.1.key), crossings, quality⟩, t'⟩ :: h) =
      ⟨o.frame.sequence, x.1.point⟩ :: trail x.1.key h := by
  refine trail_cons (m := (x.1.key, x.1.point)) ?_ ?_
  · rw [placed_moved, List.map_map]
    exact hkeys
  · rw [placed_moved]
    exact List.mem_map_of_mem hx

/-- The moves of an accepted call continue the tracks: each has a key of its own, the key of the track that is associated with its
point or one that was not used before, and reports by the law. -/
structure Inv.Moves (line : EntranceLine K) (policy : TrackingPolicy K) (o : Observed K) (t : Tracker K)
    (h : List (TrackEvent K)) : Prop where
  keys : ((moved line policy o t).map fun m => m.1.key).Nodup
  below : ∀ m ∈ moved line policy o t, m.1.key < t.minted + o.points.length
  lawful : ∀ m ∈ moved line policy o t, m.1.Lawful line o.frame.sequence (trail m.1.key h)
  tracked : ∀ m ∈ moved line policy o t, m.2.Of line (⟨o.frame.sequence, m.1.point⟩ :: trail m.1.key h)

theorem Inv.moves [IsStrictOrderedRing K] (hI : Inv line h t) : Inv.Moves line policy o t h := by
  have hsub : ((t.enter o.frame.streamId).live policy o.observedMs).Sublist t.tracks := live_sublist _ _
  have hbelow : ∀ x ∈ (t.enter o.frame.streamId).live policy o.observedMs, x.1 < t.minted :=
    fun x hx => hI.below x (hsub.subset hx)
  have hlaw (x : Move K × Track K) (hx : x ∈ moved line policy o t) :
      x.2.Of line (⟨o.frame.sequence, x.1.point⟩ :: trail x.1.key h) ∧ x.1.Lawful line o.frame.sequence (trail x.1.key h) := by
    obtain ⟨hfollowed, _⟩ := follow_mem hx
    cases hfollowed with
    | new m _ hge hm =>
      rw [hI.fresh m.key hge]
      exact ⟨⟨rfl, .start rfl rfl⟩, lawful_start hm rfl⟩
    | next m track htrack hm => exact advance_of (hI.tracked _ (hsub.subset (associated_mem htrack).1)) m _ _ hm
  refine ⟨follow_nodup (hI.keys.sublist (hsub.map Prod.fst)) hbelow (.refl _), ?_, fun m hm => (hlaw m hm).2,
    fun m hm => (hlaw m hm).1⟩
  intro x hx
  obtain ⟨hfollowed, _, hkey⟩ := follow_mem hx
  cases hfollowed with
  | new m hnone _ _ => exact hkey hnone
  | next m track htrack _ =>
    have : m.key < t.minted := hbelow _ (associated_mem htrack).1
    dsimp only
    omega

theorem Inv.update [IsStrictOrderedRing K] (hI : Inv line h t) (he : Updated sourceId line policy o t (r, t')) :
    Inv line (⟨before, o, r, t'⟩ :: h) t' := by
  cases he with
  | refused _ _ hr _ htracks hminted =>
    have htrail (key : Nat) : trail key (⟨before, o, r, t'⟩ :: h) = trail key h :=
      trail_other (by simp [placed_refused hr])
    have hsub : t'.tracks.Sublist t.tracks := by
      rcases htracks with htracks | htracks
      · exact htracks ▸ .refl _
      · exact htracks ▸ List.nil_sublist _
    refine ⟨?_, hI.keys.sublist (hsub.map Prod.fst), ?_, ?_⟩
    · intro x hx
      rw [htrail]
      exact hI.tracked x (hsub.subset hx)
    · intro x hx
      exact hminted ▸ hI.below x (hsub.subset hx)
    · intro key hkey
      rw [htrail]
      exact hI.fresh key (hminted ▸ hkey)
  | followed _ _ htracks hminted =>
    have hmoves : Inv.Moves line policy o t h := hI.moves
    refine ⟨?_, ?_, ?_, ?_⟩
    · rw [htracks]
      intro x hx
      obtain ⟨y, hy, rfl⟩ := List.mem_map.1 hx
      rw [trail_moved hmoves.keys hy]
      exact hmoves.tracked y hy
    · rw [htracks, List.map_map]
      exact hmoves.keys
    · rw [htracks, hminted]
      intro x hx
      obtain ⟨y, hy, rfl⟩ := List.mem_map.1 hx
      exact hmoves.below y hy
    · intro key hge
      rw [hminted] at hge
      rw [trail_other, hI.fresh key (by omega)]
      intro m hm
      rw [placed_moved] at hm
      obtain ⟨y, hy, rfl⟩ := List.mem_map.1 hm
      exact (hmoves.below y hy).trans_le hge |>.ne

theorem inv_of_reaches [IsStrictOrderedRing K] (hs : Reaches (update sourceId line policy) {} h t) : Inv line h t := by
  induction hs with
  | start => exact ⟨by simp, by simp, by simp, by simp [trail]⟩
  | next hs o ih => exact ih.update update_updated

theorem updated_of_event (he : e = Event.of (update sourceId line policy) e.before e.input) :
    Updated sourceId line policy e.input e.before (e.output, e.after) := by
  rw [he]
  exact update_updated

/-- The settled side does not change between two points unless a point between them settles on the other side. -/
theorem lastSettled_of_unchanged {p : Point K} {earlier between : List (Point K)} (hs : s ≠ 0) (hp : line.settledSide p = s)
    (hbetween : ∀ newer q older, between = newer ++ q :: older →
      line.settledSide q = 0 ∨ line.lastSettled (older ++ p :: earlier) ≠ -line.settledSide q) :
    line.lastSettled (between ++ p :: earlier) = s := by
  induction between with
  | nil => rw [List.nil_append, EntranceLine.lastSettled, hp, if_neg hs]
  | cons q between ih =>
    have hlast := ih fun newer x older hcut => hbetween (q :: newer) x older (by rw [hcut, List.cons_append])
    rw [List.cons_append, EntranceLine.lastSettled]
    by_cases hq : line.settledSide q = 0
    · rw [if_pos hq, hlast]
    · rw [if_neg hq]
      rcases hbetween [] q between rfl with hzero | hside
      · exact absurd hzero hq
      · rw [hlast] at hside
        clear hlast hbetween ih hp
        generalize line.settledSide q = a at hq hside
        revert s a
        decide

/-- The direction of a crossing, which its kind tells. -/
def Crossing.direction (line : EntranceLine K) (c : Crossing) : SignType :=
  if c.kind = .ownerEntry ∨ c.kind = .anonymousEntry then line.entryDirection else -line.entryDirection

theorem crossing_direction {m : Move K} (hs : s ≠ 0) :
    (∃ c, m.crossing line o = some c ∧ c.direction line = s) ↔ m.direction = s := by
  unfold Move.crossing
  by_cases hzero : m.direction = 0
  · rw [if_pos hzero, hzero]
    simp [hs.symm]
  rw [if_neg hzero]
  have hdirected := line.directed
  simp only [Option.some.injEq, exists_eq_left']
  by_cases hentry : m.direction = line.entryDirection
  · simp only [hentry, if_true]
    cases (o.owner m.candidate).isSome <;> simp [Crossing.direction]
  · have hexit : m.direction = -line.entryDirection := by
      revert hzero hdirected hentry
      generalize m.direction = a
      generalize line.entryDirection = b
      revert a b
      decide
    simp only [hentry, if_false]
    cases (o.owner m.candidate).isSome <;> simp [Crossing.direction, hexit]

end Update

/-- The move is on the track that is associated with its point, or on a new one if there is none. -/
def Move.Continues (policy : TrackingPolicy K) (e : TrackEvent K) (earlier : List (TrackEvent K)) (m : Move K) : Prop :=
  let tracks := (e.before.enter e.input.frame.streamId).live policy e.input.observedMs
  (∃ track, associated policy tracks e.input.points m.personPoint = some (m.key, track)) ∨
    associated policy tracks e.input.points m.personPoint = none ∧ trail m.key earlier = []

/-- In exact arithmetic, an accepted call assigns its points in order, each to the track that is associated with it or to a new
one, and reports a crossing of a point exactly when the point settles a passage of the current run of its track; any other call
reports nothing. Hence crossings alternate while every change of side is reported, and points within the hysteresis report
nothing. -/
theorem crossings_are_passages [IsStrictOrderedRing K] (sourceId : Nat) (line : EntranceLine K) (policy : TrackingPolicy K)
    (calls : List (Observed K)) :
    (∀ later e earlier, (perform (update sourceId line policy) {} calls).1 = later ++ e :: earlier →
      Accepted sourceId policy e.input e.before → ∃ (u : TrackUpdate) (moves : List (Move K)),
        e.output = .ok u ∧ u.quality = .sufficient ∧ moves.map Move.personPoint = e.input.points ∧
        u.assignments = moves.map (fun m => (m.candidate, m.key)) ∧ e.after.tracks.map Prod.fst = moves.map Move.key ∧
        u.crossings = moves.filterMap (Move.crossing line e.input) ∧
        ∀ m ∈ moves, m.Continues policy e earlier ∧ ∃ path, currentRun (trail m.key (e :: earlier)) = m.point :: path ∧
          (∀ s, s ≠ 0 → ((∃ c, m.crossing line e.input = some c ∧ c.direction line = s) ↔ line.Passage s m.point path)) ∧
          (|line.distance m.point| ≤ line.hysteresis → m.crossing line e.input = none)) ∧
    (∀ later e earlier, (perform (update sourceId line policy) {} calls).1 = later ++ e :: earlier →
      ¬Accepted sourceId policy e.input e.before → ∀ u, e.output = .ok u → u.assignments = [] ∧ u.crossings = []) ∧
    ∀ s₁ s₂ p₁ p₂ between earlier, s₁ ≠ 0 → s₂ ≠ 0 → line.Passage s₁ p₁ earlier →
      line.Passage s₂ p₂ (between ++ p₁ :: earlier) →
      (∀ newer q older, between = newer ++ q :: older →
        line.settledSide q = 0 ∨ line.lastSettled (older ++ p₁ :: earlier) ≠ -line.settledSide q) → s₂ = -s₁ := by
  have hs := Reaches.perform (update sourceId line policy) {} calls
  refine ⟨?_, ?_, ?_⟩
  · rintro later ⟨before, o, r, t'⟩ earlier hcut haccepted
    rw [hcut] at hs
    obtain ⟨hbefore, he⟩ := hs.event
    have hI := inv_of_reaches hbefore
    have hmoves : Inv.Moves line policy o before earlier := hI.moves
    have hupdated : Updated sourceId line policy o before (r, t') := updated_of_event he
    cases hupdated with
    | refused hnot => exact absurd haccepted hnot
    | followed _ _ htracks _ =>
      refine ⟨_, (moved line policy o before).map Prod.fst, rfl, rfl, ?_, ?_, ?_, ?_, ?_⟩
      · rw [List.map_map]
        exact follow_points
      · rw [List.map_map]
        rfl
      · rw [htracks, List.map_map, List.map_map]
        rfl
      · rw [List.filterMap_map]
        rfl
      · intro m hm
        obtain ⟨x, hx, rfl⟩ := List.mem_map.1 hm
        obtain ⟨path, hpath, hreport⟩ := hmoves.lawful x hx
        refine ⟨?_, path, ?_, ?_, ?_⟩
        · obtain ⟨hfollowed, _⟩ := follow_mem hx
          cases hfollowed with
          | new m hnone hge _ => exact .inr ⟨hnone, hI.fresh m.key hge⟩
          | next m track htrack _ => exact .inl ⟨track, htrack⟩
        · rw [← hpath, trail_moved hmoves.keys hx]
        · intro s hs
          rw [crossing_direction hs]
          exact hreport s hs
        · intro hband
          rw [Move.crossing, if_pos]
          by_contra hne
          have hsettled := ((hreport _ hne).1 rfl).settled
          rw [EntranceLine.settledSide, if_neg (not_lt.2 hband)] at hsettled
          exact hne hsettled.symm
  · rintro later ⟨before, o, r, t'⟩ earlier hcut hnot u hu
    rw [hcut] at hs
    obtain ⟨hbefore, he⟩ := hs.event
    have hupdated : Updated sourceId line policy o before (r, t') := updated_of_event he
    cases hupdated with
    | refused _ _ hr => exact hr u hu
    | followed haccepted => exact absurd haccepted hnot
  · intro s₁ s₂ p₁ p₂ between earlier hs₁ hs₂ h₁ h₂ hbetween
    rw [← lastSettled_of_unchanged hs₁ h₁.settled hbetween, h₂.other, neg_neg]

/-- The line across the middle, which is entered upwards. -/
def doorway : EntranceLine ℚ where
  start := ⟨0, 1 / 2, by norm_num, by norm_num⟩
  stop := ⟨1, 1 / 2, by norm_num, by norm_num⟩
  entryDirection := 1
  hysteresis := 1 / 10
  length := 1
  proper := by norm_num
  directed := by decide
  fraction := by norm_num
  length_nonneg := by norm_num
  length_sq := by norm_num

def nearby : TrackingPolicy ℚ := ⟨4, 1000, 1, by decide, by decide, by norm_num⟩

/-- One person, at this height in the frame of this sequence number. -/
def someoneAt (sequence : Nat) (y : ℚ) (hy : 0 ≤ y ∧ y ≤ 1) : Observed ℚ where
  frame := ⟨0, 0, sequence⟩
  points := [⟨7, ⟨1 / 2, y, by norm_num, hy⟩⟩]
  authorized := true
  observedMs := sequence
  clockTrusted := true
  owner _ := none

def entering : List (Observed ℚ) := [someoneAt 0 (1 / 4) (by norm_num), someoneAt 1 (3 / 4) (by norm_num)]

theorem crossings_are_passages_entry :
    ∃ e earlier u path, (perform (update 0 doorway nearby) {} entering).1 = e :: earlier ∧ e.output = .ok u ∧
      u.crossings = [⟨.anonymousEntry, none, true, false⟩] ∧
      doorway.Passage 1 ⟨1 / 2, 3 / 4, by norm_num, by norm_num⟩ path := by
  set before := (update 0 doorway nearby (someoneAt 0 (1 / 4) (by norm_num)) {}).2
  set o := someoneAt 1 (3 / 4) (by norm_num)
  have haccepted : Accepted 0 nearby o before := ⟨rfl, by decide, by decide, rfl, by decide +kernel⟩
  obtain ⟨u, moves, hu, _, hpoints, _, _, hcrossings, hlaw⟩ :=
    (crossings_are_passages 0 doorway nearby entering).1 [] _ _ rfl haccepted
  have hrun : (update 0 doorway nearby o before).1 = .ok ⟨[(7, 0)], [⟨.anonymousEntry, none, true, false⟩], .sufficient⟩ := by
    decide +kernel
  cases hrun.symm.trans hu
  have hlength := congrArg List.length hpoints
  rw [List.length_map] at hlength
  obtain ⟨m, rfl⟩ := List.length_eq_one_iff.1 hlength
  obtain ⟨_, path, _, hreport, _⟩ := hlaw m List.mem_cons_self
  have hcrossing : m.crossing doorway o = some ⟨.anonymousEntry, none, true, false⟩ := by
    change _ = [m].filterMap (Move.crossing doorway o) at hcrossings
    cases hm : m.crossing doorway o with
    | none => cases hcrossings.trans (List.filterMap_cons_none hm)
    | some c =>
      cases hcrossings.trans (List.filterMap_cons_some hm)
      rfl
  have hpoint : m.point = ⟨1 / 2, 3 / 4, by norm_num, by norm_num⟩ := congrArg PersonPoint.point (List.head_eq_of_cons_eq hpoints)
  rw [← hpoint]
  exact ⟨_, _, _, path, rfl, hu, rfl, (hreport 1 (by decide)).1 ⟨_, hcrossing, rfl⟩⟩

end Sentinel.Detection.Entrance
