import Sentinel.Lib.Numerals

/-!
# Instants of the Gregorian calendar

The years 1 to 9999 in UTC, to the microsecond: the number of an instant, the instant of a number, and the text of an instant.
The orders of the numbers, of the fields and of the texts agree.
-/

namespace Sentinel.Calendar

/-! ## Numbers in blocks -/

section Blocks

variable {f : Nat → Nat} {k l r s x c lo hi : Nat}

/-- Numbers within blocks of any sizes are in the order of their blocks and then of their places. -/
theorem block_lt_iff (hf : Monotone f) (hr : f k + r < f (k + 1)) (hs : f l + s < f (l + 1)) :
    f k + r < f l + s ↔ k < l ∨ k = l ∧ r < s := by
  rcases lt_trichotomy k l with hlt | rfl | hgt
  · have : f (k + 1) ≤ f l := hf hlt
    omega
  · omega
  · have : f (l + 1) ≤ f k := hf hgt
    omega

theorem block_eq_iff (hf : Monotone f) (hr : f k + r < f (k + 1)) (hs : f l + s < f (l + 1)) :
    f k + r = f l + s ↔ k = l ∧ r = s := by
  have hlt := block_lt_iff hf hr hs
  have hgt := block_lt_iff hf hs hr
  constructor
  · intro heq
    omega
  · rintro ⟨rfl, rfl⟩
    rfl

theorem radix_lt_iff (hr : r < c) (hs : s < c) : k * c + r < l * c + s ↔ k < l ∨ k = l ∧ r < s := by
  refine @block_lt_iff (fun n => n * c) k l r s (fun a b hab => Nat.mul_le_mul_right c hab) ?_ ?_
  all_goals
    rw [Nat.add_mul]
    omega

theorem radix_eq_iff (hr : r < c) (hs : s < c) : k * c + r = l * c + s ↔ k = l ∧ r = s := by
  refine @block_eq_iff (fun n => n * c) k l r s (fun a b hab => Nat.mul_le_mul_right c hab) ?_ ?_
  all_goals
    rw [Nat.add_mul]
    omega

/-- The block of a number. -/
def locate (f : Nat → Nat) (hi x : Nat) : Nat := Nat.findGreatest (fun n => f n ≤ x) hi

theorem locate_spec (hlo : f lo ≤ x) (hle : lo ≤ hi) (hhi : x < f (hi + 1)) :
    lo ≤ locate f hi x ∧ locate f hi x ≤ hi ∧ f (locate f hi x) ≤ x ∧ x < f (locate f hi x + 1) := by
  have hupper : locate f hi x ≤ hi := Nat.findGreatest_le hi
  refine ⟨Nat.le_findGreatest hle hlo, hupper, @Nat.findGreatest_spec lo (fun n => f n ≤ x) _ hi hle hlo, ?_⟩
  rcases hupper.eq_or_lt with heq | hlt
  · rw [heq]
    exact hhi
  · exact not_le.1 (@Nat.findGreatest_is_greatest (locate f hi x + 1) (fun n => f n ≤ x) _ hi (Nat.lt_succ_self _) hlt)

end Blocks

/-! ## The calendar -/

def isLeap (year : Nat) : Bool := year % 4 == 0 && (year % 100 != 0 || year % 400 == 0)

def daysInYear (year : Nat) : Nat := if isLeap year then 366 else 365

def daysInMonth (year month : Nat) : Nat :=
  match month with
  | 2 => if isLeap year then 29 else 28
  | 4 | 6 | 9 | 11 => 30
  | _ => 31

/-- The days of the years before a year. -/
def daysBeforeYear (year : Nat) : Nat := (year - 1) * 365 + (year - 1) / 4 - (year - 1) / 100 + (year - 1) / 400

/-- The days of the months before a month of a year. -/
def daysBeforeMonth (year month : Nat) : Nat := ((List.range (month - 1)).map fun i => daysInMonth year (i + 1)).sum

theorem daysBeforeYear_succ {year : Nat} (h : 1 ≤ year) : daysBeforeYear (year + 1) = daysBeforeYear year + daysInYear year := by
  obtain ⟨n, rfl⟩ := Nat.exists_eq_add_of_le' h
  have h4 : (n + 1) / 4 = n / 4 + if (n + 1) % 4 = 0 then 1 else 0 := by split_ifs <;> omega
  have h100 : (n + 1) / 100 = n / 100 + if (n + 1) % 100 = 0 then 1 else 0 := by split_ifs <;> omega
  have h400 : (n + 1) / 400 = n / 400 + if (n + 1) % 400 = 0 then 1 else 0 := by split_ifs <;> omega
  have hcentury : (n + 1) % 100 = 0 → (n + 1) % 4 = 0 := by omega
  have hfourth : (n + 1) % 400 = 0 → (n + 1) % 100 = 0 := by omega
  have hle : n / 100 ≤ n / 4 := by omega
  simp only [daysBeforeYear, daysInYear, isLeap, Nat.add_sub_cancel, Bool.and_eq_true, Bool.or_eq_true, beq_iff_eq, bne_iff_ne,
    h4, h100, h400]
  generalize n / 4 = q4 at hle ⊢
  generalize n / 100 = q100 at hle ⊢
  generalize n / 400 = q400
  by_cases hyear : (n + 1) % 4 = 0
  · by_cases hhundred : (n + 1) % 100 = 0
    · by_cases hfour : (n + 1) % 400 = 0
      · simp [hyear, hhundred, hfour]
        omega
      · simp [hyear, hhundred, hfour]
        omega
    · have hfour := mt hfourth hhundred
      simp [hyear, hhundred, hfour]
      omega
  · have hhundred := mt hcentury hyear
    have hfour := mt hfourth hhundred
    simp [hyear, hhundred, hfour]
    omega

theorem daysBeforeYear_mono : Monotone daysBeforeYear := by
  refine monotone_nat_of_le_succ ?_
  intro year
  cases year with
  | zero => exact le_rfl
  | succ year =>
    rw [daysBeforeYear_succ (Nat.le_add_left 1 year)]
    exact Nat.le_add_right _ _

theorem daysBeforeMonth_succ {year month : Nat} (h : 1 ≤ month) :
    daysBeforeMonth year (month + 1) = daysBeforeMonth year month + daysInMonth year month := by
  obtain ⟨n, rfl⟩ := Nat.exists_eq_add_of_le' h
  simp [daysBeforeMonth, List.range_succ]

theorem daysBeforeMonth_mono (year : Nat) : Monotone (daysBeforeMonth year) := by
  refine monotone_nat_of_le_succ ?_
  intro month
  cases month with
  | zero => exact le_rfl
  | succ month =>
    rw [daysBeforeMonth_succ (Nat.le_add_left 1 month)]
    exact Nat.le_add_right _ _

theorem daysBeforeMonth_last (year : Nat) : daysBeforeMonth year 13 = daysInYear year := by
  cases hleap : isLeap year <;> simp [daysBeforeMonth, daysInMonth, daysInYear, hleap, List.range_succ]

/-! ## Instants -/

/-- An instant by its fields. -/
structure Datetime where
  year : Nat
  month : Nat
  day : Nat
  hour : Nat
  minute : Nat
  second : Nat
  microsecond : Nat
  year_mem : 1 ≤ year ∧ year ≤ 9999
  month_mem : 1 ≤ month ∧ month ≤ 12
  day_mem : 1 ≤ day ∧ day ≤ daysInMonth year month
  hour_lt : hour < 24
  minute_lt : minute < 60
  second_lt : second < 60
  microsecond_lt : microsecond < 1000000

/-- The number of instants. -/
def instants : Nat := daysBeforeYear 10000 * 24 * 60 * 60 * 1000000

namespace Datetime

variable (d e : Datetime)

/-- The days before an instant's day. -/
def days : Nat := daysBeforeYear d.year + (daysBeforeMonth d.year d.month + (d.day - 1))

/-- The microseconds before an instant. -/
def count : Nat := (((d.days * 24 + d.hour) * 60 + d.minute) * 60 + d.second) * 1000000 + d.microsecond

theorem day_lt : daysBeforeMonth d.year d.month + (d.day - 1) < daysBeforeMonth d.year (d.month + 1) := by
  have := d.day_mem
  rw [daysBeforeMonth_succ d.month_mem.1]
  omega

theorem days_lt : d.days < daysBeforeYear (d.year + 1) := by
  have hmonth : daysBeforeMonth d.year (d.month + 1) ≤ daysBeforeMonth d.year 13 :=
    daysBeforeMonth_mono d.year (Nat.succ_le_succ d.month_mem.2)
  have hday := d.day_lt
  rw [daysBeforeMonth_last] at hmonth
  rw [daysBeforeYear_succ d.year_mem.1, days]
  omega

theorem count_lt : d.count < instants := by
  have hyear : daysBeforeYear (d.year + 1) ≤ daysBeforeYear 10000 := daysBeforeYear_mono (Nat.succ_le_succ d.year_mem.2)
  have := d.days_lt
  have := d.hour_lt
  have := d.minute_lt
  have := d.second_lt
  have := d.microsecond_lt
  unfold instants count
  generalize daysBeforeYear 10000 = limit at hyear ⊢
  omega

theorem days_lt_iff : d.days < e.days ↔
    d.year < e.year ∨ d.year = e.year ∧ (d.month < e.month ∨ d.month = e.month ∧ d.day < e.day) := by
  have := d.day_mem.1
  have := e.day_mem.1
  rw [days, days, block_lt_iff daysBeforeYear_mono d.days_lt e.days_lt]
  refine or_congr_right (and_congr_right fun hyear => ?_)
  have hday := d.day_lt
  rw [hyear] at hday ⊢
  rw [block_lt_iff (daysBeforeMonth_mono e.year) hday e.day_lt]
  refine or_congr_right (and_congr_right fun _ => ?_)
  omega

theorem days_eq_iff : d.days = e.days ↔ d.year = e.year ∧ d.month = e.month ∧ d.day = e.day := by
  have := d.day_mem.1
  have := e.day_mem.1
  rw [days, days, block_eq_iff daysBeforeYear_mono d.days_lt e.days_lt]
  refine and_congr_right fun hyear => ?_
  have hday := d.day_lt
  rw [hyear] at hday ⊢
  rw [block_eq_iff (daysBeforeMonth_mono e.year) hday e.day_lt]
  refine and_congr_right fun _ => ?_
  omega

theorem count_lt_iff : d.count < e.count ↔
    d.year < e.year ∨ d.year = e.year ∧ (d.month < e.month ∨ d.month = e.month ∧ (d.day < e.day ∨ d.day = e.day ∧
      (d.hour < e.hour ∨ d.hour = e.hour ∧ (d.minute < e.minute ∨ d.minute = e.minute ∧
        (d.second < e.second ∨ d.second = e.second ∧ d.microsecond < e.microsecond))))) := by
  rw [count, count, radix_lt_iff d.microsecond_lt e.microsecond_lt, radix_lt_iff d.second_lt e.second_lt,
    radix_lt_iff d.minute_lt e.minute_lt, radix_lt_iff d.hour_lt e.hour_lt, radix_eq_iff d.second_lt e.second_lt,
    radix_eq_iff d.minute_lt e.minute_lt, radix_eq_iff d.hour_lt e.hour_lt, days_lt_iff, days_eq_iff]
  simp only [or_assoc, and_assoc, and_or_left]

end Datetime

/-! ## The instant of a number -/

variable {days n : Nat}

def yearOf (days : Nat) : Nat := locate daysBeforeYear 9999 days

def monthOf (days : Nat) : Nat := locate (daysBeforeMonth (yearOf days)) 12 (days - daysBeforeYear (yearOf days))

def dayOf (days : Nat) : Nat := days - daysBeforeYear (yearOf days) - daysBeforeMonth (yearOf days) (monthOf days) + 1

theorem yearOf_spec (h : days < daysBeforeYear 10000) : 1 ≤ yearOf days ∧ yearOf days ≤ 9999 ∧
    daysBeforeYear (yearOf days) ≤ days ∧ days < daysBeforeYear (yearOf days) + daysInYear (yearOf days) := by
  have hspec := @locate_spec daysBeforeYear days 1 9999 (Nat.zero_le _) (by omega) h
  rwa [daysBeforeYear_succ hspec.1] at hspec

theorem monthOf_spec (h : days < daysBeforeYear 10000) : 1 ≤ monthOf days ∧ monthOf days ≤ 12 ∧
    daysBeforeMonth (yearOf days) (monthOf days) ≤ days - daysBeforeYear (yearOf days) ∧
    days - daysBeforeYear (yearOf days) <
      daysBeforeMonth (yearOf days) (monthOf days) + daysInMonth (yearOf days) (monthOf days) := by
  have hrest : days - daysBeforeYear (yearOf days) < daysBeforeMonth (yearOf days) 13 := by
    have := yearOf_spec h
    rw [daysBeforeMonth_last]
    omega
  have hspec := @locate_spec (daysBeforeMonth (yearOf days)) _ 1 12 (Nat.zero_le _) (by omega) hrest
  rwa [daysBeforeMonth_succ hspec.1] at hspec

theorem dayOf_spec (h : days < daysBeforeYear 10000) : 1 ≤ dayOf days ∧ dayOf days ≤ daysInMonth (yearOf days) (monthOf days) := by
  have := monthOf_spec h
  unfold dayOf
  omega

theorem daysOf_lt (h : n < instants) : n / 1000000 / 60 / 60 / 24 < daysBeforeYear 10000 := by
  unfold instants at h
  generalize daysBeforeYear 10000 = limit at h ⊢
  omega

/-- The instant of a number, if there is one. -/
def ofCount (n : Nat) : Option Datetime :=
  if h : n < instants then
    let days := n / 1000000 / 60 / 60 / 24
    some {
      year := yearOf days
      month := monthOf days
      day := dayOf days
      hour := n / 1000000 / 60 / 60 % 24
      minute := n / 1000000 / 60 % 60
      second := n / 1000000 % 60
      microsecond := n % 1000000
      year_mem := ⟨(yearOf_spec (daysOf_lt h)).1, (yearOf_spec (daysOf_lt h)).2.1⟩
      month_mem := ⟨(monthOf_spec (daysOf_lt h)).1, (monthOf_spec (daysOf_lt h)).2.1⟩
      day_mem := dayOf_spec (daysOf_lt h)
      hour_lt := Nat.mod_lt _ (by omega)
      minute_lt := Nat.mod_lt _ (by omega)
      second_lt := Nat.mod_lt _ (by omega)
      microsecond_lt := Nat.mod_lt _ (by omega) }
  else none

theorem ofCount_of_lt (h : n < instants) : ∃ d, ofCount n = some d ∧ d.count = n := by
  refine ⟨_, dif_pos h, ?_⟩
  have hyear := yearOf_spec (daysOf_lt h)
  have hmonth := monthOf_spec (daysOf_lt h)
  simp only [Datetime.count, Datetime.days, dayOf]
  omega

/-! ## The text of an instant -/

/-- The decimal digits of a number, with leading zeros. -/
def pad (width n : Nat) : List Char := (Numerals.digits 10 width n).map Nat.digitChar

namespace Datetime

variable (d e : Datetime)

/-- The text of an instant to the second. -/
def clock (rest : List Char) : List Char :=
  pad 4 d.year ++ '-' :: (pad 2 d.month ++ '-' :: (pad 2 d.day ++ 'T' :: (pad 2 d.hour ++ ':' :: (pad 2 d.minute ++
    ':' :: (pad 2 d.second ++ rest)))))

def offset : List Char := "+00:00".toList

/-- The text with a fractional part. -/
def fractional : List Char := d.clock ('.' :: (pad 6 d.microsecond ++ offset))

/-- The text without one. -/
def whole : List Char := d.clock offset

/-- The text with a fractional part only where there is one. -/
def isoformat : List Char := if d.microsecond = 0 then d.whole else d.fractional

/-- A text of an instant, with or without a fractional part. -/
def Writes (text : List Char) : Prop := text = d.fractional ∨ d.microsecond = 0 ∧ text = d.whole

end Datetime

theorem append_lt_append_iff {a b r s : List Char} (h : a.length = b.length) :
    a ++ r < b ++ s ↔ a < b ∨ a = b ∧ r < s := by
  induction a generalizing b with
  | nil =>
    obtain rfl := List.length_eq_zero_iff.1 h.symm
    simp
  | cons x a ih =>
    cases b with
    | nil => cases h
    | cons y b =>
      rw [List.cons_append, List.cons_append, List.cons_lt_cons_iff, List.cons_lt_cons_iff, ih (Nat.succ.inj h), List.cons_eq_cons]
      simp only [or_assoc, and_assoc, and_or_left]

theorem digitChar_iff {a b : Nat} (ha : a < 10) (hb : b < 10) :
    (Nat.digitChar a < Nat.digitChar b ↔ a < b) ∧ (Nat.digitChar a = Nat.digitChar b ↔ a = b) := by
  have hall : ∀ a < 10, ∀ b < 10,
      (Nat.digitChar a < Nat.digitChar b ↔ a < b) ∧ (Nat.digitChar a = Nat.digitChar b ↔ a = b) := by decide
  exact hall a ha b hb

section Pad

variable {width v w : Nat} {r s : List Char}

theorem pad_succ (width v : Nat) : pad (width + 1) v = Nat.digitChar (v / 10 ^ width % 10) :: pad width v := by
  simp [pad, Numerals.digits, List.range_succ]

theorem pad_lt_iff_mod : pad width v < pad width w ↔ v % 10 ^ width < w % 10 ^ width := by
  induction width with
  | zero => simp [pad, Numerals.digits, Nat.mod_one]
  | succ width ih =>
    have hv : v / 10 ^ width % 10 < 10 := Nat.mod_lt _ (by omega)
    have hw : w / 10 ^ width % 10 < 10 := Nat.mod_lt _ (by omega)
    have hpos : 0 < 10 ^ width := Nat.pow_pos (by omega)
    obtain ⟨hlt, heq⟩ := digitChar_iff hv hw
    rw [pad_succ, pad_succ, List.cons_lt_cons_iff, ih, hlt, heq, Nat.mod_pow_succ, Nat.mod_pow_succ,
      Nat.add_comm (v % _), Nat.add_comm (w % _), Nat.mul_comm _ (v / _ % _), Nat.mul_comm _ (w / _ % _),
      radix_lt_iff (Nat.mod_lt _ hpos) (Nat.mod_lt _ hpos)]

theorem pad_append_lt_iff (hv : v < 10 ^ width) (hw : w < 10 ^ width) :
    pad width v ++ r < pad width w ++ s ↔ v < w ∨ v = w ∧ r < s := by
  have hlt := @pad_lt_iff_mod width v w
  have hgt := @pad_lt_iff_mod width w v
  rw [Nat.mod_eq_of_lt hv, Nat.mod_eq_of_lt hw] at hlt hgt
  rw [append_lt_append_iff (by simp [pad]), hlt]
  refine or_congr_right (and_congr_left fun _ => ⟨fun h => ?_, fun h => by rw [h]⟩)
  rw [h] at hlt hgt
  have hirrefl := List.lt_irrefl (pad width w)
  exact le_antisymm (not_lt.1 fun hlater => hirrefl (hgt.2 hlater)) (not_lt.1 fun hearlier => hirrefl (hlt.2 hearlier))

end Pad

namespace Datetime

variable {d e : Datetime} {r s text : List Char}

theorem daysInMonth_le (year month : Nat) : daysInMonth year month ≤ 31 := by
  unfold daysInMonth
  split
  · split_ifs <;> omega
  all_goals omega

theorem clock_lt_iff : d.clock r < e.clock s ↔
    d.year < e.year ∨ d.year = e.year ∧ (d.month < e.month ∨ d.month = e.month ∧ (d.day < e.day ∨ d.day = e.day ∧
      (d.hour < e.hour ∨ d.hour = e.hour ∧ (d.minute < e.minute ∨ d.minute = e.minute ∧
        (d.second < e.second ∨ d.second = e.second ∧ r < s))))) := by
  have hyear := d.year_mem.2
  have hyear' := e.year_mem.2
  have hmonth := d.month_mem.2
  have hmonth' := e.month_mem.2
  have hday := d.day_mem.2.trans (daysInMonth_le _ _)
  have hday' := e.day_mem.2.trans (daysInMonth_le _ _)
  have hhour := d.hour_lt
  have hhour' := e.hour_lt
  have hminute := d.minute_lt
  have hminute' := e.minute_lt
  have hsecond := d.second_lt
  have hsecond' := e.second_lt
  unfold clock
  rw [pad_append_lt_iff (by omega) (by omega), List.cons_lt_cons_self, pad_append_lt_iff (by omega) (by omega),
    List.cons_lt_cons_self, pad_append_lt_iff (by omega) (by omega), List.cons_lt_cons_self,
    pad_append_lt_iff (by omega) (by omega), List.cons_lt_cons_self, pad_append_lt_iff (by omega) (by omega),
    List.cons_lt_cons_self, pad_append_lt_iff (by omega) (by omega)]

theorem offset_eq : offset = '+' :: "00:00".toList := rfl

/-- Where the times are the same to the second, the rest of the texts is in the order of the microseconds. -/
theorem Writes.lt_isoformat_iff (h : d.Writes text) : text < e.isoformat ↔ d.count < e.count := by
  have hmicrosecond := d.microsecond_lt
  have hmicrosecond' := e.microsecond_lt
  have hrest : ∃ r, text = d.clock r ∧ ∃ s, e.isoformat = e.clock s ∧ (r < s ↔ d.microsecond < e.microsecond) := by
    unfold isoformat
    rcases h with rfl | ⟨hzero, rfl⟩
    · refine ⟨_, rfl, ?_⟩
      split_ifs with hwhole
      · refine ⟨_, rfl, ?_⟩
        rw [hwhole]
        refine iff_of_false ?_ (Nat.not_lt_zero _)
        rw [offset_eq, List.cons_lt_cons_iff]
        rintro (h | h)
        · exact absurd h (by decide)
        · exact absurd h.1 (by decide)
      · refine ⟨_, rfl, ?_⟩
        rw [List.cons_lt_cons_self, pad_append_lt_iff (by omega) (by omega)]
        simp
    · refine ⟨_, rfl, ?_⟩
      rw [hzero]
      split_ifs with hwhole
      · refine ⟨_, rfl, ?_⟩
        rw [hwhole]
        simp
      · refine ⟨_, rfl, iff_of_true ?_ (Nat.pos_of_ne_zero hwhole)⟩
        rw [offset_eq, List.cons_lt_cons_iff]
        exact .inl (by decide)
  obtain ⟨r, rfl, s, heq, hrest⟩ := hrest
  rw [heq, clock_lt_iff, hrest, count_lt_iff]

end Datetime

end Sentinel.Calendar
