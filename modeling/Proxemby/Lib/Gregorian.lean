import Mathlib.Algebra.BigOperators.Intervals
import Mathlib.Algebra.Order.BigOperators.Group.Finset
import Mathlib.Tactic.IntervalCases

/-!
# The Gregorian calendar

Dates by the rules of the calendar: leap years, the lengths of months, the day after a date,
and the number of days between the first day of a year and a date.
-/

namespace Gregorian

/-! ## Years and months -/

/-- Every fourth year is a leap year; of the centuries only every fourth is one. -/
def IsLeap (year : Int) : Prop := 4 ∣ year ∧ (100 ∣ year → 400 ∣ year)

instance : DecidablePred IsLeap := fun year =>
  inferInstanceAs (Decidable (4 ∣ year ∧ (100 ∣ year → 400 ∣ year)))

def monthLength (year month : Int) : Int :=
  if month = 2 then if IsLeap year then 29 else 28
  else if month = 4 ∨ month = 6 ∨ month = 9 ∨ month = 11 then 30
  else 31

/-- The days of a year in front of a month. -/
def daysBeforeMonth (year month : Int) : Int :=
  ∑ i ∈ Finset.range (month - 1).toNat, monthLength year (i + 1)

def yearLength (year : Int) : Int := daysBeforeMonth year 13

/-- The days from the first day of a year to the first day of another; they are negative, if
the other year is earlier. -/
def daysBetween (first last : Int) : Int :=
  ∑ i ∈ Finset.range (last - first).toNat, yearLength (first + i) -
    ∑ i ∈ Finset.range (first - last).toNat, yearLength (last + i)

@[ext]
structure Date where
  year : Int
  month : Int
  day : Int
  deriving DecidableEq

namespace Date

structure Valid (date : Date) : Prop where
  month : 1 ≤ date.month ∧ date.month ≤ 12
  day : 1 ≤ date.day ∧ date.day ≤ monthLength date.year date.month

/-- The days from the first day of a year to a date. -/
def daysSince (epoch : Int) (date : Date) : Int :=
  daysBetween epoch date.year + daysBeforeMonth date.year date.month + (date.day - 1)

/-- The day after a date. -/
def next (date : Date) : Date :=
  if date.day < monthLength date.year date.month then { date with day := date.day + 1 }
  else if date.month < 12 then ⟨date.year, date.month + 1, 1⟩
  else ⟨date.year + 1, 1, 1⟩

/-- One date is earlier than another. -/
def Before (date date' : Date) : Prop :=
  date.year < date'.year ∨ date.year = date'.year ∧
    (date.month < date'.month ∨ date.month = date'.month ∧ date.day < date'.day)

end Date

/-! ## Counting days -/

theorem monthLength_pos (year month : Int) : 28 ≤ monthLength year month := by
  rw [monthLength]
  split <;> split <;> omega

theorem daysBeforeMonth_succ (year : Int) {month : Int} (first : 1 ≤ month) :
    daysBeforeMonth year (month + 1) = daysBeforeMonth year month + monthLength year month := by
  have count : (month + 1 - 1).toNat = (month - 1).toNat + 1 := by omega
  have last : ((month - 1).toNat : Int) + 1 = month := by omega
  rw [daysBeforeMonth, daysBeforeMonth, count, Finset.sum_range_succ, last]

theorem daysBetween_succ (first last : Int) :
    daysBetween first (last + 1) = daysBetween first last + yearLength last := by
  rcases le_or_gt first last with later | earlier
  · have count : (last + 1 - first).toNat = (last - first).toNat + 1 := by omega
    have new : first + ((last - first).toNat : Int) = last := by omega
    have none : (first - last).toNat = 0 := by omega
    have none' : (first - (last + 1)).toNat = 0 := by omega
    rw [daysBetween, daysBetween, count, Finset.sum_range_succ, new, none, none',
      Finset.sum_range_zero, Finset.sum_range_zero, sub_zero, sub_zero]
  · have count : (first - last).toNat = (first - (last + 1)).toNat + 1 := by omega
    have none : (last - first).toNat = 0 := by omega
    have none' : (last + 1 - first).toNat = 0 := by omega
    have shift (i : Nat) : last + ((i + 1 : Nat) : Int) = last + 1 + i := by omega
    rw [daysBetween, daysBetween, count, Finset.sum_range_succ', none, none']
    simp only [shift, Finset.sum_range_zero, Nat.cast_zero, add_zero]
    omega

theorem daysBetween_self (year : Int) : daysBetween year year = 0 := by
  simp [daysBetween]

/-- The months one after another. -/
theorem daysBeforeMonth_one (year : Int) : daysBeforeMonth year 1 = 0 := by
  simp [daysBeforeMonth]

theorem daysBeforeMonth_mono (year : Int) {month month' : Int} (first : 1 ≤ month)
    (later : month < month') :
    daysBeforeMonth year month + monthLength year month ≤ daysBeforeMonth year month' := by
  rw [← daysBeforeMonth_succ year first]
  refine Finset.sum_le_sum_of_subset_of_nonneg ?_ fun i _ _ => ?_
  · exact Finset.range_mono (by omega)
  · exact le_trans (by decide) (monthLength_pos year (i + 1))

/-- From March on the months follow one pattern, with the leap day in front of it. -/
theorem daysBeforeMonth_eq (year : Int) {month : Int} (first : 1 ≤ month) (last : month ≤ 13) :
    daysBeforeMonth year month =
      if month ≤ 2 then 31 * (month - 1)
      else (153 * (month - 3) + 2) / 5 + if IsLeap year then 60 else 59 := by
  induction month, first using Int.leInduction with
  | base => exact daysBeforeMonth_one year
  | succ month first ih =>
      rw [daysBeforeMonth_succ year first, ih (by omega), monthLength]
      have last' : month ≤ 12 := by omega
      by_cases leap : IsLeap year <;> interval_cases month <;> simp [leap]

/-- A leap year has one day more. -/
theorem yearLength_eq (year : Int) : yearLength year = if IsLeap year then 366 else 365 := by
  rw [yearLength, daysBeforeMonth_eq year (by decide) (by decide)]
  by_cases leap : IsLeap year <;> simp [leap]

/-- The leap days of the years up to one, from the year zero on. -/
def leapDays (year : Int) : Int := year / 4 - year / 100 + year / 400

theorem leapDays_succ (year : Int) :
    leapDays year = leapDays (year - 1) + if IsLeap year then 1 else 0 := by
  rw [leapDays, leapDays]
  by_cases leap : IsLeap year
  · rw [if_pos leap]
    unfold IsLeap at leap
    omega
  · rw [if_neg leap]
    unfold IsLeap at leap
    omega

theorem daysBetween_eq (first last : Int) :
    daysBetween first last =
      365 * (last - first) + leapDays (last - 1) - leapDays (first - 1) := by
  have step (year : Int) : daysBetween first (year + 1) =
      daysBetween first year + 365 + (leapDays year - leapDays (year - 1)) := by
    rw [daysBetween_succ, yearLength_eq, leapDays_succ]
    split <;> omega
  induction last using Int.inductionOn' (b := first) with
  | zero => rw [daysBetween_self]; omega
  | succ year later ih =>
      rw [step, ih, add_sub_cancel_right]
      omega
  | pred year earlier ih =>
      have back := step (year - 1)
      rw [sub_add_cancel, ih] at back
      omega

namespace Date

variable {date date' : Date}

/-! ## The day after a date -/

/-- The first day of a month. -/
theorem valid_first (year : Int) {month : Int} (first : 1 ≤ month) (last : month ≤ 12) :
    Valid ⟨year, month, 1⟩ :=
  ⟨⟨first, last⟩, le_refl _, le_trans (show (1 : Int) ≤ 28 by decide) (monthLength_pos year month)⟩

theorem Valid.next (valid : date.Valid) : date.next.Valid := by
  obtain ⟨month, day⟩ := valid
  rw [Date.next]
  split
  · next earlier =>
      refine ⟨month, ?_, earlier⟩
      change 1 ≤ date.day + 1
      omega
  · split
    · exact valid_first date.year (by omega) (by omega)
    · exact valid_first (date.year + 1) (by decide) (by decide)

theorem daysSince_next (epoch : Int) (valid : date.Valid) :
    date.next.daysSince epoch = date.daysSince epoch + 1 := by
  obtain ⟨month, day⟩ := valid
  rw [Date.next]
  split
  · simp only [daysSince]
    omega
  · next last =>
      split
      · simp only [daysSince]
        rw [daysBeforeMonth_succ date.year month.1]
        omega
      · have december : date.month = 12 := by omega
        have year : yearLength date.year = daysBeforeMonth date.year date.month +
            monthLength date.year date.month := by
          rw [← daysBeforeMonth_succ date.year month.1, december]
          rfl
        simp only [daysSince]
        rw [daysBetween_succ, daysBeforeMonth_one, year]
        omega

/-! ## The order of dates -/

/-- A date is within its year. -/
theorem daysBeforeMonth_add_day (valid : date.Valid) :
    daysBeforeMonth date.year date.month + (date.day - 1) < yearLength date.year := by
  obtain ⟨month, day⟩ := valid
  have := daysBeforeMonth_mono date.year month.1 (Int.lt_add_one_of_le month.2)
  rw [yearLength]
  change _ ≤ daysBeforeMonth date.year 13 at this
  omega

theorem daysBeforeMonth_nonneg (year month : Int) : 0 ≤ daysBeforeMonth year month :=
  Finset.sum_nonneg fun i _ => le_trans (by decide) (monthLength_pos year (i + 1))

/-- Years before others end before they begin. -/
theorem daysBetween_mono (epoch : Int) {year year' : Int} (later : year < year') :
    daysBetween epoch year + yearLength year ≤ daysBetween epoch year' := by
  have lengths (year : Int) : 0 ≤ yearLength year := daysBeforeMonth_nonneg year 13
  rw [← daysBetween_succ]
  have next : year + 1 ≤ year' := later
  clear later
  induction year', next using Int.leInduction with
  | base => exact le_refl _
  | succ year' later ih =>
      rw [daysBetween_succ epoch year']
      have := lengths year'
      omega

theorem Before.daysSince_lt (before : date.Before date') (valid : date.Valid)
    (valid' : date'.Valid) (epoch : Int) : date.daysSince epoch < date'.daysSince epoch := by
  rw [daysSince, daysSince]
  obtain year | ⟨year, month | ⟨month, day⟩⟩ := before
  · have years := daysBetween_mono epoch year
    have inside := daysBeforeMonth_add_day valid
    have start := daysBeforeMonth_nonneg date'.year date'.month
    have first := valid'.day.1
    omega
  · have months := daysBeforeMonth_mono date.year valid.month.1 month
    have inside := valid.day.2
    have first := valid'.day.1
    rw [← year]
    omega
  · rw [year, month]
    omega

theorem before_or (date date' : Date) : date.Before date' ∨ date = date' ∨ date'.Before date := by
  rw [Before, Before, Date.ext_iff]
  omega

/-- Days and dates have one order. -/
theorem daysSince_lt_iff (valid : date.Valid) (valid' : date'.Valid) (epoch : Int) :
    date.daysSince epoch < date'.daysSince epoch ↔ date.Before date' := by
  refine ⟨fun earlier => ?_, fun before => before.daysSince_lt valid valid' epoch⟩
  obtain before | rfl | after := before_or date date'
  · exact before
  · exact absurd earlier (lt_irrefl _)
  · exact absurd (after.daysSince_lt valid' valid epoch) (lt_asymm earlier)

/-- No two dates have one day. -/
theorem daysSince_inj (valid : date.Valid) (valid' : date'.Valid) (epoch : Int) :
    date.daysSince epoch = date'.daysSince epoch ↔ date = date' := by
  refine ⟨fun same => ?_, fun same => by rw [same]⟩
  obtain before | equal | after := before_or date date'
  · exact absurd same (before.daysSince_lt valid valid' epoch).ne
  · exact equal
  · exact absurd same.symm (after.daysSince_lt valid' valid epoch).ne

/-! ## The date of a day -/

/-- The calendar repeats itself after four hundred years. -/
theorem isLeap_shift (year eras : Int) : IsLeap (year - 400 * eras) ↔ IsLeap year := by
  simp only [IsLeap]
  omega

theorem exists_daysSince (epoch days : Int) :
    ∃ date : Date, date.Valid ∧ date.daysSince epoch = days := by
  have later (n : Nat) : ∃ date : Date, date.Valid ∧ date.daysSince epoch = n := by
    induction n with
    | zero =>
        refine ⟨⟨epoch, 1, 1⟩, valid_first epoch (by decide) (by decide), ?_⟩
        simp [daysSince, daysBetween_self, daysBeforeMonth_one]
    | succ n ih =>
        obtain ⟨date, valid, same⟩ := ih
        refine ⟨date.next, valid.next, ?_⟩
        rw [daysSince_next epoch valid, same]
        rfl
  -- a day before the epoch is so many eras behind one after it
  obtain ⟨date, valid, same⟩ := later (days + 146097 * days.natAbs).toNat
  have lengths (month : Int) :
      monthLength (date.year - 400 * days.natAbs) month = monthLength date.year month := by
    simp only [monthLength, isLeap_shift]
  refine ⟨{ date with year := date.year - 400 * days.natAbs }, ⟨valid.month, valid.day.1, ?_⟩, ?_⟩
  · rw [lengths]
    exact valid.day.2
  · have months : daysBeforeMonth (date.year - 400 * days.natAbs) date.month =
        daysBeforeMonth date.year date.month := by
      simp only [daysBeforeMonth, lengths]
    rw [daysSince, daysBetween_eq, leapDays, leapDays] at same
    simp only [daysSince]
    rw [months, daysBetween_eq, leapDays, leapDays]
    omega

/-! ## Years from March on -/

/-- The year of a date, if years began in March. -/
def marchYear (date : Date) : Int := if date.month ≤ 2 then date.year - 1 else date.year

/-- The months from March to a date. -/
def marchMonth (date : Date) : Int := if date.month ≤ 2 then date.month + 9 else date.month - 3

/-- The days from the first of March to a date. -/
def marchDay (date : Date) : Int := (153 * date.marchMonth + 2) / 5 + (date.day - 1)

/-- The leap day is the last one of a year that begins in March. -/
theorem daysSince_march (epoch : Int) (valid : date.Valid) :
    date.daysSince epoch = 365 * date.marchYear + leapDays date.marchYear + date.marchDay + 59 -
      (365 * epoch + leapDays (epoch - 1)) := by
  obtain ⟨month, day⟩ := valid
  rw [daysSince, daysBetween_eq, daysBeforeMonth_eq date.year month.1 (by omega), marchDay,
    marchYear, marchMonth]
  split
  · next winter =>
      have : (153 * (date.month + 9) + 2) / 5 = 306 + 31 * (date.month - 1) := by omega
      omega
  · have leap := leapDays_succ date.year
    by_cases isLeap : IsLeap date.year
    · rw [if_pos isLeap] at leap ⊢
      omega
    · rw [if_neg isLeap] at leap ⊢
      omega

theorem marchDay_range (valid : date.Valid) :
    0 ≤ date.marchDay ∧
      (date.marchDay ≤ 364 ∨ date.marchDay = 365 ∧ IsLeap (date.marchYear + 1)) := by
  obtain ⟨month, day⟩ := valid
  have length : monthLength date.year date.month ≤ 31 := by
    rw [monthLength]
    split <;> split <;> omega
  rw [marchDay, marchYear, marchMonth]
  split
  · next winter =>
      rw [sub_add_cancel]
      obtain january | february : date.month = 1 ∨ date.month = 2 := by omega
      · rw [january]
        omega
      · rw [february, monthLength, if_pos rfl] at day
        rw [february]
        split at day
        · next leap =>
            rw [and_iff_left leap]
            omega
        · omega
  · omega

/-- The month of a day in a year that begins in March. -/
theorem marchMonth_eq (valid : date.Valid) :
    (5 * date.marchDay + 2) / 153 = date.marchMonth := by
  obtain ⟨⟨first, last⟩, start, stop⟩ := valid
  have length : monthLength date.year date.month ≤
      if date.month = 2 then 29
      else if date.month = 4 ∨ date.month = 6 ∨ date.month = 9 ∨ date.month = 11 then 30
      else 31 := by
    rw [monthLength]
    split
    · split <;> decide
    · exact le_refl _
  rw [marchDay, marchMonth]
  generalize date.month = month at *
  interval_cases month <;>
    simp only [↓reduceIte, Int.reduceEq, Int.reduceLE, or_self, or_false, or_true] at length ⊢ <;>
    omega

theorem day_of_marchDay (date : Date) :
    date.marchDay - (153 * date.marchMonth + 2) / 5 + 1 = date.day := by
  rw [marchDay, add_sub_cancel_left, sub_add_cancel]

theorem month_of_marchMonth (valid : date.Valid) :
    (if date.marchMonth < 10 then date.marchMonth + 3 else date.marchMonth - 9) = date.month := by
  have months := valid.month
  rw [marchMonth]
  split <;> split <;> omega

theorem year_of_marchYear (date : Date) :
    (if date.month ≤ 2 then date.marchYear + 1 else date.marchYear) = date.year := by
  rw [marchYear]
  split
  · rw [sub_add_cancel]
  · rfl

end Date

end Gregorian
