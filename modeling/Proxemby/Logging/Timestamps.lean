import Proxemby.Lib.Gregorian
import Proxemby.Lib.Numerals
import Proxemby.Logging.Record

/-!
# What a timestamp says

`civil_from_days` gives the dates of the Gregorian calendar one after another.  The timestamps
of `format_time` tell the time to the millisecond, and are ordered like the times.
-/

namespace Proxemby.Logging

open Gregorian Numerals Utf8

/-! ## Dates -/

/-- The year within an era of four hundred, from the day within the era: `c` centuries, `k`
further spans of four years, `r` years and `day` days have passed. -/
theorem yearOfEra_eq {c k r day dayOfEra : Int} (centuries : 0 ≤ c ∧ c ≤ 3)
    (spans : 0 ≤ k ∧ k ≤ 24) (years : 0 ≤ r ∧ r ≤ 3) (first : 0 ≤ day)
    (last : day ≤ 364 ∨ day = 365 ∧ r = 3 ∧ (k < 24 ∨ c = 3))
    (whole : dayOfEra = 36524 * c + 1461 * k + 365 * r + day) :
    (dayOfEra - dayOfEra / 1460 + dayOfEra / 36524 - dayOfEra / 146096) / 365 =
      100 * c + 4 * k + r := by
  have cut : dayOfEra / 36524 - dayOfEra / 146096 = c := by
    -- only the last day of an era is behind four full centuries
    obtain last | inside : dayOfEra = 146096 ∧ c = 3 ∨ 1461 * k + 365 * r + day ≤ 36523 := by
      omega
    · omega
    · have century : dayOfEra / 36524 = c := by omega
      have era : dayOfEra / 146096 = 0 := by omega
      omega
  have leap : dayOfEra / 1460 = 25 * c + k ∧ day ≤ 364 ∨
      dayOfEra / 1460 = 25 * c + k + 1 ∧ 1 ≤ day := by omega
  omega

/-- The algorithm undoes the count of days. -/
theorem civilFromDays_daysSince {date : Date} (valid : date.Valid) :
    civilFromDays (date.daysSince 1970) = (date.year, date.month, date.day) := by
  have whole (year : Int) : 100 * (year / 100) + 4 * (year % 100 / 4) + year % 4 = year :=
    calc 100 * (year / 100) + 4 * (year % 100 / 4) + year % 4
      _ = 100 * (year / 100) + (4 * (year % 100 / 4) + year % 100 % 4) := by
          rw [Int.emod_emod_of_dvd year (by decide), Int.add_assoc]
      _ = 100 * (year / 100) + year % 100 := by rw [Int.mul_ediv_add_emod]
      _ = year := Int.mul_ediv_add_emod year 100
  obtain ⟨low, high⟩ := date.marchDay_range valid
  have shifted : date.daysSince 1970 + 719468 =
      146097 * (date.marchYear / 400) + (365 * (date.marchYear % 400) +
        date.marchYear % 400 / 4 - date.marchYear % 400 / 100 + date.marchDay) := by
    have epoch : leapDays (1970 - 1) = 477 := by decide
    rw [date.daysSince_march 1970 valid, epoch, leapDays]
    omega
  have years : date.marchYear % 400 + date.marchYear / 400 * 400 = date.marchYear :=
    Int.emod_add_ediv_mul date.marchYear 400
  generalize date.marchYear % 400 = yearOfEra at shifted years
  generalize passed : 365 * yearOfEra + yearOfEra / 4 - yearOfEra / 100 = daysOfYears at shifted
  unfold IsLeap at high
  have era : (date.daysSince 1970 + 719468) / 146097 = date.marchYear / 400 := by omega
  have dayOfEra : (date.daysSince 1970 + 719468) % 146097 = daysOfYears + date.marchDay := by omega
  have year := @yearOfEra_eq (yearOfEra / 100) (yearOfEra % 100 / 4) (yearOfEra % 4)
    date.marchDay (daysOfYears + date.marchDay) (by omega) (by omega) (by omega) low (by omega)
    (by omega)
  simp only [civilFromDays]
  rw [era, dayOfEra, year, whole, passed, add_sub_cancel_left, date.marchMonth_eq valid,
    date.day_of_marchDay, date.month_of_marchMonth valid, years, date.year_of_marchYear]

/-- The date that `civil_from_days` gives. -/
def civilDate (days : Int) : Date :=
  let (year, month, day) := civilFromDays days
  ⟨year, month, day⟩

theorem civilDate_daysSince {date : Date} (valid : date.Valid) :
    civilDate (date.daysSince 1970) = date := by
  rw [civilDate, civilFromDays_daysSince valid]

/-- Every day has a date of the calendar. -/
theorem civilDate_spec (days : Int) :
    (civilDate days).Valid ∧ (civilDate days).daysSince 1970 = days := by
  obtain ⟨date, valid, rfl⟩ := Date.exists_daysSince 1970 days
  rw [civilDate_daysSince valid]
  exact ⟨valid, rfl⟩

theorem civilDate_succ (days : Int) : civilDate (days + 1) = (civilDate days).next := by
  obtain ⟨valid, same⟩ := civilDate_spec days
  have day := (civilDate days).daysSince_next 1970 valid
  rw [same] at day
  rw [← day, civilDate_daysSince valid.next]

theorem civilFromDays_injective : Function.Injective civilFromDays := by
  intro days days' same
  have dates : civilDate days = civilDate days' := by rw [civilDate, civilDate, same]
  rw [← (civilDate_spec days).2, dates, (civilDate_spec days').2]

/-! ## Timestamps -/

/-- The parts of a timestamp. -/
structure Stamp where
  date : Date
  hour : Int
  minute : Int
  second : Int
  millis : Int

namespace Stamp

structure Valid (stamp : Stamp) : Prop where
  date : stamp.date.Valid
  hour : 0 ≤ stamp.hour ∧ stamp.hour < 24
  minute : 0 ≤ stamp.minute ∧ stamp.minute < 60
  second : 0 ≤ stamp.second ∧ stamp.second < 60
  millis : 0 ≤ stamp.millis ∧ stamp.millis < 1000

/-- The milliseconds since the beginning of a year. -/
def millisSince (epoch : Int) (stamp : Stamp) : Int :=
  (((stamp.date.daysSince epoch * 24 + stamp.hour) * 60 + stamp.minute) * 60 +
    stamp.second) * 1000 + stamp.millis

/-- The stamp in the format of RFC 3339. -/
def Written (stamp : Stamp) (text : Str) : Prop :=
  ∃ year month day hour minute second millis : Str,
    text = year ++ '-' :: (month ++ '-' :: (day ++ 'T' :: (hour ++ ':' :: (minute ++
      ':' :: (second ++ '.' :: (millis ++ ['Z'])))))) ∧
    IsNumeral 4 stamp.date.year year ∧ IsNumeral 2 stamp.date.month month ∧
    IsNumeral 2 stamp.date.day day ∧ IsNumeral 2 stamp.hour hour ∧
    IsNumeral 2 stamp.minute minute ∧ IsNumeral 2 stamp.second second ∧
    IsNumeral 3 stamp.millis millis

variable {stamp stamp' : Stamp} {text text' : Str}

/-- A text is one timestamp at most. -/
theorem Written.unique (written : stamp.Written text) (written' : stamp'.Written text) :
    stamp = stamp' := by
  obtain ⟨year, month, day, hour, minute, second, millis, rfl, isYear, isMonth, isDay, isHour,
    isMinute, isSecond, isMillis⟩ := written
  obtain ⟨year', month', day', hour', minute', second', millis', same, isYear', isMonth', isDay',
    isHour', isMinute', isSecond', isMillis'⟩ := written'
  obtain ⟨sameYear, same⟩ := isYear.append_inj isYear' same
  obtain ⟨sameMonth, same⟩ := isMonth.append_inj isMonth' (List.cons.inj same).2
  obtain ⟨sameDay, same⟩ := isDay.append_inj isDay' (List.cons.inj same).2
  obtain ⟨sameHour, same⟩ := isHour.append_inj isHour' (List.cons.inj same).2
  obtain ⟨sameMinute, same⟩ := isMinute.append_inj isMinute' (List.cons.inj same).2
  obtain ⟨sameSecond, same⟩ := isSecond.append_inj isSecond' (List.cons.inj same).2
  obtain ⟨sameMillis, -⟩ := isMillis.append_inj isMillis' (List.cons.inj same).2
  obtain ⟨⟨_, _, _⟩, _, _, _, _⟩ := stamp
  obtain ⟨⟨_, _, _⟩, _, _, _, _⟩ := stamp'
  simp only at sameYear sameMonth sameDay sameHour sameMinute sameSecond sameMillis
  subst sameYear sameMonth sameDay sameHour sameMinute sameSecond sameMillis
  rfl

/-- The first part that differs decides. -/
theorem Written.lt_iff_parts (written : stamp.Written text) (written' : stamp'.Written text') :
    text < text' ↔ stamp.date.Before stamp'.date ∨ stamp.date = stamp'.date ∧
      (stamp.hour < stamp'.hour ∨ stamp.hour = stamp'.hour ∧
        (stamp.minute < stamp'.minute ∨ stamp.minute = stamp'.minute ∧
          (stamp.second < stamp'.second ∨ stamp.second = stamp'.second ∧
            stamp.millis < stamp'.millis))) := by
  obtain ⟨year, month, day, hour, minute, second, millis, rfl, isYear, isMonth, isDay, isHour,
    isMinute, isSecond, isMillis⟩ := written
  obtain ⟨year', month', day', hour', minute', second', millis', rfl, isYear', isMonth', isDay',
    isHour', isMinute', isSecond', isMillis'⟩ := written'
  rw [isYear.append_lt_iff isYear', List.cons_lt_cons_self, isMonth.append_lt_iff isMonth',
    List.cons_lt_cons_self, isDay.append_lt_iff isDay', List.cons_lt_cons_self,
    isHour.append_lt_iff isHour', List.cons_lt_cons_self, isMinute.append_lt_iff isMinute',
    List.cons_lt_cons_self, isSecond.append_lt_iff isSecond', List.cons_lt_cons_self,
    isMillis.append_lt_iff isMillis', Date.Before, Date.ext_iff]
  simp only [lt_irrefl, and_false, or_false, and_or_left, or_assoc, and_assoc]

/-- Timestamps are ordered like the times that they tell. -/
theorem Written.lt_iff (written : stamp.Written text) (written' : stamp'.Written text')
    (valid : stamp.Valid) (valid' : stamp'.Valid) (epoch : Int) :
    text < text' ↔ stamp.millisSince epoch < stamp'.millisSince epoch := by
  obtain ⟨date, hour, minute, second, millis⟩ := valid
  obtain ⟨date', hour', minute', second', millis'⟩ := valid'
  rw [written.lt_iff_parts written', ← Date.daysSince_lt_iff date date' epoch,
    ← Date.daysSince_inj date date' epoch, millisSince, millisSince]
  omega

theorem Written.ascii (written : stamp.Written text) : ∀ c ∈ text, c.toNat < 0x80 := by
  obtain ⟨year, month, day, hour, minute, second, millis, rfl, isYear, isMonth, isDay, isHour,
    isMinute, isSecond, isMillis⟩ := written
  simp only [List.forall_mem_append, List.forall_mem_cons]
  refine ⟨isYear.ascii, by decide, isMonth.ascii, by decide, isDay.ascii, by decide,
    isHour.ascii, by decide, isMinute.ascii, by decide, isSecond.ascii, by decide,
    isMillis.ascii, by decide, ?_⟩
  simp

end Stamp

/-! ## What is written -/

theorem isNumeral_padded {width n : Nat} (some : 0 < width) (fits : n < 10 ^ width) :
    IsNumeral width n (padded 10 width n) := by
  have short := (Nat.length_toDigits_le_iff (n := n) (show 1 < 10 by decide) some).mpr fits
  constructor
  case width =>
    rw [padded, List.length_append, List.length_replicate]
    omega
  case digits =>
    intro c member
    rcases List.mem_append.mp member with zero | digit
    · rw [List.eq_of_mem_replicate zero]
      decide
    · exact Nat.isDigit_of_mem_toDigits (by decide) (by decide) digit
  case value =>
    rw [padded, Nat.ofDigitChars_append, Nat.ofDigitChars_replicate_zero, Nat.mul_zero,
      Nat.ofDigitChars_ten_toDigits]

theorem isNumeral_padded_toNat {width : Nat} {n : Int} (some : 0 < width) (nonneg : 0 ≤ n)
    (fits : n < 10 ^ width) : IsNumeral width n (padded 10 width n.toNat) := by
  have cast : (n.toNat : Int) = n := Int.toNat_of_nonneg nonneg
  have small : n.toNat < 10 ^ width := by
    rw [← Int.ofNat_lt, cast, Int.natCast_pow]
    exact fits
  rw [← cast] at nonneg ⊢
  exact isNumeral_padded some small

/-- The nanoseconds from the epoch to the end of the year 9999. -/
def InYears (time : Int) : Prop :=
  0 ≤ time ∧ time < Date.daysSince 1970 ⟨10000, 1, 1⟩ * 86400000000000

/-- What `format_time` writes. -/
def stampOf (time : Int) : Stamp where
  date := civilDate (time / 86400000000000)
  hour := time / 3600000000000 % 24
  minute := time / 60000000000 % 60
  second := time / 1000000000 % 60
  millis := time / 1000000 % 1000

theorem stampOf_valid (time : Int) : (stampOf time).Valid := by
  have part (n : Int) {unit : Int} (some : 0 < unit) : 0 ≤ n % unit ∧ n % unit < unit :=
    ⟨Int.emod_nonneg n some.ne', Int.emod_lt_of_pos n some⟩
  exact ⟨(civilDate_spec _).1, part _ (by decide), part _ (by decide), part _ (by decide),
    part _ (by decide)⟩

theorem millisSince_stampOf (time : Int) : (stampOf time).millisSince 1970 = time / 1000000 := by
  rw [Stamp.millisSince, stampOf]
  simp only [(civilDate_spec _).2]
  omega

theorem year_stampOf {time : Int} (inYears : InYears time) :
    0 ≤ (stampOf time).date.year ∧ (stampOf time).date.year < 10000 := by
  obtain ⟨since, before⟩ := inYears
  obtain ⟨valid, days⟩ := civilDate_spec (time / 86400000000000)
  have first : Date.daysSince 1970 ⟨1970, 1, 1⟩ = 0 := by
    simp [Date.daysSince, daysBetween_self, daysBeforeMonth_one]
  constructor
  · by_contra negative
    have earlier : (civilDate (time / 86400000000000)).Before ⟨1970, 1, 1⟩ := by
      refine .inl (show (civilDate (time / 86400000000000)).year < 1970 from ?_)
      change ¬0 ≤ (civilDate (time / 86400000000000)).year at negative
      omega
    have := earlier.daysSince_lt valid (Date.valid_first 1970 (by decide) (by decide)) 1970
    omega
  · have tenth : Date.Valid ⟨10000, 1, 1⟩ := Date.valid_first 10000 (by decide) (by decide)
    have earlier := (Date.daysSince_lt_iff valid tenth 1970).mp (by omega)
    obtain year | ⟨-, month | ⟨-, day⟩⟩ := earlier
    · exact year
    · have := valid.month.1
      simp only at month
      omega
    · have := valid.day.1
      simp only at day
      omega

theorem formatTime_eq {time : Int} (since : 0 ≤ time) :
    formatTime time =
      let stamp := stampOf time
      timestamp stamp.date.year.toNat stamp.date.month.toNat stamp.date.day.toNat
        stamp.hour.toNat stamp.minute.toNat stamp.second.toNat stamp.millis.toNat := by
  have days : ((time.toNat / 1000000000 : Nat) : Int) / 86400 = time / 86400000000000 := by omega
  have hour : ((time.toNat / 1000000000 : Nat) : Int) % 86400 / 3600 =
      time / 3600000000000 % 24 := by omega
  have minute : ((time.toNat / 1000000000 : Nat) : Int) % 86400 % 3600 / 60 =
      time / 60000000000 % 60 := by omega
  have second : ((time.toNat / 1000000000 : Nat) : Int) % 86400 % 60 =
      time / 1000000000 % 60 := by omega
  have millis : time.toNat % 1000000000 / 1000000 = (time / 1000000 % 1000).toNat := by omega
  simp only [formatTime, stampOf, civilDate, days, hour, minute, second, millis]

theorem written_formatTime {time : Int} (inYears : InYears time) :
    (stampOf time).Written (formatTime time) := by
  obtain ⟨date, hour, minute, second, millis⟩ := stampOf_valid time
  obtain ⟨⟨firstMonth, lastMonth⟩, firstDay, lastDay⟩ := date
  have year := year_stampOf inYears
  have days : monthLength (stampOf time).date.year (stampOf time).date.month ≤ 31 := by
    rw [monthLength]
    split <;> split <;> omega
  rw [formatTime_eq inYears.1]
  refine ⟨_, _, _, _, _, _, _, by simp only [timestamp, List.append_assoc, List.cons_append],
    isNumeral_padded_toNat ?_ ?_ ?_, isNumeral_padded_toNat ?_ ?_ ?_,
    isNumeral_padded_toNat ?_ ?_ ?_, isNumeral_padded_toNat ?_ ?_ ?_,
    isNumeral_padded_toNat ?_ ?_ ?_, isNumeral_padded_toNat ?_ ?_ ?_,
    isNumeral_padded_toNat ?_ ?_ ?_⟩ <;> omega

/-- Each timestamp up to the year 9999 is a date of the calendar with a time of day, together
the time to the millisecond, and the timestamps are ordered like the times. -/
theorem timestamps_exact {time time' : Int} (inYears : InYears time) (inYears' : InYears time') :
    (∃ stamp : Stamp, stamp.Written (formatTime time) ∧
      (∀ other : Stamp, other.Written (formatTime time) → other = stamp) ∧
      stamp.Valid ∧ stamp.millisSince 1970 = time / 1000000) ∧
    (strLe (formatTime time) (formatTime time') = true ↔ time / 1000000 ≤ time' / 1000000) ∧
    Function.Injective civilFromDays ∧
    civilDate 0 = ⟨1970, 1, 1⟩ ∧ ∀ days, civilDate (days + 1) = (civilDate days).next := by
  have written := written_formatTime inYears
  have written' := written_formatTime inYears'
  refine ⟨⟨stampOf time, written, fun other same => same.unique written, stampOf_valid time,
    millisSince_stampOf time⟩, ?_, civilFromDays_injective, by decide, civilDate_succ⟩
  rw [strLe, decide_eq_true_eq, ← List.not_lt, encode_lt_encode written'.ascii written.ascii,
    written'.lt_iff written (stampOf_valid time') (stampOf_valid time) 1970,
    millisSince_stampOf, millisSince_stampOf, not_lt]

/-- A leap day and the day after it. -/
theorem timestamps_exact_leap_day :
    (∃ stamp : Stamp, stamp.Written "2028-02-29T23:59:59.999Z".toList ∧ stamp.Valid ∧
      stamp.millisSince 1970 = 1835481599999) ∧
    strLe "2028-02-29T23:59:59.999Z".toList "2028-03-01T00:00:00.000Z".toList = true := by
  have range : Date.daysSince 1970 ⟨10000, 1, 1⟩ = 2932897 := by
    rw [Date.daysSince, daysBetween_eq, daysBeforeMonth_one]
    decide
  have inYears : InYears 1835481599999999999 := ⟨by decide, by rw [range]; decide⟩
  have inYears' : InYears 1835481600000000000 := ⟨by decide, by rw [range]; decide⟩
  have text : formatTime 1835481599999999999 = "2028-02-29T23:59:59.999Z".toList := by decide
  have text' : formatTime 1835481600000000000 = "2028-03-01T00:00:00.000Z".toList := by decide
  obtain ⟨⟨stamp, written, -, valid, time⟩, order, -⟩ := timestamps_exact inYears inYears'
  rw [text, text'] at order
  exact ⟨⟨stamp, text ▸ written, valid, time⟩, order.mpr (by decide)⟩

end Proxemby.Logging
