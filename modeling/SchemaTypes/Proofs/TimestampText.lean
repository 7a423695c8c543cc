import Mathlib.Tactic.IntervalCases
import SchemaTypes.Time.Parse

/-! # Timestamps survive their text form

A timestamp that has been read is written as `YYYY-MM-DDTHH:MM:SS.ffffffZ`, and that text reads
back as the same timestamp (`parse_format_of_parse`). Every timestamp a reading gives is *valid*
(`Timestamp.Valid`): its date is a date of the supported years, its clock fields are in range and
its fraction of a second is a whole number of microseconds below a million. The text of a valid
timestamp is read by RFC 3339 when its year has four digits, and otherwise, with its sign, by the
first layout without an offset once the `Z` is dropped; the layouts with an offset all fail on it.

Underneath lies the calendar: counting days from 1970-01-01 and back are inverse on valid dates
(`civilFromDays_daysFromCivil`), and counting back always gives a valid month and day
(`civilFromDays_valid`). Both work in eras of 400 years; the one fact that is not a matter of
bounds is where the leap days fall in an era, which `yearOfEra_eq` and `dayOfEra_bounds` settle
by splitting the day of the era into centuries, four-year cycles and years.
-/

namespace SchemaTypes.Timestamp

open Unicode

/-! ## Eras of 400 years -/

/-- The year of an era whose day is `doy` of year `yoe`, counted from March, is found again from
the day of the era. A year has 365 days, and a 366th when the February that ends it has a leap
day. -/
theorem yearOfEra_eq {yoe doy doe : Int} (year : 0 ≤ yoe ∧ yoe ≤ 399) (early : 0 ≤ doy)
    (late : doy ≤ 364 ∨ (doy = 365 ∧ yoe % 4 = 3 ∧ (yoe % 100 ≠ 99 ∨ yoe = 399)))
    (day : doe = yoe * 365 + yoe / 4 - yoe / 100 + doy) :
    (doe - doe / 1460 + doe / 36524 - doe / 146096) / 365 = yoe := by
  -- the year of the era in centuries, four-year cycles and years
  obtain ⟨C, Q, R, split, bounds, quarter, century⟩ : ∃ C Q R, yoe = 100 * C + 4 * Q + R ∧
      (0 ≤ C ∧ C ≤ 3 ∧ 0 ≤ Q ∧ Q ≤ 24 ∧ 0 ≤ R ∧ R ≤ 3) ∧ yoe / 4 = 25 * C + Q ∧ yoe / 100 = C :=
    ⟨yoe / 100, yoe % 100 / 4, yoe % 4, by omega, by omega, by omega, by omega⟩
  rw [quarter, century] at day
  -- each quotient is named with its value; `omega` checks the value and then the sum
  rcases late with short | ⟨leap, third, notCentury⟩
  · have centuries : doe / 36524 = C := by omega
    have eras : doe / 146096 = 0 := by omega
    by_cases carry : R = 3 ∧ 24 * C + Q + doy ≥ 365
    · have cycles : doe / 1460 = 25 * C + Q + 1 := by omega
      rw [cycles, centuries, eras]; omega
    · have cycles : doe / 1460 = 25 * C + Q := by omega
      rw [cycles, centuries, eras]; omega
  · have cycles : doe / 1460 = 25 * C + Q + 1 := by omega
    by_cases last : yoe = 399
    · have centuries : doe / 36524 = 4 := by omega
      have eras : doe / 146096 = 1 := by omega
      rw [cycles, centuries, eras]; omega
    · have centuries : doe / 36524 = C := by omega
      have eras : doe / 146096 = 0 := by omega
      rw [cycles, centuries, eras]; omega

/-- Every day of an era falls in one of its 400 years, on a day that year has. -/
theorem dayOfEra_bounds {doe yoe doy : Int} (era : 0 ≤ doe ∧ doe ≤ 146096)
    (year : yoe = (doe - doe / 1460 + doe / 36524 - doe / 146096) / 365)
    (day : doy = doe - (365 * yoe + yoe / 4 - yoe / 100)) :
    0 ≤ yoe ∧ yoe ≤ 399 ∧ 0 ≤ doy ∧
      (doy ≤ 364 ∨ (doy = 365 ∧ yoe % 4 = 3 ∧ (yoe % 100 ≠ 99 ∨ yoe = 399))) := by
  by_cases last : doe = 146096
  · -- the leap day that ends the era
    subst last
    have : yoe = 399 := by rw [year]; decide
    subst this
    exact ⟨by decide, by decide, by omega, .inr ⟨by omega, by decide, .inr rfl⟩⟩
  -- the day of the era in centuries and four-year cycles
  obtain ⟨C, Q, s, split, bounds⟩ : ∃ C Q s, doe = 36524 * C + 1461 * Q + s ∧
      (0 ≤ C ∧ C ≤ 3 ∧ 0 ≤ Q ∧ Q ≤ 24 ∧ 0 ≤ s ∧ s ≤ 1460 ∧ (Q = 24 → s ≤ 1459)) :=
    ⟨doe / 36524, doe % 36524 / 1461, doe % 36524 % 1461, by omega, by omega⟩
  have centuries : doe / 36524 = C := by omega
  have eras : doe / 146096 = 0 := by omega
  by_cases carry : 24 * C + Q + s ≥ 1460
  · have cycles : doe / 1460 = 25 * C + Q + 1 := by omega
    rw [cycles, centuries, eras] at year
    have cycle : yoe = 100 * C + 4 * Q + 3 := by omega
    have quarter : yoe / 4 = 25 * C + Q := by omega
    have century : yoe / 100 = C := by omega
    rw [quarter, century] at day
    omega
  · have cycles : doe / 1460 = 25 * C + Q := by omega
    rw [cycles, centuries, eras] at year
    obtain ⟨R, within, cycle⟩ : ∃ R, (0 ≤ R ∧ R ≤ 3) ∧ yoe = 100 * C + 4 * Q + R :=
      ⟨yoe - 100 * C - 4 * Q, by omega, by omega⟩
    have quarter : yoe / 4 = 25 * C + Q := by omega
    have century : yoe / 100 = C := by omega
    rw [quarter, century] at day
    omega

/-! ## Months of a year counted from March -/

/-- The day of the year of a valid date, counted from March, gives its month back; only the
29th of February is its year's 366th day. -/
theorem monthOfDay_eq {y : Int} {m d : Nat} (month : 1 ≤ m ∧ m ≤ 12)
    (day : 1 ≤ d ∧ d ≤ daysInMonth y m) {mp doy : Int}
    (shifted : mp = if m > 2 then (m : Int) - 3 else (m : Int) + 9)
    (dayOfYear : doy = (153 * mp + 2) / 5 + (d : Int) - 1) :
    (5 * doy + 2) / 153 = mp ∧ 0 ≤ doy ∧ (doy ≤ 364 ∨ (doy = 365 ∧ m = 2 ∧ isLeapYear y)) := by
  obtain ⟨low, high⟩ := month
  subst shifted dayOfYear
  interval_cases m
  all_goals simp +decide only [daysInMonth, Nat.cast_ofNat, if_true, if_false] at day ⊢
  case «2» =>
    split at day
    · next leap => simp only [leap, and_true]; omega
    · omega
  all_goals omega

/-- Every day of a year counted from March is a valid day of the month it falls in; only the
366th day needs a leap year, being the 29th of February. -/
theorem dayOfMonth_bounds {doy mp : Int} (year : 0 ≤ doy ∧ doy ≤ 365)
    (month : mp = (5 * doy + 2) / 153) :
    1 ≤ (if mp < 10 then mp + 3 else mp - 9) ∧ (if mp < 10 then mp + 3 else mp - 9) ≤ 12 ∧
      1 ≤ doy - (153 * mp + 2) / 5 + 1 ∧
      ∀ y, (doy = 365 → isLeapYear y) →
        doy - (153 * mp + 2) / 5 + 1 ≤ daysInMonth y (if mp < 10 then mp + 3 else mp - 9).toNat := by
  obtain ⟨k, rfl⟩ : ∃ k : Nat, mp = k := ⟨mp.toNat, by omega⟩
  have small : k ≤ 11 := by omega
  interval_cases k
  all_goals refine ⟨by decide, by decide, by omega, fun y leap => ?_⟩
  all_goals simp +decide only [daysInMonth, Nat.cast_ofNat, if_true, if_false] at leap ⊢
  case «11» =>
    by_cases last : doy = 365
    · simp only [leap last, if_true]; omega
    · split <;> omega
  all_goals omega

/-- A leap year that ends a year of an era counted from March. -/
theorem isLeapYear_ofEra {era yoe : Int} (year : 0 ≤ yoe ∧ yoe ≤ 399) :
    isLeapYear (yoe + era * 400 + 1) = true ↔ yoe % 4 = 3 ∧ (yoe % 100 ≠ 99 ∨ yoe = 399) := by
  simp only [isLeapYear, decide_eq_true_eq]
  omega

/-! ## Counting days -/

/-- Counting back from a day, once the day is split into its era and the day of the era. -/
theorem civilFromDays_of_parts {z yoe doy mp : Int} (era doe : Int)
    (eraSplit : z + 719468 = era * 146097 + doe) (eraBounds : 0 ≤ doe ∧ doe < 146097)
    (year : yoe = (doe - doe / 1460 + doe / 36524 - doe / 146096) / 365)
    (dayOfYear : doy = doe - (365 * yoe + yoe / 4 - yoe / 100))
    (month : mp = (5 * doy + 2) / 153) :
    civilFromDays z =
      ((if (if mp < 10 then mp + 3 else mp - 9) ≤ 2 then yoe + era * 400 + 1 else yoe + era * 400),
        (if mp < 10 then mp + 3 else mp - 9).toNat, (doy - (153 * mp + 2) / 5 + 1).toNat) := by
  have quotient : (z + 719468) / 146097 = era := by omega
  have remainder : z + 719468 - era * 146097 = doe := by omega
  dsimp only [civilFromDays]
  rw [quotient, remainder, ← year, ← dayOfYear, ← month]

/-- Counting the days to a date, with the year counted from March and split into its era and
the year of the era. -/
theorem daysFromCivil_of_parts {y : Int} {m d : Nat} {y' era yoe mp doy : Int}
    (shifted : y' = if m ≤ 2 then y - 1 else y) (eraOf : era = y' / 400)
    (year : yoe = y' - era * 400) (month : mp = if m > 2 then (m : Int) - 3 else (m : Int) + 9)
    (day : doy = (153 * mp + 2) / 5 + (d : Int) - 1) :
    daysFromCivil y m d = era * 146097 + (yoe * 365 + yoe / 4 - yoe / 100 + doy) - 719468 := by
  subst shifted eraOf year month day
  rfl

/-- Counting back from the days to a valid date gives the date. -/
theorem civilFromDays_daysFromCivil {y : Int} {m d : Nat} (month : 1 ≤ m ∧ m ≤ 12)
    (day : 1 ≤ d ∧ d ≤ daysInMonth y m) : civilFromDays (daysFromCivil y m d) = (y, m, d) := by
  -- the year counted from March, its era and its year of the era; the month and day in it
  obtain ⟨y', shifted⟩ : ∃ y', y' = if m ≤ 2 then y - 1 else y := ⟨_, rfl⟩
  obtain ⟨mp, monthShift⟩ : ∃ mp : Int, mp = if m > 2 then (m : Int) - 3 else (m : Int) + 9 :=
    ⟨_, rfl⟩
  obtain ⟨doy, dayOfYear⟩ : ∃ doy : Int, doy = (153 * mp + 2) / 5 + (d : Int) - 1 := ⟨_, rfl⟩
  obtain ⟨era, eraOf⟩ : ∃ era, era = y' / 400 := ⟨_, rfl⟩
  obtain ⟨yoe, yearOf⟩ : ∃ yoe, yoe = y' - era * 400 := ⟨_, rfl⟩
  have yearBounds : 0 ≤ yoe ∧ yoe ≤ 399 := by omega
  obtain ⟨monthBack, early, late⟩ := monthOfDay_eq month day monthShift dayOfYear
  have leapDay : doy ≤ 364 ∨ (doy = 365 ∧ yoe % 4 = 3 ∧ (yoe % 100 ≠ 99 ∨ yoe = 399)) := by
    rcases late with short | ⟨last, february, leap⟩
    · exact .inl short
    · -- the 29th of February ends the year counted from March, which began in `y - 1`
      have previous : y' = y - 1 := by rw [shifted, if_pos (by omega)]
      have : y = yoe + era * 400 + 1 := by omega
      rw [this, isLeapYear_ofEra yearBounds] at leap
      exact .inr ⟨last, leap⟩
  rw [daysFromCivil_of_parts shifted eraOf yearOf monthShift dayOfYear]
  have eraDay : 0 ≤ yoe * 365 + yoe / 4 - yoe / 100 + doy ∧
      yoe * 365 + yoe / 4 - yoe / 100 + doy < 146097 := by omega
  rw [civilFromDays_of_parts era _ (by omega) eraDay
    (yearOfEra_eq yearBounds early leapDay rfl).symm (by omega) monthBack.symm]
  subst monthShift
  simp only [Prod.mk.injEq]
  refine ⟨?_, ?_, ?_⟩ <;> split_ifs <;> omega

/-- Counting back from any day gives a valid month and day. -/
theorem civilFromDays_valid {z y : Int} {m d : Nat} (counted : civilFromDays z = (y, m, d)) :
    1 ≤ m ∧ m ≤ 12 ∧ 1 ≤ d ∧ d ≤ daysInMonth y m := by
  obtain ⟨era, eraOf⟩ : ∃ era, era = (z + 719468) / 146097 := ⟨_, rfl⟩
  obtain ⟨doe, dayOfEra⟩ : ∃ doe, doe = z + 719468 - era * 146097 := ⟨_, rfl⟩
  obtain ⟨yoe, yearOf⟩ : ∃ yoe, yoe = (doe - doe / 1460 + doe / 36524 - doe / 146096) / 365 :=
    ⟨_, rfl⟩
  obtain ⟨doy, dayOfYear⟩ : ∃ doy, doy = doe - (365 * yoe + yoe / 4 - yoe / 100) := ⟨_, rfl⟩
  obtain ⟨mp, monthOf⟩ : ∃ mp, mp = (5 * doy + 2) / 153 := ⟨_, rfl⟩
  obtain ⟨yearLow, yearHigh, early, late⟩ := dayOfEra_bounds (by omega) yearOf dayOfYear
  obtain ⟨monthLow, monthHigh, dayLow, dayHigh⟩ :=
    dayOfMonth_bounds ⟨early, by omega⟩ monthOf
  rw [civilFromDays_of_parts era doe (by omega) (by omega) yearOf dayOfYear
    monthOf] at counted
  simp only [Prod.mk.injEq] at counted
  obtain ⟨yearIs, monthIs, dayIs⟩ := counted
  subst monthIs dayIs
  refine ⟨by omega, by omega, by omega, ?_⟩
  have fits := dayHigh y fun last => ?_
  · omega
  · -- the 366th day is the 29th of February, whose year begins after the year of the era
    have february : mp = 11 := by omega
    subst february
    simp only [if_neg (by decide : ¬ ((11 : Int) < 10)), if_pos (by decide : (11 : Int) - 9 ≤ 2)]
      at yearIs
    rw [← yearIs, isLeapYear_ofEra ⟨yearLow, yearHigh⟩]
    omega

/-! ## Valid timestamps -/

/-- A timestamp whose fields are in range: a date of the supported years, a time of day whose
second may be a leap second, and a fraction of a second in whole microseconds. -/
structure Valid (t : Timestamp) : Prop where
  date : isValidDate t.year t.month t.day = true
  hour : t.hour < 24
  minute : t.minute < 60
  second : t.second ≤ 60
  micros : t.micros < 1000000

/-- Taking an offset off a local time, once the UTC second is counted. -/
theorem ofLocal_of_parts {y : Int} {mo d h mi s nanos : Nat} {offset utc y' : Int} {mo' d' : Nat}
    (utcOf : utc = daysFromCivil y mo d * 86400 + (h : Int) * 3600 + (mi : Int) * 60 +
      ((if s = 60 then 59 else s : Nat) : Int) - offset)
    (date : civilFromDays (utc / 86400) = (y', mo', d')) :
    ofLocal y mo d h mi s nanos offset =
      if minYear ≤ y' ∧ y' ≤ maxYear then
        some { year := y', month := mo', day := d', hour := (utc % 86400).toNat / 3600,
               minute := (utc % 86400).toNat / 60 % 60,
               second := if s = 60 then 60 else (utc % 86400).toNat % 60, micros := nanos / 1000 }
      else none := by
  subst utcOf
  unfold ofLocal
  dsimp only
  rw [date]

/-- A local time with a fraction below a second stands for a valid timestamp, when it stands
for one. -/
theorem ofLocal_valid {y : Int} {mo d h mi s nanos : Nat} {offset : Int} {t : Timestamp}
    (made : ofLocal y mo d h mi s nanos offset = some t) (fraction : nanos < 1000000000) :
    t.Valid := by
  obtain ⟨utc, utcOf⟩ : ∃ utc, utc = daysFromCivil y mo d * 86400 + (h : Int) * 3600 +
      (mi : Int) * 60 + ((if s = 60 then 59 else s : Nat) : Int) - offset := ⟨_, rfl⟩
  obtain ⟨⟨y', mo', d'⟩, date⟩ : ∃ c, civilFromDays (utc / 86400) = c := ⟨_, rfl⟩
  rw [ofLocal_of_parts utcOf date] at made
  split at made
  · next range =>
    injection made with made
    subst made
    obtain ⟨monthLow, monthHigh, dayLow, dayHigh⟩ := civilFromDays_valid date
    refine ⟨?_, ?_, ?_, ?_, ?_⟩ <;> dsimp only
    · simp only [isValidDate, decide_eq_true_eq]
      exact ⟨range.1, range.2, monthLow, monthHigh, dayLow, dayHigh⟩
    all_goals first | omega | split <;> omega
  · cases made

/-- A valid timestamp is the UTC time of its own fields. -/
theorem ofLocal_self {t : Timestamp} (valid : t.Valid) :
    ofLocal t.year t.month t.day t.hour t.minute t.second (t.micros * 1000) 0 = some t := by
  obtain ⟨year, month, day, hour, minute, second, micros⟩ := t
  obtain ⟨date, hourValid, minuteValid, secondValid, microsValid⟩ := valid
  simp only [isValidDate, decide_eq_true_eq] at date hourValid minuteValid secondValid microsValid
  obtain ⟨yearLow, yearHigh, monthLow, monthHigh, dayLow, dayHigh⟩ := date
  obtain ⟨utc, utcOf⟩ : ∃ utc, utc = daysFromCivil year month day * 86400 + (hour : Int) * 3600 +
      (minute : Int) * 60 + ((if second = 60 then 59 else second : Nat) : Int) - 0 := ⟨_, rfl⟩
  -- a leap second is counted as the last second of its minute
  have clock : ((if second = 60 then 59 else second : Nat) : Int) ≤ 59 := by split <;> omega
  have days : utc / 86400 = daysFromCivil year month day := by omega
  have time : utc % 86400 = (hour : Int) * 3600 + (minute : Int) * 60 +
      ((if second = 60 then 59 else second : Nat) : Int) := by omega
  have date : civilFromDays (utc / 86400) = (year, month, day) := by
    rw [days]
    exact civilFromDays_daysFromCivil ⟨monthLow, monthHigh⟩ ⟨dayLow, dayHigh⟩
  rw [ofLocal_of_parts utcOf date, if_pos ⟨yearLow, yearHigh⟩, time]
  simp only [Option.some.injEq, Timestamp.mk.injEq, true_and]
  refine ⟨by split <;> omega, by split <;> omega, by split_ifs <;> omega, by omega⟩

/-! ## Digits -/

theorem isDigit_eq_isDigit (c : Char) : isDigit c = c.isDigit := by
  simp [isDigit, Char.isDigit, Char.le_def]

/-- A digit is not white space. -/
theorem isWhiteSpace_of_isDigit {c : Char} (digit : isDigit c = true) : isWhiteSpace c = false := by
  simp only [isDigit, decide_eq_true_eq, Char.le_def] at digit
  have low : 48 ≤ c.toNat := digit.1
  have high : c.toNat ≤ 57 := digit.2
  simp only [isWhiteSpace, decide_eq_false_iff_not]
  omega

theorem takeWhile_of_all {p : Char → Bool} :
    ∀ {l : List Char}, (∀ c ∈ l, p c = true) → l.takeWhile p = l
  | [], _ => rfl
  | c :: l, all => by
    rw [List.takeWhile_cons_of_pos (all c List.mem_cons_self),
      takeWhile_of_all fun d member => all d (List.mem_cons_of_mem c member)]

theorem digitsValue_zeros (k : Nat) (ds : List Char) :
    digitsValue (List.replicate k '0' ++ ds) = digitsValue ds := by
  have zeros : ∀ k, (List.replicate k '0').foldl (fun n d => n * 10 + (d.toNat - 48)) 0 = 0 := by
    intro k
    induction k with
    | zero => rfl
    | succ k ih => rw [List.replicate_succ', List.foldl_append, ih]; rfl
  simp only [digitsValue, List.foldl_append, zeros]

theorem padded_toList (w n : Nat) :
    (padded w n).toList = List.replicate (w - (Nat.toDigits 10 n).length) '0' ++ Nat.toDigits 10 n := by
  simp [padded]

/-- Padding with zeros keeps the value of the digits. -/
theorem digitsValue_padded (w n : Nat) : digitsValue (padded w n).toList = n := by
  rw [padded_toList, digitsValue_zeros]
  have sameFold : digitsValue (Nat.toDigits 10 n) = Nat.ofDigitChars 10 (Nat.toDigits 10 n) 0 := by
    simp only [digitsValue, Nat.ofDigitChars]
    congr 1
    funext v d
    rw [Nat.mul_comm]
    rfl
  rw [sameFold, Nat.ofDigitChars_ten_toDigits]

theorem padded_digits (w n : Nat) : ∀ c ∈ (padded w n).toList, isDigit c = true := by
  intro c member
  rw [padded_toList] at member
  rcases List.mem_append.mp member with zero | digit
  · rw [List.eq_of_mem_replicate zero]; decide
  · rw [isDigit_eq_isDigit]
    exact Nat.isDigit_of_mem_toDigits (by decide) (by decide) digit

/-- A number below `10 ^ w` is written with exactly `w` digits. -/
theorem padded_length {w n : Nat} (positive : 0 < w) (fits : n < Nat.pow 10 w) :
    (padded w n).toList.length = w := by
  have short := (Nat.length_toDigits_le_iff (b := 10) (by decide) positive).mpr fits
  rw [padded_toList, List.length_append, List.length_replicate]
  omega

theorem padded_ne_nil (w n : Nat) : (padded w n).toList ≠ [] := by
  rw [padded_toList]
  exact List.append_ne_nil_of_right_ne_nil _ (List.ne_nil_of_length_pos Nat.length_toDigits_pos)

/-- Digits are read up to the width, or up to the first character that is not a digit. -/
theorem readDigits_append (width : Nat) {l : List Char} (rest : List Char)
    (digits : ∀ c ∈ l, isDigit c = true) (nonempty : l ≠ [])
    (stops : l.length = width ∨ (l.length < width ∧ ∀ c ∈ rest.head?, isDigit c = false)) :
    readDigits width (l ++ rest) = some (digitsValue l, rest) := by
  have taken : ((l ++ rest).take width).takeWhile isDigit = l := by
    rcases stops with exact | ⟨short, stop⟩
    · rw [List.take_left' exact]
      exact takeWhile_of_all digits
    · rw [List.take_append, List.take_of_length_le (by omega), List.takeWhile_append,
        takeWhile_of_all digits, if_pos rfl]
      cases rest with
      | nil => simp
      | cons c rest =>
        have notDigit := stop c rfl
        cases within : width - l.length with
        | zero => omega
        | succ k => simp [notDigit]
  simp only [readDigits, taken]
  simp [nonempty]

/-! ## Reading the fields of the text -/

theorem trimStart_of_digits {l : List Char} (rest : List Char)
    (digits : ∀ c ∈ l, isDigit c = true) (nonempty : l ≠ []) : trimStart (l ++ rest) = l ++ rest := by
  obtain ⟨c, cs, rfl⟩ := List.exists_cons_of_ne_nil nonempty
  rw [List.cons_append]
  exact List.dropWhile_cons_of_neg
    (by rw [isWhiteSpace_of_isDigit (digits c List.mem_cons_self)]; decide)

/-- A field of the clock or the date other than the year reads its two digits. -/
theorem readField_padded {f : Field} (clock : f ≠ .year) {n : Nat} (fits : n < 100)
    (rest : List Char) : readField f ((padded 2 n).toList ++ rest) = some ((n : Int), rest) := by
  have trimmed := trimStart_of_digits rest (padded_digits 2 n) (padded_ne_nil 2 n)
  have read := readDigits_append 2 rest (padded_digits 2 n)
    (padded_ne_nil 2 n) (.inl (padded_length (by decide) fits))
  rw [digitsValue_padded] at read
  cases f with
  | year => exact absurd rfl clock
  | _ => simp only [readField, trimmed, read]; rfl

/-- The year of the text, with its sign when it has one, reads back up to the next character
that is not a digit. -/
theorem readField_yearText (y : Int) {rest : List Char}
    (stop : ∀ c ∈ rest.head?, isDigit c = false) :
    readField .year ((yearText y).toList ++ rest) = some (y, rest) := by
  unfold yearText
  split
  · next within =>
    have trimmed := trimStart_of_digits rest (padded_digits 4 y.toNat)
      (padded_ne_nil 4 y.toNat)
    have read := readDigits_append 4 rest (padded_digits 4 y.toNat)
      (padded_ne_nil 4 y.toNat) (.inl (padded_length (by decide) (by show y.toNat < 10000; omega)))
    rw [digitsValue_padded] at read
    obtain ⟨c, cs, cons⟩ := List.exists_cons_of_ne_nil (padded_ne_nil 4 y.toNat)
    have digit := padded_digits 4 y.toNat c (by rw [cons]; exact List.mem_cons_self)
    simp only [readField, trimmed]
    rw [cons] at read ⊢
    -- the first digit is no sign
    split
    · rename_i _ _ _ _ same
      simp only [List.cons_append, List.cons.injEq] at same
      rw [same.1] at digit
      exact absurd digit (by decide)
    · rename_i _ _ _ _ same
      simp only [List.cons_append, List.cons.injEq] at same
      rw [same.1] at digit
      exact absurd digit (by decide)
    · rw [read]
      simp only [Option.map_some, Option.some.injEq, Prod.mk.injEq, and_true]
      omega
    · rename_i _ _ notYear _ _
      exact absurd rfl notYear
  · next outside =>
    -- a sign, then all the digits up to the next character that is not one
    have read := readDigits_append ((padded 4 y.natAbs).toList ++ rest).length
      rest (padded_digits 4 y.natAbs) (padded_ne_nil 4 y.natAbs) (by
        cases rest with
        | nil => exact .inl (by simp)
        | cons c rest => exact .inr ⟨by simp, stop⟩)
    rw [digitsValue_padded] at read
    split
    · next negative =>
      simp only [String.toList_append, readField]
      simp [trimStart, isWhiteSpace]
      exact ⟨y.natAbs, by simpa using read, by omega⟩
    · next positive =>
      simp only [String.toList_append, readField]
      simp [trimStart, isWhiteSpace]
      exact ⟨y.natAbs, by simpa using read, by omega⟩

/-- Six digits of a fraction are read as microseconds. -/
theorem readNanos_padded {us : Nat} (fits : us < 1000000) (rest : List Char)
    (stop : ∀ c ∈ rest.head?, isDigit c = false) :
    readNanos ((padded 6 us).toList ++ rest) = some (us * 1000, rest) := by
  have six := padded_length (by decide) (show us < Nat.pow 10 6 from fits)
  have read := readDigits_append 9 rest (padded_digits 6 us)
    (padded_ne_nil 6 us) (.inr ⟨by omega, stop⟩)
  rw [digitsValue_padded] at read
  have kept : rest.dropWhile isDigit = rest := by
    cases rest with
    | nil => rfl
    | cons c rest => exact List.dropWhile_cons_of_neg (by simp [stop c rfl])
  simp only [readNanos, read, List.length_append, six, kept]
  rw [Nat.add_sub_cancel, show Nat.pow 10 (9 - 6) = 1000 from rfl]

/-! ## The text of a timestamp -/

/-- The date of the text of a timestamp, followed by `rest`. -/
def dateText (t : Timestamp) (rest : List Char) : List Char :=
  (yearText t.year).toList ++ '-' :: ((padded 2 t.month).toList ++ '-' ::
    ((padded 2 t.day).toList ++ rest))

/-- The time of day of the text of a timestamp, down to its microseconds, followed by `rest`. -/
def timeText (t : Timestamp) (rest : List Char) : List Char :=
  (padded 2 t.hour).toList ++ ':' :: ((padded 2 t.minute).toList ++ ':' ::
    ((padded 2 t.second).toList ++ '.' :: ((padded 6 t.micros).toList ++ rest)))

theorem format_toList (t : Timestamp) :
    t.format.toList = dateText t ('T' :: timeText t ['Z']) := by
  simp [format, dateText, timeText]

theorem trimStart_yearText (y : Int) (rest : List Char) :
    trimStart ((yearText y).toList ++ rest) = (yearText y).toList ++ rest := by
  unfold yearText
  split
  · exact trimStart_of_digits rest (padded_digits 4 y.toNat) (padded_ne_nil 4 y.toNat)
  · split <;> simp [trimStart, isWhiteSpace]

/-- The text of a timestamp has no white space around it. -/
theorem trimWhiteSpace_format (t : Timestamp) : trimWhiteSpace t.format = t.format := by
  have front : trimStart t.format.toList = t.format.toList := by
    rw [format_toList, dateText]
    exact trimStart_yearText _ _
  have back : trimStart t.format.toList.reverse = t.format.toList.reverse := by
    rw [format_toList]
    simp [dateText, timeText, trimStart, List.reverse_append, isWhiteSpace]
  unfold trimWhiteSpace
  rw [front, back, List.reverse_reverse, String.ofList_toList]

/-- Without its `Z` the text ends with the microseconds. -/
theorem dropZulu_format (t : Timestamp) :
    dropZulu t.format.toList = dateText t ('T' :: timeText t []) := by
  have zulu : t.format.toList = dateText t ('T' :: timeText t []) ++ ['Z'] := by
    simp [format_toList, dateText, timeText]
  rw [zulu, dropZulu]
  simp only [List.getLast?_concat, List.dropLast_concat]

/-! ## RFC 3339 -/

theorem readExactDigits_append {n : Nat} {l : List Char} (rest : List Char) (length : l.length = n)
    (digits : ∀ c ∈ l, isDigit c = true) :
    readExactDigits n (l ++ rest) = some (digitsValue l, rest) := by
  simp only [readExactDigits, List.take_left' length, List.drop_left' length,
    List.all_eq_true.mpr digits, length, and_self, if_true]

/-- The timestamp of fields read from a valid timestamp is that timestamp. -/
theorem toTimestamp_of_valid {t : Timestamp} (valid : t.Valid) {needOffset : Bool}
    {offset : Option Int} (zone : needOffset = true → offset = some 0) :
    ({ year := some t.year, month := some t.month, day := some t.day, hour := some t.hour,
       minute := some t.minute, second := some t.second, nanos := some (t.micros * 1000),
       offset := offset } : Fields).toTimestamp needOffset = some t := by
  unfold Fields.toTimestamp
  -- the offset is zero either way, and the date was checked when the timestamp was made
  cases needOffset <;> simp [zone, valid.date, ofLocal_self valid]

/-- RFC 3339 reads the text of a valid timestamp whose year has four digits. -/
theorem readRfc3339_format {t : Timestamp} (valid : t.Valid)
    (fourDigits : 0 ≤ t.year ∧ t.year ≤ 9999) : readRfc3339 t.format.toList = some t := by
  have fields := valid
  obtain ⟨date, hour, minute, second, micros⟩ := fields
  simp only [isValidDate, decide_eq_true_eq] at date
  have monthDays : daysInMonth t.year t.month ≤ 31 := by
    unfold daysInMonth; split_ifs <;> omega
  -- every field is written with exactly as many digits as RFC 3339 reads
  have yearRead : ∀ rest, readExactDigits 4 ((padded 4 t.year.toNat).toList ++ rest) =
      some (t.year.toNat, rest) := fun rest => by
    rw [readExactDigits_append rest
      (padded_length (by decide) (show t.year.toNat < 10000 by omega)) (padded_digits _ _),
      digitsValue_padded]
  have readTwo : ∀ {n : Nat}, n < 100 → ∀ rest,
      readExactDigits 2 ((padded 2 n).toList ++ rest) = some (n, rest) := fun fits rest => by
    rw [readExactDigits_append rest (padded_length (by decide) fits) (padded_digits _ _),
      digitsValue_padded]
  have fraction : readFraction ('.' :: ((padded 6 t.micros).toList ++ ['Z'])) =
      some (some (t.micros * 1000), ['Z']) := by
    simp only [readFraction, readNanos_padded micros ['Z'] (by simp [isDigit]), Option.map_some]
  rw [format_toList, dateText, timeText, yearText, if_pos fourDigits]
  unfold readRfc3339
  -- the date, field by field
  rw [yearRead]
  dsimp only [Option.bind_eq_bind, Option.bind_some]
  rw [expectChar, if_pos rfl, Option.bind_some, readTwo (show t.month < 100 by omega),
    Option.bind_some]
  dsimp only
  rw [expectChar, if_pos rfl, Option.bind_some, readTwo (show t.day < 100 by omega),
    Option.bind_some]
  dsimp only
  -- the time of day
  rw [dateTimeSeparator, Option.bind_some, readTwo (show t.hour < 100 by omega), Option.bind_some]
  dsimp only
  rw [oneColon, Option.bind_some, readTwo (show t.minute < 100 by omega), Option.bind_some]
  dsimp only
  rw [oneColon, Option.bind_some, readTwo (show t.second < 100 by omega), Option.bind_some]
  dsimp only
  rw [fraction, Option.bind_some]
  dsimp only
  rw [readZoneOffset, Option.bind_some]
  dsimp only
  -- the offset is zero and nothing is left; then the fields are stored in range
  rw [guard, if_pos (by decide), Option.pure_def, Option.bind_some]
  simp only [Fields.set]
  rw [if_pos (by omega), Option.bind_some, if_pos (by omega), Option.bind_some, if_pos (by omega),
    Option.bind_some, if_pos (by omega), Option.bind_some, if_pos (by omega), Option.bind_some,
    if_pos (by omega), Option.bind_some]
  simp only [Int.toNat_natCast, Int.toNat_of_nonneg fourDigits.1]
  exact toTimestamp_of_valid valid fun _ => rfl

theorem readExactDigits_of_not_digit {n : Nat} (positive : 0 < n) {c : Char} (rest : List Char)
    (notDigit : isDigit c = false) : readExactDigits n (c :: rest) = none := by
  obtain ⟨k, rfl⟩ := Nat.exists_eq_succ_of_ne_zero (Nat.pos_iff_ne_zero.mp positive)
  simp [readExactDigits, notDigit]

/-- A signed year is no year of RFC 3339. -/
theorem readRfc3339_signed {t : Timestamp} (signed : ¬(0 ≤ t.year ∧ t.year ≤ 9999)) :
    readRfc3339 t.format.toList = none := by
  have sign : ∃ c rest, t.format.toList = c :: rest ∧ isDigit c = false := by
    rw [format_toList, dateText, yearText, if_neg signed]
    split
    · exact ⟨'-', _, by simp; rfl, by decide⟩
    · exact ⟨'+', _, by simp; rfl, by decide⟩
  obtain ⟨c, rest, text, notDigit⟩ := sign
  rw [text, readRfc3339, readExactDigits_of_not_digit (by decide) rest notDigit]
  rfl

/-! ## The layouts -/

theorem readLayout_literal (c : Char) (ps : List Piece) (rest : List Char) (fs : Fields) :
    readLayout (.literal c :: ps) (c :: rest) fs = readLayout ps rest fs := by
  simp [readLayout]

theorem readLayout_field {f : Field} {ps : List Piece} {cs rest : List Char} {fs fs' : Fields}
    {v : Int} (read : readField f cs = some (v, rest)) (set : fs.set f v = some fs') :
    readLayout (.field f :: ps) cs fs = readLayout ps rest fs' := by
  simp [readLayout, read, set]

/-- The dashed date reads the date of the text. -/
theorem readLayout_dateText {t : Timestamp} (valid : t.Valid) (ps : List Piece) (rest : List Char) :
    readLayout (datePieces '-' ++ ps) (dateText t rest) {} =
      readLayout ps rest { year := some t.year, month := some t.month, day := some t.day } := by
  have date := valid.date
  simp only [isValidDate, decide_eq_true_eq] at date
  simp only [minYear, maxYear] at date
  have monthDays : daysInMonth t.year t.month ≤ 31 := by
    unfold daysInMonth; split_ifs <;> omega
  simp only [datePieces, dateText, List.cons_append, List.nil_append]
  rw [readLayout_field (readField_yearText _ (by simp [isDigit]))
      (by rw [Fields.set, if_pos (by omega)]),
    readLayout_literal,
    readLayout_field (readField_padded (by simp) (show t.month < 100 by omega) _)
      (by rw [Fields.set, if_pos (by omega)]),
    readLayout_literal,
    readLayout_field (readField_padded (by simp) (show t.day < 100 by omega) _)
      (by rw [Fields.set, if_pos (by omega)])]
  rfl

/-- The date with slashes does not read the date of the text, whose year is followed by a dash. -/
theorem readLayout_slashed {t : Timestamp} (valid : t.Valid) (ps : List Piece) (rest : List Char) :
    readLayout (datePieces '/' ++ ps) (dateText t rest) {} = none := by
  have date := valid.date
  simp only [isValidDate, decide_eq_true_eq] at date
  simp only [minYear, maxYear] at date
  simp only [datePieces, dateText, List.cons_append, List.nil_append]
  rw [readLayout_field (readField_yearText _ (by simp [isDigit]))
    (by rw [Fields.set, if_pos (by omega)])]
  simp [readLayout]

/-- The time of day with seconds reads the time of the text, up to the next character that is
not a digit. -/
theorem readLayout_timeText {t : Timestamp} (valid : t.Valid) (ps : List Piece) {rest : List Char}
    (stop : ∀ c ∈ rest.head?, isDigit c = false) (fs : Fields) :
    readLayout (clockPieces true ++ ps) (timeText t rest) fs =
      readLayout ps rest { fs with
        hour := some t.hour, minute := some t.minute, second := some t.second,
        nanos := some (t.micros * 1000) } := by
  obtain ⟨-, hour, minute, second, micros⟩ := valid
  simp only [clockPieces, if_true, timeText, List.cons_append, List.nil_append]
  rw [readLayout_field (readField_padded (by simp) (show t.hour < 100 by omega) _)
      (by rw [Fields.set, if_pos (by omega)]),
    readLayout_literal,
    readLayout_field (readField_padded (by simp) (show t.minute < 100 by omega) _)
      (by rw [Fields.set, if_pos (by omega)]),
    readLayout_literal,
    readLayout_field (readField_padded (by simp) (show t.second < 100 by omega) _)
      (by rw [Fields.set, if_pos (by omega)])]
  simp only [readLayout, readNanos_padded micros rest stop, Option.bind_eq_bind, Option.bind_some]
  rfl

/-- None of the layouts with an offset reads the text of a timestamp: the first one fails on
its `Z`, the others on the `T` and on the dashes of its date. -/
theorem firstLayout_offset_format {t : Timestamp} (valid : t.Valid) :
    firstLayout true t.format.toList offsetLayouts = none := by
  have zulu : ∀ fs, readLayout [.offset] ['Z'] fs = none := by
    intro fs
    simp [readLayout, readOffset, trimStart, isWhiteSpace]
  simp only [firstLayout, offsetLayouts, format_toList, List.append_assoc, List.cons_append,
    List.nil_append]
  rw [readLayout_dateText valid, readLayout_literal, readLayout_timeText valid _ (by simp [isDigit]),
    zulu, readLayout_dateText valid, readLayout_slashed valid]
  simp [readLayout]

/-- Without its `Z`, the text is read by the first layout without an offset. -/
theorem firstLayout_plain_format {t : Timestamp} (valid : t.Valid) :
    firstLayout false (dropZulu t.format.toList) plainLayouts = some t := by
  simp only [firstLayout, plainLayouts, dropZulu_format, List.append_assoc, List.cons_append,
    List.nil_append]
  rw [readLayout_dateText valid, readLayout_literal, ← List.append_nil (clockPieces true),
    readLayout_timeText valid [] (by simp), readLayout, Option.bind_some]
  dsimp only
  rw [toTimestamp_of_valid valid fun plain => absurd plain Bool.false_ne_true]

/-- A valid timestamp reads back from its text. -/
theorem parse_format {t : Timestamp} (valid : t.Valid) : parse t.format = some t := by
  unfold parse
  rw [trimWhiteSpace_format]
  dsimp only
  by_cases fourDigits : 0 ≤ t.year ∧ t.year ≤ 9999
  · rw [readRfc3339_format valid fourDigits]
  · rw [readRfc3339_signed fourDigits, firstLayout_offset_format valid, firstLayout_plain_format valid]

/-! ## Every reading is valid -/

/-- Digits are worth less than ten to the power of their count. -/
theorem digitsValue_lt {ds : List Char} (digits : ∀ c ∈ ds, isDigit c = true) :
    digitsValue ds < Nat.pow 10 ds.length := by
  -- from any start `a`, the fold stays below `(a + 1) * 10 ^ length`
  have bound : ∀ (ds : List Char) (a : Nat), (∀ c ∈ ds, isDigit c = true) →
      ds.foldl (fun n d => n * 10 + (d.toNat - 48)) a < (a + 1) * Nat.pow 10 ds.length := by
    intro ds
    induction ds with
    | nil => intro a _; simp
    | cons d ds ih =>
      intro a all
      have digit : d.toNat - 48 ≤ 9 := by
        have isOne := all d List.mem_cons_self
        simp only [isDigit, decide_eq_true_eq, Char.le_def] at isOne
        have high : d.toNat ≤ 57 := isOne.2
        omega
      have step := ih (a * 10 + (d.toNat - 48)) fun c mem => all c (List.mem_cons_of_mem d mem)
      calc ds.foldl (fun n d => n * 10 + (d.toNat - 48)) (a * 10 + (d.toNat - 48))
          < (a * 10 + (d.toNat - 48) + 1) * Nat.pow 10 ds.length := step
        _ ≤ (a + 1) * 10 * Nat.pow 10 ds.length := Nat.mul_le_mul_right _ (by omega)
        _ = (a + 1) * Nat.pow 10 (d :: ds).length := by
          rw [Nat.mul_assoc, Nat.mul_comm 10]
          rfl
  have total := bound ds 0 digits
  rw [Nat.zero_add, Nat.one_mul] at total
  exact total

/-- What `readDigits` reads: some digits, at most `width` of them, and the text after them. -/
theorem readDigits_some {width : Nat} {cs rest : List Char} {v : Nat}
    (read : readDigits width cs = some (v, rest)) :
    ∃ ds : List Char, ds.length ≤ width ∧ ds.length ≤ cs.length ∧ (∀ c ∈ ds, isDigit c = true) ∧
      v = digitsValue ds ∧ rest = cs.drop ds.length := by
  unfold readDigits at read
  dsimp only at read
  split at read
  · cases read
  · injection read with read
    injection read with value rest
    have short := (List.takeWhile_prefix isDigit (l := cs.take width)).length_le
    rw [List.length_take] at short
    exact ⟨_, by omega, by omega, List.all_eq_true.mp List.all_takeWhile, value.symm,
      rest.symm⟩

/-- A fraction is read as less than a second. -/
theorem readNanos_lt {cs rest : List Char} {n : Nat} (read : readNanos cs = some (n, rest)) :
    n < 1000000000 := by
  unfold readNanos at read
  split at read
  · cases read
  · next v rest' digits =>
    injection read with read
    injection read with value
    obtain ⟨ds, width, within, allDigits, rfl, rfl⟩ := readDigits_some digits
    have used : cs.length - (cs.drop ds.length).length = ds.length := by
      rw [List.length_drop]; omega
    rw [used] at value
    rw [← value]
    calc digitsValue ds * Nat.pow 10 (9 - ds.length)
        < Nat.pow 10 ds.length * Nat.pow 10 (9 - ds.length) :=
          Nat.mul_lt_mul_of_pos_right (digitsValue_lt allDigits) (Nat.pow_pos (by decide))
      _ = 1000000000 := by
        rw [Nat.pow_eq, Nat.pow_eq, ← Nat.pow_add, Nat.add_sub_cancel' width]

theorem set_nanos {fs fs' : Fields} {f : Field} {v : Int} (set : fs.set f v = some fs') :
    fs'.nanos = fs.nanos := by
  cases f <;> simp only [Fields.set] at set <;> split at set <;> cases set <;> rfl

/-- A layout reads a fraction as less than a second. -/
theorem readLayout_nanos {ps : List Piece} {cs : List Char} {fs fs' : Fields} :
    readLayout ps cs fs = some fs' → (∀ n ∈ fs.nanos, n < 1000000000) →
      ∀ n ∈ fs'.nanos, n < 1000000000 := by
  fun_induction readLayout ps cs fs with
  | case1 fs => intro read fit; cases read; exact fit
  | case2 | case4 | case5 | case7 => intro read; cases read
  | case3 ps d rest fs ih => exact ih
  | case6 ps rest fs ih => exact ih
  | case10 ps cs fs _ ih => exact ih
  | case8 f ps cs fs ih =>
    intro read fit
    simp only [Option.bind_eq_bind, Option.bind_eq_some_iff] at read
    obtain ⟨⟨v, rest⟩, -, read⟩ := read
    obtain ⟨fs'', set, read⟩ := read
    exact ih rest fs'' read (by rw [set_nanos set]; exact fit)
  | case9 ps rest fs ih =>
    intro read _
    simp only [Option.bind_eq_bind, Option.bind_eq_some_iff] at read
    obtain ⟨⟨n, rest⟩, fraction, read⟩ := read
    exact ih n rest read (by simpa using readNanos_lt fraction)
  | case11 ps cs fs ih =>
    intro read fit
    simp only [Option.bind_eq_bind, Option.bind_eq_some_iff] at read
    obtain ⟨⟨o, rest⟩, -, read⟩ := read
    exact ih o rest read fit

/-- The timestamp of fields whose fraction is less than a second is valid. -/
theorem toTimestamp_valid {fs : Fields} {needOffset : Bool} {t : Timestamp}
    (made : fs.toTimestamp needOffset = some t) (fit : ∀ n ∈ fs.nanos, n < 1000000000) :
    t.Valid := by
  unfold Fields.toTimestamp at made
  have fraction : fs.nanos.getD 0 < 1000000000 := by
    cases nanos : fs.nanos with
    | none => decide
    | some n => exact fit n nanos
  simp [Option.bind_eq_some_iff] at made
  obtain ⟨y, -, m, -, d, -, h, -, mi, -, made⟩ := made
  -- whether or not an offset is needed, what is left is `ofLocal` at some offset, or nothing
  split at made
  · obtain ⟨offset, -, made⟩ := Option.bind_eq_some_iff.mp made
    split at made
    · cases made
    · split at made
      · cases made
      · exact ofLocal_valid made fraction
  · split at made
    · cases made
    · exact ofLocal_valid made fraction

/-- RFC 3339 reads a fraction as less than a second. -/
theorem readFraction_nanos {cs rest : List Char} {nanos : Option Nat}
    (read : readFraction cs = some (nanos, rest)) : ∀ n ∈ nanos, n < 1000000000 := by
  unfold readFraction at read
  split at read
  · obtain ⟨⟨n, rest'⟩, fraction, same⟩ := Option.map_eq_some_iff.mp read
    cases same
    simpa using readNanos_lt fraction
  · cases read
    nofun

/-- What RFC 3339 reads is valid. -/
theorem readRfc3339_valid {cs : List Char} {t : Timestamp} (read : readRfc3339 cs = some t) :
    t.Valid := by
  unfold readRfc3339 at read
  dsimp only [Option.bind_eq_bind] at read
  -- the date and the time of day up to the seconds
  iterate 11 rw [Option.bind_eq_some_iff] at read; obtain ⟨_, -, read⟩ := read
  rw [Option.bind_eq_some_iff] at read
  obtain ⟨⟨nanos, rest⟩, fraction, read⟩ := read
  -- the offset, the check on it, and the fields stored
  iterate 8 rw [Option.bind_eq_some_iff] at read; obtain ⟨_, -, read⟩ := read
  exact toTimestamp_valid read (readFraction_nanos fraction)

/-- What a layout reads, once made a timestamp, is valid. -/
theorem firstLayout_valid {needOffset : Bool} {cs : List Char} {t : Timestamp} :
    ∀ {layouts : List (List Piece)}, firstLayout needOffset cs layouts = some t → t.Valid
  | [], read => by cases read
  | l :: ls, read => by
    unfold firstLayout at read
    split at read
    · next made =>
      cases read
      obtain ⟨fs, layout, made⟩ := Option.bind_eq_some_iff.mp made
      exact toTimestamp_valid made (readLayout_nanos layout nofun)
    · exact firstLayout_valid read

/-- Every timestamp that is read is valid. -/
theorem parse_valid {raw : String} {t : Timestamp} (parsed : parse raw = some t) : t.Valid := by
  unfold parse at parsed
  dsimp only at parsed
  split at parsed
  · next rfc => cases parsed; exact readRfc3339_valid rfc
  split at parsed
  · next layout => cases parsed; exact firstLayout_valid layout
  split at parsed
  · next layout => cases parsed; exact firstLayout_valid layout
  -- a bare date, at midnight
  obtain ⟨fs, date, made⟩ := Option.bind_eq_some_iff.mp parsed
  have fit := readLayout_nanos date nofun
  exact toTimestamp_valid made fit

/-- A timestamp that has been read is valid, and its text reads back as the same timestamp. -/
theorem parse_format_of_parse {raw : String} {t : Timestamp} (parsed : parse raw = some t) :
    t.Valid ∧ parse t.format = some t :=
  ⟨parse_valid parsed, parse_format (parse_valid parsed)⟩

/-- A leap second an hour behind UTC at the end of year 9999 is read in year 10000, cut to
microseconds; its text has a signed year and reads back. -/
theorem leap_second_into_year_10000 :
    parse "9999-12-31T23:59:60.1234567-01:00" = some ⟨10000, 1, 1, 0, 59, 60, 123456⟩ ∧
      (Valid ⟨10000, 1, 1, 0, 59, 60, 123456⟩ ∧
        parse (format ⟨10000, 1, 1, 0, 59, 60, 123456⟩) = some ⟨10000, 1, 1, 0, 59, 60, 123456⟩) :=
  have read : parse "9999-12-31T23:59:60.1234567-01:00" = some ⟨10000, 1, 1, 0, 59, 60, 123456⟩ := by
    decide
  ⟨read, parse_format_of_parse read⟩

end SchemaTypes.Timestamp
