import Mathlib.Algebra.BigOperators.Group.List.Basic
import Mathlib.Algebra.Order.Ring.Nat
import Mathlib.Data.List.Basic
import Mathlib.Data.Nat.Basic
import SignedOrders.Instant.Calendar

/-!
# Dates and their numbers

The dates of the calendar from the first of January of year one are counted without a gap: the
date after another has the next number (`Date.dayNumber_next`).  Every number is that of one date
(`Date.dayNumber_ofDayNumber`, `Date.ofDayNumber_dayNumber`), and the numbers of the years up to
9999 are those below `Date.dayCount`.
-/

namespace SignedOrders.Date

/-- The date is one of the calendar, from year one on. -/
structure IsDay (date : Date) : Prop where
  year_pos : 1 ≤ date.year
  ofYear : date.isDayOfYear = true

/-! ## Years -/

/-- The number of days of a year. -/
def yearLength (year : ℕ) : ℕ := if isLeapYear year then 366 else 365

theorem isLeapYear_iff {year : ℕ} :
    isLeapYear year = true ↔ 4 ∣ year ∧ (100 ∣ year → 400 ∣ year) := by
  simp only [isLeapYear, Bool.and_eq_true, Bool.or_eq_true, beq_iff_eq, bne_iff_ne,
    Nat.dvd_iff_mod_eq_zero]
  omega

/-- **Each year begins when the one before it is over.** -/
theorem daysBeforeYear_succ (k : ℕ) :
    daysBeforeYear (k + 2) = daysBeforeYear (k + 1) + yearLength (k + 1) := by
  have century : 100 ∣ k + 1 → 4 ∣ k + 1 := (by decide : 4 ∣ 100).trans
  have period : 400 ∣ k + 1 → 100 ∣ k + 1 := (by decide : 100 ∣ 400).trans
  have fewer : k / 100 ≤ k / 4 := Nat.div_le_div_left (by decide) (by decide)
  simp only [daysBeforeYear, yearLength, isLeapYear_iff, Nat.add_sub_cancel,
    show k + 2 - 1 = k + 1 from rfl, Nat.succ_div]
  by_cases four : 4 ∣ k + 1
  · by_cases hundred : 100 ∣ k + 1
    · by_cases fourHundred : 400 ∣ k + 1
      · simp only [four, hundred, fourHundred, if_true, imp_self, and_self]
        omega
      · simp only [four, hundred, fourHundred, if_true, if_false, imp_false, not_true, and_false]
        omega
    · simp only [four, hundred, mt period hundred, if_true, if_false, false_imp_iff, and_self]
      omega
  · simp only [four, mt century four, mt (century ∘ period) four, if_false, false_and]
    omega

theorem daysBeforeYear_mono {y y' : ℕ} (pos : 1 ≤ y) (h : y < y') :
    daysBeforeYear y + yearLength y ≤ daysBeforeYear y' := by
  induction h with
  | refl =>
    obtain ⟨k, rfl⟩ := Nat.exists_eq_add_of_le' pos
    exact (daysBeforeYear_succ k).ge
  | @step m h ih =>
    obtain ⟨k, rfl⟩ : ∃ k, m = k + 1 := Nat.exists_eq_add_of_le' (pos.trans (Nat.le_of_lt h))
    exact ih.trans ((Nat.le_add_right ..).trans (daysBeforeYear_succ k).ge)

/-- The days before a year, by periods of four hundred years, centuries, four years and years. -/
theorem daysBeforeYear_parts {q400 q100 q4 q1 : ℕ} (h100 : q100 ≤ 3) (h4 : q4 ≤ 24) (h1 : q1 ≤ 3) :
    daysBeforeYear (400 * q400 + 100 * q100 + 4 * q4 + q1 + 1) =
      146097 * q400 + 36524 * q100 + 1461 * q4 + 365 * q1 := by
  simp only [daysBeforeYear, Nat.add_sub_cancel]
  omega

/-- The parts of a day's number.  A day 366 comes only at the end of four years, and at that of a
century only in its last. -/
theorem exists_yearAndDay_eq (n : ℕ) : ∃ q400 q100 q4 q1 r : ℕ,
    yearAndDay n = (400 * q400 + 100 * q100 + 4 * q4 + q1 + 1, r) ∧
      n = 146097 * q400 + 36524 * q100 + 1461 * q4 + 365 * q1 + r ∧
      q100 ≤ 3 ∧ q4 ≤ 24 ∧ q1 ≤ 3 ∧ r ≤ 365 ∧ (r = 365 → q1 = 3 ∧ (q4 = 24 → q100 = 3)) := by
  refine ⟨_, _, _, _, _, rfl, ?_⟩
  generalize a_eq : n % 146097 = a
  generalize q100_eq : min 3 (a / 36524) = q100
  generalize b_eq : a - 36524 * q100 = b
  generalize q1_eq : min 3 (b % 1461 / 365) = q1
  have century : q100 ≤ 3 ∧ 36524 * q100 ≤ a ∧ b ≤ 36524 ∧ (b = 36524 → q100 = 3) := by omega
  clear q100_eq
  have year : q1 ≤ 3 ∧ 365 * q1 ≤ b % 1461 ∧ b % 1461 - 365 * q1 ≤ 365 ∧
      (b % 1461 - 365 * q1 = 365 → q1 = 3) := by omega
  clear q1_eq
  omega

/-- **The year of a day** begins before the day, and ends after it. -/
theorem yearAndDay_spec {n year day : ℕ} (h : yearAndDay n = (year, day)) :
    1 ≤ year ∧ daysBeforeYear year + day = n ∧ day < yearLength year := by
  obtain ⟨q400, q100, q4, q1, r, parts, whole, h100, h4, h1, hr, last⟩ := exists_yearAndDay_eq n
  cases h.symm.trans parts
  refine ⟨Nat.succ_pos _, by rw [daysBeforeYear_parts h100 h4 h1, whole], ?_⟩
  unfold yearLength
  split
  · omega
  · next common =>
    rw [isLeapYear_iff] at common
    by_contra full
    obtain ⟨rfl, centuries⟩ := last (by omega)
    refine common ⟨by omega, fun century => ?_⟩
    have := centuries (by omega)
    omega

/-- **A day of a year is found** in it. -/
theorem yearAndDay_eq {year day : ℕ} (pos : 1 ≤ year) (h : day < yearLength year) :
    yearAndDay (daysBeforeYear year + day) = (year, day) := by
  rcases found : yearAndDay (daysBeforeYear year + day) with ⟨year', day'⟩
  obtain ⟨pos', whole, h'⟩ := yearAndDay_spec found
  rcases Nat.lt_trichotomy year' year with before | same | after
  · have := daysBeforeYear_mono pos' before
    omega
  · subst same
    rw [Nat.add_left_cancel whole]
  · have := daysBeforeYear_mono pos after
    omega

/-! ## Months -/

theorem sum_monthLengths (year : ℕ) :
    (monthLengths (isLeapYear year)).sum = yearLength year := by
  unfold yearLength
  cases isLeapYear year <;> rfl

theorem daysBeforeMonth_eq (leap : Bool) (i : ℕ) :
    daysBeforeMonth leap (i + 1) = ((monthLengths leap).take i).sum := by
  rw [daysBeforeMonth, Nat.add_sub_cancel, List.sum_eq_foldl]

/-- A day within some lengths falls into one of them. -/
theorem exists_month {lengths : List ℕ} {day : ℕ} (h : day < lengths.sum) :
    ∃ i < lengths.length, ∃ d < lengths.getD i 0, day = (lengths.take i).sum + d := by
  induction lengths generalizing day with
  | nil => simp at h
  | cons length lengths ih =>
    by_cases here : day < length
    · exact ⟨0, by simp, day, by simpa using here, by simp⟩
    · rw [List.sum_cons] at h
      have later : day - length < lengths.sum := by omega
      obtain ⟨i, hi, d, hd, rest⟩ := ih later
      refine ⟨i + 1, by simpa using hi, d, by simpa using hd, ?_⟩
      rw [List.take_succ_cons, List.sum_cons]
      omega

/-- **A day of a month is found** in it. -/
theorem monthAndDay_eq {lengths : List ℕ} {i d : ℕ} (month : ℕ) (h : d < lengths.getD i 0) :
    monthAndDay month ((lengths.take i).sum + d) lengths = (month + i, d + 1) := by
  induction lengths generalizing i month with
  | nil => simp at h
  | cons length lengths ih =>
    cases i with
    | zero =>
      rw [List.take_zero, List.sum_nil, Nat.zero_add, monthAndDay, if_pos (by simpa using h)]
      rfl
    | succ i =>
      rw [List.take_succ_cons, List.sum_cons, monthAndDay, if_neg (by omega),
        show length + (lengths.take i).sum + d - length = (lengths.take i).sum + d by omega,
        ih (month + 1) (by simpa using h), Nat.add_right_comm, Nat.add_assoc]

/-! ## Dates -/

theorem isDay_of_parts {year i d : ℕ} (pos : 1 ≤ year) (hi : i < 12)
    (hd : d < (monthLengths (isLeapYear year)).getD i 0) : IsDay ⟨year, i + 1, d + 1⟩ := by
  refine ⟨pos, ?_⟩
  simp only [isDayOfYear, Bool.and_eq_true, decide_eq_true_eq]
  exact ⟨⟨⟨by omega, by omega⟩, by omega⟩, hd⟩

/-- A date by the months and the days before it. -/
theorem IsDay.exists_parts {date : Date} (h : date.IsDay) : ∃ i < 12, ∃ d,
    d < (monthLengths (isLeapYear date.year)).getD i 0 ∧ date = ⟨date.year, i + 1, d + 1⟩ := by
  obtain ⟨year, month, day⟩ := date
  have ofYear := h.ofYear
  simp only [isDayOfYear, Bool.and_eq_true, decide_eq_true_eq] at ofYear
  obtain ⟨⟨⟨low, high⟩, first⟩, last⟩ := ofYear
  obtain ⟨i, rfl⟩ := Nat.exists_eq_add_of_le' low
  obtain ⟨d, rfl⟩ := Nat.exists_eq_add_of_le' first
  exact ⟨i, by omega, d, last, rfl⟩

theorem dayNumber_parts (year i d : ℕ) : dayNumber ⟨year, i + 1, d + 1⟩ =
    daysBeforeYear year + (((monthLengths (isLeapYear year)).take i).sum + d) := by
  rw [dayNumber, daysBeforeMonth_eq, Nat.add_sub_cancel, Nat.add_assoc]

/-- A month is over before the year is. -/
theorem sum_take_add_lt {lengths : List ℕ} {i d : ℕ} (h : d < lengths.getD i 0) :
    (lengths.take i).sum + d < lengths.sum := by
  induction lengths generalizing i with
  | nil => simp at h
  | cons length lengths ih =>
    cases i with
    | zero =>
      have : d < length := by simpa using h
      rw [List.take_zero, List.sum_nil, List.sum_cons]
      omega
    | succ i =>
      have := ih (i := i) (by simpa using h)
      rw [List.take_succ_cons, List.sum_cons, List.sum_cons]
      omega

/-- **A date has its number within its year.** -/
theorem IsDay.dayNumber_bounds {date : Date} (h : date.IsDay) :
    daysBeforeYear date.year ≤ date.dayNumber ∧
      date.dayNumber < daysBeforeYear date.year + yearLength date.year := by
  obtain ⟨i, -, d, hd, same⟩ := h.exists_parts
  have within := sum_take_add_lt hd
  rw [sum_monthLengths] at within
  rw [congrArg dayNumber same, dayNumber_parts]
  omega

/-- **Every date is found by its number.** -/
theorem IsDay.ofDayNumber_dayNumber {date : Date} (h : date.IsDay) :
    ofDayNumber date.dayNumber = date := by
  obtain ⟨i, -, d, hd, same⟩ := h.exists_parts
  have within := sum_take_add_lt hd
  rw [sum_monthLengths] at within
  rw [congrArg dayNumber same, dayNumber_parts, ofDayNumber, yearAndDay_eq h.year_pos within]
  dsimp only
  rw [monthAndDay_eq 1 hd, Nat.add_comm 1 i]
  exact same.symm

/-- **Every number is that of a date.** -/
theorem dayNumber_ofDayNumber (n : ℕ) :
    (ofDayNumber n).IsDay ∧ (ofDayNumber n).dayNumber = n := by
  rcases found : yearAndDay n with ⟨year, day⟩
  obtain ⟨pos, whole, within⟩ := yearAndDay_spec found
  rw [← sum_monthLengths] at within
  obtain ⟨i, hi, d, hd, rfl⟩ := exists_month within
  have few : (monthLengths (isLeapYear year)).length = 12 := rfl
  have date : ofDayNumber n = ⟨year, i + 1, d + 1⟩ := by
    rw [ofDayNumber, found]
    dsimp only
    rw [monthAndDay_eq 1 hd, Nat.add_comm 1 i]
  rw [date]
  exact ⟨isDay_of_parts pos (few ▸ hi) hd, (dayNumber_parts ..).trans whole⟩

/-- The day from which instants are counted. -/
example : ofDayNumber epochDay = ⟨1970, 1, 1⟩ ∧ dayNumber ⟨1970, 1, 1⟩ = epochDay := by decide

/-- The years up to 9999 have the numbers below the count of their days. -/
theorem IsDay.dayNumber_lt_dayCount_iff {date : Date} (h : date.IsDay) :
    date.dayNumber < dayCount ↔ date.year ≤ 9999 := by
  obtain ⟨low, high⟩ := h.dayNumber_bounds
  have count : dayCount = daysBeforeYear 9999 + yearLength 9999 := by decide
  constructor
  · intro before
    by_contra later
    have := daysBeforeYear_mono (by decide) (not_le.1 later)
    omega
  · intro within
    rcases Nat.lt_or_eq_of_le within with before | last
    · have := daysBeforeYear_mono h.year_pos before
      omega
    · rw [last] at high
      omega

/-- The last day that is counted. -/
example : dayNumber ⟨9999, 12, 31⟩ + 1 = dayCount := by decide

/-! ## From one date to the next -/

/-- The date after another. -/
def next (date : Date) : Date :=
  if date.day < monthLength (isLeapYear date.year) date.month then
    ⟨date.year, date.month, date.day + 1⟩
  else if date.month < 12 then ⟨date.year, date.month + 1, 1⟩
  else ⟨date.year + 1, 1, 1⟩

theorem monthLengths_pos (leap : Bool) : ∀ i < 12, 0 < (monthLengths leap).getD i 0 := by
  cases leap <;> decide

theorem sum_take_succ (leap : Bool) : ∀ i < 12, ((monthLengths leap).take (i + 1)).sum =
    ((monthLengths leap).take i).sum + (monthLengths leap).getD i 0 := by
  cases leap <;> decide

theorem next_inside {year i d : ℕ} (h : d + 1 < (monthLengths (isLeapYear year)).getD i 0) :
    next ⟨year, i + 1, d + 1⟩ = ⟨year, i + 1, d + 1 + 1⟩ :=
  if_pos h

theorem next_last {year i d : ℕ} (h : d + 1 = (monthLengths (isLeapYear year)).getD i 0)
    (more : i + 1 < 12) : next ⟨year, i + 1, d + 1⟩ = ⟨year, i + 1 + 1, 0 + 1⟩ := by
  have ended : ¬d + 1 < monthLength (isLeapYear year) (i + 1) := h.not_lt
  rw [next, if_neg ended, if_pos more]

theorem next_december {year d : ℕ} (h : d + 1 = (monthLengths (isLeapYear year)).getD 11 0) :
    next ⟨year, 12, d + 1⟩ = ⟨year + 1, 0 + 1, 0 + 1⟩ := by
  have ended : ¬d + 1 < monthLength (isLeapYear year) 12 := h.not_lt
  rw [next, if_neg ended, if_neg (lt_irrefl 12)]

/-- **Dates are counted without a gap.** -/
theorem IsDay.dayNumber_next {date : Date} (h : date.IsDay) :
    date.next.IsDay ∧ date.next.dayNumber = date.dayNumber + 1 := by
  obtain ⟨i, hi, d, hd, same⟩ := h.exists_parts
  have pos := h.year_pos
  generalize date.year = year at *
  subst same
  have month := sum_take_succ (isLeapYear year) i hi
  rcases Nat.lt_or_eq_of_le (Nat.succ_le_of_lt hd) with inside | last
  · rw [next_inside inside, dayNumber_parts, dayNumber_parts]
    exact ⟨isDay_of_parts pos hi inside, rfl⟩
  rcases Nat.lt_or_eq_of_le (Nat.succ_le_of_lt hi) with more | december
  · rw [next_last last more, dayNumber_parts, dayNumber_parts]
    exact ⟨isDay_of_parts pos more (monthLengths_pos _ _ more), by omega⟩
  · obtain rfl : i = 11 := Nat.succ_injective december
    have whole : ((monthLengths (isLeapYear year)).take (11 + 1)).sum = yearLength year :=
      sum_monthLengths year
    obtain ⟨k, rfl⟩ := Nat.exists_eq_add_of_le' pos
    have begun : daysBeforeYear (k + 1 + 1) = _ := daysBeforeYear_succ k
    rw [next_december last, dayNumber_parts, dayNumber_parts, List.take_zero, List.sum_nil]
    exact ⟨isDay_of_parts (Nat.succ_pos _) (by decide) (monthLengths_pos _ 0 (by decide)), by omega⟩

end SignedOrders.Date
