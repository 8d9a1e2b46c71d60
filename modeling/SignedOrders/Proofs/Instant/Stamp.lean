import SignedOrders.Instant.Reader
import SignedOrders.Proofs.Digits
import SignedOrders.Proofs.Instant.Calendar

/-!
# Stamps

A **stamp** is a text of RFC 3339: a date and a time of day in numerals of fixed width, perhaps
with the fraction of a second, and how far the clock is ahead of universal time or behind it.  It
is given by its numerals, apart from the functions that write and read instants, and denotes the
instant at which the clock shows them.  A stamp without an offset is not one of RFC 3339; it is
that of a clock in universal time.

Every stamp is read as what its clock shows, which is so at the instant that it denotes
(`Stamp.ofText_text`, `Stamp.instant_reading`); a count of microseconds is read as what a clock of
universal time shows then (`instant_of_ofMicroseconds`).  An instant of the years one to 9999 is
written as a stamp in universal time that denotes it (`InYears.exists_stamp`); no other instant is
written (`toText?_isSome_iff`).
-/

namespace SignedOrders.Instant

/-! ## Numerals -/

/-- A number in exactly so many digits. -/
structure Numeral (width : ℕ) where
  chars : List Char
  length_eq : chars.length = width
  isDigit : chars.all Char.isDigit = true

namespace Numeral

variable {width : ℕ}

/-- The number that a numeral writes. -/
def value (numeral : Numeral width) : ℕ := Text.digitsValue numeral.chars

/-- The numeral of a number, with zeros in front. -/
def ofNat (n : ℕ) (pos : 0 < width) (fits : n < Decimal.tenTo width) : Numeral width where
  chars := padded width n
  length_eq := by
    have room := (Decimal.width_le_iff pos).2 fits
    simp only [padded, List.length_append, List.length_replicate, Decimal.length_digits]
    omega
  isDigit := by
    rw [padded, List.all_append, Decimal.all_isDigit_digits, Bool.and_true, List.all_replicate]
    simp

@[simp] theorem value_ofNat (n : ℕ) (pos : 0 < width) (fits : n < Decimal.tenTo width) :
    (ofNat n pos fits).value = n :=
  (Decimal.digitsValue_zeros_append ..).trans (Decimal.digitsValue_digits n)

/-- **Numerals are read back**, whatever follows them. -/
theorem fixedDigits?_append (numeral : Numeral width) (rest : List Char) :
    fixedDigits? width (numeral.chars ++ rest) = some (numeral.value, rest) := by
  have taken : (numeral.chars ++ rest).take width = numeral.chars :=
    List.take_left' numeral.length_eq
  have dropped : (numeral.chars ++ rest).drop width = rest := List.drop_left' numeral.length_eq
  rw [fixedDigits?, taken, dropped, if_pos ⟨numeral.length_eq, numeral.isDigit⟩, value]

end Numeral

/-! ## Offsets from universal time -/

/-- A number of hours and minutes within a day. -/
structure Lead where
  hours : Numeral 2
  minutes : Numeral 2
  hours_lt : hours.value < 24
  minutes_lt : minutes.value < 60

/-- How a clock differs from universal time. -/
inductive Zone where
  /-- Nothing is said; the clock is one of universal time. -/
  | unsaid
  | universal
  | ahead (lead : Lead)
  | behind (lead : Lead)

namespace Lead

def chars (lead : Lead) : List Char := lead.hours.chars ++ ':' :: lead.minutes.chars

/-- The offset in seconds. -/
def seconds (lead : Lead) : ℕ := lead.hours.value * 3600 + lead.minutes.value * 60

theorem offset?_chars (lead : Lead) : offset? lead.chars = some lead.seconds := by
  have minutes := lead.minutes.fixedDigits?_append []
  rw [List.append_nil] at minutes
  simp [offset?, chars, seconds, Numeral.fixedDigits?_append, after?, minutes, lead.hours_lt,
    lead.minutes_lt]

end Lead

namespace Zone

def chars : Zone → List Char
  | unsaid => []
  | universal => ['Z']
  | ahead lead => '+' :: lead.chars
  | behind lead => '-' :: lead.chars

/-- By how many seconds the clock is ahead of universal time. -/
def seconds : Zone → ℤ
  | unsaid | universal => 0
  | ahead lead => lead.seconds
  | behind lead => -lead.seconds

/-- By how many seconds the clock is said to be ahead of universal time. -/
def offset : Zone → Option ℤ
  | unsaid => none
  | zone => some zone.seconds

theorem getD_offset (zone : Zone) : zone.offset.getD 0 = zone.seconds := by
  cases zone <;> rfl

theorem zone?_chars (zone : Zone) : zone? zone.chars = some zone.offset := by
  cases zone with
  | unsaid => rfl
  | universal => rfl
  | ahead lead => simp [chars, zone?, lead.offset?_chars, offset, seconds]
  | behind lead => simp [chars, zone?, lead.offset?_chars, offset, seconds]

/-- What follows a time of day continues neither its digits nor its parts. -/
theorem head?_chars (zone : Zone) :
    ∀ c ∈ zone.chars.head?, c.isDigit = false ∧ c ≠ ':' ∧ c ≠ '.' ∧ c ≠ ',' := by
  cases zone <;> simp [chars]

end Zone

/-! ## Stamps -/

/-- A date and a time of day to the microsecond, on a clock of some zone. -/
structure Stamp where
  year : Numeral 4
  month : Numeral 2
  day : Numeral 2
  hour : Numeral 2
  minute : Numeral 2
  second : Numeral 2
  /-- The digits of the fraction of a second, if any. -/
  fraction : List Char
  zone : Zone
  isDay : Date.IsDay ⟨year.value, month.value, day.value⟩
  hour_lt : hour.value < 24
  minute_lt : minute.value < 60
  second_lt : second.value < 60
  isDigit : fraction.all Char.isDigit = true
  length_le : fraction.length ≤ 6

namespace Stamp

/-- The fraction of a second with the point before it. -/
def fractionChars (stamp : Stamp) : List Char :=
  if stamp.fraction = [] then [] else '.' :: stamp.fraction

def dateChars (stamp : Stamp) : List Char :=
  stamp.year.chars ++ '-' :: (stamp.month.chars ++ '-' :: stamp.day.chars)

def timeChars (stamp : Stamp) : List Char :=
  stamp.hour.chars ++ ':' :: (stamp.minute.chars ++ ':' :: (stamp.second.chars ++
    stamp.fractionChars))

/-- The text of a stamp. -/
def text (stamp : Stamp) : String :=
  String.ofList (stamp.dateChars ++ 'T' :: (stamp.timeChars ++ stamp.zone.chars))

def date (stamp : Stamp) : Date := ⟨stamp.year.value, stamp.month.value, stamp.day.value⟩

/-- The fraction of a second in microseconds. -/
def fractionValue (stamp : Stamp) : ℕ :=
  Text.digitsValue stamp.fraction * 10 ^ (6 - stamp.fraction.length)

/-- The time of day in microseconds since midnight. -/
def sinceMidnight (stamp : Stamp) : ℕ :=
  (stamp.hour.value * 3600 + stamp.minute.value * 60 + stamp.second.value) * 1000000 +
    stamp.fractionValue

/-- **The instant that a stamp denotes**: when a clock of its zone shows it. -/
def instant (stamp : Stamp) : Instant :=
  ofLocal stamp.date stamp.sinceMidnight stamp.zone.seconds

/-- What the clock of a stamp shows. -/
def reading (stamp : Stamp) : Reading := ⟨stamp.date, stamp.sinceMidnight, stamp.zone.offset⟩

/-! ### Reading -/

variable (stamp : Stamp)

/-- The clock of a stamp shows it at the instant that the stamp denotes. -/
@[simp] theorem instant_reading : stamp.reading.instant = stamp.instant :=
  congrArg (ofLocal stamp.date stamp.sinceMidnight) stamp.zone.getD_offset

theorem date?_append (rest : List Char) :
    date? (stamp.dateChars ++ rest) = some (stamp.date, rest) := by
  simp [date?, dateChars, date, Numeral.fixedDigits?_append, after?, stamp.isDay.ofYear]

theorem fraction?_append (h : stamp.fraction ≠ []) :
    fraction? (stamp.fraction ++ stamp.zone.chars) =
      some (stamp.fractionValue, stamp.zone.chars) := by
  have ends : ∀ c ∈ stamp.zone.chars.head?, c.isDigit = false :=
    fun c first => (stamp.zone.head?_chars c first).1
  rw [fraction?, Decimal.takeDigits_append stamp.isDigit ends]
  dsimp only
  rw [if_neg h, List.take_of_length_le stamp.length_le]
  rfl

theorem seconds?_append :
    seconds? (':' :: (stamp.second.chars ++ (stamp.fractionChars ++ stamp.zone.chars))) =
      some (stamp.second.value * perSecond + stamp.fractionValue, stamp.zone.chars) := by
  have early : ¬stamp.second.value > 59 := by
    have := stamp.second_lt
    omega
  simp only [seconds?, Numeral.fixedDigits?_append, Option.bind_eq_bind, Option.bind_some,
    if_neg early]
  by_cases whole : stamp.fraction = []
  · have nothing : stamp.fractionValue = 0 := by
      rw [fractionValue, whole]
      rfl
    rw [fractionChars, if_pos whole, nothing, List.nil_append, Nat.add_zero]
    split
    · next found => simpa using stamp.zone.head?_chars '.' (by rw [found]; rfl)
    · next found => simpa using stamp.zone.head?_chars ',' (by rw [found]; rfl)
    · rfl
  · rw [fractionChars, if_neg whole, List.cons_append]
    simp only [stamp.fraction?_append whole, Option.bind_some]
    rfl

theorem time?_append :
    time? (stamp.timeChars ++ stamp.zone.chars) = some (stamp.sinceMidnight, stamp.zone.chars) := by
  have parts : stamp.timeChars ++ stamp.zone.chars =
      stamp.hour.chars ++ ':' :: (stamp.minute.chars ++ ':' :: (stamp.second.chars ++
        (stamp.fractionChars ++ stamp.zone.chars))) := by
    simp only [timeChars, List.append_assoc, List.cons_append]
  have early : ¬(stamp.hour.value > 23 ∨ stamp.minute.value > 59) := by
    have := stamp.hour_lt
    have := stamp.minute_lt
    omega
  have total : (stamp.hour.value * 3600 + stamp.minute.value * 60) * perSecond +
      (stamp.second.value * perSecond + stamp.fractionValue) = stamp.sinceMidnight := by
    rw [sinceMidnight, perSecond]
    omega
  simp only [parts, time?, Numeral.fixedDigits?_append, after?, if_true, if_neg early,
    seconds?_append, Option.bind_eq_bind, Option.bind_some, Option.pure_def, total]

theorem reading?_chars :
    reading? (stamp.dateChars ++ 'T' :: (stamp.timeChars ++ stamp.zone.chars)) =
      some stamp.reading := by
  have separator : isSeparator 'T' = true := rfl
  simp only [reading?, stamp.date?_append, separator, if_true, stamp.time?_append,
    stamp.zone.zone?_chars, Option.bind_eq_bind, Option.bind_some, Option.pure_def, reading]

/-- **Every stamp is read as what its clock shows.** -/
theorem ofText_text : ofText stamp.text = .ok stamp.reading := by
  have named : stamp.date.year ≠ 0 := Nat.ne_of_gt stamp.isDay.year_pos
  rw [ofText, text, String.toList_ofList, reading?_chars]
  exact if_neg named

end Stamp

/-! ## Counts -/

/-- **A count is read as what a clock shows then.** -/
theorem instant_of_ofMicroseconds {count : ℤ} {reading : Reading}
    (h : ofMicroseconds count = .ok reading) : reading.instant = ⟨count⟩ := by
  unfold ofMicroseconds at h
  dsimp only at h
  split at h
  · cases h
  split at h
  · cases h
  next positive =>
  cases h
  have day := Int.toNat_of_nonneg (Int.not_lt.1 positive)
  have time := Int.toNat_of_nonneg (Int.emod_nonneg count (by decide : (perDay : ℤ) ≠ 0))
  have whole := Int.emod_add_mul_ediv count perDay
  have number := (Date.dayNumber_ofDayNumber (count / (perDay : ℤ) + Date.epochDay).toNat).2
  simp only [Reading.instant, ofLocal, number, day, time, Option.getD_some, Int.add_sub_cancel,
    Int.zero_mul, Int.sub_zero, Instant.mk.injEq]
  rw [Int.mul_comm, Int.add_comm, whole]

/-! ## Moments -/

/-- A date of the years one to 9999 and a time of day, in universal time. -/
structure Moment where
  date : Date
  /-- The time of day in microseconds since midnight. -/
  sinceMidnight : ℕ
  isDay : date.IsDay
  year_le : date.year ≤ 9999
  lt_perDay : sinceMidnight < perDay

namespace Moment

variable (moment : Moment)

def instant : Instant := ofLocal moment.date moment.sinceMidnight 0

/-- The microseconds from the start of the first day. -/
def number : ℕ := moment.date.dayNumber * perDay + moment.sinceMidnight

theorem number_eq :
    moment.instant.microseconds + (Date.epochDay * perDay : ℕ) = moment.number := by
  simp only [instant, number, ofLocal, Int.sub_mul, Int.zero_mul]
  omega

theorem number_lt : moment.number < Date.dayCount * perDay := by
  have day := moment.isDay.dayNumber_lt_dayCount_iff.2 moment.year_le
  have time := moment.lt_perDay
  calc moment.number < moment.date.dayNumber * perDay + perDay := Nat.add_lt_add_left time _
    _ = (moment.date.dayNumber + 1) * perDay := (Nat.succ_mul ..).symm
    _ ≤ Date.dayCount * perDay := Nat.mul_le_mul_right _ day

theorem number_div : moment.number / perDay = moment.date.dayNumber := by
  rw [number, Nat.mul_comm, Nat.mul_add_div (by decide), Nat.div_eq_of_lt moment.lt_perDay,
    Nat.add_zero]

theorem number_mod : moment.number % perDay = moment.sinceMidnight := by
  rw [number, Nat.mul_comm, Nat.mul_add_mod, Nat.mod_eq_of_lt moment.lt_perDay]

/-- **Every number below that of all days is that of a moment.** -/
theorem exists_number_eq {n : ℕ} (h : n < Date.dayCount * perDay) :
    ∃ moment : Moment, moment.number = n := by
  obtain ⟨isDay, day⟩ := Date.dayNumber_ofDayNumber (n / perDay)
  have early : (Date.ofDayNumber (n / perDay)).dayNumber < Date.dayCount := by
    rw [day]
    exact Nat.div_lt_of_lt_mul (Nat.mul_comm .. ▸ h)
  have year_le := isDay.dayNumber_lt_dayCount_iff.1 early
  have time : n % perDay < perDay := Nat.mod_lt n (by decide)
  refine ⟨⟨Date.ofDayNumber (n / perDay), n % perDay, isDay, year_le, time⟩, ?_⟩
  show (Date.ofDayNumber (n / perDay)).dayNumber * perDay + n % perDay = n
  rw [day, Nat.div_add_mod']

/-- A moment is written by its date and its time of day. -/
theorem toText?_instant : moment.instant.toText? =
    some (String.ofList (dateChars moment.date ++ 'T' :: timeChars moment.sinceMidnight ++
      ['Z'])) := by
  simp only [toText?, number_eq]
  rw [if_pos ⟨Int.natCast_nonneg _, Int.ofNat_lt.2 moment.number_lt⟩, Int.toNat_natCast,
    number_div, number_mod, moment.isDay.ofDayNumber_dayNumber]

end Moment

/-- The instant lies in one of the years one to 9999 of universal time. -/
def InYears (instant : Instant) : Prop := ∃ moment : Moment, moment.instant = instant

/-- **Exactly the instants of these years are written.** -/
theorem toText?_isSome_iff {instant : Instant} : instant.toText?.isSome ↔ instant.InYears := by
  constructor
  · intro written
    simp only [toText?] at written
    split at written
    · next within =>
      obtain ⟨n, number⟩ := Int.eq_ofNat_of_zero_le within.1
      rw [number] at within
      obtain ⟨moment, rfl⟩ := Moment.exists_number_eq (Int.ofNat_lt.1 within.2)
      refine ⟨moment, ?_⟩
      cases instant
      exact congrArg Instant.mk ((Int.add_left_inj _).1 (moment.number_eq.trans number.symm))
    · cases written
  · rintro ⟨moment, rfl⟩
    rw [moment.toText?_instant]
    rfl

/-! ## Writing -/

/-- The months of the calendar and their days have two digits. -/
theorem two_digits_of_isDay {date : Date} (h : date.IsDay) :
    date.month < Decimal.tenTo 2 ∧ date.day < Decimal.tenTo 2 := by
  have short : ∀ leap, ∀ month ≤ 12, Date.monthLength leap month < Decimal.tenTo 2 := by decide
  have ofYear := h.ofYear
  simp only [Date.isDayOfYear, Bool.and_eq_true, decide_eq_true_eq] at ofYear
  obtain ⟨⟨⟨-, month⟩, -⟩, day⟩ := ofYear
  exact ⟨Nat.lt_of_le_of_lt month (by decide), Nat.lt_of_le_of_lt day (short _ _ month)⟩

theorem two_digits_of_lt {n : ℕ} (h : n < 60) : n < Decimal.tenTo 2 :=
  h.trans (by decide)

theorem padded_ne_nil (width n : ℕ) : padded width n ≠ [] := by
  simp [padded, Decimal.digits_ne_nil]

namespace Moment

variable (moment : Moment)

theorem hours_lt : moment.sinceMidnight / perSecond / 3600 < 24 := by
  rw [Nat.div_div_eq_div_mul]
  exact Nat.div_lt_of_lt_mul moment.lt_perDay

/-- The microseconds that are left after the seconds. -/
def fraction : Numeral 6 :=
  .ofNat (moment.sinceMidnight % perSecond) (by decide) (Nat.mod_lt _ (by decide))

/-- The stamp of a moment, in universal time. -/
def stamp : Stamp where
  year := .ofNat moment.date.year (by decide) (Nat.lt_of_le_of_lt moment.year_le (by decide))
  month := .ofNat moment.date.month (by decide) (two_digits_of_isDay moment.isDay).1
  day := .ofNat moment.date.day (by decide) (two_digits_of_isDay moment.isDay).2
  hour := .ofNat (moment.sinceMidnight / perSecond / 3600) (by decide)
    (two_digits_of_lt (moment.hours_lt.trans (by decide)))
  minute := .ofNat (moment.sinceMidnight / perSecond / 60 % 60) (by decide)
    (two_digits_of_lt (Nat.mod_lt _ (by decide)))
  second := .ofNat (moment.sinceMidnight / perSecond % 60) (by decide)
    (two_digits_of_lt (Nat.mod_lt _ (by decide)))
  fraction := if moment.sinceMidnight % perSecond = 0 then [] else moment.fraction.chars
  zone := .universal
  isDay := by
    simp only [Numeral.value_ofNat]
    exact moment.isDay
  hour_lt := by
    rw [Numeral.value_ofNat]
    exact moment.hours_lt
  minute_lt := by
    rw [Numeral.value_ofNat]
    exact Nat.mod_lt _ (by decide)
  second_lt := by
    rw [Numeral.value_ofNat]
    exact Nat.mod_lt _ (by decide)
  isDigit := by
    split
    · rfl
    · exact moment.fraction.isDigit
  length_le := by
    split
    · exact Nat.zero_le 6
    · exact moment.fraction.length_eq.le

theorem fractionChars_stamp : moment.stamp.fractionChars =
    if moment.sinceMidnight % perSecond = 0 then []
    else '.' :: padded 6 (moment.sinceMidnight % perSecond) := by
  by_cases whole : moment.sinceMidnight % perSecond = 0
  · simp [Stamp.fractionChars, stamp, whole]
  · simp [Stamp.fractionChars, stamp, whole, fraction, Numeral.ofNat, padded_ne_nil]

theorem fractionValue_stamp :
    moment.stamp.fractionValue = moment.sinceMidnight % perSecond := by
  by_cases whole : moment.sinceMidnight % perSecond = 0
  · simp [Stamp.fractionValue, stamp, whole, Text.digitsValue]
  · have value : Text.digitsValue moment.fraction.chars = moment.sinceMidnight % perSecond :=
      Numeral.value_ofNat ..
    simp [Stamp.fractionValue, stamp, whole, value, moment.fraction.length_eq]

/-- **A moment is written as its stamp.** -/
theorem toText?_eq_stamp : moment.instant.toText? = some moment.stamp.text := by
  rw [toText?_instant, Stamp.text, Stamp.timeChars, fractionChars_stamp]
  simp [Stamp.dateChars, stamp, dateChars, timeChars, Numeral.ofNat, Zone.chars]

/-- **The stamp of a moment denotes it.** -/
theorem instant_stamp : moment.stamp.instant = moment.instant := by
  have time : moment.stamp.sinceMidnight = moment.sinceMidnight := by
    rw [Stamp.sinceMidnight, fractionValue_stamp]
    simp only [stamp, Numeral.value_ofNat, perSecond]
    omega
  have day : moment.stamp.date = moment.date := by
    simp only [Stamp.date, stamp, Numeral.value_ofNat]
  rw [Stamp.instant, time, day]
  rfl

end Moment

/-- **An instant of these years is written as a stamp in universal time that denotes it.** -/
theorem InYears.exists_stamp {instant : Instant} (h : instant.InYears) : ∃ stamp : Stamp,
    stamp.zone = .universal ∧ instant.toText? = some stamp.text ∧ stamp.instant = instant := by
  obtain ⟨moment, rfl⟩ := h
  exact ⟨moment.stamp, rfl, moment.toText?_eq_stamp, moment.instant_stamp⟩

end SignedOrders.Instant
