import Mathlib.Algebra.GroupWithZero.Nat
import Mathlib.Data.List.Basic
import Mathlib.Data.List.GetD

/-!
# Calendar dates

Days and seconds are counted from the first instant of the year 1 in the
proleptic Gregorian calendar. The text of a second is that of RFC 3339 in UTC;
for years of four digits it determines the second.
-/

namespace Calendar

def isLeap (year : Nat) : Bool := year % 4 = 0 && (year % 100 ≠ 0 || year % 400 = 0)

/-- The year of a day and the number of the day within it, by cycles of 400, 100, 4 years and 1. -/
def yearDay (day : Nat) : Nat × Nat :=
  let n400 := day / 146097
  let day := day % 146097
  let n100 := min 3 (day / 36524)
  let day := day - 36524 * n100
  let n4 := day / 1461
  let day := day - 1461 * n4
  let n1 := min 3 (day / 365)
  (400 * n400 + 100 * n100 + 4 * n4 + n1 + 1, day - 365 * n1)

def monthLengths (leap : Bool) : List Nat :=
  [31, if leap then 29 else 28, 31, 30, 31, 30, 31, 31, 30, 31, 30, 31]

/-- How many of the spans are over after so many days, and the days left. -/
def split : List Nat → Nat → Nat × Nat
  | [], day => (0, day)
  | span :: spans, day =>
      if day < span then (0, day)
      else
        let (passed, rest) := split spans (day - span)
        (passed + 1, rest)

structure Date where
  year : Nat
  month : Nat
  day : Nat
  deriving DecidableEq, Repr

def date (day : Nat) : Date :=
  let (year, rest) := yearDay day
  let (month, rest) := split (monthLengths (isLeap year)) rest
  { year, month := month + 1, day := rest + 1 }

section Text

def digit (value : Nat) : UInt8 := UInt8.ofNat (48 + value % 10)

def twoDigits (value : Nat) : List UInt8 := [digit (value / 10), digit value]

def fourDigits (value : Nat) : List UInt8 := twoDigits (value / 100) ++ twoDigits (value % 100)

def secondsPerDay : Nat := 86400

/-- `2006-01-02T15:04:05Z`. -/
def rfc3339 (seconds : Nat) : List UInt8 :=
  let date := date (seconds / secondsPerDay)
  let clock := seconds % secondsPerDay
  fourDigits date.year ++ 45 :: (twoDigits date.month ++ 45 :: (twoDigits date.day ++
    84 :: (twoDigits (clock / 3600) ++ 58 :: (twoDigits (clock / 60 % 60) ++
      58 :: (twoDigits (clock % 60) ++ [90])))))

section Days

/-- The date of a day counted from the first day of the year 0, as in 2006-01-02 with the byte
between the parts. The calendar repeats after 400 years. -/
def formatDay (between : UInt8) (day : Nat) : List UInt8 :=
  let date := date (day + 145731)
  fourDigits (date.year - 400) ++ between :: (twoDigits date.month ++ between :: twoDigits date.day)

def isDigit (byte : UInt8) : Bool := 48 ≤ byte.toNat && byte.toNat ≤ 57

def valueOf (digits : List UInt8) : Nat :=
  digits.foldl (fun value byte => 10 * value + (byte.toNat - 48)) 0

def daysBefore (year : Nat) : Nat :=
  365 * year + (year + 3) / 4 + (year + 399) / 400 - (year + 99) / 100

def parseDay : List UInt8 → Option Nat
  | [y1, y2, y3, y4, 45, m1, m2, 45, d1, d2] =>
      let year := valueOf [y1, y2, y3, y4]
      let month := valueOf [m1, m2]
      let day := valueOf [d1, d2]
      let lengths := monthLengths (isLeap year)
      if [y1, y2, y3, y4, m1, m2, d1, d2].all isDigit ∧ 1 ≤ month ∧ month ≤ 12 ∧ 1 ≤ day ∧
          day ≤ lengths.getD (month - 1) 0 then
        some (daysBefore year + (lengths.take (month - 1)).sum + (day - 1))
      else none
  | _ => none

end Days

end Text

section Injective

theorem yearDay_count {day year rest : Nat} (split' : yearDay day = (year, rest)) :
    365 * (year - 1) + (year - 1) / 4 + (year - 1) / 400 + rest = day + (year - 1) / 100 ∧
      1 ≤ year := by
  simp only [yearDay, Prod.mk.injEq] at split'
  obtain ⟨same, left⟩ := split'
  generalize cycles : day / 146097 = n400 at same
  generalize inCycle : day % 146097 = day400 at same left
  have bound : day = 146097 * n400 + day400 ∧ day400 < 146097 := by omega
  generalize centuries : min 3 (day400 / 36524) = n100 at same left
  generalize inCentury : day400 - 36524 * n100 = day100 at same left
  have bound100 : n100 ≤ 3 ∧ day400 = 36524 * n100 + day100 ∧ day100 ≤ 36524 := by omega
  generalize fours : day100 / 1461 = n4 at same left
  generalize inFour : day100 - 1461 * n4 = day4 at same left
  have bound4 : n4 ≤ 24 ∧ day100 = 1461 * n4 + day4 ∧ day4 ≤ 1460 := by omega
  generalize ones : min 3 (day4 / 365) = n1 at same left
  have bound1 : n1 ≤ 3 ∧ day4 = 365 * n1 + rest := by omega
  clear cycles inCycle centuries inCentury fours inFour ones
  have whole : year - 1 = 400 * n400 + 100 * n100 + 4 * n4 + n1 := by omega
  have quarters : (year - 1) / 4 = 100 * n400 + 25 * n100 + n4 := by omega
  have hundreds : (year - 1) / 100 = 4 * n400 + n100 := by omega
  have periods : (year - 1) / 400 = n400 := by omega
  omega

theorem split_injective {spans : List Nat} {day other : Nat}
    (same : split spans day = split spans other) : day = other := by
  induction spans generalizing day other with
  | nil => exact (Prod.mk.inj same).2
  | cons span spans ih =>
    simp only [split] at same
    split at same
    · split at same
      · exact (Prod.mk.inj same).2
      · simp at same
    · split at same
      · simp at same
      · have rest : split spans (day - span) = split spans (other - span) := by
          obtain ⟨passed, left⟩ := Prod.mk.inj same
          exact Prod.ext (by simpa using passed) left
        have := ih rest
        omega

theorem date_injective {day other : Nat} (same : date day = date other) : day = other := by
  rcases first : yearDay day with ⟨year, rest⟩
  rcases second : yearDay other with ⟨year', rest'⟩
  simp only [date, first, second, Date.mk.injEq, Nat.add_right_cancel_iff] at same
  obtain ⟨rfl, month, left⟩ := same
  have equal : rest = rest' := split_injective (Prod.ext month left)
  have count := (yearDay_count first).1
  have count' := (yearDay_count second).1
  omega

theorem digit_toNat (value : Nat) : (digit value).toNat = 48 + value % 10 := by
  rw [digit, UInt8.toNat_ofNat']
  omega

theorem twoDigits_injective {value other : Nat} (small : value < 100) (small' : other < 100)
    (same : twoDigits value = twoDigits other) : value = other := by
  simp only [twoDigits, List.cons.injEq, and_true] at same
  have tens := congrArg UInt8.toNat same.1
  have units := congrArg UInt8.toNat same.2
  rw [digit_toNat, digit_toNat] at tens units
  omega

theorem fourDigits_injective {value other : Nat} (small : value < 10000) (small' : other < 10000)
    (same : fourDigits value = fourDigits other) : value = other := by
  obtain ⟨high, low⟩ := List.append_inj same rfl
  have high := twoDigits_injective (by omega) (by omega) high
  have low := twoDigits_injective (by omega) (by omega) low
  omega

theorem split_bounds (spans : List Nat) (day : Nat) (short : ∀ span ∈ spans, span ≤ 31)
    (few : day ≤ spans.sum + 31) :
    (split spans day).1 ≤ spans.length ∧ (split spans day).2 ≤ 31 := by
  induction spans generalizing day with
  | nil => simpa [split] using few
  | cons span spans ih =>
    obtain ⟨first, others⟩ := List.forall_mem_cons.mp short
    simp only [split]
    split
    · exact ⟨Nat.zero_le _, by omega⟩
    · rw [List.sum_cons] at few
      have bounds := ih (day - span) others (by omega)
      exact ⟨Nat.succ_le_succ bounds.1, bounds.2⟩

theorem date_eq {day year rest : Nat} (found : yearDay day = (year, rest)) :
    date day = ⟨year, (split (monthLengths (isLeap year)) rest).1 + 1,
      (split (monthLengths (isLeap year)) rest).2 + 1⟩ := by
  simp only [date, found]

theorem date_bounds {day : Nat} (early : day < 3652059) :
    (date day).year < 10000 ∧ (date day).month < 100 ∧ (date day).day < 100 := by
  rcases found : yearDay day with ⟨year, rest⟩
  have count := yearDay_count found
  have within : rest ≤ 365 := by
    simp only [yearDay, Prod.mk.injEq] at found
    omega
  have bounds : (split (monthLengths (isLeap year)) rest).1 ≤ 12 ∧
      (split (monthLengths (isLeap year)) rest).2 ≤ 31 := by
    refine split_bounds (monthLengths (isLeap year)) rest ?_ ?_
    · cases isLeap year <;> decide
    · have sum : 365 ≤ (monthLengths (isLeap year)).sum := by cases isLeap year <;> decide
      omega
  rw [date_eq found]
  dsimp only
  omega

/-- Up to the end of the year 9999 the text determines the second. -/
theorem rfc3339_injective {seconds other : Nat} (early : seconds < 3652059 * secondsPerDay)
    (early' : other < 3652059 * secondsPerDay) (same : rfc3339 seconds = rfc3339 other) :
    seconds = other := by
  unfold secondsPerDay at early early'
  have first : seconds / secondsPerDay < 3652059 := by
    unfold secondsPerDay
    omega
  have second : other / secondsPerDay < 3652059 := by
    unfold secondsPerDay
    omega
  obtain ⟨year, month, day⟩ := date_bounds first
  obtain ⟨year', month', day'⟩ := date_bounds second
  simp only [rfc3339] at same
  obtain ⟨years, same⟩ := List.append_inj same rfl
  obtain ⟨months, same⟩ := List.append_inj (List.cons.inj same).2 rfl
  obtain ⟨days, same⟩ := List.append_inj (List.cons.inj same).2 rfl
  obtain ⟨hours, same⟩ := List.append_inj (List.cons.inj same).2 rfl
  obtain ⟨minutes, same⟩ := List.append_inj (List.cons.inj same).2 rfl
  obtain ⟨units, -⟩ := List.append_inj (List.cons.inj same).2 rfl
  have dates : date (seconds / secondsPerDay) = date (other / secondsPerDay) := by
    have years := fourDigits_injective year year' years
    have months := twoDigits_injective month month' months
    have days := twoDigits_injective day day' days
    cases first : date (seconds / secondsPerDay)
    cases second : date (other / secondsPerDay)
    rw [first, second] at years months days
    simp only at years months days
    rw [years, months, days]
  have sameDay := date_injective dates
  unfold secondsPerDay at hours minutes units sameDay
  have hours := twoDigits_injective (by omega) (by omega) hours
  have minutes := twoDigits_injective (by omega) (by omega) minutes
  have units := twoDigits_injective (by omega) (by omega) units
  omega

example : date 739204 = ⟨2024, 11, 15⟩ := by decide

end Injective

section RoundTrip

theorem yearDay_leap {day year rest : Nat} (split' : yearDay day = (year, rest)) :
    rest < 365 ∨ rest = 365 ∧ isLeap year = true := by
  simp only [yearDay, Prod.mk.injEq] at split'
  obtain ⟨same, left⟩ := split'
  generalize day / 146097 = n400 at same
  generalize inCycle : day % 146097 = day400 at same left
  have bound : day400 < 146097 := by omega
  generalize centuries : min 3 (day400 / 36524) = n100 at same left
  generalize inCentury : day400 - 36524 * n100 = day100 at same left
  have bound100 : n100 ≤ 3 ∧ day100 ≤ 36524 ∧ (n100 < 3 → day100 < 36524) := by omega
  generalize fours : day100 / 1461 = n4 at same left
  generalize inFour : day100 - 1461 * n4 = day4 at same left
  have bound4 : n4 ≤ 24 ∧ day100 = 1461 * n4 + day4 ∧ day4 ≤ 1460 := by omega
  generalize ones : min 3 (day4 / 365) = n1 at same left
  have bound1 : n1 ≤ 3 ∧ day4 = 365 * n1 + rest ∧ (n1 < 3 → rest < 365) := by omega
  clear inCycle centuries inCentury fours inFour ones
  by_cases short : rest < 365
  · exact .inl short
  · refine .inr ⟨by omega, ?_⟩
    simp only [isLeap, Bool.and_eq_true, Bool.or_eq_true, decide_eq_true_eq]
    have last : n1 = 3 ∧ day4 = 1460 := by omega
    have century : n4 = 24 → n100 = 3 := by omega
    omega

/-- The spans that are over and the rest make up the days. -/
theorem split_sum (spans : List Nat) (day : Nat) (few : day < spans.sum) :
    (split spans day).1 < spans.length ∧
      (split spans day).2 < spans.getD (split spans day).1 0 ∧
      (spans.take (split spans day).1).sum + (split spans day).2 = day := by
  induction spans generalizing day with
  | nil => simp at few
  | cons span spans ih =>
    simp only [split]
    split
    next short => simpa using short
    next long =>
      rw [List.sum_cons] at few
      have rest := ih (day - span) (by omega)
      simp only [List.length_cons, List.getD_cons_succ, List.take_succ_cons, List.sum_cons]
      omega

theorem isDigit_digit (value : Nat) : isDigit (digit value) = true := by
  simp only [isDigit, digit_toNat, Bool.and_eq_true, decide_eq_true_eq]
  omega

theorem valueOf_twoDigits (value : Nat) (small : value < 100) :
    valueOf (twoDigits value) = value := by
  simp only [valueOf, twoDigits, List.foldl_cons, List.foldl_nil, digit_toNat]
  omega

theorem valueOf_fourDigits {value : Nat} (small : value < 10000) :
    valueOf (fourDigits value) = value := by
  simp only [valueOf, fourDigits, twoDigits, List.cons_append, List.nil_append, List.foldl_cons,
    List.foldl_nil, digit_toNat]
  omega

/-- A day of the years 0 to 9999 is read back from its text. -/
theorem parseDay_formatDay {day : Nat} (early : day < 3652425) :
    parseDay (formatDay 45 day) = some day := by
  rcases found : yearDay (day + 145731) with ⟨year, rest⟩
  obtain ⟨count, -⟩ := yearDay_count found
  have leap : rest < 365 ∨ rest = 365 ∧ year % 4 = 0 := by
    refine (yearDay_leap found).imp_right fun ⟨last, leap⟩ => ⟨last, ?_⟩
    simp only [isLeap, Bool.and_eq_true, decide_eq_true_eq] at leap
    exact leap.1
  have late : 400 ≤ year := by
    by_contra early
    rcases (by omega : year = 399 ∨ year ≤ 398) with rfl | small <;> omega
  obtain ⟨y, rfl⟩ : ∃ y, year = y + 400 := ⟨year - 400, by omega⟩
  have fourDigit : y < 10000 := by omega
  have cycle : isLeap y = isLeap (y + 400) := by
    unfold isLeap
    have quarters : y % 4 = (y + 400) % 4 := by omega
    have hundreds : y % 100 = (y + 400) % 100 := by omega
    have periods : y % 400 = (y + 400) % 400 := by omega
    rw [quarters, hundreds, periods]
  have before : daysBefore y + rest = day := by
    unfold daysBefore
    have quarters : (y + 400 - 1) / 4 = (y + 3) / 4 + 99 := by omega
    have hundreds : (y + 400 - 1) / 100 = (y + 99) / 100 + 3 := by omega
    have periods : (y + 400 - 1) / 400 = (y + 399) / 400 := by omega
    rw [quarters, hundreds, periods] at count
    omega
  have inYear : rest < (monthLengths (isLeap (y + 400))).sum := by
    rcases yearDay_leap found with short | ⟨rfl, leaps⟩
    · have sum : 365 ≤ (monthLengths (isLeap (y + 400))).sum := by cases isLeap (y + 400) <;> decide
      omega
    · rw [leaps]
      decide
  obtain ⟨month, inMonth, sum⟩ := split_sum _ _ inYear
  have twelve : (monthLengths (isLeap (y + 400))).length = 12 := rfl
  have short : (monthLengths (isLeap (y + 400))).getD
      (split (monthLengths (isLeap (y + 400))) rest).1 0 ≤ 31 := by
    rw [List.getD_eq_getElem _ _ month]
    have all : ∀ span ∈ monthLengths (isLeap (y + 400)), span ≤ 31 := by
      cases isLeap (y + 400) <;> decide
    exact all _ (List.getElem_mem month)
  rw [twelve] at month
  generalize passed : (split (monthLengths (isLeap (y + 400))) rest).1 = months
    at month inMonth sum short
  generalize left : (split (monthLengths (isLeap (y + 400))) rest).2 = days at inMonth sum
  have whole : date (day + 145731) = ⟨y + 400, months + 1, days + 1⟩ := by
    rw [date_eq found, passed, left]
  have yearText := valueOf_fourDigits fourDigit
  have monthText := valueOf_twoDigits (months + 1) (by omega)
  have dayText := valueOf_twoDigits (days + 1) (by omega)
  simp only [fourDigits, twoDigits, List.cons_append, List.nil_append] at yearText monthText dayText
  simp only [formatDay, whole, fourDigits, twoDigits, List.cons_append, List.nil_append, parseDay,
    yearText, monthText, dayText, cycle, Nat.add_sub_cancel]
  rw [if_pos]
  · rw [Option.some.injEq]
    omega
  · refine ⟨?_, by omega, by omega, by omega, by omega⟩
    simp [isDigit_digit]

theorem take_sum_add_le (spans : List Nat) (k : Nat) :
    (spans.take k).sum + spans.getD k 0 ≤ spans.sum := by
  induction spans generalizing k with
  | nil => simp
  | cons span spans ih =>
    cases k with
    | zero => simp
    | succ k =>
      have rest := ih k
      simp only [List.take_succ_cons, List.sum_cons, List.getD_cons_succ]
      omega

/-- A date that is read is of the years 0 to 9999, and written with digits and hyphens. -/
theorem parseDay_spec {text : List UInt8} {day : Nat} (read : parseDay text = some day) :
    day < 3652425 ∧ text.length = 10 ∧ ∀ byte ∈ text, isDigit byte = true ∨ byte = 45 := by
  unfold parseDay at read
  split at read
  next y1 y2 y3 y4 m1 m2 d1 d2 =>
    simp only [Option.ite_none_right_eq_some, Option.some.injEq] at read
    obtain ⟨⟨digits, month, -, first, last⟩, rfl⟩ := read
    simp only [List.all_cons, List.all_nil, Bool.and_eq_true, Bool.and_true] at digits
    obtain ⟨h1, h2, h3, h4, h5, h6, h7, h8⟩ := digits
    refine ⟨?_, rfl, by simp [h1, h2, h3, h4, h5, h6, h7, h8]⟩
    have years : valueOf [y1, y2, y3, y4] ≤ 9999 := by
      simp only [isDigit, Bool.and_eq_true, decide_eq_true_eq] at h1 h2 h3 h4
      simp only [valueOf, List.foldl_cons, List.foldl_nil]
      omega
    generalize valueOf [y1, y2, y3, y4] = year at years last ⊢
    generalize valueOf [m1, m2] = month' at month last ⊢
    generalize valueOf [d1, d2] = day' at first last ⊢
    have inYear := take_sum_add_le (monthLengths (isLeap year)) (month' - 1)
    generalize ((monthLengths (isLeap year)).take (month' - 1)).sum = passed at inYear ⊢
    generalize (monthLengths (isLeap year)).getD (month' - 1) 0 = length at last inYear
    unfold daysBefore
    cases leap : isLeap year with
    | true =>
      have fourth : year % 4 = 0 := by
        simp only [isLeap, Bool.and_eq_true, decide_eq_true_eq] at leap
        exact leap.1
      have whole : (monthLengths true).sum = 366 := by decide
      rw [leap, whole] at inYear
      omega
    | false =>
      have whole : (monthLengths false).sum = 365 := by decide
      rw [leap, whole] at inYear
      omega
  · simp at read

/-- The parts of a date do not depend on what stands between them. -/
theorem formatDay_injective {between : UInt8} {day other : Nat} (early : day < 3652425)
    (early' : other < 3652425) (same : formatDay between day = formatDay between other) :
    day = other := by
  have hyphens : formatDay 45 day = formatDay 45 other := by
    simp only [formatDay] at same ⊢
    generalize date (day + 145731) = first at same ⊢
    generalize date (other + 145731) = second at same ⊢
    obtain ⟨years, same⟩ := List.append_inj same (by simp [fourDigits, twoDigits])
    obtain ⟨months, same⟩ := List.append_inj (List.cons.inj same).2 (by simp [twoDigits])
    rw [years, months, (List.cons.inj same).2]
  have read := parseDay_formatDay early
  rw [hyphens, parseDay_formatDay early'] at read
  exact (Option.some.inj read).symm

end RoundTrip

end Calendar
