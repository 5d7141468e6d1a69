import QueryKit.Calendar.Date

-- Every day number has one date of the calendar, and the date leads back to it.

namespace QueryKit.Calendar

-- A day of an era: its century, the cycle of four years in that, the year of the cycle and the day of
-- the year. A leap day ends its cycle, but not the last one of a century, the fourth apart.
structure EraDay (n century cycle year day : Nat) : Prop where
  sum : n = 36524 * century + 1461 * cycle + 365 * year + day
  centuries : century ≤ 3
  cycles : cycle ≤ 24
  years : year ≤ 3
  days : day ≤ 365
  leap : day = 365 → year = 3 ∧ (cycle = 24 → century = 3)

theorem eraDay_exists {n : Nat} (inside : n < 146097) :
    ∃ century cycle year day, EraDay n century cycle year day := by
  obtain ⟨century, rest, whole, centuries, few, most⟩ :
      ∃ century rest, n = 36524 * century + rest ∧ century ≤ 3 ∧ rest ≤ 36524 ∧ (rest = 36524 → century = 3) := by
    by_cases last : n = 146096
    · exact ⟨3, 36524, by omega⟩
    · exact ⟨n / 36524, n % 36524, by omega⟩
  by_cases last : rest % 1461 = 1460
  · exact ⟨century, rest / 1461, 3, 365, by omega, by omega, by omega, by omega, by omega, by omega⟩
  · exact ⟨century, rest / 1461, rest % 1461 / 365, rest % 1461 % 365, by omega, by omega, by omega, by omega,
      by omega, by omega⟩

namespace EraDay
variable {n century cycle year day : Nat}

theorem year_eq (parts : EraDay n century cycle year day) :
    (n - n / 1460 + n / 36524 - n / 146096) / 365 = 100 * century + 4 * cycle + year := by
  obtain ⟨sum, centuries, cycles, years, days, leap⟩ := parts
  have kept : n / 36524 - n / 146096 = century := by omega
  have fewer : n / 146096 ≤ n / 36524 := by omega
  have taken : n / 1460 = 25 * century + cycle ∨ (n / 1460 = 25 * century + cycle + 1 ∧ 1 ≤ day) := by omega
  omega

theorem start (parts : EraDay n century cycle year day) :
    n = 365 * (100 * century + 4 * cycle + year) + (100 * century + 4 * cycle + year) / 4 -
      (100 * century + 4 * cycle + year) / 100 + day := by
  obtain ⟨sum, centuries, cycles, years, days, leap⟩ := parts
  omega

end EraDay

theorem month_of_day {day : Nat} (few : day ≤ 365) :
    (5 * day + 2) / 153 ≤ 11 ∧ (153 * ((5 * day + 2) / 153) + 2) / 5 ≤ day := by
  omega

def monthFromMarch (month : Nat) : Nat := if month < 10 then month + 3 else month - 9

theorem ofDays_parts (days : Int) : ∃ (era : Int) (n century cycle year day month : Nat),
    days = era * 146097 + n - 719468 ∧ EraDay n century cycle year day ∧ month = (5 * day + 2) / 153 ∧
      Date.ofDays days =
        ⟨era * 400 + (100 * century + 4 * cycle + year : Nat) + (if month < 10 then 0 else 1),
          monthFromMarch month, day - (153 * month + 2) / 5 + 1⟩ := by
  have within : 0 ≤ (days + 719468) % 146097 ∧ (days + 719468) % 146097 < 146097 := by omega
  obtain ⟨n, counted⟩ := Int.eq_ofNat_of_zero_le within.1
  obtain ⟨century, cycle, year, day, parts⟩ := eraDay_exists (n := n) (by omega)
  refine ⟨(days + 719468) / 146097, n, century, cycle, year, day, _, by omega, parts, rfl, ?_⟩
  have rest : n - (365 * (100 * century + 4 * cycle + year) + (100 * century + 4 * cycle + year) / 4 -
      (100 * century + 4 * cycle + year) / 100) = day := by
    have start := parts.start
    omega
  have months := (month_of_day parts.days).1
  simp only [Date.ofDays, Int.fdiv_eq_ediv_of_nonneg _ (by decide : (0 : Int) ≤ 146097),
    Int.fmod_eq_emod_of_nonneg _ (by decide : (0 : Int) ≤ 146097), counted, Int.toNat_natCast, parts.year_eq, rest,
    Date.mk.injEq, monthFromMarch, and_true]
  split <;> split <;> omega

theorem toDays_ofDays (days : Int) : (Date.ofDays days).toDays = days := by
  obtain ⟨era, n, century, cycle, year, day, month, whole, parts, march, written⟩ := ofDays_parts days
  have start := parts.start
  obtain ⟨months, covered⟩ := month_of_day parts.days
  rw [← march] at months covered
  have inside : 100 * century + 4 * cycle + year < 400 := by
    obtain ⟨sum, centuries, cycles, years, few, leap⟩ := parts
    omega
  rw [written]
  generalize 100 * century + 4 * cycle + year = y at start inside ⊢
  have sameMonth : (if 2 < monthFromMarch month then monthFromMarch month - 3 else monthFromMarch month + 9) = month := by
    unfold monthFromMarch
    split <;> split <;> omega
  have sameYear : (if monthFromMarch month ≤ 2 then era * 400 + (y : Int) + (if month < 10 then 0 else 1) - 1
      else era * 400 + (y : Int) + (if month < 10 then 0 else 1)) = era * 400 + y := by
    unfold monthFromMarch
    split <;> split <;> omega
  have sameDay : (153 * month + 2) / 5 + (day - (153 * month + 2) / 5 + 1) - 1 = day := by omega
  have quotient : (era * 400 + (y : Int)) / 400 = era := by omega
  have remainder : (era * 400 + (y : Int)) % 400 = y := by omega
  simp only [Date.toDays, sameMonth, sameYear, sameDay, Int.fdiv_eq_ediv_of_nonneg _ (by decide : (0 : Int) ≤ 400),
    Int.fmod_eq_emod_of_nonneg _ (by decide : (0 : Int) ≤ 400), quotient, remainder, Int.toNat_natCast]
  omega

theorem isLeapYear_iff (year : Int) : isLeapYear year = true ↔ year % 4 = 0 ∧ (year % 100 ≠ 0 ∨ year % 400 = 0) := by
  have fourth : year.fmod 4 = year % 4 := Int.fmod_eq_emod_of_nonneg _ (by decide)
  have century : year.fmod 100 = year % 100 := Int.fmod_eq_emod_of_nonneg _ (by decide)
  have era : year.fmod 400 = year % 400 := Int.fmod_eq_emod_of_nonneg _ (by decide)
  simp only [isLeapYear, fourth, century, era, Bool.and_eq_true, Bool.or_eq_true, beq_iff_eq, bne_iff_ne]

theorem day_le_monthLength {year : Int} {day month : Nat} (few : day ≤ 365) (march : month = (5 * day + 2) / 153)
    (leap : day = 365 → isLeapYear (year + 1) = true) :
    day - (153 * month + 2) / 5 + 1 ≤
      monthLength (year + (if month < 10 then 0 else 1)) (monthFromMarch month) := by
  by_cases february : month = 11
  · have second : month - 9 = 2 := by omega
    have later : ¬month < 10 := by omega
    simp only [monthLength, monthFromMarch, if_neg later, second, if_true]
    split
    · omega
    · case isFalse ordinary =>
      have short : day ≠ 365 := fun last => ordinary (leap last)
      omega
  · have other : month = 0 ∨ month = 1 ∨ month = 2 ∨ month = 3 ∨ month = 4 ∨ month = 5 ∨ month = 6 ∨ month = 7 ∨
        month = 8 ∨ month = 9 ∨ month = 10 := by omega
    rcases other with h | h | h | h | h | h | h | h | h | h | h <;> rw [h] at march ⊢ <;>
      simp only [monthLength, monthFromMarch, Nat.reduceLT, Nat.reduceAdd, Nat.reduceSub, Nat.reduceEqDiff, or_false,
        or_true, if_true, if_false] <;> omega

theorem exists?_ofDays (days : Int) : (Date.ofDays days).exists? = true := by
  obtain ⟨era, n, century, cycle, year, day, month, whole, parts, march, written⟩ := ofDays_parts days
  have months := (month_of_day parts.days).1
  rw [← march] at months
  have leapYear (last : day = 365) :
      isLeapYear (era * 400 + (100 * century + 4 * cycle + year : Nat) + 1) = true := by
    obtain ⟨sum, centuries, cycles, years, few, leap⟩ := parts
    obtain ⟨fourth, ends⟩ := leap last
    rw [isLeapYear_iff]
    omega
  have bound := day_le_monthLength parts.days march leapYear
  have named : 1 ≤ monthFromMarch month ∧ monthFromMarch month ≤ 12 := by
    unfold monthFromMarch
    split <;> omega
  rw [written]
  simp only [Date.exists?, Bool.and_eq_true, decide_eq_true_eq]
  exact ⟨⟨named, by omega⟩, bound⟩

end QueryKit.Calendar
