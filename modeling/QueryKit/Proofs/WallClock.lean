import QueryKit.Calendar.Reading
import QueryKit.Proofs.CivilDays
import QueryKit.Proofs.Numerals
import QueryKit.Text.Split

-- Days and times read again from the text in which they are written.

namespace QueryKit.Calendar
open Text Decimal

theorem length_digits_le (width n : Nat) (wide : 0 < width) (small : n < tenTo width) :
    (digits n).length ≤ width := by
  induction width generalizing n with
  | zero => cases wide
  | succ width ih =>
    rw [digits]
    split
    · exact wide
    · rw [tenTo_succ] at small
      cases width with
      | zero => rw [tenTo_zero] at small; omega
      | succ width =>
        have shorter := ih (n / 10) (Nat.succ_pos width) (by omega)
        rw [List.length_append, List.length_singleton]
        omega

theorem length_padded {width n : Nat} (wide : 0 < width) (small : n < tenTo width) :
    (padded width n).length = width := by
  have bound := length_digits_le width n wide small
  simp only [padded, List.length_append, List.length_replicate]
  omega

theorem isDigit_of_mem_padded (width n : Nat) : ∀ c ∈ padded width n, c.isDigit = true :=
  List.forall_mem_append.mpr ⟨isDigit_of_mem_zeros _, isDigit_of_mem_digits n⟩

theorem padded_ne_nil (width n : Nat) : padded width n ≠ [] := by
  simp [padded, digits_ne_nil]

theorem readDigits_zeros (k : Nat) (cs : List Char) :
    readDigits 0 (List.replicate k '0' ++ cs) = readDigits 0 cs := by
  induction k with
  | zero => rfl
  | succ k ih =>
    have zero : digitValue? '0' = some 0 := rfl
    rw [List.replicate_succ, List.cons_append, readDigits, zero]
    exact ih

theorem readNat_padded (width n : Nat) : readNat (padded width n) = some n := by
  obtain ⟨c, r, spelled⟩ := List.exists_cons_of_ne_nil (padded_ne_nil width n)
  have value := readDigits_zeros (width - (digits n).length) (digits n)
  rw [readDigits_digits] at value
  rw [spelled, readNat, ← spelled]
  exact value

def Stops (cs : List Char) : Prop := ∀ c r, cs = c :: r → c.isDigit = false

theorem stops_nil : Stops [] := by
  intro c r same
  cases same

theorem stops_cons {c : Char} (r : List Char) (other : c.isDigit = false) : Stops (c :: r) := by
  intro d s same
  cases same
  exact other

theorem takeWhile_digits {ds r : List Char} (all : ∀ c ∈ ds, c.isDigit = true) (stops : Stops r) :
    (ds ++ r).takeWhile Char.isDigit = ds := (parted_run Char.isDigit all stops).1

theorem readCount_digits {width n : Nat} {ds r : List Char} (all : ∀ c ∈ ds, c.isDigit = true)
    (value : readNat ds = some n) (fits : ds.length ≤ width) (stops : ds.length < width → Stops r) :
    readCount width (ds ++ r) = some (n, r) := by
  have ended : Stops (r.take (width - ds.length)) := by
    intro c s same
    have room : ds.length < width := by
      by_contra full
      rw [Nat.sub_eq_zero_of_le (by omega)] at same
      cases same
    cases r with
    | nil => simp at same
    | cons d r =>
      obtain ⟨k, more⟩ := Nat.exists_eq_add_of_lt room
      have count : width - ds.length = k + 1 := by omega
      rw [count, List.take_succ_cons] at same
      cases same
      exact stops room c r rfl
  have taken : ((ds ++ r).take width).takeWhile Char.isDigit = ds := by
    rw [List.take_append, List.take_of_length_le fits]
    exact takeWhile_digits all ended
  simp only [readCount, taken, value, Option.map_some, List.drop_left]

theorem isBlank_digit {c : Char} (digit : c.isDigit = true) : isBlank c = false := by
  simp only [Char.isDigit, Bool.and_eq_true, decide_eq_true_eq, UInt32.le_iff_toNat_le] at digit
  have low : 48 ≤ c.toNat := digit.1
  have high : c.toNat ≤ 57 := digit.2
  simp only [isBlank, Bool.or_eq_false_iff, Bool.and_eq_false_iff, decide_eq_false_iff_not, beq_eq_false_iff_ne]
  omega

theorem readPart_padded {width n : Nat} (wide : 0 < width) (small : n < tenTo width) (r : List Char) :
    readPart width (padded width n ++ r) = .some (n, r) := by
  have all := isDigit_of_mem_padded width n
  obtain ⟨c, cs, spelled⟩ := List.exists_cons_of_ne_nil (padded_ne_nil width n)
  have solid : isBlank c = false := isBlank_digit (all c (spelled ▸ List.mem_cons_self))
  have kept : (padded width n ++ r).dropWhile isBlank = padded width n ++ r := by
    rw [spelled, List.cons_append, List.dropWhile_cons_of_neg (by simp [solid])]
  rw [readPart, kept]
  have full := length_padded wide small
  exact readCount_digits all (readNat_padded width n) (by omega) (by omega)

theorem readLiteral_cons (c : Char) (r : List Char) : readLiteral c (c :: r) = some r := if_pos rfl

theorem readCount_year (n : Nat) (r : List Char) :
    readCount (padded 4 n ++ '-' :: r).length (padded 4 n ++ '-' :: r) = some (n, '-' :: r) := by
  refine readCount_digits (isDigit_of_mem_padded 4 n) (readNat_padded 4 n) ?_ fun _ => stops_cons r rfl
  rw [List.length_append]
  omega

theorem readYear_yearText (year : Int) (r : List Char) :
    readYear (yearText year ++ '-' :: r) = some (year, '-' :: r) := by
  unfold yearText
  split
  case isTrue four =>
    have small : year.natAbs < tenTo 4 := by
      show year.natAbs < 10000
      omega
    have all := isDigit_of_mem_padded 4 year.natAbs
    have full := length_padded (by decide) small
    have read : readCount 4 (padded 4 year.natAbs ++ '-' :: r) = some (year.natAbs, '-' :: r) :=
      readCount_digits all (readNat_padded 4 year.natAbs) (by omega) (by omega)
    obtain ⟨c, cs, spelled⟩ := List.exists_cons_of_ne_nil (padded_ne_nil 4 year.natAbs)
    have digit : c.isDigit = true := all c (spelled ▸ List.mem_cons_self)
    rw [spelled] at read ⊢
    unfold readYear
    rw [List.cons_append, List.dropWhile_cons_of_neg (by simp [isBlank_digit digit])]
    split
    case h_1 same => cases same; cases digit
    case h_2 same => cases same; cases digit
    case h_3 =>
      have same : (year.natAbs : Int) = year := by omega
      simp only [← List.cons_append, read, Option.map_some, same]
  case isFalse sign =>
    by_cases below : year < 0
    · rw [if_pos below, List.cons_append]
      have minus : ('-' :: (padded 4 year.natAbs ++ '-' :: r)).dropWhile isBlank =
        '-' :: (padded 4 year.natAbs ++ '-' :: r) := rfl
      have same : -(year.natAbs : Int) = year := by omega
      simp only [readYear, minus, readCount_year, Option.map_some, same]
    · rw [if_neg below, List.cons_append]
      have plus : ('+' :: (padded 4 year.natAbs ++ '-' :: r)).dropWhile isBlank =
        '+' :: (padded 4 year.natAbs ++ '-' :: r) := rfl
      have same : (year.natAbs : Int) = year := by omega
      simp only [readYear, plus, readCount_year, Option.map_some, same]

theorem readDay_text {d : Date} (real : d.exists? = true) (near : (Instant.ofParts d (.ofSeconds 0 0)).inRange = true)
    (r : List Char) : readDay (d.text.toList ++ r) = some (d, r) := by
  obtain ⟨year, month, day⟩ := d
  obtain ⟨months, days⟩ : month < tenTo 2 ∧ day < tenTo 2 := by
    have bounds := real
    simp only [Date.exists?, Bool.and_eq_true, decide_eq_true_eq] at bounds
    have longest : monthLength year month ≤ 31 := by
      unfold monthLength
      split
      · split <;> decide
      · split <;> decide
    show month < 100 ∧ day < 100
    omega
  have spelled : Date.text ⟨year, month, day⟩ =
    String.ofList (yearText year ++ '-' :: padded 2 month ++ '-' :: padded 2 day) := rfl
  have monthRead := readPart_padded (by decide) months ('-' :: (padded 2 day ++ r))
  have dayRead := readPart_padded (by decide) days r
  rw [spelled, String.toList_ofList]
  simp only [List.append_assoc, List.cons_append, readDay, readYear_yearText, Option.bind_eq_bind, Option.bind_some,
    readLiteral_cons, monthRead, dayRead, real, near, Bool.and_self, if_true]

theorem readFraction_milliseconds {nanos : Nat} (whole : nanos % 1000000 = 0) {r : List Char} (stops : Stops r) :
    readFraction (millisecondText nanos ++ r) = some (nanos % secondNanos, r) := by
  have small : nanos % secondNanos / 1000000 < tenTo 3 := by
    show nanos % 1000000000 / 1000000 < 1000
    omega
  have exact : nanos % secondNanos / 1000000 * 1000000 = nanos % secondNanos := by
    show nanos % 1000000000 / 1000000 * 1000000 = nanos % 1000000000
    omega
  have all := isDigit_of_mem_padded 3 (nanos % secondNanos / 1000000)
  have full := length_padded (by decide) small
  have nine : (padded 3 (nanos % secondNanos / 1000000)).take 9 = padded 3 (nanos % secondNanos / 1000000) :=
    List.take_of_length_le (by omega)
  have million : tenTo (9 - 3) = 1000000 := rfl
  have behind : (padded 3 (nanos % secondNanos / 1000000) ++ r).drop 3 = r := List.drop_left' full
  simp only [millisecondText, List.cons_append, readFraction, takeWhile_digits all stops, nine, readNat_padded, full,
    million, exact, Option.map_some, behind]

-- A time of day. Only the last second of a minute may be a leap second.
structure Time.Real (t : Time) : Prop where
  hours : t.hour < 24
  minutes : t.minute < 60
  seconds : t.second < 60
  fraction : t.nanos < 2 * secondNanos
  leap : secondNanos ≤ t.nanos → t.second = 59

theorem readClock_text {t : Time} (real : t.Real) (whole : t.nanos % 1000000 = 0) {r : List Char} (stops : Stops r) :
    readClock (t.clock ++ millisecondText t.nanos ++ r) = some (t, r) := by
  obtain ⟨hour, minute, second, nanos⟩ := t
  obtain ⟨hours, minutes, seconds, fraction, leap⟩ := real
  simp only at hours minutes seconds fraction leap whole ⊢
  have carried : (nanos < secondNanos ∧ nanos / secondNanos = 0) ∨
      (secondNanos ≤ nanos ∧ nanos / secondNanos = 1 ∧ nanos % secondNanos + secondNanos = nanos ∧ second = 59) := by
    unfold secondNanos at fraction leap ⊢
    omega
  have two : tenTo 2 = 100 := rfl
  have sixty : second + nanos / secondNanos < tenTo 2 := by omega
  have hourRead := readPart_padded (by decide) (show hour < tenTo 2 by omega)
  have minuteRead := readPart_padded (by decide) (show minute < tenTo 2 by omega)
  have secondRead := readPart_padded (by decide) sixty
  have inside : (23 < hour || 59 < minute || 60 < second + nanos / secondNanos) = false := by
    simp only [Bool.or_eq_false_iff, decide_eq_false_iff_not]
    omega
  simp only [Time.clock, List.append_assoc, List.cons_append, readClock, hourRead, minuteRead, secondRead,
    Option.bind_eq_bind, Option.bind_some, readLiteral_cons, readFraction_milliseconds whole stops, inside,
    Bool.false_eq_true, if_false]
  rcases carried with ⟨below, leapless⟩ | ⟨above, one, total, last⟩
  · have ordinary : ¬second + nanos / secondNanos = 60 := by omega
    rw [if_neg ordinary, leapless, Nat.add_zero, Nat.mod_eq_of_lt below]
  · have leaps : second + nanos / secondNanos = 60 := by omega
    rw [if_pos leaps, total, last]

namespace Instant

-- A point in time of the calendar, leap seconds at the end of a minute only.
structure Real (t : Instant) : Prop where
  fraction : t.nanos < 2 * secondNanos
  leap : secondNanos ≤ t.nanos → t.seconds % 60 = 59

theorem time_real {t : Instant} (real : t.Real) : t.time.Real := by
  obtain ⟨fraction, leap⟩ := real
  have day : t.seconds.fmod 86400 = t.seconds % 86400 := Int.fmod_eq_emod_of_nonneg _ (by decide)
  refine ⟨?_, ?_, ?_, fraction, fun above => ?_⟩
  · show (t.seconds.fmod 86400).toNat / 3600 < 24
    omega
  · exact Nat.mod_lt _ (by decide)
  · exact Nat.mod_lt _ (by decide)
  · have last := leap above
    show (t.seconds.fmod 86400).toNat % 60 = 59
    omega

theorem ofParts_date_time (t : Instant) : ofParts t.date t.time = t := by
  obtain ⟨seconds, nanos⟩ := t
  have days : seconds.fdiv 86400 = seconds / 86400 := Int.fdiv_eq_ediv_of_nonneg _ (by decide)
  have day : seconds.fmod 86400 = seconds % 86400 := Int.fmod_eq_emod_of_nonneg _ (by decide)
  simp only [ofParts, date, time, Time.ofSeconds, toDays_ofDays, mk.injEq, and_true]
  omega

theorem midnight_inRange {t : Instant} (near : t.inRange = true) :
    (ofParts t.date (.ofSeconds 0 0)).inRange = true := by
  have days : t.seconds.fdiv 86400 = t.seconds / 86400 := Int.fdiv_eq_ediv_of_nonneg _ (by decide)
  simp only [inRange, Bool.and_eq_true, decide_eq_true_eq, ofParts, date, Time.ofSeconds, toDays_ofDays] at near ⊢
  unfold earliest latest at near ⊢
  omega

theorem shift_real {t : Instant} (real : t.Real) (minutes : Int) : (t.shift minutes).Real := by
  obtain ⟨fraction, leap⟩ := real
  have rest : t.nanos - secondNanos < secondNanos := by omega
  unfold shift
  split
  · case isTrue below => exact ⟨fraction, fun above => absurd below (Nat.not_lt.mpr above)⟩
  · split
    · exact ⟨Nat.lt_trans rest (by decide), fun above => absurd above (Nat.not_le.mpr rest)⟩
    · split
      · exact ⟨Nat.lt_trans rest (by decide), fun above => absurd above (Nat.not_le.mpr rest)⟩
      · exact ⟨fraction, leap⟩

theorem shift_whole {t : Instant} (whole : t.nanos % 1000000 = 0) (minutes : Int) :
    (t.shift minutes).nanos % 1000000 = 0 := by
  have taken : (t.nanos - secondNanos) % 1000000 = 0 := by
    unfold secondNanos
    omega
  unfold shift
  split
  · exact whole
  · split
    · exact taken
    · split
      · exact taken
      · exact whole

end Instant

end QueryKit.Calendar
