import QueryKit.Coercion
import QueryKit.Proofs.Numerals
import QueryKit.Sql.ArrayLiteral

-- Timezone settings as they are documented, and as they are read: an offset is looked for anywhere in a setting,
-- so that one which only holds an offset is taken for it.

namespace QueryKit.Timezone
open Text

inductive Sign where
  | plus
  | minus
  | space

inductive MinutePart where
  | absent
  | joined (minutes : Fin 100)
  | afterColon (minutes : Fin 100)

structure WrittenOffset where
  sign : Sign
  hours : Fin 100
  minutePart : MinutePart

def Sign.char : Sign → Char
  | .plus => '+'
  | .minus => '-'
  | .space => ' '

def Sign.apply (n : Int) : Sign → Int
  | .minus => -n
  | _ => n

def twoDigits (n : Fin 100) : List Char := [digitChar (n / 10), digitChar n]

def MinutePart.chars : MinutePart → List Char
  | .absent => []
  | .joined minutes => twoDigits minutes
  | .afterColon minutes => ':' :: twoDigits minutes

def MinutePart.minutes : MinutePart → Nat
  | .absent => 0
  | .joined minutes => minutes
  | .afterColon minutes => minutes

namespace WrittenOffset

def chars (w : WrittenOffset) : List Char := w.sign.char :: (twoDigits w.hours ++ w.minutePart.chars)

def minutes (w : WrittenOffset) : Int := w.sign.apply (60 * (w.hours : Nat) + w.minutePart.minutes : Nat)

end WrittenOffset

inductive Documented : String → Timezone → Prop where
  | unset : Documented "" .localTime
  | processClock : Documented "local" .localTime
  | utc : Documented "Z" (.offset 0)
  | offset (w : WrittenOffset) : Documented (String.ofList w.chars) (.offset w.minutes)

-- Every other setting is kept as it is.
def Meant (setting : String) (zone : Timezone) : Prop :=
  Documented setting zone ∨ (∀ other, ¬ Documented setting other) ∧ zone = .unrecognized setting

def BeginsOffset (cs : List Char) : Prop :=
  ∃ sign a b back, cs = sign :: a :: b :: back ∧ isSign sign = true ∧ isDecimalDigit a = true ∧ isDecimalDigit b = true

def HoldsOffset (cs : List Char) : Prop := ∃ rest, rest <:+ cs ∧ BeginsOffset rest

theorem Sign.isSign_char (sign : Sign) : isSign sign.char = true := by
  cases sign <;> rfl

theorem isDecimalDigit_digitChar (n : Nat) : isDecimalDigit (digitChar n) = true :=
  isDecimalDigit_of_isDigit _ (isDigit_digitChar n)

theorem pairValue_twoDigits (n : Fin 100) : pairValue (digitChar (n / 10)) (digitChar n) = (n : Nat) := by
  have small := n.isLt
  simp only [pairValue, digitValue?_digitChar]
  omega

theorem minutesAfterHours_chars (part : MinutePart) : minutesAfterHours part.chars = part.minutes := by
  cases part with
  | absent => rfl
  | joined minutes =>
    have value := pairValue_twoDigits minutes
    simp [MinutePart.chars, twoDigits, minutesAfterHours, isDecimalDigit_digitChar, value, MinutePart.minutes]
  | afterColon minutes =>
    have value := pairValue_twoDigits minutes
    simp [MinutePart.chars, twoDigits, minutesAfterHours, isDecimalDigit_digitChar, value, MinutePart.minutes]

theorem offsetHere?_chars (w : WrittenOffset) : offsetHere? w.chars = some w.minutes := by
  obtain ⟨sign, hours, part⟩ := w
  have value := pairValue_twoDigits hours
  have minutes := minutesAfterHours_chars part
  simp only [WrittenOffset.chars, twoDigits, List.cons_append, List.nil_append, offsetHere?,
    sign.isSign_char, isDecimalDigit_digitChar, Bool.and_self, if_true, value, minutes, WrittenOffset.minutes, Option.some.injEq]
  cases sign <;> simp [Sign.char, Sign.apply] <;> omega

theorem offsetHere?_isSome_iff (cs : List Char) : (offsetHere? cs).isSome = true ↔ BeginsOffset cs := by
  constructor
  · intro found
    unfold offsetHere? at found
    split at found
    · split at found
      · rename_i sign a b back written
        simp only [Bool.and_eq_true] at written
        exact ⟨sign, a, b, back, rfl, written.1.1, written.1.2, written.2⟩
      · cases found
    · cases found
  · rintro ⟨sign, a, b, back, rfl, signed, first, second⟩
    simp [offsetHere?, signed, first, second]

theorem findOffset?_isSome_iff (cs : List Char) : (findOffset? cs).isSome = true ↔ HoldsOffset cs := by
  induction cs with
  | nil =>
    simp only [findOffset?, HoldsOffset, List.suffix_nil, exists_eq_left, BeginsOffset]
    simp
  | cons c r ih =>
    rw [findOffset?, Option.isSome_or, Bool.or_eq_true, offsetHere?_isSome_iff, ih]
    simp only [HoldsOffset, List.suffix_cons_iff, or_and_right, exists_or, exists_eq_left]

theorem first_of_findOffset? {cs : List Char} {minutes : Int} (found : findOffset? cs = some minutes) :
    ∃ rest, rest <:+ cs ∧ offsetHere? rest = some minutes ∧
      ∀ longer, longer <:+ cs → rest.length < longer.length → ¬ BeginsOffset longer := by
  induction cs with
  | nil => cases found
  | cons c r ih =>
    rw [findOffset?] at found
    cases here : offsetHere? (c :: r) with
    | some n =>
      rw [here] at found
      cases found
      refine ⟨c :: r, List.suffix_refl _, here, ?_⟩
      intro longer within more
      exact absurd within.length_le (by omega)
    | none =>
      rw [here, Option.none_or] at found
      obtain ⟨rest, within, read, first⟩ := ih found
      refine ⟨rest, within.trans (List.suffix_cons c r), read, ?_⟩
      intro longer inside more begins
      rcases List.suffix_cons_iff.mp inside with rfl | later
      · rw [← offsetHere?_isSome_iff, here] at begins
        cases begins
      · exact first longer later more begins

theorem findOffset?_chars (w : WrittenOffset) : findOffset? w.chars = some w.minutes := by
  have here := offsetHere?_chars w
  rw [WrittenOffset.chars] at here ⊢
  rw [findOffset?, here]
  rfl

theorem ofSetting_chars (w : WrittenOffset) : ofSetting (String.ofList w.chars) = .offset w.minutes := by
  have first : (String.ofList w.chars).toList.head? = some w.sign.char := by
    rw [String.toList_ofList]
    rfl
  have word : ∀ s : String, s.toList.head? ≠ some w.sign.char → String.ofList w.chars ≠ s := by
    rintro s other rfl
    exact other first
  have unset : String.ofList w.chars ≠ "" := word "" (by simp)
  have processClock : String.ofList w.chars ≠ "local" := word "local" (by cases w.sign <;> decide)
  have utc : String.ofList w.chars ≠ "Z" := word "Z" (by cases w.sign <;> decide)
  unfold ofSetting
  rw [if_neg (not_or.mpr ⟨unset, processClock⟩), if_neg utc, String.toList_ofList, findOffset?_chars]

theorem Documented.taken {setting : String} {zone : Timezone} (documented : Documented setting zone) :
    ofSetting setting = zone := by
  cases documented with
  | unset => rfl
  | processClock => rfl
  | utc => rfl
  | offset w => exact ofSetting_chars w

theorem ofSetting_other {setting : String} (undocumented : ∀ zone, ¬ Documented setting zone) :
    ofSetting setting = (findOffset? setting.toList).elim (.unrecognized setting) .offset := by
  have unset : setting ≠ "" := by
    rintro rfl
    exact undocumented _ .unset
  have processClock : setting ≠ "local" := by
    rintro rfl
    exact undocumented _ .processClock
  have utc : setting ≠ "Z" := by
    rintro rfl
    exact undocumented _ .utc
  unfold ofSetting
  rw [if_neg (not_or.mpr ⟨unset, processClock⟩), if_neg utc]
  cases findOffset? setting.toList <;> rfl

theorem kept_iff {setting : String} (undocumented : ∀ zone, ¬ Documented setting zone) :
    ofSetting setting = .unrecognized setting ↔ ¬ HoldsOffset setting.toList := by
  rw [ofSetting_other undocumented, ← findOffset?_isSome_iff]
  cases findOffset? setting.toList <;> simp

theorem meant_ofSetting_iff (setting : String) :
    Meant setting (ofSetting setting) ↔ (∃ zone, Documented setting zone) ∨ ¬ HoldsOffset setting.toList := by
  by_cases named : ∃ zone, Documented setting zone
  · obtain ⟨zone, documented⟩ := named
    have meant : Meant setting (ofSetting setting) := .inl (documented.taken.symm ▸ documented)
    exact ⟨fun _ => .inl ⟨zone, documented⟩, fun _ => meant⟩
  · have undocumented : ∀ zone, ¬ Documented setting zone := fun zone documented => named ⟨zone, documented⟩
    have kept := kept_iff undocumented
    constructor
    · rintro (documented | ⟨-, taken⟩)
      · exact absurd documented (undocumented _)
      · exact .inr (kept.mp taken)
    · rintro (documented | empty)
      · exact absurd documented named
      · exact .inr ⟨undocumented, kept.mpr empty⟩

theorem first_taken {setting : String} (undocumented : ∀ zone, ¬ Documented setting zone)
    (holds : HoldsOffset setting.toList) :
    ∃ rest minutes, rest <:+ setting.toList ∧ offsetHere? rest = some minutes ∧
      (∀ longer, longer <:+ setting.toList → rest.length < longer.length → ¬ BeginsOffset longer) ∧
      ofSetting setting = .offset minutes := by
  obtain ⟨minutes, found⟩ := Option.isSome_iff_exists.mp ((findOffset?_isSome_iff _).mpr holds)
  obtain ⟨rest, within, read, first⟩ := first_of_findOffset? found
  refine ⟨rest, minutes, within, read, first, ?_⟩
  rw [ofSetting_other undocumented, found]
  rfl

theorem ofSetting_localTime_iff (setting : String) :
    ofSetting setting = .localTime ↔ setting = "" ∨ setting = "local" := by
  constructor
  · intro taken
    by_contra other
    unfold ofSetting at taken
    rw [if_neg other] at taken
    split at taken
    · cases taken
    · split at taken <;> cases taken
  · rintro (rfl | rfl) <;> rfl

theorem Documented.head {setting : String} {zone : Timezone} (documented : Documented setting zone) :
    setting = "" ∨ setting = "local" ∨ setting = "Z" ∨ ∃ c, setting.toList.head? = some c ∧ isSign c = true := by
  cases documented with
  | unset => exact .inl rfl
  | processClock => exact .inr (.inl rfl)
  | utc => exact .inr (.inr (.inl rfl))
  | offset w =>
    refine .inr (.inr (.inr ⟨w.sign.char, ?_, w.sign.isSign_char⟩))
    rw [String.toList_ofList]
    rfl

end QueryKit.Timezone

namespace QueryKit
open Timezone

-- Documented settings are taken for what they stand for, and no others for the local clock. Any other setting is
-- kept, and moves no timestamp, when it holds no offset, and only then; otherwise the first one in it is taken.
theorem setting_meant_iff (setting : String) :
    (∀ zone, Documented setting zone → Timezone.ofSetting setting = zone) ∧
      (Timezone.ofSetting setting = .localTime ↔ setting = "" ∨ setting = "local") ∧
      (Meant setting (Timezone.ofSetting setting) ↔ (∃ zone, Documented setting zone) ∨ ¬ HoldsOffset setting.toList) ∧
      ((∀ zone, ¬ Documented setting zone) → HoldsOffset setting.toList →
        ∃ rest minutes, rest <:+ setting.toList ∧ offsetHere? rest = some minutes ∧
          (∀ longer, longer <:+ setting.toList → rest.length < longer.length → ¬ BeginsOffset longer) ∧
          Timezone.ofSetting setting = .offset minutes) ∧
      (Timezone.ofSetting setting = .unrecognized setting → ∀ toUtc v,
        Coercer.shift (Timezone.ofSetting setting) toUtc v = .ok v) := by
  refine ⟨fun zone documented => documented.taken, ofSetting_localTime_iff setting, meant_ofSetting_iff setting,
    first_taken, ?_⟩
  intro kept toUtc v
  rw [kept]
  cases v <;> rfl

-- A name with an offset in it.
theorem utc_plus_two_taken : Timezone.ofSetting "UTC+02:00" = .offset 120 ∧
    Meant "UTC+02:00" (.unrecognized "UTC+02:00") ∧ ¬ Meant "UTC+02:00" (Timezone.ofSetting "UTC+02:00") := by
  have undocumented : ∀ zone, ¬ Documented "UTC+02:00" zone := by
    intro zone documented
    have letter : "UTC+02:00".toList.head? = some 'U' := by decide
    rcases documented.head with unset | processClock | utc | ⟨c, first, signed⟩
    · exact absurd unset (by decide)
    · exact absurd processClock (by decide)
    · exact absurd utc (by decide)
    · cases letter.symm.trans first
      exact absurd signed (by decide)
  have taken : Timezone.ofSetting "UTC+02:00" = .offset 120 := by decide
  refine ⟨taken, .inr ⟨undocumented, rfl⟩, ?_⟩
  rw [taken]
  rintro (documented | ⟨-, kept⟩)
  · exact undocumented _ documented
  · cases kept

end QueryKit
