import QueryKit.Json.Printer
import QueryKit.Json.Reader
import QueryKit.Proofs.ArrayStorage
import QueryKit.Text.Split

-- A JSON text tells its value. Of two values that are written with something behind them, the beginning of one
-- never is the other: where the whole is the same, so are the values and what stands behind them.

namespace QueryKit.Json
open Text

theorem escapedChar_cases (c : Char) :
    (∃ e, escapedChar c = ['\\', e] ∧ simpleEscape? e = some c ∧ e ≠ 'u') ∨
    (c.toNat < 32 ∧ escapedChar c = ['\\', 'u', '0', '0', hexDigit (c.toNat / 16), hexDigit c.toNat]) ∨
    (escapedChar c = [c] ∧ ¬ (c.toNat < 32 ∨ c = '\\') ∧ c ≠ '"') := by
  unfold escapedChar
  split
  case isTrue same =>
    subst same
    exact .inl ⟨'"', rfl, rfl, by decide⟩
  case isFalse quote =>
  split
  case isTrue same =>
    subst same
    exact .inl ⟨'\\', rfl, rfl, by decide⟩
  case isFalse backslash =>
  split
  case isTrue same => exact .inl ⟨'n', rfl, same ▸ rfl, by decide⟩
  split
  case isTrue same => exact .inl ⟨'r', rfl, same ▸ rfl, by decide⟩
  split
  case isTrue same => exact .inl ⟨'t', rfl, same ▸ rfl, by decide⟩
  split
  case isTrue same =>
    have bell : Char.ofNat 8 = c := by rw [← same, Char.ofNat_toNat]
    exact .inl ⟨'b', rfl, bell ▸ rfl, by decide⟩
  split
  case isTrue same =>
    have feed : Char.ofNat 12 = c := by rw [← same, Char.ofNat_toNat]
    exact .inl ⟨'f', rfl, feed ▸ rfl, by decide⟩
  split
  case isTrue small => exact .inr (.inl ⟨small, rfl⟩)
  case isFalse large => exact .inr (.inr ⟨rfl, not_or.mpr ⟨large, backslash⟩, quote⟩)

theorem readLetters_simple {e c : Char} (simple : simpleEscape? e = some c) (other : e ≠ 'u') (r : List Char) :
    readLetters ('\\' :: e :: r) = (readLetters r).map fun (s, rest) => (.char c :: s, rest) := by
  rw [readLetters, simple]
  · cases readLetters r <;> rfl
  · intro a b c d rest same
    exact absurd same other

theorem readLetters_plain {c : Char} (printed : ¬ (c.toNat < 32 ∨ c = '\\')) (other : c ≠ '"') (r : List Char) :
    readLetters (c :: r) = (readLetters r).map fun (s, rest) => (.char c :: s, rest) := by
  rw [readLetters, if_neg printed]
  · cases readLetters r <;> rfl
  · exact other
  · intro a b c d rest same
    exact absurd (.inr same) printed
  · intro e rest same
    exact absurd (.inr same) printed

theorem readHexNat_control {n : Nat} (small : n < 32) : readHexNat ['0', '0', hexDigit (n / 16), hexDigit n] = some n := by
  have zero : hexValue? '0' = some 0 := by decide
  simp only [readHexNat, List.foldlM_cons, List.foldlM_nil, zero, hexValue?_hexDigit, Option.map_some,
    Option.bind_eq_bind, Option.bind_some, Option.pure_def, Option.some.injEq]
  omega

theorem lettersText?_unit {n : Nat} (small : n < 32) (s : List Letter) :
    lettersText? (.unit n :: s) = (lettersText? s).map (Char.ofNat n :: ·) := by
  have high : isHighSurrogate n = false := by
    simp only [isHighSurrogate, Bool.and_eq_false_iff, decide_eq_false_iff_not]
    omega
  have low : isLowSurrogate n = false := by
    simp only [isLowSurrogate, Bool.and_eq_false_iff, decide_eq_false_iff_not]
    omega
  cases s with
  | nil => simp [lettersText?, high, low]
  | cons next r => cases next <;> simp [lettersText?, high, low]

theorem readLetters_escapedChar (c : Char) : ∃ letter,
    (∀ r, readLetters (escapedChar c ++ r) = (readLetters r).map fun (s, rest) => (letter :: s, rest)) ∧
    ∀ s, lettersText? (letter :: s) = (lettersText? s).map (c :: ·) := by
  rcases escapedChar_cases c with ⟨e, spelled, simple, other⟩ | ⟨small, spelled⟩ | ⟨spelled, printed, other⟩
  · refine ⟨.char c, fun r => ?_, fun s => rfl⟩
    rw [spelled]
    exact readLetters_simple simple other r
  · refine ⟨.unit c.toNat, fun r => ?_, fun s => ?_⟩
    · rw [spelled]
      simp only [List.cons_append, List.nil_append, readLetters, readHexNat_control small]
      cases readLetters r <;> rfl
    · rw [lettersText?_unit small, Char.ofNat_toNat]
  · refine ⟨.char c, fun r => ?_, fun s => rfl⟩
    rw [spelled]
    exact readLetters_plain printed other r

theorem readLetters_escaped (cs : List Char) :
    ∃ s, (∀ r, readLetters (cs.flatMap escapedChar ++ '"' :: r) = some (s, r)) ∧ lettersText? s = some cs := by
  induction cs with
  | nil => exact ⟨[], fun _ => rfl, rfl⟩
  | cons c cs ih =>
    obtain ⟨s, read, told⟩ := ih
    obtain ⟨letter, first, stands⟩ := readLetters_escapedChar c
    refine ⟨letter :: s, ?_, ?_⟩
    · intro r
      rw [List.flatMap_cons, List.append_assoc, first, read]
      rfl
    · rw [stands, told]
      rfl

theorem quoted_apart {a b : String} {r s : List Char} (same : quoted a ++ r = quoted b ++ s) : a = b ∧ r = s := by
  have behind : a.toList.flatMap escapedChar ++ '"' :: r = b.toList.flatMap escapedChar ++ '"' :: s := by
    simpa [quoted] using same
  obtain ⟨first, read, told⟩ := readLetters_escaped a.toList
  obtain ⟨second, readToo, toldToo⟩ := readLetters_escaped b.toList
  have both := read r
  rw [behind, readToo s] at both
  cases both
  exact ⟨String.ext (Option.some.inj (told.symm.trans toldToo)), rfl⟩

def Ended (cs : List Char) : Prop := ∀ c r, cs = c :: r → c = ',' ∨ c = ']' ∨ c = '\x7d'

theorem ended_nil : Ended [] := by
  intro c r same
  cases same

theorem ended_cons {c : Char} (r : List Char) (mark : c = ',' ∨ c = ']' ∨ c = '\x7d') : Ended (c :: r) := by
  intro d s same
  cases same
  exact mark

theorem takeWhile_intDigits (i : Int) {r : List Char} (ended : Ended r) :
    (intDigits i ++ r).takeWhile (fun c => c == '-' || c.isDigit) = intDigits i := by
  refine (parted_run _ ?_ ?_).1
  · intro c member
    rcases mem_intDigits i c member with rfl | digit
    · rfl
    · simp [digit]
  · intro c s following
    rcases ended c s following with rfl | rfl | rfl <;> decide

theorem intDigits_apart {m n : Int} {r s : List Char} (ended : Ended r) (endedToo : Ended s)
    (same : intDigits m ++ r = intDigits n ++ s) : m = n ∧ r = s := by
  have digits : intDigits m = intDigits n := by
    rw [← takeWhile_intDigits m ended, same, takeWhile_intDigits n endedToo]
  have read := readInt_intDigits m
  rw [digits, readInt_intDigits] at read
  rw [digits] at same
  exact ⟨(Option.some.inj read).symm, List.append_cancel_left same⟩

def following {α : Type} (f : α → List Char) (close : Char) : List α → List Char → List Char
  | [], r => close :: r
  | a :: as, r => ',' :: (f a ++ following f close as r)

section
variable {α : Type} {f : α → List Char} {close : Char} {plain : α → Prop}

theorem separated_following (a : α) (as : List α) (r : List Char) :
    separated ((a :: as).map f) ++ close :: r = f a ++ following f close as r := by
  induction as generalizing a with
  | nil => rfl
  | cons b as ih =>
    have more : separated ((a :: b :: as).map f) = f a ++ ',' :: separated ((b :: as).map f) := rfl
    rw [more, List.append_assoc, List.cons_append, ih]
    rfl

theorem ended_following (mark : close = ']' ∨ close = '\x7d') (as : List α) (r : List Char) :
    Ended (following f close as r) := by
  cases as with
  | nil => exact ended_cons r (.inr mark)
  | cons a as => exact ended_cons _ (.inl rfl)

theorem following_apart (mark : close = ']' ∨ close = '\x7d') {as bs : List α} {r s : List Char}
    (apart : ∀ a ∈ as, ∀ b, plain b → ∀ r s, Ended r → Ended s → f a ++ r = f b ++ s → a = b ∧ r = s)
    (others : ∀ b ∈ bs, plain b) (same : following f close as r = following f close bs s) : as = bs ∧ r = s := by
  have comma : ',' ≠ close := by rcases mark with rfl | rfl <;> decide
  induction as generalizing bs with
  | nil =>
    cases bs with
    | nil => exact ⟨rfl, (List.cons.inj same).2⟩
    | cons b bs => exact absurd (List.cons.inj same).1.symm comma
  | cons a as ih =>
    cases bs with
    | nil => exact absurd (List.cons.inj same).1 comma
    | cons b bs =>
      obtain ⟨first, firsts⟩ := List.forall_mem_cons.mp apart
      obtain ⟨other, rest⟩ := List.forall_mem_cons.mp others
      obtain ⟨rfl, behind⟩ := first b other _ _ (ended_following mark as r) (ended_following mark bs s) (List.cons.inj same).2
      obtain ⟨rfl, ended⟩ := ih firsts rest behind
      exact ⟨rfl, ended⟩

theorem separated_apart (mark : close = ']' ∨ close = '\x7d') {as bs : List α} {r s : List Char}
    (opens : ∀ a, plain a → ∃ c t, f a = c :: t ∧ c ≠ close) (each : ∀ a ∈ as, plain a) (others : ∀ b ∈ bs, plain b)
    (apart : ∀ a ∈ as, ∀ b, plain b → ∀ r s, Ended r → Ended s → f a ++ r = f b ++ s → a = b ∧ r = s)
    (same : separated (as.map f) ++ close :: r = separated (bs.map f) ++ close :: s) : as = bs ∧ r = s := by
  cases as with
  | nil =>
    cases bs with
    | nil => exact ⟨rfl, (List.cons.inj same).2⟩
    | cons b bs =>
      obtain ⟨c, t, spelled, other⟩ := opens b (others b List.mem_cons_self)
      rw [separated_following, spelled] at same
      exact absurd (List.cons.inj same).1.symm other
  | cons a as =>
    obtain ⟨c, t, spelled, other⟩ := opens a (each a List.mem_cons_self)
    cases bs with
    | nil =>
      rw [separated_following, spelled] at same
      exact absurd (List.cons.inj same).1 other
    | cons b bs =>
      obtain ⟨first, firsts⟩ := List.forall_mem_cons.mp apart
      obtain ⟨own, rest⟩ := List.forall_mem_cons.mp others
      rw [separated_following, separated_following] at same
      obtain ⟨rfl, behind⟩ := first b own _ _ (ended_following mark as r) (ended_following mark bs s) same
      obtain ⟨rfl, ended⟩ := following_apart mark firsts rest behind
      exact ⟨rfl, ended⟩

end

inductive RealFree : Json → Prop where
  | null : RealFree .null
  | bool (b : Bool) : RealFree (.bool b)
  | integer (n : Int) : RealFree (.integer n)
  | text (s : String) : RealFree (.text s)
  | array {items : List Json} (each : ∀ j ∈ items, RealFree j) : RealFree (.array items)
  | object {members : List (String × Json)} (each : ∀ m ∈ members, RealFree m.2) : RealFree (.object members)

inductive Kind where
  | null
  | bool
  | number
  | text
  | array
  | object
  deriving DecidableEq

def kind : Json → Kind
  | .null => .null
  | .bool _ => .bool
  | .integer _ | .real _ => .number
  | .text _ => .text
  | .array _ => .array
  | .object _ => .object

def kind? (c : Char) : Option Kind :=
  if c = 'n' then some .null
  else if c = 't' ∨ c = 'f' then some .bool
  else if c = '"' then some .text
  else if c = '[' then some .array
  else if c = '\x7b' then some .object
  else if c = '-' ∨ c.isDigit then some .number
  else none

theorem kind?_digit {c : Char} (digit : c.isDigit = true) : kind? c = some .number := by
  have others : c ≠ 'n' ∧ c ≠ 't' ∧ c ≠ 'f' ∧ c ≠ '"' ∧ c ≠ '[' ∧ c ≠ '\x7b' := by
    refine ⟨?_, ?_, ?_, ?_, ?_, ?_⟩ <;> (rintro rfl; revert digit; decide)
  simp [kind?, others, digit]

theorem chars_kind {j : Json} (plain : RealFree j) : ∃ c r, chars j = c :: r ∧ kind? c = some j.kind := by
  cases plain with
  | null => exact ⟨'n', _, rfl, by decide⟩
  | bool b =>
    cases b with
    | true => exact ⟨'t', _, rfl, by decide⟩
    | false => exact ⟨'f', _, rfl, by decide⟩
  | integer n =>
    obtain ⟨c, r, spelled⟩ := List.exists_cons_of_ne_nil (intDigits_ne_nil n)
    refine ⟨c, r, spelled, ?_⟩
    rcases mem_intDigits n c (by simp [spelled]) with rfl | digit
    · rfl
    · exact kind?_digit digit
  | text s => exact ⟨'"', _, rfl, rfl⟩
  | array each => exact ⟨'[', _, rfl, rfl⟩
  | object each => exact ⟨'\x7b', _, rfl, rfl⟩

theorem itemChars_eq_map (items : List Json) : itemChars items = items.map chars := by
  induction items with
  | nil => rfl
  | cons j r ih => rw [itemChars, ih, List.map_cons]

def memberText (m : String × Json) : List Char := quoted m.1 ++ ':' :: chars m.2

theorem memberChars_eq_map (members : List (String × Json)) :
    memberChars members = members.map memberText := by
  induction members with
  | nil => rfl
  | cons m r ih =>
    rw [memberChars, ih]
    rfl

theorem kind_of_same {j k : Json} (plain : RealFree j) (other : RealFree k) {r s : List Char}
    (same : chars j ++ r = chars k ++ s) : j.kind = k.kind := by
  obtain ⟨c, t, spelled, first⟩ := chars_kind plain
  obtain ⟨d, u, spelledToo, second⟩ := chars_kind other
  rw [spelled, spelledToo] at same
  obtain ⟨rfl, _⟩ := List.cons.inj same
  exact Option.some.inj (first.symm.trans second)

theorem chars_opens {close : Char} (mark : close = ']' ∨ close = '\x7d') (j : Json) (plain : RealFree j) :
    ∃ c r, chars j = c :: r ∧ c ≠ close := by
  obtain ⟨c, r, spelled, begins⟩ := chars_kind plain
  refine ⟨c, r, spelled, ?_⟩
  rintro rfl
  rcases mark with rfl | rfl <;> cases begins

theorem member_apart {a b : String × Json} {r s : List Char}
    (apart : ∀ r s, Ended r → Ended s → chars a.2 ++ r = chars b.2 ++ s → a.2 = b.2 ∧ r = s) (ended : Ended r)
    (endedToo : Ended s) (same : memberText a ++ r = memberText b ++ s) :
    a = b ∧ r = s := by
  rw [memberText, memberText, List.append_assoc, List.append_assoc] at same
  obtain ⟨name, behind⟩ := quoted_apart same
  obtain ⟨value, rest⟩ := apart r s ended endedToo (List.cons.inj behind).2
  exact ⟨Prod.ext name value, rest⟩

theorem chars_array (items : List Json) (r : List Char) :
    chars (.array items) ++ r = '[' :: (separated (items.map chars) ++ ']' :: r) := by
  simp [chars, itemChars_eq_map]

theorem chars_object (members : List (String × Json)) (r : List Char) :
    chars (.object members) ++ r = '\x7b' :: (separated (members.map memberText) ++ '\x7d' :: r) := by
  simp [chars, memberChars_eq_map]

-- By induction on the first value; what is behind it changes from level to level.
theorem chars_apart {j k : Json} (plain : RealFree j) (other : RealFree k) {r s : List Char} (ended : Ended r)
    (endedToo : Ended s) (same : chars j ++ r = chars k ++ s) : j = k ∧ r = s := by
  induction plain generalizing k r s with
  | null =>
    have kinds := kind_of_same .null other same
    cases other with
    | null => exact ⟨rfl, List.append_cancel_left same⟩
    | _ => cases kinds
  | bool a =>
    have kinds := kind_of_same (.bool a) other same
    cases other with
    | bool b => cases a <;> cases b <;> simp_all [chars]
    | _ => cases kinds
  | integer m =>
    have kinds := kind_of_same (.integer m) other same
    cases other with
    | integer n =>
      obtain ⟨rfl, rest⟩ := intDigits_apart ended endedToo same
      exact ⟨rfl, rest⟩
    | _ => cases kinds
  | text a =>
    have kinds := kind_of_same (.text a) other same
    cases other with
    | text b =>
      obtain ⟨rfl, rest⟩ := quoted_apart same
      exact ⟨rfl, rest⟩
    | _ => cases kinds
  | @array items each ih =>
    have kinds := kind_of_same (.array each) other same
    cases other with
    | @array others eachToo =>
      rw [chars_array, chars_array] at same
      have apart : ∀ a ∈ items, ∀ b, RealFree b → ∀ r s, Ended r → Ended s → chars a ++ r = chars b ++ s → a = b ∧ r = s := by
        intro a here b plain r s ended endedToo same
        exact ih a here plain ended endedToo same
      obtain ⟨rfl, rest⟩ := separated_apart (.inl rfl) (chars_opens (.inl rfl)) each eachToo apart (List.cons.inj same).2
      exact ⟨rfl, rest⟩
    | _ => cases kinds
  | @object members each ih =>
    have kinds := kind_of_same (.object each) other same
    cases other with
    | @object others eachToo =>
      rw [chars_object, chars_object] at same
      have opens : ∀ m : String × Json, RealFree m.2 → ∃ c r, memberText m = c :: r ∧ c ≠ '\x7d' := by
        intro m plain
        exact ⟨'"', _, rfl, by decide⟩
      have apart : ∀ a ∈ members, ∀ b : String × Json, RealFree b.2 → ∀ r s, Ended r → Ended s →
          memberText a ++ r = memberText b ++ s → a = b ∧ r = s := by
        intro a here b plain r s ended endedToo same
        exact member_apart (fun r s ended endedToo same => ih a here plain ended endedToo same) ended endedToo same
      obtain ⟨rfl, rest⟩ := separated_apart (.inr rfl) opens each eachToo apart (List.cons.inj same).2
      exact ⟨rfl, rest⟩
    | _ => cases kinds

theorem chars_injective {j k : Json} (plain : RealFree j) (other : RealFree k) (same : chars j = chars k) : j = k := by
  refine (chars_apart plain other ended_nil ended_nil ?_).1
  rw [same]

end QueryKit.Json
