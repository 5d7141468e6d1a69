import Mathlib.Data.List.DropRight
import QueryKit.Property.ArrayText
import QueryKit.Text.Split

-- Stored arrays element by element: text that reads as an element in front of a comma or a closing brace,
-- whatever comes behind, and arrays put together of such text.

namespace QueryKit.Text

theorem trim_eq_self (cs : List Char) : trim cs = cs ↔ cs.dropWhile isBlank = cs ∧ cs.rdropWhile isBlank = cs := by
  constructor
  · intro same
    have front := List.dropWhile_suffix isBlank (l := cs)
    have back := (List.rdropWhile_prefix isBlank (cs.dropWhile isBlank)).length_le
    have length : ((cs.dropWhile isBlank).rdropWhile isBlank).length = cs.length := congrArg List.length same
    have whole : cs.dropWhile isBlank = cs := front.eq_of_length_le (by omega)
    have rest : (cs.dropWhile isBlank).rdropWhile isBlank = cs := same
    rw [whole] at rest
    exact ⟨whole, rest⟩
  · rintro ⟨front, back⟩
    show (cs.dropWhile isBlank).rdropWhile isBlank = cs
    rw [front, back]

theorem trim_eq_self_iff (cs : List Char) :
    trim cs = cs ↔ (∀ c ∈ cs.head?, isBlank c = false) ∧ ∀ c ∈ cs.getLast?, isBlank c = false := by
  rw [trim_eq_self, List.dropWhile_eq_self_iff, List.rdropWhile_eq_self_iff]
  cases cs with
  | nil => simp
  | cons c r => simp [List.getLast?_eq_some_getLast]

end QueryKit.Text

namespace QueryKit.ArrayText
open Text

def readElement (type : ElementType) (cs : List Char) : Option (Value × List Char) :=
  match cs with
  | '\x7b' :: '\x7d' :: r => some (.array [], r)
  | '\x7b' :: r =>
    match readElements type r with
    | some (items, rest) => some (.array items, rest)
    | none => none
  | '"' :: r =>
    match readQuoted r with
    | some (text, rest) => some (.text (String.ofList text), rest)
    | none => none
  | _ => some (bareElement type (trim (cs.takeWhile isBare)), cs.dropWhile isBare)

variable {type : ElementType}

theorem readElements_eq (cs : List Char) : readElements type cs =
    match readElement type cs with
    | some (v, ',' :: r) =>
      if r.length < cs.length then
        match readElements type r with
        | some (items, rest) => some (v :: items, rest)
        | none => none
      else none
    | some (v, '\x7d' :: r) => some ([v], r)
    | _ => none := by
  rw [readElements.eq_def]
  rfl

theorem readElements_more {cs r : List Char} {v : Value} (element : readElement type cs = some (v, ',' :: r))
    (shorter : r.length < cs.length) :
    readElements type cs = (readElements type r).map fun (items, rest) => (v :: items, rest) := by
  rw [readElements_eq, element]
  simp only [if_pos shorter]
  cases readElements type r <;> rfl

theorem readElements_last {cs r : List Char} {v : Value} (element : readElement type cs = some (v, '\x7d' :: r)) :
    readElements type cs = some ([v], r) := by
  rw [readElements_eq, element]
  rfl

theorem readElement_nested {c : Char} {r rest : List Char} {items : List Value} (other : c ≠ '\x7d')
    (read : readElements type (c :: r) = some (items, rest)) :
    readElement type ('\x7b' :: c :: r) = some (.array items, rest) := by
  unfold readElement
  split
  · rename_i same
    cases same
    exact absurd rfl other
  · rename_i same
    cases same
    rw [read]
  · rename_i same
    cases same
  · rename_i nested _
    exact absurd rfl (nested _)

theorem decode_filled {text : String} {c : Char} {r : List Char} {items : List Value} (other : c ≠ '\x7d')
    (trimmed : trim text.toList = '\x7b' :: c :: r) (read : readElements type (c :: r) = some (items, [])) :
    decode? type text = some items := by
  unfold decode?
  rw [trimmed]
  split
  · rename_i same
    cases same
    exact absurd rfl other
  · rename_i same
    cases same
    exact absurd rfl other
  · rename_i same
    cases same
    rw [read]
  · rename_i nested
    exact absurd rfl (nested _)

def ends (c : Char) : Bool := c == ',' || c == '\x7d'

-- Text that reads as an element wherever one may stand. It may not begin with a closing brace: behind an
-- opening one that would be the end of an empty array.
structure Spells (type : ElementType) (cs : List Char) (v : Value) : Prop where
  read : ∀ c rest, ends c = true → readElement type (cs ++ c :: rest) = some (v, c :: rest)
  opens : ∃ c r, cs = c :: r ∧ c ≠ '\x7d'

theorem readQuoted_backslashed (cs rest : List Char) :
    readQuoted (Sql.backslashed cs ++ '"' :: rest) = some (cs, rest) := by
  induction cs with
  | nil => rfl
  | cons c r ih =>
    by_cases backslash : c = '\\'
    · subst c
      simp [Sql.backslashed, readQuoted, ih]
    by_cases quote : c = '"'
    · subst c
      simp [Sql.backslashed, readQuoted, ih]
    · simp [Sql.backslashed, backslash, quote, readQuoted, ih]

theorem spells_quoted (cs : List Char) : Spells type (Sql.quotedElement cs) (.text (String.ofList cs)) := by
  constructor
  · intro c rest _
    have quoted : Sql.quotedElement cs ++ c :: rest = '"' :: (Sql.backslashed cs ++ '"' :: c :: rest) := by
      simp [Sql.quotedElement]
    rw [quoted]
    simp [readElement, readQuoted_backslashed]
  · exact ⟨'"', Sql.backslashed cs ++ ['"'], rfl, by decide⟩

theorem spells_quoted_text (s : String) : Spells type (Sql.quotedElement s.toList) (.text s) := by
  have quoted : Spells type (Sql.quotedElement s.toList) (.text (String.ofList s.toList)) := spells_quoted s.toList
  rw [String.ofList_toList] at quoted
  exact quoted

theorem readElement_bare {cs : List Char} (plain : ∀ c ∈ cs, isBare c = true)
    (begins : ∀ c ∈ cs.head?, c ≠ '\x7b' ∧ c ≠ '"') {c : Char} (ending : ends c = true) (rest : List Char) :
    readElement type (cs ++ c :: rest) = some (bareElement type (trim cs), c :: rest) := by
  have stops : isBare c = false := by
    simp only [ends, Bool.or_eq_true, beq_iff_eq] at ending
    rcases ending with rfl | rfl <;> rfl
  obtain ⟨taken, left⟩ := parted_at isBare c rest plain stops
  have other : ∀ d r, cs ++ c :: rest = d :: r → d ≠ '\x7b' ∧ d ≠ '"' := by
    intro d r same
    cases cs with
    | nil =>
      cases same
      constructor <;> (rintro rfl; cases ending)
    | cons e t =>
      cases same
      exact begins _ rfl
  unfold readElement
  rw [taken, left]
  split
  · rename_i same
    exact absurd rfl (other _ _ same).1
  · rename_i same
    exact absurd rfl (other _ _ same).1
  · rename_i same
    exact absurd rfl (other _ _ same).2
  · rfl

theorem spells_bare {cs : List Char} (plain : ∀ c ∈ cs, isBare c = true)
    (begins : ∃ c r, cs = c :: r ∧ c ≠ '\x7b' ∧ c ≠ '"') : Spells type cs (bareElement type (trim cs)) := by
  obtain ⟨d, r, rfl, unbraced, unquoted⟩ := begins
  constructor
  · intro c rest ending
    refine readElement_bare plain ?_ ending rest
    rintro c ⟨⟩
    exact ⟨unbraced, unquoted⟩
  · refine ⟨d, r, rfl, ?_⟩
    rintro rfl
    cases plain _ List.mem_cons_self

section
variable (parts : List (List Char × Value)) (each : ∀ part ∈ parts, Spells type part.1 part.2)
include each

theorem elements_read (filled : parts ≠ []) (rest : List Char) :
    readElements type (Json.separated (parts.map (·.1)) ++ '\x7d' :: rest) = some (parts.map (·.2), rest) := by
  induction parts with
  | nil => exact absurd rfl filled
  | cons part r ih =>
    obtain ⟨here, later⟩ := List.forall_mem_cons.mp each
    cases r with
    | nil => exact readElements_last (here.read '\x7d' rest rfl)
    | cons next r =>
      have behind := ih later (List.cons_ne_nil _ _)
      have spelled : Json.separated ((part :: next :: r).map (·.1)) ++ '\x7d' :: rest =
          part.1 ++ ',' :: (Json.separated ((next :: r).map (·.1)) ++ '\x7d' :: rest) := by
        simp [Json.separated]
      rw [spelled, readElements_more (here.read ',' _ rfl) (by simp; omega), behind]
      rfl

theorem separated_opens (filled : parts ≠ []) :
    ∃ c r, Json.separated (parts.map (·.1)) = c :: r ∧ c ≠ '\x7d' := by
  cases parts with
  | nil => exact absurd rfl filled
  | cons part r =>
    obtain ⟨c, cs, spelled, other⟩ := (each part List.mem_cons_self).opens
    cases r with
    | nil => exact ⟨c, cs, spelled, other⟩
    | cons next r =>
      refine ⟨c, cs ++ ',' :: Json.separated ((next :: r).map (·.1)), ?_, other⟩
      simp [Json.separated, spelled]

theorem spells_braced : Spells type (Sql.braced (parts.map (·.1))) (.array (parts.map (·.2))) := by
  constructor
  · intro c rest _
    by_cases empty : parts = []
    · subst empty
      rfl
    · obtain ⟨d, r, spelled, other⟩ := separated_opens parts each empty
      have read := elements_read parts each empty (c :: rest)
      rw [spelled] at read
      have braced : Sql.braced (parts.map (·.1)) ++ c :: rest = '\x7b' :: d :: (r ++ '\x7d' :: c :: rest) := by
        simp [Sql.braced, spelled]
      rw [braced]
      exact readElement_nested other read
  · exact ⟨'\x7b', Json.separated (parts.map (·.1)) ++ ['\x7d'], rfl, by decide⟩

theorem decode_braced :
    decode? type (String.ofList (Sql.braced (parts.map (·.1)))) = some (parts.map (·.2)) := by
  have solid : trim (Sql.braced (parts.map (·.1))) = Sql.braced (parts.map (·.1)) := by
    rw [trim_eq_self_iff]
    constructor
    · rintro c ⟨⟩
      rfl
    · intro c last
      rw [Sql.braced, List.getLast?_concat] at last
      cases last
      rfl
  by_cases empty : parts = []
  · subst empty
    rfl
  · obtain ⟨d, r, spelled, other⟩ := separated_opens parts each empty
    have read := elements_read parts each empty []
    rw [spelled] at read
    have braced : Sql.braced (parts.map (·.1)) = '\x7b' :: d :: (r ++ ['\x7d']) := by
      simp [Sql.braced, spelled]
    rw [braced] at solid ⊢
    exact decode_filled other ((congrArg trim String.toList_ofList).trans solid) read

end

end QueryKit.ArrayText
