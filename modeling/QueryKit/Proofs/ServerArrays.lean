import QueryKit.Proofs.ArrayStorage

-- Arrays of text as the server prints them. It quotes by the blanks of ASCII, and the reader trims what
-- stands without quotes by all the blanks there are.

namespace QueryKit
open Text

inductive TextItem where
  | null
  | text (s : String)
  | array (items : List TextItem)

namespace TextItem

mutual
def value : TextItem → Value
  | .null => .null
  | .text s => .text s
  | .array items => .array (values items)
def values : List TextItem → List Value
  | [] => []
  | item :: r => item.value :: values r
end

def isQuoted (cs : List Char) : Bool :=
  cs.isEmpty || sameLetters (String.ofList cs) "NULL" || cs.any fun c =>
    c == '\x7b' || c == '\x7d' || c == ',' || c == '"' || c == '\\' || Lexer.isSpace c

mutual
def printed : TextItem → List Char
  | .null => ['N', 'U', 'L', 'L']
  | .text s => if isQuoted s.toList then Sql.quotedElement s.toList else s.toList
  | .array items => Sql.braced (printedAll items)
def printedAll : List TextItem → List (List Char)
  | [] => []
  | item :: r => item.printed :: printedAll r
end

def stored (items : List TextItem) : String := String.ofList (Sql.braced (printedAll items))

mutual
def seen : TextItem → Value
  | .null => .null
  | .text s => if isQuoted s.toList then .text s else ArrayText.bareElement .text (trim s.toList)
  | .array items => .array (seenAll items)
def seenAll : List TextItem → List Value
  | [] => []
  | item :: r => item.seen :: seenAll r
end

def hasBlankEnd (cs : List Char) : Bool := cs.head?.any isBlank || cs.getLast?.any isBlank

mutual
def isSolid : TextItem → Bool
  | .null => true
  | .text s => isQuoted s.toList || !hasBlankEnd s.toList
  | .array items => allSolid items
def allSolid : List TextItem → Bool
  | [] => true
  | item :: r => item.isSolid && allSolid r
end

theorem printedAll_eq_map (items : List TextItem) : printedAll items = items.map printed := by
  induction items with
  | nil => rfl
  | cons item r ih => rw [printedAll, ih, List.map_cons]

theorem seenAll_eq_map (items : List TextItem) : seenAll items = items.map seen := by
  induction items with
  | nil => rfl
  | cons item r ih => rw [seenAll, ih, List.map_cons]

theorem hasBlankEnd_iff (cs : List Char) : hasBlankEnd cs = false ↔ trim cs = cs := by
  rw [trim_eq_self_iff, hasBlankEnd, Bool.or_eq_false_iff]
  cases cs.head? <;> cases cs.getLast? <;> simp

theorem spells_unquoted {cs : List Char} (unquoted : isQuoted cs = false) :
    ArrayText.Spells .text cs (ArrayText.bareElement .text (trim cs)) := by
  simp only [isQuoted, Bool.or_eq_false_iff, List.any_eq_false, beq_iff_eq, Bool.or_eq_true, not_or] at unquoted
  obtain ⟨⟨filled, -⟩, each⟩ := unquoted
  apply ArrayText.spells_bare
  · intro c member
    have other := each c member
    simp [ArrayText.isBare, other]
  · cases cs with
    | nil => cases filled
    | cons c r =>
      have other := each c List.mem_cons_self
      exact ⟨c, r, rfl, by simp [other], by simp [other]⟩

theorem spells_text (s : String) : ArrayText.Spells .text (TextItem.text s).printed (TextItem.text s).seen := by
  rw [printed, seen]
  cases quoted : isQuoted s.toList with
  | true =>
    simp only [if_true]
    exact ArrayText.spells_quoted_text s
  | false =>
    simp only [Bool.false_eq_true, if_false]
    exact spells_unquoted quoted

mutual
theorem spells_item (item : TextItem) : ArrayText.Spells .text item.printed item.seen := by
  cases item with
  | null => exact ArrayText.spells_null
  | text s => exact spells_text s
  | array items =>
    have braced := ArrayText.spells_braced _ (spells_items items)
    simp only [List.map_map, Function.comp_def] at braced
    rw [printed, seen, printedAll_eq_map, seenAll_eq_map]
    exact braced
theorem spells_items (items : List TextItem) :
    ∀ part ∈ items.map fun item => (item.printed, item.seen), ArrayText.Spells .text part.1 part.2 := by
  cases items with
  | nil => simp
  | cons item r =>
    rw [List.map_cons, List.forall_mem_cons]
    exact ⟨spells_item item, spells_items r⟩
end

theorem decode_stored (items : List TextItem) : ArrayText.decode? .text (stored items) = some (seenAll items) := by
  have decoded := ArrayText.decode_braced _ (spells_items items)
  simp only [List.map_map, Function.comp_def] at decoded
  rw [stored, printedAll_eq_map, seenAll_eq_map]
  exact decoded

theorem bareElement_eq_text_iff {s : String} (unquoted : isQuoted s.toList = false) :
    ArrayText.bareElement .text (trim s.toList) = .text s ↔ hasBlankEnd s.toList = false := by
  rw [hasBlankEnd_iff]
  constructor
  · intro same
    unfold ArrayText.bareElement at same
    split at same
    · cases same
    · have spelled := congrArg String.toList (Value.text.inj same)
      rw [String.toList_ofList] at spelled
      exact spelled
  · intro whole
    simp only [isQuoted, Bool.or_eq_false_iff, String.ofList_toList] at unquoted
    rw [whole, ArrayText.bareElement, String.ofList_toList, unquoted.1.2]
    rfl

mutual
theorem seen_eq_value (item : TextItem) : item.seen = item.value ↔ item.isSolid = true := by
  cases item with
  | null => simp [seen, value, isSolid]
  | text s =>
    unfold seen value isSolid
    cases quoted : isQuoted s.toList with
    | true => simp
    | false =>
      simp only [Bool.false_eq_true, if_false, Bool.false_or, Bool.not_eq_true']
      exact bareElement_eq_text_iff quoted
  | array items =>
    rw [seen, value, isSolid, Value.array.injEq]
    exact seenAll_eq_values items
theorem seenAll_eq_values (items : List TextItem) : seenAll items = values items ↔ allSolid items = true := by
  cases items with
  | nil => simp [seenAll, values, allSolid]
  | cons item r =>
    rw [seenAll, values, allSolid, List.cons.injEq, Bool.and_eq_true, seen_eq_value item, seenAll_eq_values r]
end

end TextItem

theorem fromStorage_stored (c : Coercer) {p : Property} (arrayed : p.type = .array) (texts : p.element = .text)
    (items : List TextItem) :
    c.fromStorage p (.text (TextItem.stored items)) = .ok (.array (TextItem.seenAll items)) := by
  rw [Coercer.fromStorage, arrayed, texts]
  simp only [Coercer.readArray, TextItem.decode_stored]

-- An array the server has printed comes back with every item, and each comes back as it was, when no text
-- without quotes has a blank at an end, and only then. Such blanks are lost, and NULL between them is null.
theorem printed_array_read (c : Coercer) {p : Property} (arrayed : p.type = .array) (texts : p.element = .text)
    (items : List TextItem) :
    c.fromStorage p (.text (TextItem.stored items)) = .ok (.array (TextItem.seenAll items)) ∧
      (c.fromStorage p (.text (TextItem.stored items)) = .ok (.array (TextItem.values items)) ↔
        TextItem.allSolid items = true) := by
  have read := fromStorage_stored c arrayed texts items
  refine ⟨read, ?_⟩
  rw [read, Except.ok.injEq, Value.array.injEq]
  exact TextItem.seenAll_eq_values items

def tagColumn : Property := ⟨"tags", "tags", .array, false, .text⟩

def mixedTags : List TextItem := [.text "a b", .text "", .null, .text "null", .array [.text "123", .text "a\u00a0b"]]

theorem mixedTags_read : tagColumn.type = .array ∧ tagColumn.element = .text ∧
    (Coercer.new .localTime).fromStorage tagColumn (.text (TextItem.stored mixedTags)) =
      .ok (.array (TextItem.values mixedTags)) :=
  ⟨rfl, rfl, (printed_array_read (Coercer.new .localTime) rfl rfl mixedTags).2.mpr rfl⟩

def spacedTags : List TextItem := [.text "\u00a0NULL", .text "x\u3000"]

theorem spacedTags_lost : TextItem.stored spacedTags = "\x7b\u00a0NULL,x\u3000\x7d" ∧
    (Coercer.new .localTime).fromStorage tagColumn (.text (TextItem.stored spacedTags)) =
      .ok (.array [.null, .text "x"]) ∧
    (Coercer.new .localTime).fromStorage tagColumn (.text (TextItem.stored spacedTags)) ≠
      .ok (.array (TextItem.values spacedTags)) := by
  have read : (Coercer.new .localTime).fromStorage tagColumn (.text (TextItem.stored spacedTags)) =
      .ok (.array [.null, .text "x"]) := fromStorage_stored (Coercer.new .localTime) rfl rfl spacedTags
  refine ⟨rfl, read, ?_⟩
  rw [read]
  intro same
  cases same

end QueryKit
