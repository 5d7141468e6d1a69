import QueryKit.Proofs.ServerArrays

-- Arrays of text in the two forms they are written in: a literal of a statement, which quotes what could be
-- misread, and a stored array, which quotes every text. The reader gets the same items from both.

namespace QueryKit
open Text

theorem TextItem.values_eq_map (items : List TextItem) : values items = items.map value := by
  induction items with
  | nil => rfl
  | cons item r ih => rw [values, ih, List.map_cons]

namespace ArrayText

-- Text that means itself without quotes: the reader cuts nothing off, goes on to its end and does not take it for null.
structure StandsBare (cs : List Char) : Prop where
  filled : cs ≠ []
  whole : trim cs = cs
  plain : ∀ c ∈ cs, isBare c = true ∧ c ≠ '\x7b' ∧ c ≠ '"' ∧ c ≠ '\\' ∧ isBlank c = false
  named : sameLetters (String.ofList cs) "NULL" = false

theorem standsBare_of_plain {cs : List Char} (unquoted : Sql.needsQuotes cs = false) : StandsBare cs := by
  simp only [Sql.needsQuotes, Bool.or_eq_false_iff, List.any_eq_false, Sql.misreadable, Bool.or_eq_true, beq_iff_eq,
    not_or, List.isEmpty_eq_false_iff, Bool.not_eq_true] at unquoted
  obtain ⟨⟨filled, named⟩, each⟩ := unquoted
  have plain : ∀ c ∈ cs, isBare c = true ∧ c ≠ '\x7b' ∧ c ≠ '"' ∧ c ≠ '\\' ∧ isBlank c = false := by
    intro c member
    obtain ⟨⟨⟨⟨⟨opening, closing⟩, comma⟩, quote⟩, backslash⟩, blank⟩ := each c member
    exact ⟨by simp [isBare, comma, closing], opening, quote, backslash, blank⟩
  have solid : ∀ c ∈ cs, isBlank c = false := fun c member => (plain c member).2.2.2.2
  have whole : trim cs = cs := (trim_eq_self_iff cs).mpr
    ⟨fun c front => solid c (List.mem_of_mem_head? front), fun c back => solid c (List.mem_of_mem_getLast? back)⟩
  exact ⟨filled, whole, plain, named⟩

theorem StandsBare.spells {s : String} (stands : StandsBare s.toList) : Spells .text s.toList (.text s) := by
  obtain ⟨c, r, begins⟩ := List.exists_cons_of_ne_nil stands.filled
  have first := stands.plain c (by simp [begins])
  have spells : Spells .text s.toList (bareElement .text (trim s.toList)) :=
    spells_bare (fun d member => (stands.plain d member).1) ⟨c, r, begins, first.2.1, first.2.2.1⟩
  have named := stands.named
  rw [String.ofList_toList] at named
  rw [stands.whole, bareElement, String.ofList_toList, named] at spells
  exact spells

theorem element_cases (cs : List Char) :
    Sql.element cs = Sql.quotedElement cs ∨ Sql.element cs = cs ∧ StandsBare cs := by
  unfold Sql.element
  cases needed : Sql.needsQuotes cs with
  | true => exact .inl rfl
  | false => exact .inr ⟨rfl, standsBare_of_plain needed⟩

theorem spells_text_element (s : String) : Spells .text (Sql.element s.toList) (.text s) := by
  rcases element_cases s.toList with quoted | ⟨bare, stands⟩
  · rw [quoted]
    exact spells_quoted_text s
  · rw [bare]
    exact stands.spells

theorem arrayElements_eq_map (zone : Zone) (items : List Value) :
    Sql.arrayElements zone items = items.map (Sql.arrayElement zone) := by
  induction items with
  | nil => rfl
  | cons v r ih => rw [Sql.arrayElements, ih, List.map_cons]

-- A way to write the items of arrays of text, each so that it is read as itself.
structure Writer (write : Value → List Char) : Prop where
  null : write .null = ['N', 'U', 'L', 'L']
  text : ∀ s, Spells .text (write (.text s)) (.text s)
  array : ∀ items, write (.array items) = Sql.braced (items.map write)

theorem literal_writer (zone : Zone) : Writer (Sql.arrayElement zone) where
  null := rfl
  text := spells_text_element
  array := fun items => by rw [Sql.arrayElement, arrayElements_eq_map]

theorem storage_writer : Writer elementChars where
  null := rfl
  text := fun s => spells_element (.text s) rfl
  array := fun items => by rw [elementChars, elementsChars_eq_map]

variable {write : Value → List Char}

mutual
theorem Writer.spells (writer : Writer write) (item : TextItem) : Spells .text (write item.value) item.value := by
  cases item with
  | null =>
    rw [TextItem.value, writer.null]
    exact spells_null
  | text s => exact writer.text s
  | array items =>
    have braced := spells_braced _ (writer.spells_all items)
    simp only [List.map_map, Function.comp_def] at braced
    rw [TextItem.value, writer.array, TextItem.values_eq_map, List.map_map]
    exact braced
theorem Writer.spells_all (writer : Writer write) (items : List TextItem) :
    ∀ part ∈ items.map fun item => (write item.value, item.value), Spells .text part.1 part.2 := by
  cases items with
  | nil => simp
  | cons item r =>
    rw [List.map_cons, List.forall_mem_cons]
    exact ⟨writer.spells item, writer.spells_all r⟩
end

theorem Writer.decode (writer : Writer write) (items : List TextItem) :
    decode? .text (String.ofList (Sql.braced ((TextItem.values items).map write))) = some (TextItem.values items) := by
  have decoded := decode_braced _ (writer.spells_all items)
  simp only [List.map_map, Function.comp_def] at decoded
  rw [TextItem.values_eq_map, List.map_map]
  exact decoded

end ArrayText

-- Both written forms of an array of text are read as that array. What a literal leaves without quotes means
-- itself to the reader.
theorem written_arrays_read (zone : Zone) (items : List TextItem) :
    Coercer.readArray .text (.text (Sql.arrayLiteral zone (TextItem.values items))) =
        .array (TextItem.values items) ∧
      Coercer.readArray .text (Coercer.writeArray (.array (TextItem.values items))) = .array (TextItem.values items) ∧
      ∀ s : String, Sql.arrayElement zone (.text s) = Sql.quotedElement s.toList ∨
        Sql.arrayElement zone (.text s) = s.toList ∧ ArrayText.StandsBare s.toList := by
  refine ⟨?_, ?_, ?_⟩
  · have read := (ArrayText.literal_writer zone).decode items
    rw [Sql.arrayLiteral, ArrayText.arrayElements_eq_map]
    simp only [Coercer.readArray, read]
  · have read := ArrayText.storage_writer.decode items
    rw [Coercer.writeArray, ArrayText.encode, ArrayText.elementsChars_eq_map]
    simp only [Coercer.readArray, read]
  · intro s
    exact ArrayText.element_cases s.toList

end QueryKit
