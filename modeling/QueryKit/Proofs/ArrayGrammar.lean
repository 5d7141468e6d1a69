import QueryKit.Coercion
import QueryKit.Proofs.ArrayReading

-- The grammar of a stored array. The reader takes exactly the texts that the grammar derives, in the one way
-- that it derives them, and leaves every other text alone.

namespace QueryKit.ArrayText
open Text

-- A character between quotes: as it stands, or behind a backslash.
inductive Stroke where
  | plain (c : Char)
  | escaped (c : Char)

inductive Item where
  | array (items : List Item)
  | quoted (strokes : List Stroke)
  | bare (cs : List Char)

inductive QuotedText : List Char → List Stroke → Prop where
  | nil : QuotedText [] []
  | plain {c : Char} {cs : List Char} {strokes : List Stroke} (unquoted : c ≠ '"') (unescaped : c ≠ '\\')
      (rest : QuotedText cs strokes) : QuotedText (c :: cs) (.plain c :: strokes)
  | escaped (c : Char) {cs : List Char} {strokes : List Stroke} (rest : QuotedText cs strokes) :
      QuotedText ('\\' :: c :: cs) (.escaped c :: strokes)

structure BareText (cs : List Char) : Prop where
  plain : ∀ c ∈ cs, c ≠ ',' ∧ c ≠ '\x7d'
  begins : ∀ c ∈ cs.head?, c ≠ '\x7b' ∧ c ≠ '"'

mutual
inductive ItemText : List Char → Item → Prop where
  | array {cs : List Char} {items : List Item} (written : LiteralText cs items) : ItemText cs (.array items)
  | quoted {cs : List Char} {strokes : List Stroke} (written : QuotedText cs strokes) :
      ItemText ('"' :: cs ++ ['"']) (.quoted strokes)
  | bare {cs : List Char} (written : BareText cs) : ItemText cs (.bare cs)
inductive ItemsText : List Char → List Item → Prop where
  | last {cs : List Char} {item : Item} (written : ItemText cs item) : ItemsText cs [item]
  | more {cs r : List Char} {item : Item} {items : List Item} (first : ItemText cs item) (rest : ItemsText r items) :
      ItemsText (cs ++ ',' :: r) (item :: items)
-- Nothing between braces is no item: it is not an empty bare one.
inductive LiteralText : List Char → List Item → Prop where
  | empty : LiteralText ['\x7b', '\x7d'] []
  | filled {cs : List Char} {items : List Item} (written : ItemsText cs items) (other : items ≠ [.bare []]) :
      LiteralText ('\x7b' :: cs ++ ['\x7d']) items
end

def Stroke.char : Stroke → Char
  | .plain c => c
  | .escaped c => c

mutual
def Item.value (type : ElementType) : Item → Value
  | .array items => .array (Item.values type items)
  | .quoted strokes => .text (String.ofList (strokes.map Stroke.char))
  | .bare cs => bareElement type (trim cs)
def Item.values (type : ElementType) : List Item → List Value
  | [] => []
  | item :: r => item.value type :: Item.values type r
end

variable {type : ElementType}

theorem isBare_iff (c : Char) : isBare c = true ↔ c ≠ ',' ∧ c ≠ '\x7d' := by
  simp [isBare]

theorem ItemText.begins {cs : List Char} {item : Item} (written : ItemText cs item) :
    (cs = [] ∧ item = .bare []) ∨ ∃ c r, cs = c :: r ∧ c ≠ '\x7d' := by
  cases written with
  | array written =>
    cases written with
    | empty => exact .inr ⟨_, _, rfl, by decide⟩
    | filled => exact .inr ⟨_, _, rfl, by decide⟩
  | quoted => exact .inr ⟨_, _, rfl, by decide⟩
  | bare written =>
    cases cs with
    | nil => exact .inl ⟨rfl, rfl⟩
    | cons c r => exact .inr ⟨c, r, rfl, (written.plain c List.mem_cons_self).2⟩

theorem ItemsText.begins {cs : List Char} {items : List Item} (written : ItemsText cs items)
    (other : items ≠ [.bare []]) : ∃ c r, cs = c :: r ∧ c ≠ '\x7d' := by
  cases written with
  | last written =>
    rcases written.begins with ⟨-, rfl⟩ | filled
    · exact absurd rfl other
    · exact filled
  | more first rest =>
    rcases first.begins with ⟨rfl, -⟩ | ⟨c, r, rfl, solid⟩
    · exact ⟨_, _, rfl, by decide⟩
    · exact ⟨c, _, rfl, solid⟩

theorem ItemsText.sole {cs : List Char} (written : ItemsText cs [.bare []]) : cs = [] := by
  cases written with
  | last written =>
    cases written
    rfl
  | more _ later => cases later

theorem LiteralText.head {cs : List Char} {items : List Item} (written : LiteralText cs items) :
    cs.head? = some '\x7b' := by
  cases written <;> rfl

-- What the grammar derives is read.

theorem QuotedText.read {cs : List Char} {strokes : List Stroke} (written : QuotedText cs strokes)
    (rest : List Char) : readQuoted (cs ++ '"' :: rest) = some (strokes.map Stroke.char, rest) := by
  induction written with
  | nil => rfl
  | plain _ unescaped _ ih => simp [readQuoted, unescaped, ih, Stroke.char]
  | escaped c _ ih => simp [readQuoted, ih, Stroke.char]

-- A literal is read whatever is behind it, once its items are.
theorem LiteralText.read_of {cs : List Char} {items : List Item} (written : LiteralText cs items)
    (each : ∀ {body}, ItemsText body items → ∀ rest,
      readElements type (body ++ '\x7d' :: rest) = some (Item.values type items, rest)) (rest : List Char) :
    readElement type (cs ++ rest) = some (.array (Item.values type items), rest) := by
  cases written with
  | empty => rfl
  | filled written other =>
    obtain ⟨c, r, rfl, solid⟩ := written.begins other
    have inside := each written rest
    simp only [List.cons_append, List.append_assoc, List.nil_append] at inside ⊢
    exact readElement_nested solid inside

mutual
theorem ItemText.read (item : Item) {cs : List Char} (written : ItemText cs item) {c : Char}
    (ending : ends c = true) (rest : List Char) :
    readElement type (cs ++ c :: rest) = some (item.value type, c :: rest) := by
  cases item with
  | array items =>
    obtain ⟨written⟩ := written
    exact written.read_of (ItemsText.read items) (c :: rest)
  | quoted strokes =>
    cases written with
    | quoted written => simp [readElement, written.read, Item.value]
  | bare run =>
    cases written with
    | bare written =>
      exact readElement_bare (fun d member => (isBare_iff d).mpr (written.plain d member)) written.begins ending rest
theorem ItemsText.read (items : List Item) {cs : List Char} (written : ItemsText cs items) (rest : List Char) :
    readElements type (cs ++ '\x7d' :: rest) = some (Item.values type items, rest) := by
  cases items with
  | nil => cases written
  | cons item items =>
    cases written with
    | last written => exact readElements_last (ItemText.read item written rfl rest)
    | more first later =>
      rename_i cs r
      have here : readElement type (cs ++ ',' :: (r ++ '\x7d' :: rest)) =
          some (item.value type, ',' :: (r ++ '\x7d' :: rest)) := ItemText.read item first rfl _
      rw [List.append_assoc, List.cons_append, readElements_more here (by simp; omega),
        ItemsText.read items later rest]
      rfl
end

theorem LiteralText.decode {text : String} {items : List Item} (written : LiteralText (trim text.toList) items) :
    decode? type text = some (Item.values type items) := by
  generalize trimmed : trim text.toList = cs at written
  cases written with
  | empty =>
    unfold decode?
    rw [trimmed]
    rfl
  | filled written other =>
    obtain ⟨c, r, rfl, solid⟩ := written.begins other
    exact decode_filled solid trimmed (ItemsText.read items written [])

-- What is read is derived.

theorem quoted_of_read {cs text rest : List Char} (read : readQuoted cs = some (text, rest)) :
    ∃ body strokes, cs = body ++ '"' :: rest ∧ QuotedText body strokes ∧ strokes.map Stroke.char = text := by
  fun_induction readQuoted cs generalizing text rest with
  | case1 => cases read
  | case2 r =>
    cases read
    exact ⟨[], [], rfl, .nil, rfl⟩
  | case3 c r inner left later ih =>
    cases read
    obtain ⟨body, strokes, rfl, written, rfl⟩ := ih later
    exact ⟨'\\' :: c :: body, .escaped c :: strokes, rfl, .escaped c written, rfl⟩
  | case4 => cases read
  | case5 => cases read
  | case6 c r unquoted _ unescaped inner left later ih =>
    cases read
    obtain ⟨body, strokes, rfl, written, rfl⟩ := ih later
    have other : c ≠ '"' := by
      rintro rfl
      exact unquoted rfl
    exact ⟨c :: body, .plain c :: strokes, rfl, .plain other unescaped written, rfl⟩
  | case7 => cases read

def Derived (type : ElementType) (cs : List Char) : Prop :=
  ∀ values rest, readElements type cs = some (values, rest) →
    ∃ body items, cs = body ++ '\x7d' :: rest ∧ ItemsText body items ∧ Item.values type items = values

theorem bareText_takeWhile {cs : List Char} (unbraced : ∀ r, cs ≠ '\x7b' :: r) (unquoted : ∀ r, cs ≠ '"' :: r) :
    BareText (cs.takeWhile isBare) := by
  constructor
  · intro c member
    exact (isBare_iff c).mp (List.mem_takeWhile_imp member)
  · cases cs with
    | nil => simp
    | cons d r =>
      rw [List.takeWhile_cons]
      split
      · rintro c ⟨⟩
        exact ⟨fun brace => unbraced r (by rw [brace]), fun quote => unquoted r (by rw [quote])⟩
      · simp

theorem item_of_read {cs rest : List Char} {v : Value}
    (shorter : ∀ r : List Char, r.length < cs.length → Derived type r) (read : readElement type cs = some (v, rest)) :
    ∃ body item, cs = body ++ rest ∧ ItemText body item ∧ item.value type = v := by
  unfold readElement at read
  split at read
  · cases read
    exact ⟨['\x7b', '\x7d'], .array [], rfl, .array .empty, rfl⟩
  · rename_i r unclosed
    split at read
    · rename_i inside
      cases read
      obtain ⟨body, items, rfl, written, rfl⟩ := shorter r (by simp) _ _ inside
      refine ⟨'\x7b' :: body ++ ['\x7d'], .array items, by simp, .array (.filled written ?_), rfl⟩
      rintro rfl
      rw [written.sole] at unclosed
      exact unclosed _ rfl
    · cases read
  · split at read
    · rename_i inside
      cases read
      obtain ⟨body, strokes, rfl, written, rfl⟩ := quoted_of_read inside
      exact ⟨'"' :: body ++ ['"'], .quoted strokes, by simp, .quoted written, rfl⟩
    · cases read
  · rename_i unbraced unquoted
    cases read
    exact ⟨cs.takeWhile isBare, .bare (cs.takeWhile isBare), List.takeWhile_append_dropWhile.symm,
      .bare (bareText_takeWhile unbraced unquoted), rfl⟩

theorem derived (type : ElementType) (cs : List Char) : Derived type cs := by
  intro values rest read
  have shorter : ∀ r : List Char, r.length < cs.length → Derived type r := fun r _ => derived type r
  rw [readElements_eq] at read
  split at read
  · rename_i v r element
    split at read
    · rename_i less
      split at read
      · rename_i inside
        cases read
        obtain ⟨body, items, rfl, written, rfl⟩ := shorter r less _ _ inside
        obtain ⟨first, item, rfl, named, rfl⟩ := item_of_read shorter element
        exact ⟨first ++ ',' :: body, item :: items, by simp, .more named written, rfl⟩
      · cases read
    · cases read
  · rename_i v r element
    cases read
    obtain ⟨first, item, rfl, named, rfl⟩ := item_of_read shorter element
    exact ⟨first, [item], rfl, .last named, rfl⟩
  · cases read
termination_by cs.length

-- An element and the mark behind it use up some of the text, even an empty bare one.
theorem progress {cs r : List Char} {v : Value} {c : Char} (read : readElement type cs = some (v, c :: r)) :
    r.length < cs.length := by
  obtain ⟨body, item, rfl, -⟩ := item_of_read (fun r _ => derived type r) read
  simp only [List.length_append, List.length_cons]
  omega

theorem literal_of_decode {text : String} {values : List Value} (read : decode? type text = some values) :
    ∃ items, LiteralText (trim text.toList) items ∧ Item.values type items = values := by
  unfold decode? at read
  generalize trim text.toList = cs at read ⊢
  split at read
  · cases read
    exact ⟨[], .empty, rfl⟩
  · cases read
  · rename_i unclosed _
    split at read
    · rename_i inside
      cases read
      obtain ⟨body, items, rfl, written, rfl⟩ := derived type _ _ _ inside
      refine ⟨items, .filled written ?_, rfl⟩
      rintro rfl
      rw [written.sole] at unclosed
      exact unclosed rfl
    · cases read
  · cases read

-- A text is derived in one way only.

theorem QuotedText.same {cs : List Char} {strokes others : List Stroke} (written : QuotedText cs strokes)
    (again : QuotedText cs others) : strokes = others := by
  induction written generalizing others with
  | nil =>
    cases again
    rfl
  | plain _ unescaped _ ih =>
    cases again with
    | plain _ _ later => rw [ih later]
    | escaped => exact absurd rfl unescaped
  | escaped c _ ih =>
    cases again with
    | plain _ unescaped => exact absurd rfl unescaped
    | escaped _ later => rw [ih later]

-- Where an item ends is seen from the text: the reader stops there.
theorem ItemText.cut {a b r s : List Char} {c d : Char} {item other : Item} (written : ItemText a item)
    (again : ItemText b other) (ending : ends c = true) (closing : ends d = true) (same : a ++ c :: r = b ++ d :: s) :
    a = b ∧ c :: r = d :: s := by
  have read : readElement .text (a ++ c :: r) = some (item.value .text, c :: r) := ItemText.read item written ending r
  have reread : readElement .text (b ++ d :: s) = some (other.value .text, d :: s) :=
    ItemText.read other again closing s
  rw [same, reread] at read
  have rest : d :: s = c :: r := (Prod.mk.inj (Option.some.inj read)).2
  rw [rest] at same
  exact ⟨List.append_cancel_right same, rest.symm⟩

theorem ItemText.strokes {cs : List Char} {strokes : List Stroke} (written : ItemText cs (.quoted strokes)) :
    ∃ body, cs = '"' :: body ++ ['"'] ∧ QuotedText body strokes := by
  cases written with
  | quoted written => exact ⟨_, rfl, written⟩

theorem LiteralText.same_of {cs others : List Char} {items again : List Item} (written : LiteralText cs items)
    (rewritten : LiteralText others again) (texts : cs = others)
    (each : ∀ {body}, ItemsText body items → ItemsText body again → items = again) : items = again := by
  cases written with
  | empty =>
    cases rewritten with
    | empty => rfl
    | filled rewritten other =>
      obtain ⟨c, r, rfl, -⟩ := rewritten.begins other
      simp at texts
  | filled written other =>
    cases rewritten with
    | empty =>
      obtain ⟨c, r, rfl, -⟩ := written.begins other
      simp at texts
    | filled rewritten _ =>
      have inner := List.append_cancel_right (List.cons.inj texts).2
      exact each written (inner ▸ rewritten)

mutual
theorem ItemText.same (item : Item) {cs : List Char} {other : Item} (written : ItemText cs item)
    (again : ItemText cs other) : item = other := by
  cases item with
  | array items =>
    obtain ⟨written⟩ := written
    cases again with
    | array again => rw [written.same_of again rfl (ItemsText.same items)]
    | quoted => cases written.head
    | bare again => exact absurd rfl (again.begins _ written.head).1
  | quoted strokes =>
    obtain ⟨body, texts, inside⟩ := written.strokes
    have head : cs.head? = some '"' := by
      rw [texts]
      rfl
    cases again with
    | array again => cases again.head.symm.trans head
    | quoted within =>
      cases List.append_cancel_right (List.cons.inj texts).2
      rw [inside.same within]
    | bare again => exact absurd rfl (again.begins _ head).2
  | bare run =>
    cases written with
    | bare written =>
      cases again with
      | array again => exact absurd rfl (written.begins _ again.head).1
      | quoted => exact absurd rfl (written.begins _ rfl).2
      | bare => rfl
theorem ItemsText.same (items : List Item) {cs : List Char} {others : List Item} (written : ItemsText cs items)
    (again : ItemsText cs others) : items = others := by
  cases items with
  | nil => cases written
  | cons item items =>
    cases written with
    | last written =>
      cases again with
      | last again => rw [ItemText.same item written again]
      | more first later =>
        rename_i a r _ _
        have cut := written.cut first (c := '\x7d') (d := ',') (r := []) (s := r ++ ['\x7d']) rfl rfl (by simp)
        cases cut.2
    | more first later =>
      rename_i a r
      generalize texts : a ++ ',' :: r = cs at again
      cases again with
      | last again =>
        subst texts
        have cut := first.cut again (c := ',') (d := '\x7d') (r := r ++ ['\x7d']) (s := []) rfl rfl (by simp)
        cases cut.2
      | more second behind =>
        obtain ⟨rfl, rest⟩ := first.cut second rfl rfl texts
        cases rest
        rw [ItemText.same item first second, ItemsText.same items later behind]
end

theorem LiteralText.same {cs : List Char} {items others : List Item} (written : LiteralText cs items)
    (again : LiteralText cs others) : items = others :=
  written.same_of again rfl (ItemsText.same items)

end QueryKit.ArrayText

namespace QueryKit
open Text ArrayText

-- A text becomes an array when, blanks around it taken off, the grammar derives it. There is one derivation then,
-- and its items are the array's. Any other text stays what it is, blanks included. Reading comes to its end because
-- every turn uses up text.
theorem array_text_read (type : ElementType) (s : String) :
    ((∃ values, Coercer.readArray type (.text s) = .array values) ↔ ∃ items, LiteralText (trim s.toList) items) ∧
      (∀ items, LiteralText (trim s.toList) items →
        Coercer.readArray type (.text s) = .array (Item.values type items) ∧
          ∀ others, LiteralText (trim s.toList) others → others = items) ∧
      ((¬ ∃ items, LiteralText (trim s.toList) items) → Coercer.readArray type (.text s) = .text s) ∧
      ∀ cs v c r, readElement type cs = some (v, c :: r) → r.length < cs.length := by
  have derives : ∀ items, LiteralText (trim s.toList) items →
      Coercer.readArray type (.text s) = .array (Item.values type items) := by
    intro items written
    simp only [Coercer.readArray, written.decode]
  have kept : (¬ ∃ items, LiteralText (trim s.toList) items) → Coercer.readArray type (.text s) = .text s := by
    intro underived
    cases read : decode? type s with
    | none => simp only [Coercer.readArray, read]
    | some values =>
      obtain ⟨items, written, -⟩ := literal_of_decode read
      exact absurd ⟨items, written⟩ underived
  refine ⟨⟨?_, ?_⟩, ?_, kept, fun _ _ _ _ read => progress read⟩
  · rintro ⟨values, read⟩
    by_contra underived
    rw [kept underived] at read
    cases read
  · rintro ⟨items, written⟩
    exact ⟨Item.values type items, derives items written⟩
  · intro items written
    exact ⟨derives items written, fun others again => again.same written⟩

end QueryKit
