import QueryKit.Proofs.ListedItems
import QueryKit.Proofs.StoredAliases

-- The list of a statement, from what the calls selected. An expression that reads like an earlier one is left out, and
-- nothing else is; which columns read alike can be told from their quoted names.

namespace QueryKit
open Lexer

namespace Sql

theorem text_separated (zone : Zone) (separator : String) (parts : List Sql) :
    text zone (separated separator parts) = separator.intercalate (parts.map (text zone)) := by
  induction parts with
  | nil => rfl
  | cons part r ih =>
    cases r with
    | nil => simp [separated_singleton]
    | cons next r =>
      rw [separated_cons_cons, text_append, text_cons, ih]
      simp [Piece.text, String.intercalate_cons_cons, String.append_assoc]

end Sql

namespace Argument

def text (zone : Zone) (table : Option String) : Argument → String
  | .column name => Sql.path (columnPath table name)
  | .value v => Sql.literal zone v

-- A call without arguments is of all rows.
def listText (zone : Zone) (table : Option String) : List Argument → String
  | [] => "*"
  | a :: r => ", ".intercalate ((a :: r).map (text zone table))

end Argument

namespace Select

def nested : List SqlFunction → String → String
  | [], inner => inner
  | f :: r, inner => f.name ++ "(" ++ nested r inner ++ ")"

def withName (label : Option String) (text : String) : String :=
  match label with
  | none => text
  | some label => text ++ " AS " ++ Sql.path [label]

end Select

-- What is listed for an item whose columns are qualified by `table`, if at all.
def SelectItem.text? (zone : Zone) (table : Option String) : SelectItem → Option String
  | .column name label => some (Select.withName label (Sql.path (columnPath table name)))
  | .expression sql label => some (Select.withName label ("(" ++ sql ++ ")"))
  | .call function arguments label wrappers =>
    some (Select.withName label (Select.nested (wrappers ++ [function]) (Argument.listText zone table arguments)))
  | .having _ => none

namespace Select

def qualifier (labels : List String) (label : String) : Option String := if 1 < labels.length then some label else none

def Selection.texts (zone : Zone) (labels : List String) (s : Selection) : List String :=
  (labels.zip s.lists).flatMap fun (label, items) => items.filterMap (SelectItem.text? zone (qualifier labels label))

def itemTexts (q : Select) : List String := q.expressions.map (Sql.text q.zone)

-- Each text once, where it comes first; a star when there is none.
def listText (texts : List String) : String :=
  match texts.eraseDups with
  | [] => "*"
  | kept => ", ".intercalate kept

section
variable (zone : Zone) (q : Select) (source : Source)

theorem nested_concat (wrappers : List SqlFunction) (f : SqlFunction) (inner : String) :
    nested (wrappers ++ [f]) inner = nested wrappers (f.name ++ "(" ++ inner ++ ")") := by
  induction wrappers with
  | nil => rfl
  | cons w r ih => rw [List.cons_append, nested, nested, ih]

theorem text_callSql (name : String) (arguments : Sql) :
    Sql.text zone (callSql name arguments) = name ++ "(" ++ Sql.text zone arguments ++ ")" := by
  simp [callSql, Sql.text_cons, Sql.text_append, Sql.text_nil, Piece.text, String.append_assoc]

theorem text_wrapped (wrappers : List SqlFunction) (sql : Sql) :
    Sql.text zone (wrappers.foldr (fun w sql => callSql w.name sql) sql) = nested wrappers (Sql.text zone sql) := by
  induction wrappers with
  | nil => rfl
  | cons w r ih => rw [List.foldr_cons, text_callSql, ih, nested]

theorem text_withAlias (label : Option String) (sql : Sql) :
    Sql.text zone (withAlias label sql) = withName label (Sql.text zone sql) := by
  cases label with
  | none => rfl
  | some label => simp [withAlias, withName, Sql.text_append, Sql.text_cons, Sql.text_nil, Piece.text, String.append_assoc]

theorem isQualified_iff : q.isQualified = true ↔ 1 < q.labels.length := by simp [isQualified, labels]

theorem text_columnOf (name : String) :
    Piece.text zone (q.columnOf source name) = Sql.path (columnPath (qualifier q.labels source.label) name) := by
  unfold columnOf qualifier
  simp only [isQualified_iff]
  split <;> rfl

theorem text_argument (a : Argument) :
    Sql.text zone (q.argumentSql source a) = a.text zone (qualifier q.labels source.label) := by
  cases a with
  | column name =>
    rw [argumentSql, Sql.text_cons, text_columnOf, Sql.text_nil, String.append_empty]
    rfl
  | value v =>
    rw [argumentSql, Sql.text_cons, Sql.text_nil, String.append_empty]
    rfl

theorem text_arguments (arguments : List Argument) :
    Sql.text zone (if arguments.isEmpty then [Piece.word "*"] else Sql.separated ", " (arguments.map (q.argumentSql source))) =
      Argument.listText zone (qualifier q.labels source.label) arguments := by
  cases arguments with
  | nil => rfl
  | cons a r =>
    have texts : ((a :: r).map (q.argumentSql source)).map (Sql.text zone) =
        (a :: r).map (Argument.text zone (qualifier q.labels source.label)) := by
      rw [List.map_map]
      exact List.map_congr_left fun a _ => text_argument zone q source a
    rw [Argument.listText, ← texts]
    exact Sql.text_separated zone ", " _

theorem text_item (item : SelectItem) :
    (q.itemSql? source item).map (Sql.text zone) = item.text? zone (qualifier q.labels source.label) := by
  cases item with
  | column name label =>
    rw [itemSql?, Option.map_some, text_withAlias, Sql.text_cons, text_columnOf, Sql.text_nil, String.append_empty]
    rfl
  | expression sql label =>
    rw [itemSql?, Option.map_some, text_withAlias]
    simp [SelectItem.text?, Sql.text_cons, Sql.text_nil, Piece.text, String.append_assoc]
  | call function arguments label wrappers =>
    rw [itemSql?, Option.map_some, text_withAlias, text_wrapped, text_callSql, text_arguments, ← nested_concat]
    rfl
  | having name => rfl

theorem itemTexts_eq : q.itemTexts = q.selection.texts q.zone q.labels := by
  have paired : q.labels.zip q.lists = q.sources.map fun source => (source.label, source.items) := List.zip_map'
  rw [Selection.texts, selection, paired, List.flatMap_map, itemTexts, expressions, List.map_flatMap]
  refine congrArg (q.sources.flatMap ·) (funext fun source => ?_)
  rw [List.map_filterMap]
  exact List.filterMap_congr fun item _ => text_item q.zone q source item

end

section
variable {zone : Zone} {q : Select} {source : Source} {item : SelectItem} {sql : Sql}

theorem texts_distinct (zone : Zone) (items : List Sql) :
    (distinctTexts zone items).map (Sql.text zone) = (items.map (Sql.text zone)).eraseDups := by
  induction items using List.reverseRecOn with
  | nil => rfl
  | append_singleton items item ih =>
    have known : ((distinctTexts zone items).any fun d => d.text zone == item.text zone) = true ↔
        item.text zone ∈ items.map (Sql.text zone) := by
      rw [← List.mem_eraseDups, ← ih]
      simp
    rw [distinctTexts_behind, List.map_append, List.eraseDups_append, ← ih]
    generalize items.map (Sql.text zone) = texts at known
    by_cases member : item.text zone ∈ texts
    · have dropped : [item.text zone].removeAll texts = [] := by simp [List.removeAll, member]
      rw [if_pos (known.mpr member), List.map_singleton, dropped]
      simp
    · have alone : [item.text zone].removeAll texts = [item.text zone] := by simp [List.removeAll, member]
      rw [if_neg (mt known.mp member), List.map_singleton, alone, List.map_append]
      rfl

theorem text_list (q : Select) : Sql.text q.zone q.listSql = listText q.itemTexts := by
  have distinct := texts_distinct q.zone q.expressions
  unfold listSql listText itemTexts
  rw [← distinct]
  cases distinctTexts q.zone q.expressions with
  | nil => rfl
  | cons first r => exact Sql.text_separated q.zone ", " (first :: r)

theorem two_withAlias (label : Option String) (long : 2 ≤ (Sql.chars zone sql).length) :
    2 ≤ (Sql.chars zone (withAlias label sql)).length := by
  cases label with
  | none => exact long
  | some label =>
    rw [withAlias, Sql.chars_append, List.length_append]
    omega

theorem two_path (s : String) (r : List String) : 2 ≤ (Sql.path (s :: r)).toList.length := by
  have quoted : 2 ≤ (Sql.identifier s).toList.length := by simp [Sql.identifier, Sql.quotedWith]
  cases r with
  | nil => simpa [Sql.path] using quoted
  | cons t r =>
    rw [path_cons_cons, List.length_append]
    omega

theorem two_call (f : SqlFunction) (arguments : Sql) : 2 ≤ (Sql.chars zone (callSql f.name arguments)).length := by
  have opened : (f.name ++ "(").toList = f.name.toList ++ ['('] := String.toList_append
  have closed : ")".toList = [')'] := rfl
  simp only [callSql, List.cons_append, Sql.chars_cons, Sql.chars_append, Piece.text, opened, closed, List.length_append,
    List.length_cons]
  omega

theorem two_item (written : q.itemSql? source item = some sql) : 2 ≤ (Sql.chars zone sql).length := by
  cases item with
  | column name label =>
    cases written
    apply two_withAlias
    unfold columnOf
    split
    · simpa [Sql.chars, Piece.text] using two_path source.label [name]
    · simpa [Sql.chars, Piece.text] using two_path name []
  | expression text label =>
    cases written
    apply two_withAlias
    simp [Sql.chars, Piece.text]
  | call function arguments label wrappers =>
    cases written
    apply two_withAlias
    cases wrappers with
    | nil => exact two_call function _
    | cons w r => exact two_call w _
  | having name => cases written

theorem expressions_eq_nil_iff : q.expressions = [] ↔
    ∀ items ∈ q.lists, ∀ item ∈ items, ∃ column, item = .having column := by
  simp only [expressions, lists, List.forall_mem_map, List.flatMap_eq_nil_iff, List.filterMap_eq_nil_iff]
  refine forall₄_congr fun source _ item _ => ?_
  cases item <;> simp [itemSql?]

theorem distinctTexts_eq_nil_iff {items : List Sql} : distinctTexts zone items = [] ↔ items = [] := by
  constructor
  · intro unlisted
    have texts := texts_distinct zone items
    rw [unlisted] at texts
    cases items with
    | nil => rfl
    | cons item r =>
      rw [List.map_cons, List.eraseDups_cons] at texts
      cases texts
  · rintro rfl
    rfl

theorem list_star_iff : listText q.itemTexts = "*" ↔ q.expressions = [] := by
  rw [← text_list, listSql]
  split
  case h_1 unlisted => exact iff_of_true rfl (distinctTexts_eq_nil_iff.mp unlisted)
  case h_2 filled =>
    refine iff_of_false (fun star => ?_) (mt distinctTexts_eq_nil_iff.mpr filled)
    have long : ∀ sql ∈ distinctTexts q.zone q.expressions, 2 ≤ (Sql.chars q.zone sql).length := by
      refine forall_mem_distinctTexts _ fun sql member => ?_
      obtain ⟨source, _, inside⟩ := List.mem_flatMap.mp member
      obtain ⟨item, _, written⟩ := List.mem_filterMap.mp inside
      exact two_item written
    obtain ⟨first, r, spelled⟩ := List.exists_cons_of_ne_nil filled
    have here := long first (spelled ▸ List.mem_cons_self)
    have whole := congrArg (fun text => text.toList.length) star
    rw [spelled, separated_behind, Sql.toList_text, Sql.chars_append, List.length_append] at whole
    have one : "*".toList.length = 1 := rfl
    omega

-- The tokens of a column with the alias of its table, if any, and the name that it gets.
def columnTokens (table : Option String) (name : String) (label : Option String) : List Token :=
  pathTokens (columnPath table name) ++ (label.map fun label => [.word "as", .name label]).getD []

theorem columnTokens_injective {table other : Option String} {name otherName : String} {label otherLabel : Option String}
    (present : table.isSome = other.isSome) (same : columnTokens table name label = columnTokens other otherName otherLabel) :
    table = other ∧ name = otherName ∧ label = otherLabel := by
  cases table <;> cases other <;> cases label <;> cases otherLabel <;>
    simp_all [columnTokens, columnPath, pathTokens]

theorem lex_column (table : Option String) (name : String) (label : Option String) :
    ((SelectItem.column name label).text? zone table).bind lex = some (columnTokens table name label) := by
  have lexed : lex " AS " = some [.word "as"] := rfl
  have path : (Piece.name (columnPath table name)).text zone = Sql.path (columnPath table name) := rfl
  have begins : Begins zone [.name (columnPath table name)] := by cases table <;> exact begins_name _ _ _
  have body : Body zone [.name (columnPath table name)] := by cases table <;> exact (side_name _ _).body
  have written := Sql.lex_text (body_withAlias label body begins).1.tight
  rw [text_withAlias, Sql.text_cons, Sql.text_nil, String.append_empty, path] at written
  rw [SelectItem.text?, Option.bind_some, written]
  cases label <;> simp [withAlias, columnTokens, pathTokens, Piece.tokens_word zone lexed]

theorem columns_alike_iff {labels : List String} {place other : Nat} {table second name otherName : String}
    {label otherLabel : Option String} (apart : labels.Nodup) (there : labels[place]? = some table)
    (also : labels[other]? = some second) :
    (SelectItem.column name label).text? zone (qualifier labels table) =
        (SelectItem.column otherName otherLabel).text? zone (qualifier labels second) ↔
      place = other ∧ name = otherName ∧ label = otherLabel := by
  constructor
  · intro same
    have lexed := congrArg (·.bind lex) same
    simp only [lex_column, Option.some.injEq] at lexed
    obtain ⟨tables, column, alike⟩ := columnTokens_injective (by unfold qualifier; split <;> rfl) lexed
    refine ⟨?_, column, alike⟩
    obtain ⟨inside, _⟩ := List.getElem?_eq_some_iff.mp there
    obtain ⟨bound, _⟩ := List.getElem?_eq_some_iff.mp also
    by_cases several : 1 < labels.length
    · rw [qualifier, qualifier, if_pos several, if_pos several] at tables
      exact (List.getElem?_inj inside apart).mp (there.trans (tables.trans also.symm))
    · omega
  · rintro ⟨rfl, rfl, rfl⟩
    cases there.symm.trans also
    rfl

end

end Select

-- The list of a statement is what the calls that were made selected, table by table and call by call, without the
-- expressions that read like earlier ones; it is a star when there is nothing else than conditions on groups. What was
-- selected stays where it is, with whatever name. As long as no tables share an alias, two columns read alike only if
-- they are the same column of the same table under the same name.
theorem select_list_distinct (zone : Zone) (turns : List Select.Turn) {text : String} {next : Select}
    (built : ((Select.new zone).run turns).build = (.ok text, next)) :
    ∃ chosen, chosen = (Select.Selection.nothing.run (Select.new zone) turns).stated ∧
      next.lists = chosen.lists ∧
      text = next.wrapped next.format ("SELECT" ++ Sql.text next.zone next.distinctOnSql ++ " " ++
        Select.listText (chosen.texts zone next.labels) ++ " " ++ Sql.text next.zone next.scopeSql ++
        Sql.text next.zone next.tailSql) ∧
      (Select.listText (chosen.texts zone next.labels) = "*" ↔
        ∀ items ∈ chosen.lists, ∀ item ∈ items, ∃ column, item = .having column) ∧
      (∀ front behind, turns = front ++ behind → Select.Kept ((Select.new zone).run front).lists next.lists) ∧
      (next.labels.Nodup → ∀ (place other : Nat) (table second : String), next.labels[place]? = some table →
        next.labels[other]? = some second → ∀ name otherName label otherLabel,
          (SelectItem.column name label).text? zone (Select.qualifier next.labels table) =
              (SelectItem.column otherName otherLabel).text? zone (Select.qualifier next.labels second) ↔
            place = other ∧ name = otherName ∧ label = otherLabel) := by
  obtain ⟨checked, stated, _⟩ := Select.build_parts built
  have filled := Select.check_filled checked
  have used : ((Select.new zone).run turns).misuse = none := Select.check_unused checked
  have chosen : next.selection = (Select.Selection.nothing.run (Select.new zone) turns).stated := by
    rw [stated, Select.selection_flush filled, Select.selection_run _ turns used]
    rfl
  have zoned : next.zone = zone := by
    rw [stated, Select.zone_flush filled, Select.run_zone]
    rfl
  have texts : next.itemTexts = next.selection.texts zone next.labels := by rw [Select.itemTexts_eq, zoned]
  refine ⟨next.selection, chosen, rfl, ?text, ?star, ?order, ?columns⟩
  case text =>
    obtain ⟨spelled, _⟩ := Select.build_scope built
    obtain ⟨format, _⟩ := Select.flush_kept filled
    rw [spelled, stated, format, ← stated, ← texts, Select.headSql, List.cons_append, Sql.text_cons, Sql.text_append,
      Sql.text_cons, Select.text_list]
    simp [Piece.text, String.append_assoc]
  case star =>
    rw [← texts]
    exact Select.list_star_iff.trans Select.expressions_eq_nil_iff
  case order =>
    rintro front behind rfl
    have ending := (Select.flush_selects filled).lists.kept
    rw [stated]
    rw [Select.run_append] at ending ⊢
    exact (Select.run_kept _ behind).trans ending
  case columns =>
    intro apart place other table second there also name otherName label otherLabel
    exact Select.columns_alike_iff apart there also

-- Columns of one name in two tables, one of them twice, once more with a name of its own, and a condition on groups.
def petIds : List Select.Turn :=
  [.call (.table "person"), .call (.columns ["id", "name", "id"]),
    .call (.join "pet" (.single (.column "owner")) "person" (.single (.column "id"))),
    .call (.columns ["id", "id"]), .call (.named "pet"), .call (.having "old")]

def petIdsText : String :=
  "SELECT \"t1\".\"id\", \"t1\".\"name\", \"t2\".\"id\", \"t2\".\"id\" AS \"pet\" " ++
    "FROM \"person\" \"t1\" JOIN \"pet\" \"t2\" ON \"t2\".\"owner\" = \"t1\".\"id\" HAVING \"old\""

theorem petIds_distinct : ∃ next, ((Select.new .utc).run petIds).build = (.ok petIdsText, next) ∧
    next.labels = ["t1", "t2"] ∧
    next.lists = [[.column "id" none, .column "name" none, .column "id" none],
      [.column "id" none, .column "id" (some "pet"), .having "old"]] ∧
    (SelectItem.column "id" none).text? .utc (Select.qualifier next.labels "t1") ≠
      (SelectItem.column "id" none).text? .utc (Select.qualifier next.labels "t2") := by
  have written : ((Select.new .utc).run petIds).build.1.toOption = some petIdsText := by decide +kernel
  have built : ((Select.new .utc).run petIds).build = (.ok petIdsText, ((Select.new .utc).run petIds).build.2) :=
    Prod.ext (Select.ok_of_toOption written) rfl
  have labels : ((Select.new .utc).run petIds).build.2.labels = ["t1", "t2"] := by decide +kernel
  obtain ⟨chosen, selected, lists, _, _, _, columns⟩ := select_list_distinct .utc petIds built
  refine ⟨_, built, labels, ?_, ?_⟩
  · rw [lists, selected]
    rfl
  · intro same
    rw [labels] at columns same
    obtain ⟨places, _⟩ := (columns (by decide) 0 1 _ _ rfl rfl _ _ _ _).mp same
    cases places

end QueryKit
