import QueryKit.Driver.Operation
import QueryKit.Proofs.Assignments

-- The keys that an insertion reports. They are told by the row that comes back, and by what was supplied where none
-- does. The first is asked for the storage column of a key and the second for its own name before that, so that they
-- differ where this is the name of another column.

namespace QueryKit
open Lexer

namespace Columns
variable {α : Type}

theorem ext {a b : Columns α} (named : names a = names b) (distinct : (names a).Nodup)
    (same : ∀ name ∈ names a, get? name a = get? name b) : a = b := by
  have left := recovered a distinct
  have right := recovered b (named ▸ distinct)
  rw [← named] at right
  rw [← left, ← right]
  exact List.filterMap_congr fun name member => by rw [same name member]

end Columns

-- Of several keys with one name the last one tells the value.
def Telling (keys : List Property) (p : Property) : Prop :=
  ∃ before after, keys = before ++ p :: after ∧ ∀ other ∈ after, other.name ≠ p.name

theorem mem_of_telling {keys : List Property} {p : Property} (telling : Telling keys p) : p ∈ keys := by
  obtain ⟨before, after, rfl, -⟩ := telling
  exact List.mem_append_right _ List.mem_cons_self

theorem telling_of_named {keys : List Property} {name : String} (named : name ∈ keys.map (·.name)) :
    ∃ p, Telling keys p ∧ p.name = name := by
  induction keys with
  | nil => cases named
  | cons q r ih =>
    by_cases later : name ∈ r.map (·.name)
    · obtain ⟨p, ⟨before, after, rfl, last⟩, same⟩ := ih later
      exact ⟨p, ⟨q :: before, after, rfl, last⟩, same⟩
    · rcases List.mem_cons.mp named with rfl | member
      · exact ⟨q, ⟨[], r, rfl, fun other member same => later (List.mem_map.mpr ⟨other, member, same⟩)⟩, rfl⟩
      · exact absurd member later

section
variable {keys : List Property} (f g : Property → Value)

theorem get?_telling {p : Property} (telling : Telling keys p) :
    Columns.get? p.name (Columns.ofPairs (keys.map fun q => (q.name, f q))) = some (f p) := by
  obtain ⟨before, after, rfl, last⟩ := telling
  have behind : List.lookup p.name (after.map fun q => (q.name, f q)).reverse = none := by
    rw [List.lookup_eq_none_iff]
    intro pair member
    obtain ⟨other, inside, rfl⟩ := List.mem_map.mp (List.mem_reverse.mp member)
    exact bne_iff_ne.mpr (last other inside).symm
  rw [Columns.get?_ofPairs, List.map_append, List.map_cons, List.reverse_append, List.reverse_cons, List.append_assoc,
    List.lookup_append, behind, Option.none_or, List.lookup_append]
  simp

theorem names_keyed : Columns.names (Columns.ofPairs (keys.map fun q => (q.name, f q))) =
    (keys.map (·.name)).eraseDups := by
  rw [Columns.names_ofPairs, List.map_map]
  rfl

theorem keyed_eq_iff : Columns.ofPairs (keys.map fun q => (q.name, f q)) =
    Columns.ofPairs (keys.map fun q => (q.name, g q)) ↔ ∀ p, Telling keys p → f p = g p := by
  constructor
  · intro same p telling
    have left := get?_telling f telling
    rw [same, get?_telling g telling] at left
    exact (Option.some.inj left).symm
  · intro each
    refine Columns.ext ((names_keyed f).trans (names_keyed g).symm) (Columns.distinct_ofPairs _) ?_
    intro name member
    rw [names_keyed, List.mem_eraseDups] at member
    obtain ⟨p, telling, rfl⟩ := telling_of_named member
    rw [get?_telling f telling, get?_telling g telling, each p telling]

end

theorem insertSql_splits (zone : Zone) (table : String) {data : Row} (distinct : (Columns.names data).Nodup)
    {text : String} (built : insertSql zone table data = .ok text) :
    lex text = some (Insert.tokens zone table data ++ [.word "returning", .operator "*"]) := by
  have own : Columns.ofPairs data = data := (Columns.ofPairs_eq_self_iff data).mpr distinct
  unfold insertSql at built
  cases inner : (((Insert.new zone).into table).setAll data).build with
  | error fault =>
    rw [inner] at built
    cases built
  | ok sql =>
    rw [inner] at built
    cases built
    have rendered : Sql.render zone (.word "INSERT INTO " :: .name [table] :: Insert.valuesSql (Columns.ofPairs data)) =
        .ok sql := inner
    rw [own] at rendered
    have tail : Sql.Tight zone [.word " RETURNING *"] := .last rfl
    have tight := (Insert.tight_sql zone table data).append tail (Sql.breaks_word (by decide) rfl)
    have asked : lex " RETURNING *" = some [.word "returning", .operator "*"] := rfl
    have spelled : sql ++ " RETURNING *" = Sql.text zone
        ((.word "INSERT INTO " :: .name [table] :: Insert.valuesSql data) ++ [.word " RETURNING *"]) := by
      rw [Sql.text_append, Sql.text_of_render rendered]
      rfl
    rw [spelled, Sql.lex_text tight, Sql.tokens_append, Insert.tokens_valuesSql, Sql.tokens_cons,
      Piece.tokens_word zone asked]
    rfl

namespace Operation

theorem keyValue_returned (data : Row) {p : Property} {v : Value} (stored : Columns.get? p.mapsTo data = some v) :
    keyValue (some data) data p = v := by
  rw [keyValue, stored]
  rfl

theorem keyValue_supplied (data : Row) {p : Property} {v : Value} (stored : Columns.get? p.mapsTo data = some v) :
    keyValue none data p = (Columns.get? p.name data).getD v := by
  rw [keyValue, stored]
  cases Columns.get? p.name data <;> rfl

end Operation

-- A row that comes back as it was inserted tells of every key what was written into its storage column. Where no row
-- comes back the same is told exactly when no key that counts has the name of a column with another value.
theorem inserted_keys_agree_iff {data : Row} (distinct : (Columns.names data).Nodup) {keys : List Property}
    (stored : ∀ p ∈ keys, (Columns.get? p.mapsTo data).isSome = true) (zone : Zone) (table : String)
    (more : List Row) :
    (∀ text, insertSql zone table data = .ok text →
      lex text = some (Insert.tokens zone table data ++ [.word "returning", .operator "*"])) ∧
    (∃ reported, Operation.answer (data :: more) (.insert table data keys) = .ok (.keys reported) ∧
      ∀ p, Telling keys p → Columns.get? p.name reported = Columns.get? p.mapsTo data) ∧
    (Operation.answer [] (.insert table data keys) = Operation.answer (data :: more) (.insert table data keys) ↔
      ∀ p, Telling keys p → ∀ v, Columns.get? p.name data = some v → Columns.get? p.mapsTo data = some v) := by
  have written : ∀ p, Telling keys p → ∃ v, Columns.get? p.mapsTo data = some v := fun p telling =>
    Option.isSome_iff_exists.mp (stored p (mem_of_telling telling))
  refine ⟨fun text => insertSql_splits zone table distinct, ⟨_, rfl, fun p telling => ?_⟩, ?_⟩
  · obtain ⟨v, held⟩ := written p telling
    show Columns.get? p.name (Operation.keysOf (some data) data keys) = _
    rw [Operation.keysOf, get?_telling _ telling, Operation.keyValue_returned data held, held]
  · have sides : Operation.answer [] (.insert table data keys) =
          Operation.answer (data :: more) (.insert table data keys) ↔
        Operation.keysOf none data keys = Operation.keysOf (some data) data keys := by
      simp only [Operation.answer, List.head?_nil, List.head?_cons, Except.ok.injEq, Answer.keys.injEq]
    rw [sides, Operation.keysOf, Operation.keysOf, keyed_eq_iff]
    refine forall₂_congr fun p telling => ?_
    obtain ⟨v, held⟩ := written p telling
    rw [Operation.keyValue_returned data held, Operation.keyValue_supplied data held, held]
    cases Columns.get? p.name data <;> simp [eq_comm]

def personKey : Property := ⟨"id", "person_id", .number, true, .text⟩

def janesRow : Row := [("person_id", .int32 6), ("name", .text "Jane")]

theorem janes_keys_agree : (Columns.names janesRow).Nodup ∧
    (∀ p ∈ [personKey], (Columns.get? p.mapsTo janesRow).isSome = true) ∧
    Operation.answer [] (.insert "person" janesRow [personKey]) =
      Operation.answer [janesRow] (.insert "person" janesRow [personKey]) := by
  have distinct : (Columns.names janesRow).Nodup := by decide
  have stored : ∀ p ∈ [personKey], (Columns.get? p.mapsTo janesRow).isSome = true :=
    List.forall_mem_singleton.mpr rfl
  obtain ⟨-, -, agree⟩ := inserted_keys_agree_iff distinct stored .utc "person" []
  refine ⟨distinct, stored, agree.mpr fun p telling v named => ?_⟩
  cases List.mem_singleton.mp (mem_of_telling telling)
  cases named

def cardRow : Row := [("id", .int32 5), ("person_id", .int32 6)]

theorem card_mistaken : (Columns.names cardRow).Nodup ∧
    (∀ p ∈ [personKey], (Columns.get? p.mapsTo cardRow).isSome = true) ∧
    Operation.answer [cardRow] (.insert "person" cardRow [personKey]) = .ok (.keys [("id", .int32 6)]) ∧
    Operation.answer [] (.insert "person" cardRow [personKey]) = .ok (.keys [("id", .int32 5)]) ∧
    Operation.answer [] (.insert "person" cardRow [personKey]) ≠
      Operation.answer [cardRow] (.insert "person" cardRow [personKey]) := by
  have returned : Operation.answer [cardRow] (.insert "person" cardRow [personKey]) = .ok (.keys [("id", .int32 6)]) :=
    rfl
  have supplied : Operation.answer [] (.insert "person" cardRow [personKey]) = .ok (.keys [("id", .int32 5)]) := rfl
  refine ⟨by decide, List.forall_mem_singleton.mpr rfl, returned, supplied, fun same => ?_⟩
  rw [returned, supplied] at same
  cases same

end QueryKit
