import QueryKit.Proofs.QuerySettings
import QueryKit.Proofs.StatementOutlines

-- How a statement groups and orders its rows. Grouping columns with a minus order them as well, the last one first, and
-- behind them comes what the query was told to be ordered by, in that order.

namespace QueryKit

namespace Direction

theorem ofTerm_minus (name : String) : ofTerm ("-" ++ name) = (name, .descending) := by
  have chars : ("-" ++ name).toList = '-' :: name.toList := by simp
  rw [ofTerm, chars]
  simp

theorem ofTerm_plain {term : String} (plain : ∀ name, term ≠ "-" ++ name) : ofTerm term = (term, .ascending) := by
  unfold ofTerm
  split
  case h_1 r same =>
    refine absurd ?_ (plain (String.ofList r))
    rw [← String.toList_inj, same]
    simp
  case h_2 => rfl

end Direction

namespace Select

def Call.orderBy (term : String) : Call := .order (Direction.ofTerm term).1 (Direction.ofTerm term).2

def grouping (zone : Zone) (turns : List Turn) : Option (List String) := lastSaid Call.groupBy? (made (new zone) turns)

theorem order_of_run (zone : Zone) (turns : List Turn) : ((new zone).run turns).order = orderMade (new zone) turns :=
  congrArg Settings.order (run_settings (new zone) turns)

theorem groupBy_of_run (zone : Zone) (turns : List Turn) : ((new zone).run turns).groupBy = grouping zone turns := by
  have told : ((new zone).run turns).groupBy = (grouping zone turns).or none :=
    congrArg Settings.groupBy (run_settings (new zone) turns)
  rw [told, Option.or_none]

theorem order_of_build (q : Select) : q.build.2.order = q.order := congrArg Settings.order (settings_build q)

theorem format_of_build {q next : Select} {text : String} (built : q.build = (.ok text, next)) : next.format = q.format := by
  obtain ⟨checked, rfl, _⟩ := build_parts built
  exact (flush_kept (check_filled checked)).1

end Select

-- A statement groups by the columns that were listed last, each without the minus that it may have in front, and orders
-- by those of them that have one, the last one first and descending, and behind them by every entry that was made, in
-- the order of the calls and each with its direction; it has no ORDER BY when there is none of either. A minus in front
-- of a column to order by says descending as well. A statement leaves the entries of the query as they are.
theorem ordering_written (zone : Zone) (turns : List Select.Turn) {text : String} {next : Select}
    (built : ((Select.new zone).run turns).build = (.ok text, next)) :
    text = next.wrapped next.format (Outline.text { next.outline with
      groupBy := (Select.grouping zone turns).map fun columns =>
        columns.map fun column => Sql.path [(Direction.ofTerm column).1]
      orderBy := unlessEmpty
        ((Select.descendingNames ((Select.grouping zone turns).getD [])).reverse.map (fun name => Sql.path [name] ++ " DESC") ++
          (Select.orderMade (Select.new zone) turns).map next.orderEntry) }) ∧
    (∀ name, Direction.ofTerm ("-" ++ name) = (name, .descending)) ∧
    (∀ term, (∀ name, term ≠ "-" ++ name) → Direction.ofTerm term = (term, .ascending)) ∧
    (∀ (q : Select) term, (Select.Call.orderBy term).ordered q =
      [.column none (Direction.ofTerm term).1 (Direction.ofTerm term).2]) ∧
    next.order = Select.orderMade (Select.new zone) turns ∧
    ∀ q : Select, q.build.2.order = q.order := by
  have settled : next.settings = ((Select.new zone).run turns).settings := Select.settings_of_build built
  have order : next.order = Select.orderMade (Select.new zone) turns :=
    (congrArg Select.Settings.order settled).trans (Select.order_of_run zone turns)
  have groupBy : next.groupBy = Select.grouping zone turns :=
    (congrArg Select.Settings.groupBy settled).trans (Select.groupBy_of_run zone turns)
  refine ⟨?_, Direction.ofTerm_minus, fun term => Direction.ofTerm_plain, fun q term => rfl, order, Select.order_of_build⟩
  rw [Select.build_outline built, Select.format_of_build built, ← order, ← groupBy]
  rfl

-- Two grouping columns with a minus, of which one has another behind it, and an entry of every kind.
def sortedPets : List Select.Turn :=
  [.call (.table "person"), .call (.order "name" .descending), .call (.groupBy ["old"]),
    .call (.join "pet" (.single (.column "owner")) "person" (.single (.column "id"))), .call (.orderBy "-age"),
    .call (.groupBy ["-kind", "born", "--size"]), .build, .call (.orderOn "cat" "name" .ascending),
    .call (.orderOn "pet" "weight" .descending), .call (.orderRaw "?? = ?" [.text "kind", .text "dog"])]

def sortedPetsText : String :=
  "SELECT * FROM \"person\" \"t1\" JOIN \"pet\" \"t2\" ON \"t2\".\"owner\" = \"t1\".\"id\" " ++
    "GROUP BY \"kind\", \"born\", \"-size\" " ++
    "ORDER BY \"-size\" DESC, \"kind\" DESC, \"name\" DESC, \"age\" DESC, \"t2\".\"weight\" DESC, \"kind\" = 'dog'"

theorem sortedPets_ordered : ∃ next, ((Select.new .utc).run sortedPets).build = (.ok sortedPetsText, next) ∧
    sortedPetsText = next.wrapped next.format (Outline.text { next.outline with
      groupBy := some ["\"kind\"", "\"born\"", "\"-size\""]
      orderBy := some ["\"-size\" DESC", "\"kind\" DESC", "\"name\" DESC", "\"age\" DESC", "\"t2\".\"weight\" DESC",
        "\"kind\" = 'dog'"] }) := by
  have written : ((Select.new .utc).run sortedPets).build.1.toOption = some sortedPetsText := by decide +kernel
  have built : ((Select.new .utc).run sortedPets).build =
      (.ok sortedPetsText, ((Select.new .utc).run sortedPets).build.2) :=
    Prod.ext (Select.ok_of_toOption written) rfl
  obtain ⟨spelled, _⟩ := ordering_written .utc sortedPets built
  have groups : (Select.grouping .utc sortedPets).map (fun columns =>
      columns.map fun column => Sql.path [(Direction.ofTerm column).1]) = some ["\"kind\"", "\"born\"", "\"-size\""] := by
    decide +kernel
  have entries : (Select.descendingNames ((Select.grouping .utc sortedPets).getD [])).reverse.map
        (fun name => Sql.path [name] ++ " DESC") ++
      (Select.orderMade (Select.new .utc) sortedPets).map ((Select.new .utc).run sortedPets).build.2.orderEntry =
      ["\"-size\" DESC", "\"kind\" DESC", "\"name\" DESC", "\"age\" DESC", "\"t2\".\"weight\" DESC", "\"kind\" = 'dog'"] := by
    decide +kernel
  rw [groups, entries] at spelled
  exact ⟨_, built, spelled⟩

end QueryKit
