import QueryKit.Proofs.BuildOutcomes
import QueryKit.Proofs.DistinctAliases
import QueryKit.Proofs.JoinConditions
import QueryKit.Proofs.LinkKeys

-- What the columns of an EXISTS link refer to when the server reads the statement. The table of the subquery stands
-- under its own name and hides every table around it that goes by this name as its alias.

namespace QueryKit
open Text Lexer

namespace Lexer

def qualifiers : List Token → List String
  | .name s :: .mark "." :: r => s :: qualifiers r
  | _ :: r => qualifiers r
  | [] => []

end Lexer

-- A table that a subquery may refer to: its own one, or one around it, by the place in the FROM clause.
inductive Bearer where
  | inside
  | around (place : Nat)
  deriving DecidableEq, Repr

-- The own table comes first. Around it, an alias has to be of one table alone.
inductive Means (table : String) (aliases : List String) : String → Bearer → Prop where
  | inside : Means table aliases table .inside
  | around {label : String} {place : Nat} (apart : table ≠ label) (there : aliases[place]? = some label)
      (only : ∀ other, aliases[other]? = some label → other = place) : Means table aliases label (.around place)

-- Each equality of the link, as it is written, is about one table beside the one of its plain column.
def Link.Means (link : Link) (table : String) (aliases : List String) (label : String) (bearer : Bearer) : Prop :=
  ∀ pair ∈ link.pairs, ∀ zone, ∃ ts qualifier, lex (Sql.text zone (linkSql label pair)) = some ts ∧
    qualifiers ts = [qualifier] ∧ QueryKit.Means table aliases qualifier bearer

section
variable {table label : String} {aliases : List String} {place : Nat} {bearer : Bearer}

theorem means_around_iff : Means table aliases label (.around place) ↔
    table ≠ label ∧ aliases[place]? = some label ∧ ∀ other, aliases[other]? = some label → other = place := by
  constructor
  · rintro ⟨⟩
    exact ⟨‹_›, ‹_›, ‹_›⟩
  · rintro ⟨apart, there, only⟩
    exact .around apart there only

theorem means_inside_iff : Means table aliases label .inside ↔ table = label := by
  constructor
  · rintro ⟨⟩
    rfl
  · rintro rfl
    exact .inside

theorem lex_link (zone : Zone) (label : String) (pair : String × String) :
    lex (Sql.text zone (linkSql label pair)) = some (linkTokens label pair) := by
  have lexed : lex " = " = some [.operator "="] := rfl
  rw [Sql.lex_text (predicate_link label pair).tight]
  simp [linkSql, Piece.tokens_word zone lexed, pathTokens, linkTokens]

theorem link_means_iff {link : Link} (filled : link.pairs ≠ []) :
    link.Means table aliases label bearer ↔ Means table aliases label bearer := by
  constructor
  · intro each
    obtain ⟨pair, r, given⟩ := List.exists_cons_of_ne_nil filled
    obtain ⟨ts, qualifier, lexed, alone, means⟩ := each pair (given ▸ List.mem_cons_self) .utc
    rw [lex_link] at lexed
    cases lexed
    cases alone
    exact means
  · intro means pair _ zone
    exact ⟨_, label, lex_link zone label pair, rfl, means⟩

end

namespace Select

-- Where a table is found: the first of this name, else the first with this alias.
def place? (name : String) (tables : List (String × String)) : Option Nat :=
  (tables.findIdx? fun t => t.1 == name).or (tables.findIdx? fun t => t.2 == name)

theorem find?_of_findIdx? {α : Type} (p : α → Bool) (as : List α) : as.find? p = (as.findIdx? p).bind (as[·]?) := by
  induction as with
  | nil => rfl
  | cons a r ih =>
    rw [List.findIdx?_cons]
    by_cases here : p a = true
    · rw [List.find?_cons_of_pos here, if_pos here]
      rfl
    · rw [List.find?_cons_of_neg here, if_neg here, ih]
      cases r.findIdx? p <;> rfl

theorem found?_placed (name : String) (tables : List (String × String)) :
    found? name tables = (place? name tables).bind fun place => tables[place]?.map (·.2) := by
  unfold found? place?
  rw [find?_of_findIdx?, find?_of_findIdx?]
  cases named : tables.findIdx? fun t => t.1 == name with
  | none =>
    rw [Option.bind_none, Option.none_or, Option.none_or]
    exact Option.map_bind
  | some place =>
    obtain ⟨inside, _⟩ := List.findIdx?_eq_some_iff_getElem.mp named
    simp [inside]

theorem placed_of_resolve {q : Select} {name label : String} (found : q.resolve name = .ok label) :
    ∃ place own, place? name q.tables = some place ∧ q.tables[place]? = some (own, label) := by
  rw [resolve_tables] at found
  unfold lookUp at found
  split at found
  case h_2 => cases found
  case h_1 given =>
    cases found
    rw [found?_placed] at given
    obtain ⟨place, first, there⟩ := Option.bind_eq_some_iff.mp given
    obtain ⟨⟨own, label⟩, known, rfl⟩ := Option.map_eq_some_iff.mp there
    exact ⟨place, own, first, known⟩

-- What a call does to the tables: nothing, one more behind them, or another alias for the last one.
inductive Call.Moves (c : Call) (tables : List (String × String)) : List (String × String) → Prop where
  | same : Moves c tables tables
  | numbered (table : String) : Moves c tables (numbered table tables)
  | aliased (name : String) (given : c = .tableAlias name) : Moves c tables (mapLast (fun t => (t.1, name)) tables)

section
variable {tables behind : List (String × String)} {c : Call}

theorem moves_of_onTables (applied : c.onTables tables = .ok behind) : c.Moves tables behind := by
  cases c with
  | table name =>
    cases applied
    split
    · exact .numbered name
    · exact .same
  | join table own target other => exact numbered_of_join applied ▸ .numbered table
  | joinLast table own other => exact numbered_of_joinLast applied ▸ .numbered table
  | tableAlias name =>
    cases applied
    exact .aliased name rfl
  | _ =>
    cases onTables_kept (by rfl) applied
    exact .same

theorem apply_moves {q next : Select} (applied : q.apply c = .ok next) : c.Moves q.tables next.tables := by
  cases template : c.isTemplate with
  | true =>
    cases makes_of_apply applied with
    | orderedRaw => exact .same
    | _ => cases template
  | false =>
    refine moves_of_onTables ?_
    rw [← apply_tables template, applied]
    rfl

theorem Call.Moves.names (moves : c.Moves tables behind) : tables.map Prod.fst <+: behind.map Prod.fst := by
  cases moves with
  | same => exact List.prefix_rfl
  | numbered table =>
    rw [Select.numbered, List.map_append]
    exact List.prefix_append _ _
  | aliased name given =>
    have same : (mapLast (fun t => (t.1, name)) tables).map Prod.fst = mapLast id (tables.map Prod.fst) := by
      apply map_mapLast
      intro t
      rfl
    exact ⟨[], by rw [List.append_nil, same, mapLast_id]⟩

end

def Numbered (tables : List (String × String)) : Prop :=
  ∀ place own label, tables[place]? = some (own, label) → label = "t" ++ natText (place + 1)

-- What stays of a query whatever is done with it: the names of its tables at their places, and its filters.
structure Stays (q last : Select) : Prop where
  names : q.tables.map Prod.fst <+: last.tables.map Prod.fst
  groups : q.groups <+: last.groups
  correlated : q.correlated = true → last.correlated = true

section
variable {q next last : Select} {c : Call} {text : String}

theorem Stays.refl (q : Select) : Stays q q := ⟨List.prefix_rfl, List.prefix_rfl, id⟩

theorem Stays.trans (first : Stays q next) (second : Stays next last) : Stays q last :=
  ⟨first.names.trans second.names, first.groups.trans second.groups, second.correlated ∘ first.correlated⟩

theorem Numbered.moved {tables behind : List (String × String)} (every : Numbered tables) (moves : c.Moves tables behind)
    (other : ∀ name, c ≠ .tableAlias name) : Numbered behind := by
  cases moves with
  | same => exact every
  | aliased name given => exact absurd given (other name)
  | numbered table =>
    intro place own label there
    rcases Nat.lt_trichotomy place tables.length with front | rfl | behind
    · rw [numbered, List.getElem?_append_left front] at there
      exact every place own label there
    · rw [numbered, List.getElem?_concat_length] at there
      cases there
      rfl
    · have beyond : (numbered table tables).length ≤ place := by simpa [numbered, Nat.succ_le_iff] using behind
      rw [List.getElem?_eq_none beyond] at there
      cases there

theorem tables_flush (q : Select) : q.flush.tables = q.tables := by
  unfold flush
  split
  · rfl
  · exact tables_addItems _ { q with pending := [] }

theorem tables_build (q : Select) : q.build.2.tables = q.tables := by
  rcases build_cases q with same | ⟨_, flushed⟩
  · rw [same]
  · rw [flushed, tables_flush]

theorem apply_stays (applied : q.apply c = .ok next) : Stays q next := by
  refine ⟨(apply_moves applied).names, ?groups, ?correlated⟩
  case groups =>
    rcases apply_groups applied with same | ⟨g, added, _⟩
    · exact ⟨[], by rw [List.append_nil, same]⟩
    · exact ⟨[g], added.symm⟩
  case correlated =>
    intro given
    have stores := apply_stores applied
    generalize c.alias? = alias? at stores
    cases stores with
    | tables groups order correlated | term t sources groups order known correlated => rw [correlated, given]
    | aliased renamed =>
      obtain ⟨_, _, same⟩ := kept_setAlias _ q
      rw [renamed, same, given]
    | group g sources groups order known correlated => rw [correlated, given, Bool.true_or]

theorem flush_stays (filled : q.sources ≠ []) : Stays q q.flush := by
  refine ⟨?names, ?groups, ?correlated⟩
  case names => exact ⟨[], by rw [List.append_nil, tables_flush]⟩
  case groups => exact ⟨[], by rw [List.append_nil, (flush_kept filled).2.2]⟩
  case correlated =>
    rcases flush_cases filled with same | ⟨function, wrappers, called⟩
    · rw [same]
      exact id
    · rw [called]
      exact id

theorem run_stays (q : Select) (turns : List Turn) : Stays q (q.run turns) :=
  run_keeps (.refl q) (fun _ _ _ _ applied stays => stays.trans (apply_stays applied))
    fun _ filled stays => stays.trans (flush_stays filled)

theorem run_numbered {turns : List Turn} (unchosen : ∀ name, Turn.call (.tableAlias name) ∉ turns)
    (every : Numbered q.tables) : Numbered (q.run turns).tables := by
  refine run_keeps (p := fun q => Numbered q.tables) every ?_ fun middle _ every => ?_
  · intro middle next c member applied every
    refine every.moved (apply_moves applied) ?_
    rintro name rfl
    exact unchosen name member
  · rwa [tables_flush]

end

section
variable {q : Select} {g : Group} {s : Subquery}

theorem separated_inside {separator : String} {part : Sql} {parts : List Sql} (member : part ∈ parts) :
    ∃ before after, Sql.separated separator parts = before ++ part ++ after := by
  obtain ⟨front, rest, rfl⟩ := List.append_of_mem member
  cases front with
  | nil => exact ⟨[], _, separated_behind separator part rest⟩
  | cons first r =>
    refine ⟨first ++ r.flatMap (fun next => .word separator :: next) ++ [.word separator],
      rest.flatMap fun next => .word separator :: next, ?_⟩
    rw [List.cons_append, separated_behind, List.flatMap_append, List.flatMap_cons]
    simp

theorem filter_inside {qualified : Bool} {part : Sql} {groups : List Group} (member : g ∈ groups)
    (given : g.sql? qualified = some part) :
    ∃ clause before after, Group.whereSql? qualified groups = some clause ∧ clause = before ++ part ++ after := by
  have listed : part ∈ groups.filterMap (Group.sql? qualified) := List.mem_filterMap.mpr ⟨g, member, given⟩
  unfold Group.whereSql?
  split
  case h_1 unfiltered =>
    rw [unfiltered] at listed
    cases listed
  case h_2 other alone =>
    rw [alone] at listed
    cases List.mem_singleton.mp listed
    exact ⟨_, [.word "WHERE "], [], rfl, by simp⟩
  case h_3 =>
    obtain ⟨before, after, inside⟩ := @separated_inside ") AND (" _ _ listed
    refine ⟨_, .word "WHERE (" :: before, after ++ [.word ")"], rfl, ?_⟩
    rw [inside]
    simp

def linked (table label : String) (link : Link) : Sql :=
  .word "EXISTS (SELECT * FROM " :: .name [table] :: .word " WHERE " :: Sql.separated " AND " (link.pairs.map (linkSql label))

theorem linked_inside {label : Option String} {conditions : Conditions} {table outer : String} {link : Link}
    (member : ⟨label, conditions, some ⟨table, outer, link⟩⟩ ∈ q.groups) :
    ∃ before after, q.statementSql = before ++ linked table outer link ++ after := by
  obtain ⟨rest, spelled⟩ : ∃ rest, (Subquery.mk table outer link).sql conditions = linked table outer link ++ rest :=
    ⟨_, List.append_assoc ..⟩
  obtain ⟨clause, before, after, given, inside⟩ := @filter_inside _ q.isAliased _ _ member rfl
  obtain ⟨front, behind, stated⟩ := whereSql?_inside (q := q) given
  refine ⟨front ++ before, rest ++ after ++ behind, ?_⟩
  rw [stated, inside, spelled]
  simp

end

section
variable {tables : List (String × String)} {place : Nat} {own label : String}

theorem Numbered.alone (every : Numbered tables) (there : tables[place]? = some (own, label)) {other : Nat}
    (shared : (tables.map Prod.snd)[other]? = some label) : other = place := by
  rw [List.getElem?_map] at shared
  obtain ⟨⟨name, _⟩, known, rfl⟩ := Option.map_eq_some_iff.mp shared
  have same := (every other name _ known).symm.trans (every place own _ there)
  exact Nat.succ.inj (natText_injective (append_left_injective same))

theorem labels_tables (q : Select) : q.labels = q.tables.map Prod.snd := by
  rw [labels, tables, List.map_map]
  rfl

theorem numbered_new (zone : Zone) : Numbered (new zone).tables := by
  rintro place own label ⟨⟩

end

section
variable {q next last : Select} {text : String}

theorem built_text (built : q.build = (.ok text, last)) : Stays q last ∧ text = Sql.text last.zone last.statementSql := by
  obtain ⟨checked, rfl, written⟩ := build_parts built
  have filled := check_filled checked
  rw [zone_flush filled]
  exact ⟨flush_stays filled, Sql.text_of_render written⟩

theorem aliases_of_correlated (correlated : q.correlated = true) : Sql.aliases q.fromSql = q.labels := by
  rw [aliases_from, printed, isAliased, correlated, Bool.or_true, if_pos rfl]

theorem accepted_stored {table tableLink : String} {link : Link} {conditions : Conditions}
    (accepted : q.apply (.filterExists table tableLink link conditions) = .ok next) :
    link.pairs ≠ [] ∧ next.tables = q.tables ∧ next.correlated = true ∧ ∃ place own label,
      place? tableLink q.tables = some place ∧ q.tables[place]? = some (own, label) ∧
      ∃ inner, ⟨inner, conditions, some ⟨table, label, link⟩⟩ ∈ next.groups := by
  obtain ⟨passed, label, found, rfl⟩ := accepted_link accepted
  obtain ⟨place, own, first, there⟩ := placed_of_resolve found
  exact ⟨(Link.whole_of_check passed).filled, rfl, rfl, place, own, label, first, there, _,
    List.mem_append_right _ List.mem_cons_self⟩

end

end Select

-- The columns of a link are qualified by the alias that the outer table had when the link was made. They refer to this
-- table as long as the alias is still its own, that of no other table, and not the name of the subquery's table;
-- that table takes them otherwise. Where nobody chooses aliases, its name alone decides.
theorem link_reference_iff (zone : Zone) (before later : List Select.Turn) {table tableLink : String} {link : Link}
    {conditions : Conditions} {next last : Select} {text : String}
    (accepted : ((Select.new zone).run before).apply (.filterExists table tableLink link conditions) = .ok next)
    (built : (next.run later).build = (.ok text, last)) :
    ∃ place own label front behind, Select.place? tableLink ((Select.new zone).run before).tables = some place ∧
      ((Select.new zone).run before).tables[place]? = some (own, label) ∧
      (last.tables.map Prod.fst)[place]? = some own ∧
      text = front ++ Sql.text last.zone (Select.linked table label link) ++ behind ∧
      (link.Means table (Sql.aliases last.fromSql) label (.around place) ↔
        table ≠ label ∧ last.labels[place]? = some label ∧ ∀ other, last.labels[other]? = some label → other = place) ∧
      (link.Means table (Sql.aliases last.fromSql) label .inside ↔ table = label) ∧
      ((∀ name, .call (.tableAlias name) ∉ before ++ later) → label = "t" ++ natText (place + 1) ∧
        (link.Means table (Sql.aliases last.fromSql) label (.around place) ↔ table ≠ label)) := by
  obtain ⟨filled, tables, correlated, place, own, label, first, there, inner, stored⟩ := Select.accepted_stored accepted
  obtain ⟨ending, spelled⟩ := Select.built_text built
  have stays := (Select.run_stays next later).trans ending
  obtain ⟨front, behind, stated⟩ := Select.linked_inside (stays.groups.subset stored)
  have named : (last.tables.map Prod.fst)[place]? = some own := by
    have known : (next.tables.map Prod.fst)[place]? = some own := by
      rw [tables, List.getElem?_map, there]
      rfl
    obtain ⟨added, same⟩ := stays.names
    rw [← same, List.getElem?_append_left (List.getElem?_eq_some_iff.mp known).1, known]
  have declared : Sql.aliases last.fromSql = last.labels := Select.aliases_of_correlated (stays.correlated correlated)
  have refers : link.Means table (Sql.aliases last.fromSql) label (.around place) ↔
      table ≠ label ∧ last.labels[place]? = some label ∧ ∀ other, last.labels[other]? = some label → other = place := by
    rw [declared, link_means_iff filled, means_around_iff]
  refine ⟨place, own, label, Sql.text last.zone front, Sql.text last.zone behind, first, there, named, ?text,
    refers, (link_means_iff filled).trans means_inside_iff, ?numbered⟩
  case text => rw [spelled, stated, Sql.text_append, Sql.text_append]
  case numbered =>
    intro unchosen
    have early : Select.Numbered ((Select.new zone).run before).tables :=
      Select.run_numbered (fun name member => unchosen name (List.mem_append_left _ member)) (Select.numbered_new zone)
    have late : Select.Numbered (next.run later).tables :=
      Select.run_numbered (fun name member => unchosen name (List.mem_append_right _ member)) (tables ▸ early)
    have final : Select.Numbered last.tables := by
      rw [← Select.tables_build, built] at late
      exact late
    obtain ⟨⟨_, second⟩, here, rfl⟩ := Option.map_eq_some_iff.mp (List.getElem?_map ▸ named)
    have own : second = label := (final place _ _ here).trans (early place _ _ there).symm
    subst own
    refine ⟨early place _ _ there, refers.trans (and_iff_left ⟨?_, fun other => ?_⟩)⟩
    · rw [Select.labels_tables, List.getElem?_map, here]
      rfl
    · rw [Select.labels_tables]
      exact final.alone here

def withPets : List Select.Turn :=
  [.call (.table "person"), .call (.join "pet" (.single (.column "owner")) "person" (.single (.column "id")))]

def toysOfPets : Select.Call := .filterExists "toy" "pet" (.single "pet" "id") (.node [] [])

def toysOfPetsText : String :=
  "SELECT * FROM \"person\" \"t1\" JOIN \"pet\" \"t2\" ON \"t2\".\"owner\" = \"t1\".\"id\" " ++
    "WHERE EXISTS (SELECT * FROM \"toy\" WHERE \"pet\" = \"t2\".\"id\") LIMIT 3"

theorem toys_refer_to_pets : ∃ next last, ((Select.new .utc).run withPets).apply toysOfPets = .ok next ∧
    (next.run [.call (.limit 3)]).build = (.ok toysOfPetsText, last) ∧
    (Link.single "pet" "id").Means "toy" (Sql.aliases last.fromSql) "t2" (.around 1) := by
  cases accepted : ((Select.new .utc).run withPets).apply toysOfPets with
  | error fault =>
    have taken : (((Select.new .utc).run withPets).apply toysOfPets).isOk = true := by decide +kernel
    rw [accepted] at taken
    cases taken
  | ok next =>
    have told : (((Select.new .utc).run withPets).apply toysOfPets).toOption.map
        (fun next => (next.run [.call (.limit 3)]).build.1.toOption) = some (some toysOfPetsText) := by decide +kernel
    rw [accepted] at told
    have built : (next.run [.call (.limit 3)]).build = (.ok toysOfPetsText, (next.run [.call (.limit 3)]).build.2) :=
      Prod.ext (Select.ok_of_toOption (Option.some.inj told)) rfl
    obtain ⟨place, own, label, _, _, first, there, _, _, _, _, alone⟩ :=
      link_reference_iff .utc withPets [.call (.limit 3)] accepted built
    have known : Select.place? "pet" ((Select.new .utc).run withPets).tables = some 1 := by decide +kernel
    cases known.symm.trans first
    have second : ((Select.new .utc).run withPets).tables[1]? = some ("pet", "t2") := by decide +kernel
    cases second.symm.trans there
    obtain ⟨_, refers⟩ := alone (by simp [withPets])
    exact ⟨next, _, rfl, built, refers.mpr (by decide)⟩

-- A person with the alias that the subquery's table has for a name: the owner's own column is compared.
def ownerPersons : List Select.Turn := [.call (.table "person"), .call (.tableAlias "owner")]

def ownersOfPersons : Select.Call := .filterExists "owner" "person" (.single "person_id" "id") (.node [] [])

theorem owner_captures : ∃ next, ((Select.new .utc).run ownerPersons).apply ownersOfPersons = .ok next ∧
    Select.place? "person" ((Select.new .utc).run ownerPersons).tables = some 0 ∧
    next.build.1 = .ok ("SELECT * FROM \"person\" \"owner\" " ++
      "WHERE EXISTS (SELECT * FROM \"owner\" WHERE \"person_id\" = \"owner\".\"id\")") ∧
    Sql.aliases next.build.2.fromSql = ["owner"] ∧
    ¬ (Link.single "person_id" "id").Means "owner" (Sql.aliases next.build.2.fromSql) "owner" (.around 0) ∧
    (Link.single "person_id" "id").Means "owner" (Sql.aliases next.build.2.fromSql) "owner" .inside := by
  have filled : (Link.single "person_id" "id").pairs ≠ [] := List.cons_ne_nil _ _
  refine ⟨_, rfl, by decide +kernel, Select.ok_of_toOption (by decide +kernel), by decide +kernel, ?_, ?_⟩
  · rw [link_means_iff filled, means_around_iff]
    rintro ⟨apart, _⟩
    exact apart rfl
  · exact (link_means_iff filled).mpr .inside

end QueryKit
