import QueryKit.Proofs.StoredAliases

-- Aliases that tables share. A table is numbered by its place when it is added, and a joined table of a search by
-- its place among the joins; nobody looks whether such an alias was chosen for another table before.

namespace QueryKit
open Text

theorem natText_injective {m n : Nat} (same : natText m = natText n) : m = n := by
  have chars : digits m = digits n := by simpa [natText] using congrArg String.toList same
  have read := readNat_digits m
  rw [chars, readNat_digits] at read
  exact (Option.some.inj read).symm

-- The aliases that a table gets without being asked, by the number of tables in front of it.
def automatic (place : Nat) : List String := ["t" ++ natText (place + 1), "j" ++ natText place]

theorem append_left_injective {front a b : String} (same : front ++ a = front ++ b) : a = b := by
  have chars := congrArg String.toList same
  rw [String.toList_append, String.toList_append] at chars
  exact String.ext (List.append_cancel_left chars)

theorem letters_apart (a b : String) : "t" ++ a ≠ "j" ++ b := by
  intro same
  have chars := congrArg String.toList same
  rw [String.toList_append, String.toList_append] at chars
  cases (List.cons.inj chars).1

theorem automatic_place {m n : Nat} {label : String} (first : label ∈ automatic m) (second : label ∈ automatic n) :
    m = n := by
  simp only [automatic, List.mem_cons, List.not_mem_nil, or_false] at first second
  rcases first with rfl | rfl
  · rcases second with same | same
    · have next := natText_injective (append_left_injective same)
      omega
    · exact absurd same (letters_apart _ _)
  · rcases second with same | same
    · exact absurd same.symm (letters_apart _ _)
    · exact natText_injective (append_left_injective same)

-- Aliases each of which is automatic at its place or chosen, and new behind the others unless it is automatic.
inductive Ordered (chosen : List String) : List String → Prop where
  | nil : Ordered chosen []
  | behind {earlier : List String} {label : String} (before : Ordered chosen earlier)
      (known : label ∈ automatic earlier.length ∨ label ∈ chosen)
      (fresh : label ∈ automatic earlier.length ∨ label ∉ earlier) : Ordered chosen (earlier ++ [label])

-- Some table has an automatic alias that had been chosen for a table in front of it.
def Anticipated (chosen labels : List String) : Prop :=
  ∃ earlier label later, labels = earlier ++ label :: later ∧ label ∈ automatic earlier.length ∧
    label ∈ chosen ∧ label ∈ earlier

section
variable {chosen labels : List String}

theorem Ordered.known (ordered : Ordered chosen labels) : ∀ label ∈ labels, label ∈ chosen ∨
    ∃ place < labels.length, label ∈ automatic place := by
  induction ordered with
  | nil =>
    intro label member
    cases member
  | @behind earlier last before known fresh ih =>
    intro label member
    rw [List.length_append, List.length_singleton]
    rcases List.mem_append.mp member with front | here
    · rcases ih label front with given | ⟨place, bound, own⟩
      · exact .inl given
      · exact .inr ⟨place, by omega, own⟩
    · cases List.mem_singleton.mp here
      rcases known with own | given
      · exact .inr ⟨earlier.length, by omega, own⟩
      · exact .inl given

theorem Ordered.more (ordered : Ordered chosen labels) (name : String) : Ordered (chosen ++ [name]) labels := by
  induction ordered with
  | nil => exact .nil
  | behind before known fresh ih => exact .behind ih (known.imp_right (List.mem_append_left _)) fresh

theorem Ordered.dropLast (ordered : Ordered chosen labels) : Ordered chosen labels.dropLast := by
  cases ordered with
  | nil => exact .nil
  | behind before known fresh =>
    rw [List.dropLast_concat]
    exact before

theorem anticipated_behind {earlier : List String} {label : String} : Anticipated chosen (earlier ++ [label]) ↔
    Anticipated chosen earlier ∨ label ∈ automatic earlier.length ∧ label ∈ chosen ∧ label ∈ earlier := by
  constructor
  · rintro ⟨front, shared, later, placed, own, given, twice⟩
    rcases List.eq_nil_or_concat later with rfl | ⟨middle, last, rfl⟩
    · obtain ⟨rfl, same⟩ := List.append_inj' placed rfl
      cases same
      exact .inr ⟨own, given, twice⟩
    · rw [List.concat_eq_append, ← List.cons_append, ← List.append_assoc] at placed
      exact .inl ⟨front, shared, middle, (List.append_inj' placed rfl).1, own, given, twice⟩
  · rintro (⟨front, shared, later, rfl, own, given, twice⟩ | ⟨own, given, twice⟩)
    · exact ⟨front, shared, later ++ [label], by simp, own, given, twice⟩
    · exact ⟨earlier, label, [], rfl, own, given, twice⟩

theorem Ordered.nodup_iff (ordered : Ordered chosen labels) : labels.Nodup ↔ ¬ Anticipated chosen labels := by
  induction ordered with
  | nil => simp [Anticipated]
  | @behind earlier label before known fresh ih =>
    have shared : label ∈ earlier ↔ label ∈ automatic earlier.length ∧ label ∈ chosen ∧ label ∈ earlier := by
      constructor
      · intro twice
        have own : label ∈ automatic earlier.length := fresh.resolve_right (not_not_intro twice)
        refine ⟨own, ?_, twice⟩
        rcases before.known label twice with given | ⟨place, bound, other⟩
        · exact given
        · have same := automatic_place other own
          omega
      · rintro ⟨_, _, twice⟩
        exact twice
    have apart : (∀ other ∈ earlier, ¬ other = label) ↔ label ∉ earlier := by
      constructor
      · intro distinct twice
        exact distinct label twice rfl
      · intro fresh other member same
        exact fresh (same ▸ member)
    rw [anticipated_behind, not_or, ← ih, ← shared, ← apart]
    simp [List.nodup_append]

end

namespace Select

-- Queries by the steps to them, with the aliases that the caller chose; each of these was at that moment the
-- alias of no other table. A search numbers its joined tables.
inductive Named (zone : Zone) : List String → Select → Prop where
  | start : Named zone [] (new zone)
  | called {chosen : List String} {q next : Select} {c : Call} (before : Named zone chosen q)
      (applied : q.apply c = .ok next) (other : ∀ name, c ≠ .tableAlias name) : Named zone chosen next
  | aliased {chosen : List String} {q : Select} (before : Named zone chosen q) (name : String)
      (fresh : name ∉ q.labels.dropLast) : Named zone (chosen ++ [name]) (q.setAlias name)
  | numbered {chosen : List String} {q : Select} (before : Named zone chosen q) :
      Named zone chosen (q.setAlias ("j" ++ natText (q.sources.length - 1)))
  | built {chosen : List String} {q : Select} (before : Named zone chosen q) : Named zone chosen q.build.2

section
variable {zone : Zone} {chosen : List String} {q last : Select}

theorem setAlias_of_none (bare : q.sources = []) (name : String) : (q.setAlias name).labels = q.labels := by
  have rootless : q.sources.isEmpty = true := List.isEmpty_iff.mpr bare
  rw [setAlias, if_pos rootless, labels_noteMisuse]

theorem Named.ordered (named : Named zone chosen q) : Ordered chosen q.labels := by
  induction named with
  | start => exact .nil
  | @called chosen q next c before applied other ih =>
    rcases (stores_of_other applied other).labels with same | added
    · rw [same]
      exact ih
    · have own : "t" ++ natText (q.labels.length + 1) ∈ automatic q.labels.length := List.mem_cons_self
      rw [added]
      exact .behind ih (.inl own) (.inl own)
  | @aliased chosen q before name fresh ih =>
    by_cases none : q.sources = []
    · rw [setAlias_of_none none]
      exact ih.more name
    · rw [labels_setAlias none]
      exact .behind (ih.more name).dropLast (.inr (List.mem_append_right _ List.mem_cons_self)) (.inr fresh)
  | @numbered chosen q before ih =>
    by_cases none : q.sources = []
    · rw [setAlias_of_none none]
      exact ih
    · have place : q.labels.dropLast.length = q.sources.length - 1 := by simp [labels]
      have own : "j" ++ natText (q.sources.length - 1) ∈ automatic q.labels.dropLast.length := by
        rw [place]
        exact List.mem_cons_of_mem _ List.mem_cons_self
      rw [labels_setAlias none]
      exact .behind ih.dropLast (.inl own) (.inl own)
  | @built chosen q before ih =>
    rw [(build_kept q).1]
    exact ih

-- Aliases chosen for the joined tables of a search that no table in front of them has.
def Untaken (present : List String) : List JoinSpec → Prop
  | [] => True
  | j :: r => (∀ label, j.label = some label → label ∉ present) ∧
      Untaken (present ++ [j.label.getD ("j" ++ natText present.length)]) r

theorem labels_filter {table : Option String} {conditions : Conditions} {next : Select}
    (applied : q.apply (.filter table conditions) = .ok next) : next.labels = q.labels := by
  cases makes_of_apply applied with
  | filtered | filteredOn => rfl

theorem named_renamed {table : String} {joins : List Join} (added : Named zone chosen (q.addSource table joins))
    (label : Option String) (fresh : ∀ name, label = some name → name ∉ q.labels) :
    Named zone (chosen ++ label.toList) ((q.addSource table joins).setAlias (label.getD ("j" ++ natText q.labels.length))) := by
  cases label with
  | none =>
    have place : (q.addSource table joins).sources.length - 1 = q.labels.length := by simp [addSource, labels]
    rw [Option.getD_none, ← place, Option.toList_none, List.append_nil]
    exact .numbered added
  | some name =>
    refine .aliased added name ?_
    rw [labels_addSource, List.dropLast_concat]
    exact fresh name rfl

theorem labels_renamed (table : String) (joins : List Join) (name : String) (q : Select) :
    ((q.addSource table joins).setAlias name).labels = q.labels ++ [name] := by
  have there : (q.addSource table joins).sources ≠ [] := by simp [addSource]
  rw [labels_setAlias there, labels_addSource, List.dropLast_concat]

theorem named_join (j : JoinSpec) (named : Named zone chosen q) (fresh : ∀ name, j.label = some name → name ∉ q.labels)
    (applied : q.applyAll (joinCalls q.labels.length j) = .ok last) :
    Named zone (chosen ++ j.label.toList) last ∧
      last.labels = q.labels ++ [j.label.getD ("j" ++ natText q.labels.length)] := by
  obtain ⟨middle, joined, applied⟩ := ok_of_bind applied
  obtain ⟨joins, rfl⟩ := addSource_of_addJoin joined
  have added : Named zone chosen (q.addSource j.table joins) :=
    .called (c := .join j.table j.keys j.target j.targetKeys) named joined (by rintro name ⟨⟩)
  obtain ⟨aliased, given, filtered⟩ := ok_of_bind applied
  cases given
  have renamed := named_renamed added j.label fresh
  have labels := labels_renamed j.table joins (j.label.getD ("j" ++ natText q.labels.length)) q
  cases conditions : j.conditions with
  | none =>
    rw [conditions] at filtered
    cases filtered
    exact ⟨renamed, labels⟩
  | some tree =>
    rw [conditions] at filtered
    obtain ⟨final, narrowed, ended⟩ := ok_of_bind filtered
    cases ended
    refine ⟨.called renamed narrowed (by rintro name ⟨⟩), ?_⟩
    rw [labels_filter narrowed, labels]

theorem named_joins (joins : List JoinSpec) (named : Named zone chosen q) (untaken : Untaken q.labels joins)
    (applied : q.applyAll (joinsFrom q.labels.length joins) = .ok last) :
    Named zone (chosen ++ joins.filterMap (·.label)) last := by
  induction joins generalizing q chosen with
  | nil =>
    cases applied
    rwa [List.filterMap_nil, List.append_nil]
  | cons j r ih =>
    obtain ⟨middle, here, later⟩ := applyAll_append _ _ applied
    obtain ⟨joined, labels⟩ := named_join j named untaken.1 here
    have length : q.labels.length + 1 = middle.labels.length := by simp [labels]
    have shifted : chosen ++ (j :: r).filterMap (·.label) = (chosen ++ j.label.toList) ++ r.filterMap (·.label) := by
      cases given : j.label with
      | none => simp [given]
      | some label => simp [given]
    rw [shifted]
    refine ih joined ?_ ?_
    · rw [labels]
      exact untaken.2
    · rw [← length]
      exact later

theorem named_applyAll (calls : List Call) (keeps : ∀ c ∈ calls, c.keepsAliases = true) (named : Named zone chosen q)
    (applied : q.applyAll calls = .ok last) : Named zone chosen last := by
  induction calls generalizing q with
  | nil =>
    cases applied
    exact named
  | cons c r ih =>
    obtain ⟨next, here, rest⟩ := ok_of_bind applied
    obtain ⟨keepsHere, keepsLater⟩ := List.forall_mem_cons.mp keeps
    refine ih keepsLater (.called named here ?_) rest
    rintro name rfl
    cases keepsHere

theorem labels_first (zone : Zone) (table : String) : (addTable table (new zone)).labels = ["t1"] := by
  change ["t" ++ natText 1] = ["t1"]
  rw [first_number]

theorem named_search {base later : List Call} {joins : List JoinSpec} (first : ∀ c ∈ base, c.keepsAliases = true)
    (keeps : ∀ c ∈ later, c.keepsAliases = true) {front : Select} (opened : (new zone).applyAll base = .ok front)
    (alone : front.labels = ["t1"]) (untaken : Untaken ["t1"] joins)
    (applied : (new zone).applyAll (base ++ (joinsFrom 1 joins ++ later)) = .ok last) :
    Named zone (joins.filterMap (·.label)) last := by
  obtain ⟨start, here, rest⟩ := applyAll_append _ _ applied
  cases here.symm.trans opened
  obtain ⟨middle, joined, shaped⟩ := applyAll_append _ _ rest
  have count : front.labels.length = 1 := by rw [alone, List.length_singleton]
  have named := named_applyAll base first .start opened
  rw [← alone] at untaken
  rw [← count] at joined
  exact named_applyAll later keeps (named_joins joins named untaken joined) shaped

end

end Select

-- Whoever chooses for a table an alias that no other table has then finds two tables with one alias in just
-- one way: what was chosen for the one is the alias that a table behind it gets by itself, for its place. The
-- same holds of the tables that finding and counting put together.
theorem aliases_distinct (zone : Zone) :
    (∀ chosen q, Select.Named zone chosen q → (q.labels.Nodup ↔ ¬ Anticipated chosen q.labels)) ∧
    (∀ columns table conditions (r : Related) s text, findSql zone columns table conditions r s = .ok text →
      Select.Untaken ["t1"] r.joins →
      ∃ q, (Select.new zone).applyAll (Select.findCalls columns table conditions r s) = .ok q ∧ q.build.1 = .ok text ∧
        Select.Named zone (r.joins.filterMap (·.label)) q) ∧
    (∀ table conditions (r : Related) text, countSql zone table conditions r = .ok text →
      Select.Untaken ["t1"] r.joins →
      ∃ q, (Select.new zone).applyAll (Select.countCalls table conditions r) = .ok q ∧ q.buildCount = .ok text ∧
        Select.Named zone (r.joins.filterMap (·.label)) q) := by
  refine ⟨fun chosen q named => named.ordered.nodup_iff, ?_, ?_⟩
  · intro columns table conditions r s text found untaken
    obtain ⟨q, applied, written⟩ := Select.ok_of_bind found
    obtain ⟨later, parts, keeps⟩ := Select.findCalls_parts columns table conditions r s
    refine ⟨q, applied, written, ?_⟩
    rw [parts] at applied
    refine Select.named_search (by simp [Select.Call.keepsAliases]) keeps rfl ?_ untaken applied
    rw [Select.labels_addItems]
    exact Select.labels_first zone table
  · intro table conditions r text counted untaken
    obtain ⟨q, applied, written⟩ := Select.ok_of_bind counted
    obtain ⟨later, parts, keeps⟩ := Select.countCalls_parts table conditions r
    refine ⟨q, applied, written, ?_⟩
    rw [parts, ← List.singleton_append] at applied
    exact Select.named_search (by simp [Select.Call.keepsAliases]) keeps rfl (Select.labels_first zone table) untaken applied

-- A joined table with an alias of its own, one that is numbered, and the table of a merge.
def toyVisits : Related :=
  { joins := [⟨"pet", .single (.column "owner"), "person", .single (.column "id"), some "p", none⟩,
      ⟨"toy", .single (.column "pet"), "p", .single (.column "id"), none, none⟩]
    merge := some ⟨"visit", .single (.column "pet"), .single (.column "id"), ["day"], none, none⟩ }

def toyVisitsFound : String :=
  "SELECT \"t1\".\"name\", \"t4\".\"day\" FROM ((\"person\" \"t1\" JOIN \"pet\" \"p\" ON \"p\".\"owner\" = \"t1\".\"id\") " ++
    "JOIN \"toy\" \"j2\" ON \"j2\".\"pet\" = \"p\".\"id\") JOIN \"visit\" \"t4\" ON \"t4\".\"pet\" = \"j2\".\"id\""

theorem toyVisits_distinct : findSql .utc ["name"] "person" (.node [] []) toyVisits {} = .ok toyVisitsFound ∧
    ∃ q, (Select.new .utc).applyAll (Select.findCalls ["name"] "person" (.node [] []) toyVisits {}) = .ok q ∧
      q.labels = ["t1", "p", "j2", "t4"] ∧ ¬ Anticipated ["p"] q.labels := by
  have written : (findSql .utc ["name"] "person" (.node [] []) toyVisits {}).toOption = some toyVisitsFound := by
    decide +kernel
  have found := Select.ok_of_toOption written
  have untaken : Select.Untaken ["t1"] toyVisits.joins := by simp [Select.Untaken, toyVisits]
  obtain ⟨apart, searched, _⟩ := aliases_distinct .utc
  obtain ⟨q, applied, _, named⟩ := searched _ _ _ _ _ _ found untaken
  have told : ((Select.new .utc).applyAll
      (Select.findCalls ["name"] "person" (.node [] []) toyVisits {})).toOption.map Select.labels =
      some ["t1", "p", "j2", "t4"] := by decide +kernel
  rw [applied] at told
  have labels : q.labels = ["t1", "p", "j2", "t4"] := Option.some.inj told
  have distinct : q.labels.Nodup := by
    rw [labels]
    decide
  exact ⟨found, q, applied, labels, (apart ["p"] q named).mp distinct⟩

-- Where the first table is called what the second one is called by itself, both have that alias.
def personQuery : Select := (Select.new .utc).addTable "person"

def petJoin : Select.Call := .join "pet" (.single (.column "owner")) "person" (.single (.column "id"))

def twinText : String :=
  "SELECT * FROM \"person\" \"t2\" JOIN \"pet\" \"t2\" ON \"t2\".\"owner\" = \"t2\".\"id\""

theorem pets_share_alias : "t2" ∉ personQuery.labels ∧
    ∃ q, (personQuery.setAlias "t2").apply petJoin = .ok q ∧ Select.Named .utc ["t2"] q ∧
      q.labels = ["t2", "t2"] ∧ ¬ q.labels.Nodup ∧ q.build.1 = .ok twinText := by
  have fresh : "t2" ∉ personQuery.labels := by decide +kernel
  have first : Select.Named .utc [] personQuery := .called (c := .table "person") .start rfl (by rintro name ⟨⟩)
  have chosen : Select.Named .utc ["t2"] (personQuery.setAlias "t2") :=
    .aliased first "t2" fun member => fresh (List.dropLast_subset _ member)
  have told : ((personQuery.setAlias "t2").apply petJoin).toOption.map (fun q => (q.labels, q.build.1.toOption)) =
      some (["t2", "t2"], some twinText) := by decide +kernel
  cases joined : (personQuery.setAlias "t2").apply petJoin with
  | error fault =>
    rw [joined] at told
    cases told
  | ok q =>
    rw [joined] at told
    obtain ⟨labels, written⟩ := Prod.mk.inj (Option.some.inj told)
    have shared : ¬ q.labels.Nodup := by
      rw [labels]
      decide
    exact ⟨fresh, q, rfl, .called chosen joined (by rintro name ⟨⟩), labels, shared, Select.ok_of_toOption written⟩

end QueryKit
