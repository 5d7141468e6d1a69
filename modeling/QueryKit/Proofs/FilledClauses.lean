import QueryKit.Proofs.OrderedStatements
import QueryKit.Proofs.SearchAliases

-- Clauses without entries. A statement prints one exactly when the list that counts for its groups or for DISTINCT ON
-- was given without columns; a search has no groups, so that it comes to the columns of its DISTINCT ON alone.

namespace QueryKit

theorem unlessEmpty_ne (entries : List String) : unlessEmpty entries ≠ some [] := by
  unfold unlessEmpty
  split
  · exact Option.some_ne_none _ |>.symm
  case isFalse filled => exact fun same => filled (Option.some.inj same)

def Outline.Filled (o : Outline) : Prop := ∀ entries ∈ o.lists, entries ≠ []

theorem Outline.filled_iff {o : Outline} (joined : ∀ table ∈ o.joined, table.2 ≠ []) (having : o.having ≠ some [])
    (orderBy : o.orderBy ≠ some []) : o.Filled ↔ o.groupBy ≠ some [] ∧ o.distinctOn ≠ some [] := by
  have absent (entries : Option (List String)) : (∀ list ∈ entries.toList, list ≠ []) ↔ entries ≠ some [] := by
    cases entries <;> simp
  have conditions : ∀ list ∈ o.joined.map (·.2), list ≠ [] := List.forall_mem_map.mpr joined
  simp only [Filled, lists, List.forall_mem_append, absent]
  tauto

namespace Select

section
variable {q : Select}

theorem reached_run {zone : Zone} (before : Reached zone q) (turns : List Turn) : Reached zone (q.run turns) := by
  induction turns generalizing q with
  | nil => exact before
  | cons turn r ih =>
    show Reached zone ((q.after turn).run r)
    cases turn with
    | build => exact ih (.built before)
    | call c =>
      cases applied : q.apply c with
      | error fault =>
        rw [(after_failed applied).1]
        exact ih before
      | ok next =>
        rw [(after_made applied).1]
        exact ih (.called before applied)

theorem joined_filled (chained : Chained q.sources) : ∀ table ∈ q.outline.joined, table.2 ≠ [] := by
  intro table member
  obtain ⟨source, later, rfl⟩ := List.mem_map.mp member
  obtain ⟨front, behind, placed⟩ := List.append_of_mem later
  cases found : q.sources with
  | nil =>
    rw [found] at later
    cases later
  | cons first r =>
    rw [found] at placed
    have parted : q.sources = (first :: front) ++ source :: behind := by rw [found, List.cons_append, ← placed, List.tail_cons]
    have joins : source.joins ≠ [] := fun unjoined => by cases (chained.joined parted).rooted.mp unjoined
    simpa [joinEntries] using joins

theorem outline_filled_iff (chained : Chained q.sources) :
    q.outline.Filled ↔ q.groupBy ≠ some [] ∧ q.distinctOn ≠ some [] := by
  have given {columns : Option (List String)} (text : String → String) :
      (columns.map fun names => names.map text) ≠ some [] ↔ columns ≠ some [] := by
    cases columns <;> simp
  rw [Outline.filled_iff (joined_filled chained) (unlessEmpty_ne _) (unlessEmpty_ne _)]
  exact and_congr (given _) (given _)

def distinction (zone : Zone) (turns : List Turn) : Option (List String) := lastSaid Call.distinctOn? (made (new zone) turns)

theorem distinctOn_of_run (zone : Zone) (turns : List Turn) :
    ((new zone).run turns).distinctOn = distinction zone turns := by
  have told : ((new zone).run turns).distinctOn = (distinction zone turns).or none :=
    congrArg Settings.distinctOn (run_settings (new zone) turns)
  rw [told, Option.or_none]

theorem built_filled_iff {zone : Zone} {turns : List Turn} {text : String} {next : Select}
    (built : ((new zone).run turns).build = (.ok text, next)) :
    text = next.wrapped next.format next.outline.text ∧
      (next.outline.Filled ↔ grouping zone turns ≠ some [] ∧ distinction zone turns ≠ some []) := by
  have stepped : next = ((new zone).run turns).build.2 := by rw [built]
  have settled : next.settings = ((new zone).run turns).settings := settings_of_build built
  have reached : Reached zone next := stepped ▸ .built (reached_run .start turns)
  refine ⟨?_, ?_⟩
  · rw [format_of_build built]
    exact build_outline built
  · have groupBy : next.groupBy = grouping zone turns := (congrArg Settings.groupBy settled).trans (groupBy_of_run zone turns)
    have distinctOn : next.distinctOn = distinction zone turns :=
      (congrArg Settings.distinctOn settled).trans (distinctOn_of_run zone turns)
    rw [← groupBy, ← distinctOn]
    exact outline_filled_iff (reached_chained reached)

theorem run_of_applyAll {last : Select} {calls : List Call} (applied : q.applyAll calls = .ok last) :
    q.run (calls.map .call) = last ∧ made q (calls.map .call) = calls := by
  induction calls generalizing q with
  | nil =>
    cases applied
    exact ⟨rfl, rfl⟩
  | cons c r ih =>
    obtain ⟨next, here, rest⟩ := ok_of_bind applied
    obtain ⟨stepped, known⟩ := after_made here
    obtain ⟨ran, all⟩ := ih rest
    refine ⟨?_, ?_⟩
    · show (q.after (.call c)).run (r.map .call) = last
      rw [stepped, ran]
    · rw [List.map_cons, made, stepped, known, all]
      rfl

def Call.isUnlisted (c : Call) : Bool := c.groupBy?.isNone && c.distinctOn?.isNone

theorem unlisted_of_scopes {c : Call} (scopes : c.scopes = true) : c.isUnlisted = true := by
  cases c with
  | groupBy | distinctOn => cases scopes
  | _ => rfl

theorem said_unlisted {calls : List Call} (unlisted : ∀ c ∈ calls, c.isUnlisted = true) :
    calls.filterMap Call.groupBy? = [] ∧ calls.filterMap Call.distinctOn? = [] := by
  simp only [Call.isUnlisted, Bool.and_eq_true, Option.isNone_iff_eq_none] at unlisted
  exact ⟨List.filterMap_eq_nil_iff.mpr fun c member => (unlisted c member).1,
    List.filterMap_eq_nil_iff.mpr fun c member => (unlisted c member).2⟩

theorem shapeCalls_listed (s : Shape) : ∃ before, shapeCalls s = before ++ (s.distinctOn.map Call.distinctOn).toList ∧
    ∀ c ∈ before, c.isUnlisted = true := by
  unfold shapeCalls
  refine ⟨_, congrArg₂ (· ++ ·) rfl ?distinct, List.forall_mem_append.mpr ⟨List.forall_mem_append.mpr ⟨?offset, ?limit⟩, ?order⟩⟩
  case distinct => cases s.distinctOn <;> rfl
  case offset =>
    split
    · split <;> simp [Call.isUnlisted, Call.groupBy?, Call.distinctOn?]
    · simp
  case limit => cases s.limit <;> simp [Call.isUnlisted, Call.groupBy?, Call.distinctOn?]
  case order =>
    refine List.forall_mem_map.mpr fun o _ => ?_
    unfold orderCall
    cases o.table <;> rfl

theorem said_findCalls (columns : List String) (table : String) (conditions : Conditions) (r : Related) (s : Shape) :
    (findCalls columns table conditions r s).filterMap Call.groupBy? = [] ∧
      (findCalls columns table conditions r s).filterMap Call.distinctOn? = s.distinctOn.toList := by
  have opening : ∀ c ∈ openingCalls columns table r.joins, c.isUnlisted = true :=
    List.forall_mem_append.mpr
      ⟨by simp [Call.isUnlisted, Call.groupBy?, Call.distinctOn?], fun c member => unlisted_of_scopes (scopes_joinsFrom _ _ c member)⟩
  have merge : ∀ c ∈ mergeCalls r, c.isUnlisted = true := by
    unfold mergeCalls
    split <;> simp [mergeCall, Call.isUnlisted, Call.groupBy?, Call.distinctOn?]
  have closing : ∀ c ∈ closingCalls table conditions r s, c.isUnlisted = true := by
    refine List.forall_mem_append.mpr ⟨List.forall_mem_append.mpr ⟨?_, ?_⟩, ?_⟩
    · exact fun c member => unlisted_of_scopes (scopes_filterCalls table r conditions c member)
    · exact fun c member => unlisted_of_scopes (scopes_existingCalls table r c member)
    · unfold outputCalls
      cases s.transform <;> simp [Call.isUnlisted, Call.groupBy?, Call.distinctOn?]
  obtain ⟨before, shaped, unlisted⟩ := shapeCalls_listed s
  rw [findCalls_eq, shaped]
  simp only [List.filterMap_append, said_unlisted opening, said_unlisted merge, said_unlisted closing,
    said_unlisted unlisted]
  cases s.distinctOn <;> exact ⟨rfl, rfl⟩

end

end Select

-- Of all statements of queries, however they were put together, those without an empty clause are just the ones of
-- queries to which no list without columns was given last, for the groups or for DISTINCT ON: no condition on groups, no
-- order and no join is ever printed without an entry. So a search has an empty clause only if its DISTINCT ON has no
-- columns.
theorem clauses_filled_iff (zone : Zone) :
    (∀ turns text next, ((Select.new zone).run turns).build = (.ok text, next) →
      text = next.wrapped next.format next.outline.text ∧
        (next.outline.Filled ↔ Select.grouping zone turns ≠ some [] ∧ Select.distinction zone turns ≠ some [])) ∧
    ∀ columns table conditions r s text, findSql zone columns table conditions r s = .ok text →
      ∃ q next, (Select.new zone).applyAll (Select.findCalls columns table conditions r s) = .ok q ∧
        q.build = (.ok text, next) ∧ text = next.wrapped next.format next.outline.text ∧
        (next.outline.Filled ↔ s.distinctOn ≠ some []) := by
  refine ⟨fun turns text next built => Select.built_filled_iff built, ?_⟩
  intro columns table conditions r s text found
  obtain ⟨q, applied, written⟩ := Select.ok_of_bind found
  have built : q.build = (.ok text, q.build.2) := Prod.ext written rfl
  obtain ⟨ran, all⟩ := Select.run_of_applyAll applied
  have grouped : Select.grouping zone ((Select.findCalls columns table conditions r s).map .call) = none := by
    rw [Select.grouping, all, Select.lastSaid, (Select.said_findCalls columns table conditions r s).1]
    rfl
  have distinct : Select.distinction zone ((Select.findCalls columns table conditions r s).map .call) = s.distinctOn := by
    rw [Select.distinction, all, Select.lastSaid, (Select.said_findCalls columns table conditions r s).2]
    cases s.distinctOn <;> rfl
  generalize q.build.2 = next at built
  obtain ⟨spelled, filled⟩ := Select.built_filled_iff ((congrArg Select.build ran).trans built)
  rw [grouped, distinct] at filled
  refine ⟨q, next, applied, built, spelled, filled.trans ?_⟩
  simp

-- Lists that were given without columns at first, and a search that distinguishes by one.
def regrouped : List Select.Turn :=
  [.call (.table "person"), .call (.distinctOn []), .call (.groupBy []), .call (.columns []), .call (.groupBy ["-age"]),
    .call (.distinctOn ["name"])]

def regroupedText : String := "SELECT DISTINCT ON (\"name\") * FROM \"person\" GROUP BY \"age\" ORDER BY \"age\" DESC"

def byName : Shape := { distinctOn := some ["name"], limit := some 3 }

theorem regrouped_filled :
    (∃ next, ((Select.new .utc).run regrouped).build = (.ok regroupedText, next) ∧ next.outline.Filled) ∧
    findSql .utc [] "person" (.node [] []) {} byName = .ok "SELECT DISTINCT ON (\"name\") * FROM \"person\" LIMIT 3" ∧
    ∃ q next, (Select.new .utc).applyAll (Select.findCalls [] "person" (.node [] []) {} byName) = .ok q ∧
      q.build = (.ok "SELECT DISTINCT ON (\"name\") * FROM \"person\" LIMIT 3", next) ∧ next.outline.Filled := by
  obtain ⟨queries, searches⟩ := clauses_filled_iff .utc
  have written : ((Select.new .utc).run regrouped).build.1.toOption = some regroupedText := by decide +kernel
  have built : ((Select.new .utc).run regrouped).build =
      (.ok regroupedText, ((Select.new .utc).run regrouped).build.2) := Prod.ext (Select.ok_of_toOption written) rfl
  have searched : (findSql .utc [] "person" (.node [] []) {} byName).toOption =
      some "SELECT DISTINCT ON (\"name\") * FROM \"person\" LIMIT 3" := by decide +kernel
  have found := Select.ok_of_toOption searched
  obtain ⟨q, next, applied, spelled, _, filled⟩ := searches _ _ _ _ _ _ found
  refine ⟨⟨_, built, (queries regrouped _ _ built).2.mpr ?_⟩, found, q, next, applied, spelled, filled.mpr ?_⟩
  · decide +kernel
  · simp [byName]

def ungrouped : List Select.Turn := [.call (.table "person"), .call (.distinctOn []), .call (.groupBy [])]

theorem emptyLists_printed :
    (∃ next, ((Select.new .utc).run ungrouped).build = (.ok "SELECT DISTINCT ON () * FROM \"person\" GROUP BY ", next) ∧
      ¬ next.outline.Filled) ∧
    findSql .utc [] "person" (.node [] []) {} { distinctOn := some [] } = .ok "SELECT DISTINCT ON () * FROM \"person\"" := by
  have written : ((Select.new .utc).run ungrouped).build.1.toOption =
      some "SELECT DISTINCT ON () * FROM \"person\" GROUP BY " := by decide +kernel
  have searched : (findSql .utc [] "person" (.node [] []) {} { distinctOn := some [] }).toOption =
      some "SELECT DISTINCT ON () * FROM \"person\"" := by decide +kernel
  refine ⟨⟨((Select.new .utc).run ungrouped).build.2, Prod.ext (Select.ok_of_toOption written) rfl, fun filled => ?_⟩,
    Select.ok_of_toOption searched⟩
  have listed : [] ∈ ((Select.new .utc).run ungrouped).build.2.outline.lists := by decide +kernel
  exact filled [] listed rfl

end QueryKit
