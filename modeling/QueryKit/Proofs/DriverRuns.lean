import QueryKit.Driver.Basic
import QueryKit.Proofs.SpellableSearches
import QueryKit.Transport.Basic

-- What a driver sends for the operations it is asked for, over any transport. An operation whose statement cannot
-- be built stops in front of the transport; every other one is one statement, whatever comes back.

namespace QueryKit

-- An operation whose timestamps, wherever they are in it, can be written.
def Operation.isSpellable (zone : Zone) : Operation → Bool
  | .find _ _ conditions related _ | .count _ conditions related => conditions.isSpellable zone && related.isSpellable zone
  | .insert _ data _ => data.all fun (_, v) => Sql.datesFit zone v
  | .update _ changes conditions => (changes.all fun (_, v) => Sql.datesFit zone v) && conditions.isSpellable zone
  | .remove _ conditions => conditions.isSpellable zone
  | .query _ arguments => arguments.all (Sql.datesFit zone)
  | .associated _ _ parents => Sql.datesFit zone (.array parents)
  | .clear _ | .execute _ | .ping | .beginTransaction | .commit | .rollback => true

-- The text that an operation stands for: that of its search, or what the builder of its statement gives.
inductive Operation.StandsFor (zone : Zone) : Operation → String → Prop where
  | find {columns : List String} {table text : String} {conditions : Conditions} {related : Related} {shape : Shape}
      (built : findSql zone columns table conditions related shape = .ok text) :
      StandsFor zone (.find columns table conditions related shape) text
  | count {table text : String} {conditions : Conditions} {related : Related}
      (built : countSql zone table conditions related = .ok text) : StandsFor zone (.count table conditions related) text
  | insert {table text : String} {data : Row} {keys : List Property}
      (built : (((Insert.new zone).into table).setAll data).build = .ok text) :
      StandsFor zone (.insert table data keys) (text ++ " RETURNING *")
  | update {table text : String} {changes : Row} {conditions : Conditions}
      (built : ((((Update.new zone).ofTable table).setAll changes).filter conditions).build = .ok text) :
      StandsFor zone (.update table changes conditions) text
  | remove {table text : String} {conditions : Conditions}
      (built : (((Remove.new zone).ofTable table).filter conditions).build = .ok text) :
      StandsFor zone (.remove table conditions) text
  | clear (table : String) : StandsFor zone (.clear table) ("TRUNCATE TABLE " ++ Sql.identifier table)
  | plain (sql : String) : StandsFor zone (.query sql []) sql
  | filled {sql text : String} {arguments : List Value} (given : arguments ≠ [])
      (built : Template.queryText zone sql arguments = .ok text) : StandsFor zone (.query sql arguments) text
  | execute (sql : String) : StandsFor zone (.execute sql) sql
  | associated {association : Association} {columns : List String} {parents : List Value} {text : String}
      (built : associatedSql zone association columns parents = .ok text) :
      StandsFor zone (.associated association columns parents) text
  | ping : StandsFor zone .ping "SELECT * FROM pg_stat_activity LIMIT 1"
  | beginTransaction : StandsFor zone .beginTransaction "BEGIN"
  | commit : StandsFor zone .commit "COMMIT"
  | rollback : StandsFor zone .rollback "ROLLBACK"

section
variable {zone : Zone} {fault : Fault}

theorem statement_of_stands {o : Operation} {text : String} (stands : o.StandsFor zone text) : o.statement zone = .ok text := by
  cases stands with
  | insert built => rw [Operation.statement, insertSql, built]; rfl
  | filled given built => rw [Operation.statement, querySql, if_neg (mt List.isEmpty_iff.mp given), built]
  | find built | count built | update built | remove built | associated built => exact built
  | clear | plain | execute | ping | beginTransaction | commit | rollback => rfl

theorem stands_of_statement {o : Operation} {text : String} (built : o.statement zone = .ok text) : o.StandsFor zone text := by
  cases o with
  | find => exact .find built
  | count => exact .count built
  | insert table data keys =>
    simp only [Operation.statement, insertSql] at built
    cases made : (((Insert.new zone).into table).setAll data).build with
    | error fault =>
      rw [made] at built
      cases built
    | ok text =>
      rw [made] at built
      cases built
      exact .insert made
  | update => exact .update built
  | remove => exact .remove built
  | query sql arguments =>
    simp only [Operation.statement, querySql] at built
    split at built
    case isTrue bare =>
      cases List.isEmpty_iff.mp bare
      cases built
      exact .plain _
    case isFalse given => exact .filled (mt List.isEmpty_iff.mpr given) built
  | associated => exact .associated built
  | clear | execute | ping | beginTransaction | commit | rollback =>
    cases built
    constructor

theorem statement_iff (o : Operation) (text : String) : o.statement zone = .ok text ↔ o.StandsFor zone text :=
  ⟨stands_of_statement, statement_of_stands⟩

theorem fault_of_insert {table : String} {data : Row} (spellable : data.all (fun (_, v) => Sql.datesFit zone v) = true)
    (failed : insertSql zone table data = .error fault) : fault.isConstruction = true := by
  have values : ∀ p ∈ Columns.ofPairs data, Sql.datesFit zone p.2 = true := fun p member =>
    List.all_eq_true.mp spellable p (Columns.mem_of_mem_ofPairs member)
  have fits : Sql.Fits zone (.word "INSERT INTO " :: .name [table] :: Insert.valuesSql (Columns.ofPairs data)) := by
    simp [fits_values values]
  rcases error_of_bind failed with unwritten | ⟨sql, _, failed⟩
  · cases (render_of_fits fits).symm.trans unwritten
  · cases failed

theorem fault_of_update {table : String} {changes : Row} {conditions : Conditions}
    (values : changes.all (fun (_, v) => Sql.datesFit zone v) = true) (about : conditions.isSpellable zone = true)
    (failed : ((((Update.new zone).ofTable table).setAll changes).filter conditions).build = .error fault) :
    fault.isConstruction = true := by
  have each : ∀ p ∈ Columns.ofPairs changes, Sql.datesFit zone p.2 = true := fun p member =>
    List.all_eq_true.mp values p (Columns.mem_of_mem_ofPairs member)
  have clause : Sql.Fits zone (filterSql [.plain none conditions]) := fits_clause (List.forall_mem_singleton.mpr about)
  have fits := (Sql.fits_append _ _).mpr ⟨Update.fits_assignmentSql table each, clause⟩
  have spelled : ((((Update.new zone).ofTable table).setAll changes).filter conditions).sql =
      if (Columns.ofPairs changes).isEmpty then .error (.query (.noChanges table))
      else .ok (Update.assignmentSql table (Columns.ofPairs changes) ++ filterSql [.plain none conditions]) := rfl
  rw [Update.build, spelled] at failed
  split at failed
  · cases failed
    rfl
  · cases (render_of_fits fits).symm.trans failed

theorem fault_of_remove {table : String} {conditions : Conditions} (about : conditions.isSpellable zone = true)
    (failed : (((Remove.new zone).ofTable table).filter conditions).build = .error fault) :
    fault.isConstruction = true := by
  have clause : Sql.Fits zone (filterSql [.plain none conditions]) := fits_clause (List.forall_mem_singleton.mpr about)
  have fits : Sql.Fits zone (.word "DELETE FROM " :: .name [table] :: filterSql [.plain none conditions]) := by
    simpa using clause
  cases (render_of_fits fits).symm.trans failed

theorem fault_of_querySql {sql : String} {arguments : List Value} (spellable : arguments.all (Sql.datesFit zone) = true)
    (failed : querySql zone sql arguments = .error fault) : fault.isConstruction = true := by
  unfold querySql Template.queryText at failed
  split at failed
  · cases failed
  · cases written : Template.query zone sql arguments with
    | ok fragment =>
      rw [written] at failed
      cases failed
    | error other =>
      rw [written] at failed
      cases failed
      exact Select.fault_of_query spellable written

theorem fault_of_statement {o : Operation} (spellable : o.isSpellable zone = true)
    (failed : o.statement zone = .error fault) : fault.isConstruction = true := by
  cases o with
  | find columns table conditions related shape =>
    obtain ⟨about, others⟩ := Bool.and_eq_true_iff.mp spellable
    exact fault_of_findSql about others failed
  | count table conditions related =>
    obtain ⟨about, others⟩ := Bool.and_eq_true_iff.mp spellable
    exact fault_of_countSql about others failed
  | insert table data keys => exact fault_of_insert spellable failed
  | update table changes conditions =>
    obtain ⟨values, about⟩ := Bool.and_eq_true_iff.mp spellable
    exact fault_of_update values about failed
  | remove table conditions => exact fault_of_remove spellable failed
  | query sql arguments => exact fault_of_querySql spellable failed
  | associated association columns parents => exact fault_of_associatedSql spellable failed
  | clear | execute | ping | beginTransaction | commit | rollback => cases failed

end

-- A transport that writes down what it is asked for and otherwise does what the one inside does.
structure Logged (τ : Type) where
  inner : τ
  requests : List Request

section
variable {τ : Type} [Transport τ]

instance : Transport (Logged τ) where
  connect t := ((Transport.connect t.inner).1, ⟨(Transport.connect t.inner).2, t.requests ++ [.connect]⟩)
  query sql t := ((Transport.query sql t.inner).1, ⟨(Transport.query sql t.inner).2, t.requests ++ [.statement sql]⟩)
  close t := ((Transport.close t.inner).1, ⟨(Transport.close t.inner).2, t.requests ++ [.close]⟩)
  isPooled t := Transport.isPooled t.inner
  subscribe name t := { t with inner := Transport.subscribe name t.inner }

namespace Driver

def run (d : Driver τ) (operations : List Operation) : Driver τ := operations.foldl (fun d o => (d.perform o).2) d

def results (d : Driver τ) : List Operation → List (Except Fault Answer)
  | [] => []
  | o :: r => (d.perform o).1 :: (d.perform o).2.results r

inductive Step (d : Driver τ) (o : Operation) : Except Fault Answer → Driver τ → Prop where
  | unbuilt {fault : Fault} (failed : o.statement d.zone = .error fault) : Step d o (.error fault) d
  | answered {sql : String} {rows : List Row} {transport : τ} (built : o.statement d.zone = .ok sql)
      (ran : Transport.query sql d.transport = (.ok rows, transport)) : Step d o (o.answer rows) { d with transport := transport }
  | failed {sql : String} {fault : Fault} {transport : τ} (built : o.statement d.zone = .ok sql)
      (ran : Transport.query sql d.transport = (.error fault, transport)) :
      Step d o (.error fault) { d with transport := transport }

theorem perform_step (d : Driver τ) (o : Operation) : d.Step o (d.perform o).1 (d.perform o).2 := by
  unfold perform
  cases built : o.statement d.zone with
  | error fault => exact .unbuilt built
  | ok sql =>
    rcases ran : Transport.query sql d.transport with ⟨_ | _, transport⟩
    · simpa [ran] using Step.failed built ran
    · simpa [ran] using Step.answered built ran

theorem zone_of_step {d after : Driver τ} {o : Operation} {result : Except Fault Answer} (step : d.Step o result after) :
    after.zone = d.zone := by
  cases step <;> rfl

theorem zone_run (d : Driver τ) (operations : List Operation) : (d.run operations).zone = d.zone := by
  induction operations generalizing d with
  | nil => rfl
  | cons o r ih => exact (ih _).trans (zone_of_step (d.perform_step o))

-- The same driver over a transport that is listened to.
def logged (d : Driver τ) : Driver (Logged τ) := ⟨d.config, d.options, d.dialect, d.coercer, d.clock, ⟨d.transport, []⟩⟩

def unlogged (d : Driver (Logged τ)) : Driver τ := ⟨d.config, d.options, d.dialect, d.coercer, d.clock, d.transport.inner⟩

theorem unlogged_perform (d : Driver (Logged τ)) (o : Operation) :
    (d.perform o).1 = (d.unlogged.perform o).1 ∧ (d.perform o).2.unlogged = (d.unlogged.perform o).2 := by
  have zone : d.unlogged.zone = d.zone := rfl
  unfold perform
  rw [zone]
  cases o.statement d.zone with
  | error fault => exact ⟨rfl, rfl⟩
  | ok sql =>
    have heard : Transport.query sql d.transport = ((Transport.query sql d.transport.inner).1,
      ⟨(Transport.query sql d.transport.inner).2, d.transport.requests ++ [.statement sql]⟩) := rfl
    have inside : d.unlogged.transport = d.transport.inner := rfl
    dsimp only
    rw [heard, inside]
    rcases Transport.query sql d.transport.inner with ⟨_ | _, transport⟩ <;> exact ⟨rfl, rfl⟩

theorem results_unlogged (d : Driver (Logged τ)) (operations : List Operation) :
    d.results operations = d.unlogged.results operations := by
  induction operations generalizing d with
  | nil => rfl
  | cons o r ih =>
    obtain ⟨result, after⟩ := unlogged_perform d o
    rw [results, results, ih, result, after]

structure Faithful (d : Driver (Logged τ)) (o : Operation) : Prop where
  unbuilt : (∀ text, ¬ o.StandsFor d.zone text) →
    ∃ fault, d.perform o = (.error fault, d) ∧ o.statement d.zone = .error fault ∧ fault.isConstruction = true
  sent : ∀ text, o.StandsFor d.zone text → (d.perform o).2.transport.requests = d.transport.requests ++ [.statement text]
  answered : ∀ text rows, o.StandsFor d.zone text → (Transport.query text d.transport.inner).1 = .ok rows →
    (d.perform o).1 = o.answer rows
  failed : ∀ text fault, o.StandsFor d.zone text → (Transport.query text d.transport.inner).1 = .error fault →
    (d.perform o).1 = .error fault

theorem faithful_perform (d : Driver (Logged τ)) {o : Operation} (spellable : o.isSpellable d.zone = true) :
    d.Faithful o := by
  have step := d.perform_step o
  generalize performed : d.perform o = given at step
  obtain ⟨result, after⟩ := given
  constructor
  case unbuilt =>
    intro silent
    cases step with
    | unbuilt failed => exact ⟨_, performed, failed, fault_of_statement spellable failed⟩
    | answered built | failed built => exact absurd (stands_of_statement built) (silent _)
  case sent =>
    intro text stands
    have built := statement_of_stands stands
    rw [performed]
    cases step with
    | unbuilt failed => cases failed.symm.trans built
    | answered again ran | failed again ran =>
      cases again.symm.trans built
      obtain ⟨_, rfl⟩ := Prod.mk.inj ran
      rfl
  case answered =>
    intro text rows stands came
    have built := statement_of_stands stands
    rw [performed]
    cases step with
    | unbuilt failed => cases failed.symm.trans built
    | answered again ran =>
      cases again.symm.trans built
      cases (congrArg Prod.fst ran).symm.trans came
      rfl
    | failed again ran =>
      cases again.symm.trans built
      cases (congrArg Prod.fst ran).symm.trans came
  case failed =>
    intro text fault stands came
    have built := statement_of_stands stands
    rw [performed]
    cases step with
    | unbuilt failed => cases failed.symm.trans built
    | answered again ran =>
      cases again.symm.trans built
      cases (congrArg Prod.fst ran).symm.trans came
    | failed again ran =>
      cases again.symm.trans built
      cases (congrArg Prod.fst ran).symm.trans came
      rfl

-- The request that an operation makes, if its statement can be built.
def request? (zone : Zone) (o : Operation) : Option Request := (o.statement zone).toOption.map .statement

theorem request?_iff (zone : Zone) (o : Operation) (text : String) :
    request? zone o = some (.statement text) ↔ o.StandsFor zone text := by
  rw [← statement_iff, request?]
  cases o.statement zone <;> simp [Except.toOption]

theorem requests_perform (d : Driver (Logged τ)) {o : Operation} (spellable : o.isSpellable d.zone = true) :
    (d.perform o).2.transport.requests = d.transport.requests ++ (request? d.zone o).toList := by
  have faithful := d.faithful_perform spellable
  cases built : o.statement d.zone with
  | error fault =>
    have silent : ∀ text, ¬ o.StandsFor d.zone text := fun text stands => by cases built.symm.trans (statement_of_stands stands)
    obtain ⟨_, performed, -⟩ := faithful.unbuilt silent
    rw [performed, request?, built]
    exact (List.append_nil _).symm
  | ok text =>
    rw [request?, built]
    exact faithful.sent text (stands_of_statement built)

theorem requests_run (d : Driver (Logged τ)) {operations : List Operation}
    (spellable : ∀ o ∈ operations, o.isSpellable d.zone = true) :
    (d.run operations).transport.requests = d.transport.requests ++ operations.filterMap (request? d.zone) := by
  induction operations generalizing d with
  | nil => exact (List.append_nil _).symm
  | cons o r ih =>
    obtain ⟨first, rest⟩ := List.forall_mem_cons.mp spellable
    have zone := zone_of_step (d.perform_step o)
    have later := ih (d.perform o).2 (by rwa [zone])
    have here := d.requests_perform first
    show ((d.perform o).2.run r).transport.requests = _
    rw [later, here, zone, List.append_assoc]
    cases asked : request? d.zone o <;> simp [asked]

end Driver

end

-- In every run of operations over any transport, an operation that stands for no text is refused for what it asks, and
-- nothing is sent; every other one sends its text, once. What the transport answers is read as the operation reads
-- it, and a fault of the transport is the result as it is. So what is sent are the texts of the operations, in order.
theorem operations_sent {τ : Type} [Transport τ] (d : Driver τ) (operations : List Operation)
    (spellable : ∀ o ∈ operations, o.isSpellable d.zone = true) :
    (d.logged.run operations).transport.requests = operations.filterMap (Driver.request? d.zone) ∧
    (∀ o text, Driver.request? d.zone o = some (.statement text) ↔ o.StandsFor d.zone text) ∧
    d.logged.results operations = d.results operations ∧
    ∀ before o after, operations = before ++ o :: after →
      (d.logged.run before).Faithful o ∧ (d.logged.run before).zone = d.zone := by
  refine ⟨d.logged.requests_run spellable, Driver.request?_iff d.zone, d.logged.results_unlogged operations, ?_⟩
  rintro before o after rfl
  have zone : (d.logged.run before).zone = d.zone := d.logged.zone_run before
  refine ⟨Driver.faithful_perform _ ?_, zone⟩
  rw [zone]
  exact spellable o (List.mem_append_right _ List.mem_cons_self)

-- A driver whose connection is cut at the first statement. The first operation changes nothing and is refused, the
-- second one counts and finds the connection gone, and the third one is sent all the same.
def cutDriver : Driver Recording :=
  .new {} {} "postgresql" (fun _ => 0) ⟨[], [.error (.transport .io)], []⟩

def cutOperations : List Operation :=
  [.update "person" [] .empty, .count "person" .empty {}, .insert "person" [("name", .text "Ann")] []]

theorem cutDriver_sends : (∀ o ∈ cutOperations, o.isSpellable cutDriver.zone = true) ∧
    (cutDriver.logged.run cutOperations).transport.requests =
      [.statement "SELECT COUNT(*) AS \"c\" FROM \"person\"",
        .statement "INSERT INTO \"person\" (\"name\") VALUES ('Ann') RETURNING *"] ∧
    ((cutDriver.logged.run (cutOperations.take 1)).perform (.count "person" .empty {})).1 = .error (.transport .io) := by
  have spellable : ∀ o ∈ cutOperations, o.isSpellable cutDriver.zone = true := by
    intro o member
    rcases member with _ | ⟨_, _ | ⟨_, _ | ⟨_, ⟨⟩⟩⟩⟩ <;> rfl
  obtain ⟨sent, -, -, each⟩ := operations_sent cutDriver cutOperations spellable
  obtain ⟨faithful, _⟩ := each (cutOperations.take 1) (.count "person" .empty {}) (cutOperations.drop 2) rfl
  exact ⟨spellable, sent.trans rfl, faithful.failed _ _ (.count rfl) rfl⟩

end QueryKit
