import QueryKit.Proofs.SpellableQueries

-- What becomes of a statement and of the query that it was asked of. A statement that is built is built again from
-- what the first one left, and one that is refused leaves the query alone. What decides between them is the first
-- misuse among all the calls that were made, or that no table was named.

namespace QueryKit

namespace Select

section
variable {q next : Select}

theorem pending_flush (filled : q.sources ≠ []) : q.flush.pending = [] := by
  unfold flush
  cases waiting : q.pending.getLast? with
  | none => exact List.getLast?_eq_none_iff.mp waiting
  | some function => simp [addCall, addItems, filled]

-- A call takes all the functions that wait, so that none is left for a second one.
theorem flush_flush (filled : q.sources ≠ []) : q.flush.flush = q.flush := by
  have used := pending_flush filled
  generalize q.flush = called at used
  simp [flush, used]

theorem check_flush (filled : q.sources ≠ []) (kind : StatementKind) : q.flush.check kind = q.check kind := by
  have tabled : q.sources.isEmpty = false := by simpa using filled
  have someFlushed : q.flush.sources.isEmpty = false := by simpa using flush_ne_nil filled
  have misuse : q.flush.misuse = q.misuse := by
    rcases flush_cases filled with same | ⟨function, wrappers, called⟩
    · rw [same]
    · rw [called]
  unfold check
  rw [misuse, tabled, someFlushed]

theorem zone_flush (filled : q.sources ≠ []) : q.flush.zone = q.zone := by
  rcases flush_cases filled with same | ⟨function, wrappers, called⟩
  · rw [same]
  · rw [called]

theorem build_again {text : String} (built : q.build = (.ok text, next)) : next.build = (.ok text, next) := by
  obtain ⟨checked, rfl, written⟩ := build_parts built
  have filled := check_filled checked
  rw [build, check_flush filled, checked, zone_flush filled]
  simp only [flush_flush filled, written]

theorem render_fault {zone : Zone} {sql : Sql} {fault : Fault} (failed : sql.render zone = .error fault) :
    fault = .dateOutOfRange := by
  unfold Sql.render at failed
  split at failed
  · cases failed
  · cases failed
    rfl

theorem build_refused {fault : Fault} (failed : q.build = (.error fault, next)) (returned : fault ≠ .dateOutOfRange) :
    next = q := by
  unfold build at failed
  split at failed
  · exact (Prod.mk.inj failed).2.symm
  · exact absurd (render_fault (Prod.mk.inj failed).1) returned

end

-- A statement that is built leaves a query of which the same is built once more, and nothing else changes then. One
-- that is refused leaves the query as it was, functions that wait included. A timestamp out of the calendar's range
-- is no refusal: it stops the caller, to whom nothing is returned.
theorem build_settles (q : Select) :
    (∀ text next, q.build = (.ok text, next) → next.build = (.ok text, next)) ∧
      ∀ fault next, q.build = (.error fault, next) → fault ≠ .dateOutOfRange → next = q :=
  ⟨fun _ _ => build_again, fun _ _ => build_refused⟩

def waitingTotal : Select :=
  { new .utc with sources := [⟨"orders", "t1", [], []⟩], pending := [.abs, .round, .sum] }

theorem waitingTotal_again : ∃ next, waitingTotal.build = (.ok "SELECT ABS(ROUND(SUM(*))) FROM \"orders\"", next) ∧
    next.build = (.ok "SELECT ABS(ROUND(SUM(*))) FROM \"orders\"", next) := by
  have written : waitingTotal.build.1.toOption = some "SELECT ABS(ROUND(SUM(*))) FROM \"orders\"" := by decide +kernel
  have built : waitingTotal.build = (.ok "SELECT ABS(ROUND(SUM(*))) FROM \"orders\"", waitingTotal.build.2) :=
    Prod.ext (ok_of_toOption written) rfl
  exact ⟨_, built, (build_settles waitingTotal).1 _ _ built⟩

-- What a caller does with a query. A call that fails leaves it as it was.
inductive Turn where
  | call (c : Call)
  | build

def after (q : Select) : Turn → Select
  | .call c => (q.apply c).toOption.getD q
  | .build => q.build.2

def run (q : Select) (turns : List Turn) : Select := turns.foldl after q

def Turn.made? (q : Select) : Turn → Option Call
  | .call c => (q.apply c).toOption.map fun _ => c
  | .build => none

-- The calls that were made: one that fails was not.
def made (q : Select) : List Turn → List Call
  | [] => []
  | turn :: r => (turn.made? q).toList ++ made (q.after turn) r

def Call.bringsTable : Call → Bool
  | .table _ | .join .. | .joinLast .. => true
  | _ => false

-- What is wrong with a call, in the words of its fault, by whether there is a table before it.
def Call.misuse? : Call → Bool → Option String
  | .table name, true => some ("table '" ++ name ++ "' joined without join columns")
  | .tableAlias label, false => some ("alias '" ++ label ++ "' set before any table")
  | .columns (_ :: _), false | .expression _, false | .having _, false | .apply .., false =>
    some "select list given before any table"
  | _, _ => none

def firstMisuse? (tabled : Bool) : List Call → Option String
  | [] => none
  | c :: r => (c.misuse? tabled).or (firstMisuse? (tabled || c.bringsTable) r)

def isTabled (q : Select) : Bool := !q.sources.isEmpty

def told? (q : Select) : Option String := q.misuse.map QueryFault.message

section
variable {q next : Select} {c : Call}

theorem told?_noteMisuse (fault : QueryFault) (q : Select) :
    (q.noteMisuse fault).told? = q.told?.or (some fault.message) := by
  unfold noteMisuse told?
  cases noted : q.misuse with
  | none => rfl
  | some first => simp [noted]

theorem isTabled_noteMisuse (fault : QueryFault) (q : Select) : (q.noteMisuse fault).isTabled = q.isTabled := by
  rw [isTabled, sources_noteMisuse, isTabled]

theorem isTabled_mapLast (change : Source → Source) (q : Select) :
    isTabled { q with sources := mapLast change q.sources } = q.isTabled := by
  unfold isTabled
  rcases q.sources with _ | ⟨a, _ | ⟨b, r⟩⟩ <;> rfl

theorem isTabled_addSource (table : String) (joins : List Join) (q : Select) : (q.addSource table joins).isTabled = true := by
  simp [isTabled, addSource]

-- What a step of a query adds to the account of it: whether there is a table, and the first misuse.
structure Accounts (q : Select) (brings : Bool) (misuse : Option String) (next : Select) : Prop where
  tabled : next.isTabled = (q.isTabled || brings)
  told : next.told? = q.told?.or misuse

theorem Accounts.same (tabled : next.isTabled = q.isTabled) (told : next.told? = q.told?) : Accounts q false none next :=
  ⟨by rw [tabled, Bool.or_false], by rw [told, Option.or_none]⟩

theorem accounts_noteMisuse (fault : QueryFault) (q : Select) :
    Accounts q false (some fault.message) (q.noteMisuse fault) :=
  ⟨by rw [isTabled_noteMisuse, Bool.or_false], told?_noteMisuse fault q⟩

theorem accounts_addSource (table : String) (joins : List Join) (q : Select) :
    Accounts q true none (q.addSource table joins) :=
  ⟨by rw [isTabled_addSource, Bool.or_true], (Option.or_none).symm⟩

theorem accounts_addItems {misuse : Bool → Option String} (behind : misuse true = none)
    (alone : misuse false = some QueryFault.selectWithoutTable.message) (item : SelectItem) (items : List SelectItem)
    (q : Select) : Accounts q false (misuse q.isTabled) (addItems (item :: items) q) := by
  unfold addItems isTabled
  cases q.sources.isEmpty with
  | true => exact alone ▸ accounts_noteMisuse .selectWithoutTable q
  | false => exact behind ▸ .same (isTabled_mapLast _ q) rfl

theorem apply_accounts (applied : q.apply c = .ok next) : Accounts q c.bringsTable (c.misuse? q.isTabled) next := by
  have told (tabled : q.sources ≠ []) : q.isTabled = true := by simpa [isTabled] using tabled
  have untold (bare : q.sources = []) : q.isTabled = false := by simpa [isTabled] using bare
  cases makes_of_apply applied with
  | opened name bare =>
    rw [untold bare]
    exact accounts_addSource name [] q
  | unjoined name tabled =>
    rw [told tabled]
    exact ⟨by rw [isTabled_noteMisuse, told tabled, Bool.true_or], told?_noteMisuse (.unjoinedTable name) q⟩
  | begun | joined | begunLast | joinedLast => exact accounts_addSource _ _ q
  | unaliased label bare =>
    rw [untold bare]
    exact accounts_noteMisuse (.aliasWithoutTable label) q
  | aliased label tabled =>
    rw [told tabled]
    exact .same (isTabled_mapLast _ q) rfl
  | columns names =>
    cases names with
    | nil => exact .same rfl rfl
    | cons name r => exact accounts_addItems rfl rfl (.column name none) (r.map fun name => .column name none) q
  | expression sql => exact accounts_addItems rfl rfl (.expression sql none) [] q
  | having column => exact accounts_addItems rfl rfl (.having column) [] q
  | called function arguments label =>
    have taken : Accounts { q with pending := [] } false ((Call.apply function arguments label).misuse? q.isTabled) _ :=
      accounts_addItems rfl rfl (.call function arguments label q.pending) [] { q with pending := [] }
    exact ⟨taken.tabled, taken.told⟩
  | named label => exact .same (isTabled_mapLast _ q) rfl
  | _ => exact .same rfl rfl

theorem build_accounts (q : Select) : Accounts q false none q.build.2 := by
  rcases build_cases q with same | ⟨filled, flushed⟩
  · rw [same]
    exact .same rfl rfl
  · rw [flushed]
    rcases flush_cases filled with same | ⟨function, wrappers, called⟩
    · rw [same]
      exact .same rfl rfl
    · rw [called]
      exact .same (isTabled_mapLast _ q) rfl

theorem after_failed {fault : Fault} (failed : q.apply c = .error fault) :
    q.after (.call c) = q ∧ Turn.made? q (.call c) = none := by
  simp [after, Turn.made?, failed, Except.toOption]

theorem after_made (applied : q.apply c = .ok next) : q.after (.call c) = next ∧ Turn.made? q (.call c) = some c := by
  simp [after, Turn.made?, applied, Except.toOption]

theorem Accounts.trans {middle : Select} {first second : Bool} {misuse later : Option String}
    (front : Accounts q first misuse middle) (behind : Accounts middle second later next) :
    Accounts q (first || second) (misuse.or later) next :=
  ⟨by rw [behind.tabled, front.tabled, Bool.or_assoc], by rw [behind.told, front.told, Option.or_assoc]⟩

-- So a query knows of all the calls that were made on it.
theorem run_accounts (q : Select) (turns : List Turn) :
    Accounts q ((made q turns).any Call.bringsTable) (firstMisuse? q.isTabled (made q turns)) (q.run turns) := by
  induction turns generalizing q with
  | nil => exact .same rfl rfl
  | cons turn r ih =>
    show Accounts q _ _ ((q.after turn).run r)
    rw [made]
    cases turn with
    | build =>
      have step : Accounts q false none (q.after .build) := build_accounts q
      have whole := step.trans (ih _)
      rw [step.tabled, Bool.or_false, Bool.false_or, Option.none_or] at whole
      exact whole
    | call c =>
      cases applied : q.apply c with
      | error fault =>
        obtain ⟨kept, unmade⟩ := after_failed applied
        rw [kept, unmade]
        exact ih q
      | ok next =>
        obtain ⟨stepped, known⟩ := after_made applied
        rw [stepped, known]
        have step := apply_accounts applied
        have whole := step.trans (ih next)
        rw [step.tabled] at whole
        exact whole

theorem run_append (q : Select) (before later : List Turn) : q.run (before ++ later) = (q.run before).run later :=
  List.foldl_append

theorem run_keeps {p : Select → Prop} {turns : List Turn} (start : p q)
    (called : ∀ q next c, Turn.call c ∈ turns → q.apply c = .ok next → p q → p next)
    (flushed : ∀ q, q.sources ≠ [] → p q → p q.flush) : p (q.run turns) := by
  induction turns generalizing q with
  | nil => exact start
  | cons turn r ih =>
    have later := fun q next c member => called q next c (List.mem_cons_of_mem _ member)
    refine ih ?_ later
    cases turn with
    | build =>
      rcases build_cases q with same | ⟨filled, used⟩
      · rw [after, same]
        exact start
      · rw [after, used]
        exact flushed q filled start
    | call c =>
      cases applied : q.apply c with
      | error fault =>
        rw [(after_failed applied).1]
        exact start
      | ok next =>
        rw [(after_made applied).1]
        exact called q next c List.mem_cons_self applied start

theorem zone_noteMisuse (fault : QueryFault) (q : Select) : (q.noteMisuse fault).zone = q.zone := by
  unfold noteMisuse
  split <;> rfl

theorem zone_addItems (items : List SelectItem) (q : Select) : (addItems items q).zone = q.zone := by
  unfold addItems
  split
  · rfl
  · split
    · exact zone_noteMisuse _ q
    · rfl

theorem apply_zone {c : Call} (applied : q.apply c = .ok next) : next.zone = q.zone := by
  cases makes_of_apply applied with
  | unjoined | unaliased => exact zone_noteMisuse _ q
  | columns | expression | having => exact zone_addItems _ q
  | called => exact zone_addItems _ _
  | _ => rfl

theorem run_zone (q : Select) (turns : List Turn) : (q.run turns).zone = q.zone :=
  run_keeps (p := fun next => next.zone = q.zone) rfl (fun _ _ _ _ applied same => (apply_zone applied).trans same)
    fun _ filled same => (zone_flush filled).trans same

end

section
variable {zone : Zone} {q : Select}

theorem build_madeOf (made : q.MadeOf (spellableParts zone) zone) : q.build.2.MadeOf (spellableParts zone) zone := by
  rcases build_cases q with same | ⟨filled, flushed⟩
  · rwa [same]
  · rw [flushed]
    exact made.flush filled fun _ _ => rfl

theorem run_madeOf (turns : List Turn) (spellable : ∀ c ∈ made q turns, c.isSpellable zone = true)
    (brought : q.MadeOf (spellableParts zone) zone) : (q.run turns).MadeOf (spellableParts zone) zone := by
  induction turns generalizing q with
  | nil => exact brought
  | cons turn r ih =>
    rw [made, List.forall_mem_append] at spellable
    obtain ⟨here, later⟩ := spellable
    show ((q.after turn).run r).MadeOf _ zone
    refine ih later ?_
    cases turn with
    | build => exact build_madeOf brought
    | call c =>
      cases applied : q.apply c with
      | error fault =>
        rw [(after_failed applied).1]
        exact brought
      | ok next =>
        obtain ⟨stepped, known⟩ := after_made applied
        rw [known] at here
        rw [stepped]
        have own : c.isSpellable zone = true := here c List.mem_cons_self
        exact apply_madeOf rename_spellable (call_spellable own) applied brought

theorem misuse_reported {message : String} (told : q.told? = some message) : ∃ cause : QueryFault, cause.message = message ∧
    q.build = (.error (.query cause), q) ∧ q.buildCount = .error (.query cause) := by
  obtain ⟨cause, noted, said⟩ := Option.map_eq_some_iff.mp told
  have refused (kind : StatementKind) : q.check kind = .error (.query cause) := by rw [check, noted]
  refine ⟨cause, said, ?_, ?_⟩
  · rw [build, refused]
  · rw [buildCount, refused]
    rfl

theorem built_unless_misused (made : q.MadeOf (spellableParts zone) zone) (tabled : q.isTabled = true)
    (unused : q.told? = none) : (∃ text, q.build.1 = .ok text) ∧ ∃ text, q.buildCount = .ok text := by
  have started : q.sources.isEmpty = false := by simpa [isTabled] using tabled
  have filled : q.sources ≠ [] := by simpa using started
  have used : q.misuse = none := Option.map_eq_none_iff.mp unused
  have allowed (kind : StatementKind) : q.check kind = .ok () := by simp [check, used, started]
  have statement := render_of_fits (fits_statement (made.flush filled fun _ _ => rfl))
  have count := render_of_fits (fits_count made)
  constructor
  · rw [build, allowed, made.zone]
    exact ⟨_, statement⟩
  · rw [buildCount, allowed, made.zone]
    exact ⟨_, count⟩

end

-- From the first misuse on, every statement and every count is refused in its words, whatever calls and statements
-- come then. Without any, both are built as soon as there is a table, if the timestamps of the calls that were made
-- can be written.
theorem misuse_decides (zone : Zone) (before later : List Turn) :
    (∀ message, firstMisuse? false (made (new zone) before) = some message →
      ∃ cause : QueryFault, cause.message = message ∧
        ((new zone).run (before ++ later)).build = (.error (.query cause), (new zone).run (before ++ later)) ∧
        ((new zone).run (before ++ later)).buildCount = .error (.query cause)) ∧
    (firstMisuse? false (made (new zone) before) = none → (∃ c ∈ made (new zone) before, c.bringsTable = true) →
      (∀ c ∈ made (new zone) before, c.isSpellable zone = true) →
      (∃ text, ((new zone).run before).build.1 = .ok text) ∧ ∃ text, ((new zone).run before).buildCount = .ok text) := by
  have first := run_accounts (new zone) before
  have told : ((new zone).run before).told? = firstMisuse? false (made (new zone) before) := first.told
  refine ⟨fun message misused => misuse_reported ?_, fun unused brought spellable => ?_⟩
  · rw [run_append, (run_accounts _ later).told, told, misused]
    rfl
  · have tabled : ((new zone).run before).isTabled = true := first.tabled.trans (List.any_eq_true.mpr brought)
    exact built_unless_misused (run_madeOf before spellable (new_madeOf _ zone)) tabled (told.trans unused)

def hastyTurns : List Turn := [.call (.columns ["name"]), .build, .call (.table "person"), .call (.table "pet")]

-- No list at all, a filter about a table that there is not, and functions that wait for the statement.
def patientTurns : List Turn :=
  [.call (.columns []), .call (.wrap .distinct), .call (.table "person"), .build,
    .call (.filter (some "pet") (.node [] [("age", .value (.int32 3))])), .call (.wrap .count)]

theorem hasty_told_patient_built :
    (∃ cause : QueryFault, cause.message = "select list given before any table" ∧
      ((new .utc).run (hastyTurns ++ patientTurns)).build =
        (.error (.query cause), (new .utc).run (hastyTurns ++ patientTurns)) ∧
      ((new .utc).run (hastyTurns ++ patientTurns)).buildCount = .error (.query cause)) ∧
    (∃ text, ((new .utc).run patientTurns).build.1 = .ok text) ∧
      ∃ text, ((new .utc).run patientTurns).buildCount = .ok text := by
  have hasty := (misuse_decides .utc hastyTurns patientTurns).1
  have patient := (misuse_decides .utc patientTurns []).2
  have calls : made (new .utc) patientTurns =
      [.columns [], .wrap .distinct, .table "person", .wrap .count] := rfl
  refine ⟨hasty _ rfl, patient ?_ ?_ ?_⟩
  · rw [calls]
    rfl
  · rw [calls]
    exact ⟨.table "person", by simp, rfl⟩
  · rw [calls]
    simp [Call.isSpellable]

end Select

end QueryKit
