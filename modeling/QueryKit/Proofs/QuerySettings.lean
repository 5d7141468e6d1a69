import QueryKit.Proofs.ListedItems

-- What a query is told about the rows of its tables: their order, their groups, and which of them to give. Entries of the
-- order come one behind the other; of anything else the last that was said counts.

namespace QueryKit

namespace Select

structure Settings where
  order : List OrderTerm
  groupBy : Option (List String)
  distinctOn : Option (List String)
  limit : Option UInt64
  offset : Option UInt64

def settings (q : Select) : Settings := ⟨q.order, q.groupBy, q.distinctOn, q.limit, q.offset⟩

-- What a call adds to the order. A table is known by the alias that it has at that time.
def Call.ordered (q : Select) : Call → List OrderTerm
  | .order column direction => [.column none column direction]
  | .orderOn target column direction =>
    ((aliasOf? target q.sources).map fun label => OrderTerm.column (some label) column direction).toList
  | .orderRaw sql arguments => ((Template.query q.zone sql arguments).toOption.map OrderTerm.raw).toList
  | _ => []

def Call.groupBy? : Call → Option (List String)
  | .groupBy names => some names
  | _ => none

def Call.distinctOn? : Call → Option (List String)
  | .distinctOn names => some names
  | _ => none

def pageOffset (perPage page : UInt64) : UInt64 := saturatingMul (if page = 0 then 0 else page - 1) perPage

def Call.limit? : Call → Option UInt64
  | .limit count | .paginate count _ => some count
  | _ => none

def Call.offset? : Call → Option UInt64
  | .offset count => some count
  | .paginate perPage page => some (pageOffset perPage page)
  | _ => none

def Settings.told (s : Settings) (q : Select) (c : Call) : Settings where
  order := s.order ++ c.ordered q
  groupBy := c.groupBy?.or s.groupBy
  distinctOn := c.distinctOn?.or s.distinctOn
  limit := c.limit?.or s.limit
  offset := c.offset?.or s.offset

section
variable {q next : Select} {c : Call}

theorem settings_noteMisuse (fault : QueryFault) (q : Select) : (q.noteMisuse fault).settings = q.settings := by
  unfold noteMisuse
  split <;> rfl

theorem settings_addItems (items : List SelectItem) (q : Select) : (addItems items q).settings = q.settings := by
  unfold addItems
  split
  · rfl
  · split
    · exact settings_noteMisuse _ q
    · rfl

theorem settings_told (s : Settings) (q : Select) {c : Call} (unordered : c.ordered q = []) (ungrouped : c.groupBy? = none)
    (undistinct : c.distinctOn? = none) (unlimited : c.limit? = none ∧ c.offset? = none) : s.told q c = s := by
  simp [Settings.told, unordered, ungrouped, undistinct, unlimited]

theorem apply_settings (applied : q.apply c = .ok next) : next.settings = q.settings.told q c := by
  cases makes_of_apply applied with
  | ordered => rfl
  | @orderedOn table label column direction found =>
    have known : aliasOf? table q.sources = some label := by
      unfold resolve at found
      split at found
      case h_1 named =>
        cases found
        exact named
      case h_2 => cases found
    simp [settings, addOrder, Settings.told, Call.ordered, known, Call.groupBy?, Call.distinctOn?, Call.limit?, Call.offset?]
  | orderedRaw written =>
    simp [settings, addOrder, Settings.told, Call.ordered, written, Except.toOption, Call.groupBy?, Call.distinctOn?,
      Call.limit?, Call.offset?]
  | groupBy | distinctOn | limit | offset | paginate =>
    simp [settings, setPage, pageOffset, Settings.told, Call.ordered, Call.groupBy?, Call.distinctOn?, Call.limit?,
      Call.offset?]
  | unjoined | unaliased =>
    rw [settings_told _ _ rfl rfl rfl ⟨rfl, rfl⟩]
    exact settings_noteMisuse _ q
  | columns | expression | having =>
    rw [settings_told _ _ rfl rfl rfl ⟨rfl, rfl⟩]
    exact settings_addItems _ q
  | called =>
    rw [settings_told _ _ rfl rfl rfl ⟨rfl, rfl⟩]
    exact settings_addItems _ { q with pending := [] }
  | _ => exact (settings_told _ _ rfl rfl rfl ⟨rfl, rfl⟩).symm

theorem settings_flush (filled : q.sources ≠ []) : q.flush.settings = q.settings := by
  rcases flush_cases filled with same | ⟨function, wrappers, called⟩
  · rw [same]
  · rw [called]
    rfl

theorem settings_build (q : Select) : q.build.2.settings = q.settings := by
  rcases build_cases q with same | ⟨filled, flushed⟩
  · rw [same]
  · rw [flushed, settings_flush filled]

theorem settings_of_build {q next : Select} {text : String} (built : q.build = (.ok text, next)) :
    next.settings = q.settings := by
  rw [← settings_build q, built]

end

def orderMade (q : Select) : List Turn → List OrderTerm
  | [] => []
  | turn :: r => (turn.made? q).toList.flatMap (Call.ordered q) ++ orderMade (q.after turn) r

def lastSaid {α : Type} (said? : Call → Option α) (calls : List Call) : Option α := (calls.filterMap said?).getLast?

def Settings.toldAll (s : Settings) (ordered : List OrderTerm) (calls : List Call) : Settings where
  order := s.order ++ ordered
  groupBy := (lastSaid Call.groupBy? calls).or s.groupBy
  distinctOn := (lastSaid Call.distinctOn? calls).or s.distinctOn
  limit := (lastSaid Call.limit? calls).or s.limit
  offset := (lastSaid Call.offset? calls).or s.offset

theorem lastSaid_cons {α : Type} (said? : Call → Option α) (c : Call) (calls : List Call) (before : Option α) :
    (lastSaid said? (c :: calls)).or before = (lastSaid said? calls).or ((said? c).or before) := by
  unfold lastSaid
  cases said : said? c with
  | none => rw [List.filterMap_cons_none said, Option.none_or]
  | some a =>
    rw [List.filterMap_cons_some said, List.getLast?_cons]
    cases (calls.filterMap said?).getLast? <;> rfl

theorem run_settings (q : Select) (turns : List Turn) :
    (q.run turns).settings = q.settings.toldAll (orderMade q turns) (made q turns) := by
  induction turns generalizing q with
  | nil => simp [run, Settings.toldAll, orderMade, made, lastSaid]
  | cons turn r ih =>
    show ((q.after turn).run r).settings = _
    rw [ih, orderMade, made]
    cases turn with
    | build =>
      have same : (q.after .build).settings = q.settings := settings_build q
      rw [same]
      rfl
    | call c =>
      cases applied : q.apply c with
      | error fault =>
        obtain ⟨kept, unmade⟩ := after_failed applied
        rw [kept, unmade]
        rfl
      | ok next =>
        obtain ⟨stepped, known⟩ := after_made applied
        rw [stepped, known, apply_settings applied]
        simp [Settings.toldAll, Settings.told, lastSaid_cons]

end Select

end QueryKit
