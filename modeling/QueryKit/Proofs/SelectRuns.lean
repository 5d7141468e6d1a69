import QueryKit.Proofs.SelectStatements

-- Select queries by the calls and statements that lead to them, and what one of these steps does to
-- the tables of a query.

namespace QueryKit
open Text

namespace Select

-- A call that fails leads nowhere. A statement may use up the functions that wait, so it is a step too.
inductive Reached (zone : Zone) : Select → Prop where
  | start : Reached zone (new zone)
  | called {q next : Select} {c : Call} (before : Reached zone q) (applied : q.apply c = .ok next) :
      Reached zone next
  | built {q : Select} (before : Reached zone q) : Reached zone q.build.2

theorem ok_of_toOption {α : Type} {result : Except Fault α} {a : α} (given : result.toOption = some a) :
    result = .ok a := by
  cases result with
  | error fault => cases given
  | ok b => exact congrArg Except.ok (Option.some.inj given)

theorem reached_applyAll {zone : Zone} {q last : Select} (calls : List Call) (before : Reached zone q)
    (applied : q.applyAll calls = .ok last) : Reached zone last := by
  induction calls generalizing q with
  | nil =>
    cases applied
    exact before
  | cons c r ih =>
    obtain ⟨next, here, rest⟩ := ok_of_bind applied
    exact ih (.called before here) rest

-- What a step does to the tables: nothing, a change of the last one that leaves its joins alone, or one
-- more table behind them. Only a query without tables takes one without joins.
inductive Grows (sources : List Source) : List Source → Prop where
  | same : Grows sources sources
  | changed (change : Source → Source) (kept : ∀ s, (change s).joins = s.joins) :
      Grows sources (mapLast change sources)
  | first (table label : String) (bare : sources = []) : Grows sources [⟨table, label, [], []⟩]
  | joined (table label : String) {target : Source} {own other : JoinKeys} {pairs : List (JoinSide × JoinSide)}
      (known : target ∈ sources) (paired : own.pair other = .ok pairs) :
      Grows sources (sources ++ [⟨table, label, joinsTo target.label pairs, []⟩])

theorem sources_noteMisuse (fault : QueryFault) (q : Select) : (q.noteMisuse fault).sources = q.sources := by
  unfold noteMisuse
  split <;> rfl

theorem grows_noteMisuse (fault : QueryFault) (q : Select) : Grows q.sources (q.noteMisuse fault).sources := by
  rw [sources_noteMisuse]
  exact .same

theorem grows_addSource (table : String) {q : Select} (bare : q.sources = []) :
    Grows q.sources (q.addSource table []).sources := by
  have alone : (q.addSource table []).sources = [⟨table, "t" ++ natText 1, [], []⟩] := by simp [addSource, bare]
  rw [alone]
  exact .first table _ bare

theorem grows_addItems (items : List SelectItem) (q : Select) : Grows q.sources (addItems items q).sources := by
  unfold addItems
  split
  · exact .same
  · split
    · exact grows_noteMisuse _ q
    · exact .changed _ fun _ => rfl

theorem resolve_known {q : Select} {name label : String} (found : q.resolve name = .ok label) :
    ∃ source ∈ q.sources, source.label = label ∧ (source.table = name ∨ source.label = name) := by
  unfold resolve aliasOf? at found
  split at found
  case h_2 => cases found
  case h_1 given =>
    cases found
    obtain ⟨source, first, rfl⟩ := Option.map_eq_some_iff.mp given
    rcases Option.or_eq_some_iff.mp first with named | ⟨_, aliased⟩
    · exact ⟨source, List.mem_of_find?_eq_some named, rfl, .inl (by simpa using List.find?_some named)⟩
    · exact ⟨source, List.mem_of_find?_eq_some aliased, rfl, .inr (by simpa using List.find?_some aliased)⟩

theorem apply_grows {q next : Select} {c : Call} (applied : q.apply c = .ok next) :
    Grows q.sources next.sources := by
  cases makes_of_apply applied with
  | opened _ bare | begun _ _ _ _ bare | begunLast _ _ _ bare => exact grows_addSource _ bare
  | joined tabled found paired =>
    obtain ⟨source, known, rfl, _⟩ := resolve_known found
    exact .joined _ _ known paired
  | joinedLast there paired => exact .joined _ _ (List.mem_of_getLast? there) paired
  | unjoined | unaliased => exact grows_noteMisuse _ q
  | columns | expression | having => exact grows_addItems _ q
  | called function arguments label => exact grows_addItems _ { q with pending := [] }
  | aliased | named => exact .changed _ fun _ => rfl
  | _ => exact .same

theorem build_grows (q : Select) : Grows q.sources q.build.2.sources := by
  rcases build_cases q with same | ⟨filled, flushed⟩
  · rw [same]
    exact .same
  · rw [flushed]
    rcases flush_cases filled with same | ⟨function, wrappers, called⟩
    · rw [same]
      exact .same
    · rw [called]
      exact .changed _ fun _ => rfl

theorem reached_sources {zone : Zone} {p : List Source → Prop} (start : p [])
    (step : ∀ sources next, Grows sources next → p sources → p next) {q : Select} (reached : Reached zone q) :
    p q.sources := by
  induction reached with
  | start => exact start
  | called before applied ih => exact step _ _ (apply_grows applied) ih
  | @built q before ih => exact step _ _ (build_grows q) ih

end Select

end QueryKit
