import QueryKit.Coercion
import QueryKit.Proofs.LiteralTokens
import QueryKit.Proofs.WallClock
import QueryKit.Server.Cell

-- Timestamps of properties on their way to a column and back. The offset of a setting is added by the coercion and
-- once more by the literal, and taken away once; the clock of the process is in the literal and is never taken away.

namespace QueryKit
open Text Calendar Lexer

-- A day and a time with a blank or a T between them. Whether a Z stands behind them is not looked at.
def readWallClock (text : String) : Option Instant := do
  let (d, cs) ← readDay text.toList
  match cs with
  | 'T' :: cs | ' ' :: cs =>
    let (t, cs) ← readClock cs
    if cs = [] ∨ cs = ['Z'] then some (.ofParts d t) else none
  | _ => none

def clockOf (literal : String) : Option Instant :=
  match lex literal with
  | some [.text clock] => readWallClock clock
  | _ => none

-- A column of timestamps without a zone keeps the wall clock of a literal, and a row gives that as UTC.
def KeepsClock (column : String → Option Value) : Prop :=
  ∀ literal clock, clockOf literal = some clock → column literal = some (.instant clock)

theorem readWallClock_text {t : Instant} (real : t.Real) (whole : t.nanos % 1000000 = 0) (near : t.inRange = true)
    {c : Char} (between : c = 'T' ∨ c = ' ') {behind : List Char} (ends : behind = [] ∨ behind = ['Z']) :
    readWallClock (t.date.text ++ String.ofList (c :: (t.time.clock ++ millisecondText t.nanos ++ behind))) =
      some t := by
  have stops : Stops behind := by
    rcases ends with rfl | rfl
    · exact stops_nil
    · exact stops_cons [] rfl
  have dayRead :
      readDay (t.date.text ++ String.ofList (c :: (t.time.clock ++ millisecondText t.nanos ++ behind))).toList =
        some (t.date, c :: (t.time.clock ++ millisecondText t.nanos ++ behind)) := by
    rw [String.toList_append, String.toList_ofList]
    exact readDay_text (exists?_ofDays _) (Instant.midnight_inRange near) _
  have clockRead : readClock (t.time.clock ++ millisecondText t.nanos ++ behind) = some (t.time, behind) :=
    readClock_text (Instant.time_real real) whole stops
  rcases between with rfl | rfl <;>
    simp only [readWallClock, dayRead, clockRead, Option.bind_eq_bind, Option.bind_some, if_pos ends,
      Instant.ofParts_date_time]

namespace Calendar.Instant

theorem shift_ordinary {t : Instant} (real : t.Real) {minutes : Int} (moved : minutes ≠ 0) :
    (t.shift minutes).nanos < secondNanos := by
  have fraction := real.fraction
  have rest : t.nanos - secondNanos < secondNanos := by omega
  unfold shift
  split
  · case isTrue below => exact below
  · split
    · exact rest
    · split
      · exact rest
      · omega

theorem shift_back {t : Instant} (real : t.Real) (minutes : Int) :
    ((t.shift minutes).shift minutes).shift (-minutes) = t.shift minutes := by
  by_cases still : minutes = 0
  · rw [still, Int.neg_zero, shift_zero, shift_zero]
  · have ordinary := shift_ordinary real still
    generalize t.shift minutes = u at ordinary ⊢
    obtain ⟨seconds, nanos⟩ := u
    have there := shift_plain ⟨seconds, nanos⟩ minutes ordinary
    have back := shift_plain ⟨seconds + 60 * minutes, nanos⟩ (-minutes) ordinary
    have undone : seconds + 60 * minutes + 60 * -minutes = seconds := by omega
    rw [there, back, undone]

theorem shift_eq_self_iff (t : Instant) (minutes : Int) : t.shift minutes = t ↔ minutes = 0 := by
  refine ⟨fun same => ?_, fun still => by rw [still, shift_zero]⟩
  have seconds := congrArg Instant.seconds same
  unfold shift at seconds
  split at seconds
  · simp only at seconds
    omega
  · split at seconds
    · simp only at seconds
      omega
    · split at seconds
      · simp only at seconds
        omega
      · omega

-- A leap second that does not end a minute is written, and read again, as the second after it.
def shown (t : Instant) : Instant :=
  if secondNanos ≤ t.nanos ∧ t.seconds % 60 ≠ 59 then ⟨t.seconds + 1, t.nanos - secondNanos⟩ else t

theorem shown_of_real {t : Instant} (real : t.Real) : t.shown = t :=
  if_neg fun inside => inside.2 (real.leap inside.1)

theorem shown_real {t : Instant} (fraction : t.nanos < 2 * secondNanos) : t.shown.Real := by
  unfold shown
  split
  case isTrue =>
    have rest : t.nanos - secondNanos < secondNanos := by omega
    exact ⟨Nat.lt_trans rest (by decide), fun above => absurd above (Nat.not_le.mpr rest)⟩
  case isFalse ends => exact ⟨fraction, fun leap => not_not.mp fun other => ends ⟨leap, other⟩⟩

theorem shown_whole {t : Instant} (whole : t.nanos % 1000000 = 0) : t.shown.nanos % 1000000 = 0 := by
  unfold shown
  split
  case isTrue =>
    show (t.nanos - 1000000000) % 1000000 = 0
    omega
  case isFalse => exact whole

theorem wallClockText_shown {t : Instant} (fraction : t.nanos < 2 * secondNanos) :
    t.shown.wallClockText = t.wallClockText := by
  unfold shown
  split
  case isFalse => rfl
  case isTrue inside =>
    obtain ⟨seconds, nanos⟩ := t
    obtain ⟨leap, other⟩ := inside
    simp only at fraction leap other ⊢
    have day (n : Int) : n.fdiv 86400 = n / 86400 ∧ n.fmod 86400 = n % 86400 :=
      ⟨Int.fdiv_eq_ediv_of_nonneg _ (by decide), Int.fmod_eq_emod_of_nonneg _ (by decide)⟩
    have date : (seconds + 1) / 86400 = seconds / 86400 := by omega
    have hour : ((seconds + 1) % 86400).toNat / 3600 = (seconds % 86400).toNat / 3600 := by omega
    have minute : ((seconds + 1) % 86400).toNat / 60 % 60 = (seconds % 86400).toNat / 60 % 60 := by omega
    have second : ((seconds + 1) % 86400).toNat % 60 + (nanos - secondNanos) / secondNanos =
        (seconds % 86400).toNat % 60 + nanos / secondNanos := by
      unfold secondNanos at fraction leap ⊢
      omega
    have rest : (nanos - secondNanos) % secondNanos = nanos % secondNanos := by
      unfold secondNanos at fraction leap ⊢
      omega
    simp only [wallClockText, Instant.date, Instant.time, Time.ofSeconds, Time.clock, millisecondText, day, date, hour,
      minute, second, rest]

end Calendar.Instant

namespace Zone

-- The wall clock that a literal shows.
def written (zone : Zone) (t : Instant) : Instant :=
  match zone.setting with
  | .localTime => (zone.wall t).shown
  | _ => t.shift zone.minutes

-- Seconds by which that is ahead of UTC.
def ahead (zone : Zone) (t : Instant) : Int :=
  match zone.setting with
  | .localTime => zone.clock t
  | _ => 60 * zone.minutes

theorem minutes_local {zone : Zone} (here : zone.setting = .localTime) : zone.minutes = 0 := by rw [minutes, here]; rfl

theorem written_local {zone : Zone} (here : zone.setting = .localTime) (t : Instant) :
    zone.written t = (zone.wall t).shown := by rw [written, here]

theorem written_other {zone : Zone} (other : zone.setting ≠ .localTime) (t : Instant) :
    zone.written t = t.shift zone.minutes := by
  unfold written
  split
  · exact absurd ‹_› other
  · rfl

theorem ahead_other {zone : Zone} (other : zone.setting ≠ .localTime) (t : Instant) :
    zone.ahead t = 60 * zone.minutes := by
  unfold ahead
  split
  · exact absurd ‹_› other
  · rfl

theorem written_eq_self_iff (zone : Zone) {t : Instant} (real : t.Real) : zone.written t = t ↔ zone.ahead t = 0 := by
  by_cases here : zone.setting = .localTime
  · rw [written_local here, ahead, here]
    constructor
    · intro same
      unfold Instant.shown wall at same
      split at same
      case isTrue inside =>
        have nanos := congrArg Instant.nanos same
        have leap : secondNanos ≤ t.nanos := inside.1
        have positive : 0 < secondNanos := by decide
        simp only at nanos
        omega
      case isFalse =>
        have seconds := congrArg Instant.seconds same
        simp only at seconds ⊢
        omega
    · intro still
      have same : zone.wall t = t := by
        rw [wall, show zone.clock t = 0 from still, Int.add_zero]
      rw [same, Instant.shown_of_real real]
  · rw [written_other here, ahead_other here, Instant.shift_eq_self_iff]
    omega

-- Moved as well by the coercion and back again, it is what it would be without that.
theorem written_back (zone : Zone) {t : Instant} (real : t.Real) :
    (zone.written (t.shift zone.minutes)).shift (-zone.minutes) = zone.written t := by
  by_cases here : zone.setting = .localTime
  · rw [minutes_local here, Int.neg_zero, Instant.shift_zero, Instant.shift_zero]
  · rw [written_other here, written_other here, Instant.shift_back real]

end Zone

theorem clockOf_literal (zone : Zone) {t : Instant} (real : t.Real) (whole : t.nanos % 1000000 = 0)
    (near : (zone.written t).inRange = true) : clockOf (Sql.literal zone (.instant t)) = some (zone.written t) := by
  have lexed : lex (Sql.literal zone (.instant t)) = some [.text (Sql.instantText zone t)] :=
    lex_of_splits (splits_literal zone (.instant t))
  rw [clockOf, lexed]
  show readWallClock (Sql.instantText zone t) = _
  by_cases here : zone.setting = .localTime
  · have fraction : (zone.wall t).nanos < 2 * secondNanos := real.fraction
    have text : Sql.instantText zone t = (zone.written t).wallClockText := by
      rw [Zone.written_local here, Instant.wallClockText_shown fraction, Sql.instantText, here]
    rw [Zone.written_local here] at near text ⊢
    have wholly : (zone.wall t).nanos % 1000000 = 0 := whole
    have read := readWallClock_text (Instant.shown_real fraction) (Instant.shown_whole wholly) near (.inr rfl) (.inl rfl)
    simpa [text, Instant.wallClockText, String.append_assoc] using read
  · have text : Sql.instantText zone t = (t.shift zone.minutes).utcText := by
      unfold Sql.instantText
      split
      · exact absurd ‹_› here
      · rfl
    rw [Zone.written_other here] at near ⊢
    have read := readWallClock_text (Instant.shift_real real zone.minutes) (Instant.shift_whole whole zone.minutes) near
      (.inl rfl) (.inr rfl)
    simpa [text, Instant.utcText, String.append_assoc] using read

namespace Coercer

def zoneWith (c : Coercer) (clock : Instant → Int) : Zone := ⟨c.zone, clock⟩

-- What a row holds of a value of a property that was written to a column.
def held (c : Coercer) (clock : Instant → Int) (p : Property) (column : String → Option Value) (v : Value) :
    Option Value :=
  (c.toStorage p v).toOption.bind fun stored => (Sql.render (c.zoneWith clock) [.literal stored]).toOption.bind column

def returned (c : Coercer) (clock : Instant → Int) (p : Property) (column : String → Option Value) (v : Value) :
    Option Value :=
  (c.held clock p column v).bind fun row => (c.fromStorage p row).toOption

def minutes (c : Coercer) : Int := c.zone.minutes?.getD 0

theorem shift_instant (c : Coercer) (toUtc : Bool) {t : Instant}
    (near : (t.shift (if toUtc then -c.minutes else c.minutes)).inRange = true) :
    shift c.zone toUtc (.instant t) = .ok (.instant (t.shift (if toUtc then -c.minutes else c.minutes))) := by
  unfold minutes at near ⊢
  unfold shift
  cases zone : c.zone.minutes? with
  | none =>
    have still : (if toUtc then -(none.getD 0) else none.getD (0 : Int)) = 0 := by cases toUtc <;> rfl
    rw [still, Instant.shift_zero]
  | some minutes =>
    rw [zone] at near
    exact if_pos near

section
variable {c : Coercer} {clock : Instant → Int} {p : Property} {column : String → Option Value} {t : Instant}

theorem held_written (dated : p.type = .date) (keeps : KeepsClock column) (real : t.Real)
    (whole : t.nanos % 1000000 = 0) (stored : (t.shift c.minutes).inRange = true)
    (written : ((c.zoneWith clock).written (t.shift c.minutes)).inRange = true) :
    c.held clock p column (.instant t) = some (.instant ((c.zoneWith clock).written (t.shift c.minutes))) := by
  have coerced : c.toStorage p (.instant t) = .ok (.instant (t.shift c.minutes)) := by
    rw [toStorage, dated]
    exact c.shift_instant false stored
  have fits : Sql.instantFits (c.zoneWith clock) (t.shift c.minutes) = true := by
    unfold Sql.instantFits
    by_cases here : (c.zoneWith clock).setting = .localTime
    · rw [Zone.minutes_local here, Instant.shift_zero]
      exact stored
    · rwa [Zone.written_other here] at written
  have rendered : Sql.render (c.zoneWith clock) [.literal (.instant (t.shift c.minutes))] =
      .ok (Sql.literal (c.zoneWith clock) (.instant (t.shift c.minutes))) := by
    simp [Sql.render, Piece.datesFit, Sql.datesFit, fits, Sql.text, Piece.text]
  have shows := clockOf_literal (c.zoneWith clock) (Instant.shift_real real c.minutes)
    (Instant.shift_whole whole c.minutes) written
  have row : column (Sql.literal (c.zoneWith clock) (.instant (t.shift c.minutes))) =
      some (.instant ((c.zoneWith clock).written (t.shift c.minutes))) := keeps _ _ shows
  simp only [held, coerced, rendered, row, Except.toOption, Option.bind_some]

theorem written_inRange (stored : (t.shift c.minutes).inRange = true)
    (written : ((c.zoneWith clock).written (t.shift c.minutes)).inRange = true) :
    ((c.zoneWith clock).written t).inRange = true := by
  by_cases here : (c.zoneWith clock).setting = .localTime
  · have still : c.minutes = 0 := Zone.minutes_local here
    rwa [still, Instant.shift_zero] at written
  · rw [Zone.written_other here]
    exact stored

theorem fromStorage_written (dated : p.type = .date) (real : t.Real) (near : ((c.zoneWith clock).written t).inRange = true) :
    c.fromStorage p (.instant ((c.zoneWith clock).written (t.shift c.minutes))) =
      .ok (.instant ((c.zoneWith clock).written t)) := by
  have undone : ((c.zoneWith clock).written (t.shift c.minutes)).shift (-c.minutes) = (c.zoneWith clock).written t :=
    Zone.written_back (c.zoneWith clock) real
  have moved : Coercer.shift c.zone true (.instant ((c.zoneWith clock).written (t.shift c.minutes))) = _ :=
    c.shift_instant true (by rw [if_pos rfl, undone]; exact near)
  rw [if_pos rfl, undone] at moved
  rw [fromStorage, dated]
  exact moved

theorem returned_written (dated : p.type = .date) (keeps : KeepsClock column) (real : t.Real)
    (whole : t.nanos % 1000000 = 0) (stored : (t.shift c.minutes).inRange = true)
    (written : ((c.zoneWith clock).written (t.shift c.minutes)).inRange = true) :
    c.returned clock p column (.instant t) = some (.instant ((c.zoneWith clock).written t)) := by
  simp only [returned, held_written dated keeps real whole stored written,
    fromStorage_written dated real (written_inRange stored written), Except.toOption, Option.bind_some]

end

end Coercer

-- A row holds the value as the coercion and then the literal move it, and the property gets it back as the literal
-- alone moves it. It is held as the coercion moves it, and comes back as it was, just when the literal is not ahead of
-- UTC: under an offset when that is zero, and under `local` when the clock of the process shows UTC at that time.
theorem date_returns (c : Coercer) (clock : Instant → Int) {p : Property} (dated : p.type = .date)
    {column : String → Option Value} (keeps : KeepsClock column) {t : Instant} (real : t.Real)
    (whole : t.nanos % 1000000 = 0) (stored : (t.shift c.minutes).inRange = true)
    (written : ((c.zoneWith clock).written (t.shift c.minutes)).inRange = true) :
    c.held clock p column (.instant t) = some (.instant ((c.zoneWith clock).written (t.shift c.minutes))) ∧
      c.returned clock p column (.instant t) = some (.instant ((c.zoneWith clock).written t)) ∧
      (c.held clock p column (.instant t) = some (.instant (t.shift c.minutes)) ↔ (c.zoneWith clock).ahead t = 0) ∧
      (c.returned clock p column (.instant t) = some (.instant t) ↔ (c.zoneWith clock).ahead t = 0) := by
  have held := Coercer.held_written dated keeps real whole stored written
  have returned := Coercer.returned_written dated keeps real whole stored written
  refine ⟨held, returned, ?_, ?_⟩
  · rw [held, Option.some.injEq, Value.instant.injEq, Zone.written_eq_self_iff _ (Instant.shift_real real c.minutes)]
    by_cases here : (c.zoneWith clock).setting = .localTime
    · have still : c.minutes = 0 := Zone.minutes_local here
      rw [still, Instant.shift_zero]
    · rw [Zone.ahead_other here, Zone.ahead_other here]
  · rw [returned, Option.some.injEq, Value.instant.injEq]
    exact Zone.written_eq_self_iff _ real

-- Half past eight in a column that keeps what it is given: one hour east of UTC, and under `local` where the clock of
-- the process is two hours ahead.
def clockColumn (literal : String) : Option Value := (clockOf literal).map .instant

theorem clockColumn_keeps : KeepsClock clockColumn := fun literal clock kept => by rw [clockColumn, kept]; rfl

def createdDate : Property := ⟨"created", "created", .date, false, .text⟩

def halfPastEight : Instant := ⟨1717230600, 0⟩

theorem date_returns_later :
    (Coercer.new (.offset 60)).returned (fun _ => 0) createdDate clockColumn (.instant halfPastEight) =
      some (.instant ⟨1717234200, 0⟩) ∧
    (Coercer.new .localTime).returned (fun _ => 7200) createdDate clockColumn (.instant halfPastEight) =
      some (.instant ⟨1717237800, 0⟩) :=
  ⟨(date_returns (Coercer.new (.offset 60)) _ rfl clockColumn_keeps ⟨by decide, by decide⟩ rfl rfl rfl).2.1,
    (date_returns (Coercer.new .localTime) _ rfl clockColumn_keeps ⟨by decide, by decide⟩ rfl rfl rfl).2.1⟩

theorem halfPastEight_lost : KeepsClock clockColumn ∧ halfPastEight.Real ∧ halfPastEight.nanos % 1000000 = 0 ∧
    (halfPastEight.shift 60).inRange = true ∧ ((halfPastEight.shift 60).shift 60).inRange = true ∧
    ∀ clock, (Coercer.new (.offset 60)).returned clock createdDate clockColumn (.instant halfPastEight) ≠
      some (.instant halfPastEight) := by
  have real : halfPastEight.Real := ⟨by decide, by decide⟩
  refine ⟨clockColumn_keeps, real, rfl, rfl, rfl, fun clock same => ?_⟩
  have later : (Coercer.new (.offset 60)).returned clock createdDate clockColumn (.instant halfPastEight) =
      some (.instant (halfPastEight.shift 60)) :=
    Coercer.returned_written rfl clockColumn_keeps real rfl rfl rfl
  rw [later] at same
  cases same

end QueryKit
