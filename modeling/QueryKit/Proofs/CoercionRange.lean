import QueryKit.Proofs.DateStorage
import QueryKit.Proofs.ZoneSettings

-- Which values coercion has a result for. Of all values only a timestamp is moved, and only by the offset of the
-- zone; next to the ends of the calendar there are points in time that this takes out of it.

namespace QueryKit
open Text Calendar

namespace Timezone

def furthest : Int := 99 * 60 + 99

theorem digitValue?_le {c : Char} {n : Nat} (value : digitValue? c = some n) : n ≤ 9 := by
  unfold digitValue? at value
  split at value
  case isTrue digit =>
    cases value
    have high : c.toNat ≤ '9'.toNat := digit.2
    have nine : '9'.toNat = 57 := rfl
    omega
  case isFalse => cases value

theorem pairValue_bounds (a b : Char) : 0 ≤ pairValue a b ∧ pairValue a b ≤ 99 := by
  unfold pairValue
  split
  · rename_i x y tens ones
    have first := digitValue?_le tens
    have second := digitValue?_le ones
    omega
  · omega

theorem minutesAfterHours_bounds (cs : List Char) : 0 ≤ minutesAfterHours cs ∧ minutesAfterHours cs ≤ 99 := by
  unfold minutesAfterHours
  split
  · split
    · exact pairValue_bounds ..
    · omega
  · split
    · exact pairValue_bounds ..
    · omega
  · omega

theorem offsetHere?_bounds {cs : List Char} {minutes : Int} (here : offsetHere? cs = some minutes) :
    -furthest ≤ minutes ∧ minutes ≤ furthest := by
  unfold offsetHere? at here
  split at here
  · rename_i sign a b rest
    have hours := pairValue_bounds a b
    have behind := minutesAfterHours_bounds rest
    split at here
    · cases here
      unfold furthest
      split <;> omega
    · cases here
  · cases here

theorem minutes_ofSetting_bounds (setting : String) :
    -furthest ≤ (ofSetting setting).minutes?.getD 0 ∧ (ofSetting setting).minutes?.getD 0 ≤ furthest := by
  have still : -furthest ≤ 0 ∧ (0 : Int) ≤ furthest := by decide
  unfold ofSetting
  split
  · exact still
  · split
    · exact still
    · split
      · rename_i minutes found
        obtain ⟨rest, -, here, -⟩ := first_of_findOffset? found
        exact offsetHere?_bounds here
      · exact still

end Timezone

namespace Calendar.Instant

theorem inRange_iff (t : Instant) : t.inRange = true ↔ earliest ≤ t.seconds ∧ t.seconds ≤ latest := by
  simp only [inRange, Bool.and_eq_true, decide_eq_true_eq]

theorem shift_inRange {t : Instant} {minutes : Int}
    (bounded : -Timezone.furthest ≤ minutes ∧ minutes ≤ Timezone.furthest)
    (early : earliest + 60 * Timezone.furthest ≤ t.seconds) (late : t.seconds ≤ latest - 60 * Timezone.furthest) :
    (t.shift minutes).inRange = true := by
  rw [inRange_iff]
  unfold Timezone.furthest at bounded early late
  unfold shift
  split
  · show earliest ≤ t.seconds + 60 * minutes ∧ t.seconds + 60 * minutes ≤ latest
    omega
  · split
    · show earliest ≤ t.seconds + 60 * minutes ∧ t.seconds + 60 * minutes ≤ latest
      omega
    · split
      · show earliest ≤ t.seconds + 1 + 60 * minutes ∧ t.seconds + 1 + 60 * minutes ≤ latest
        omega
      · omega

-- The last second of the calendar does not move forward, and the first one does not move back.
def edge (minutes : Int) : Instant := ⟨if 0 < minutes then latest else earliest, 0⟩

theorem edge_real (minutes : Int) : (edge minutes).Real :=
  ⟨Nat.zero_lt_succ _, fun leap => absurd leap (Nat.not_succ_le_zero _)⟩

theorem edge_inRange (minutes : Int) : (edge minutes).inRange = true := by
  rw [inRange_iff]
  unfold edge
  split <;> decide

theorem shift_edge {minutes : Int} (moved : minutes ≠ 0) : ((edge minutes).shift minutes).inRange = false := by
  rw [← Bool.not_eq_true, shift_plain _ _ (Nat.zero_lt_succ _), inRange_iff]
  unfold edge
  show ¬ (earliest ≤ (if 0 < minutes then latest else earliest) + 60 * minutes ∧
    (if 0 < minutes then latest else earliest) + 60 * minutes ≤ latest)
  split <;> omega

end Calendar.Instant

-- A timestamp is a point in time of the calendar.
def Value.Held : Value → Prop
  | .instant t => t.Real ∧ t.inRange = true
  | _ => True

namespace Coercer

-- Of a built-in type, or of one that nobody has registered.
def Unregistered (c : Coercer) (p : Property) : Prop :=
  ∀ tag, p.type = .custom tag → Sorted.get? tag c.customTypes = none

def coerce (c : Coercer) (reading : Bool) (p : Property) (v : Value) : Except Fault Value :=
  if reading then c.fromStorage p v else c.toStorage p v

-- Minutes by which a timestamp is moved.
def movement (c : Coercer) (reading : Bool) : Int := if reading then -c.minutes else c.minutes

theorem movement_eq_zero_iff (c : Coercer) (reading : Bool) : c.movement reading = 0 ↔ c.minutes = 0 := by
  unfold movement
  split <;> omega

section
variable {c : Coercer} {p : Property} (reading : Bool)

theorem coerce_date (dated : p.type = .date) (v : Value) : c.coerce reading p v = shift c.zone reading v := by
  cases reading with
  | true => rw [coerce, if_pos rfl, fromStorage, dated]
  | false => rw [coerce, if_neg Bool.false_ne_true, toStorage, dated]

theorem coerce_other (ruled : c.Unregistered p) (other : p.type ≠ .date) (v : Value) :
    ∃ w, c.coerce reading p v = .ok w := by
  cases type : p.type with
  | date => exact absurd type other
  | custom tag =>
    have unknown := ruled tag type
    cases reading <;> exact ⟨v, by simp [coerce, fromStorage, toStorage, type, unknown]⟩
  | _ => cases reading <;> simp [coerce, fromStorage, toStorage, type]

theorem coerce_instant (dated : p.type = .date) {t : Instant} (near : t.inRange = true) :
    c.coerce reading p (.instant t) =
      if (t.shift (c.movement reading)).inRange = true then .ok (.instant (t.shift (c.movement reading)))
      else .error .dateOutOfRange := by
  rw [coerce_date reading dated, shift, movement, minutes]
  cases c.zone.minutes? with
  | none =>
    have still : (if reading = true then -(none.getD 0) else none.getD (0 : Int)) = 0 := by cases reading <;> rfl
    rw [still, Instant.shift_zero, if_pos near]
  | some minutes => rfl

theorem shift_other (zone : Timezone) (toUtc : Bool) {v : Value} (other : ∀ t, v ≠ .instant t) :
    shift zone toUtc v = .ok v := by
  cases v with
  | instant t => exact absurd rfl (other t)
  | _ => rfl

theorem coerce_cases (ruled : c.Unregistered p) {v : Value} (held : v.Held) :
    (∃ w, c.coerce reading p v = .ok w) ∨
      p.type = .date ∧ (∃ t, v = .instant t ∧ (t.shift (c.movement reading)).inRange = false) ∧
        c.coerce reading p v = .error .dateOutOfRange := by
  by_cases dated : p.type = .date
  · by_cases timed : ∃ t, v = .instant t
    · obtain ⟨t, rfl⟩ := timed
      have moved := coerce_instant (c := c) reading dated held.2
      cases inside : (t.shift (c.movement reading)).inRange with
      | true => exact .inl ⟨_, moved.trans (if_pos inside)⟩
      | false =>
        have outside : ¬ (t.shift (c.movement reading)).inRange = true := by simp [inside]
        exact .inr ⟨dated, ⟨t, rfl, inside⟩, moved.trans (if_neg outside)⟩
    · have other : ∀ t, v ≠ .instant t := fun t same => timed ⟨t, same⟩
      exact .inl ⟨v, (coerce_date reading dated v).trans (shift_other c.zone reading other)⟩
  · exact .inl (coerce_other reading ruled dated v)

end

end Coercer

-- Coercion has a result for every value but a timestamp of a date property that the offset of the zone takes out of
-- the calendar. Such a one is within a hundred and one hours of an end, whatever the setting; and under every setting
-- that moves timestamps at all there are some, in both directions.
theorem coercion_returns_iff {c : Coercer} {setting : String} (configured : c.zone = .ofSetting setting)
    (reading : Bool) :
    (∀ p v, c.Unregistered p → v.Held →
      ((∃ w, c.coerce reading p v = .ok w) ↔
        (p.type = .date → ∀ t, v = .instant t → (t.shift (c.movement reading)).inRange = true)) ∧
      ∀ fault, c.coerce reading p v = .error fault → fault = .dateOutOfRange) ∧
    (∀ t : Instant, Instant.earliest + 60 * Timezone.furthest ≤ t.seconds →
      t.seconds ≤ Instant.latest - 60 * Timezone.furthest → (t.shift (c.movement reading)).inRange = true) ∧
    ((∀ p v, c.Unregistered p → v.Held → ∃ w, c.coerce reading p v = .ok w) ↔ c.minutes = 0) := by
  have bounds : -Timezone.furthest ≤ c.minutes ∧ c.minutes ≤ Timezone.furthest := by
    rw [Coercer.minutes, configured]
    exact Timezone.minutes_ofSetting_bounds setting
  have returns : ∀ p v, c.Unregistered p → v.Held → ((∃ w, c.coerce reading p v = .ok w) ↔
      (p.type = .date → ∀ t, v = .instant t → (t.shift (c.movement reading)).inRange = true)) := by
    intro p v ruled held
    constructor
    · rintro ⟨w, done⟩ dated t rfl
      by_contra outside
      rw [Coercer.coerce_instant reading dated held.2, if_neg outside] at done
      cases done
    · intro inside
      rcases Coercer.coerce_cases reading ruled held with returned | ⟨dated, ⟨t, rfl, outside⟩, -⟩
      · exact returned
      · rw [inside dated t rfl] at outside
        cases outside
  refine ⟨fun p v ruled held => ⟨returns p v ruled held, fun fault failed => ?_⟩, ?_, ?_, ?_⟩
  · rcases Coercer.coerce_cases reading ruled held with ⟨w, done⟩ | ⟨-, -, refused⟩
    · rw [done] at failed
      cases failed
    · rw [refused] at failed
      cases failed
      rfl
  · intro t early late
    refine Instant.shift_inRange ?_ early late
    unfold Coercer.movement
    split <;> omega
  · intro all
    by_contra moves
    have moved : c.movement reading ≠ 0 := fun still => moves ((c.movement_eq_zero_iff reading).mp still)
    have unregistered : c.Unregistered createdDate := fun tag other => by cases other
    have held : (Value.instant (.edge (c.movement reading))).Held := ⟨Instant.edge_real _, Instant.edge_inRange _⟩
    have inside := (returns createdDate _ unregistered held).mp (all createdDate _ unregistered held) rfl _ rfl
    rw [Instant.shift_edge moved] at inside
    cases inside
  · intro still p v ruled held
    refine (returns p v ruled held).mpr ?_
    rintro - t rfl
    rw [(c.movement_eq_zero_iff reading).mpr still, Instant.shift_zero]
    exact held.2

-- The last point in time of the calendar, two hours east of UTC: it can be read, and not written.
def eastern : Coercer := .new (.ofSetting "+02:00")

def lastInstant : Instant := ⟨Instant.latest, 999999999⟩

theorem eastern_moves (reading : Bool) : eastern.movement reading = if reading then -120 else 120 := by
  have zone : Timezone.ofSetting "+02:00" = .offset 120 := by decide
  rw [Coercer.movement, Coercer.minutes, eastern, Coercer.new, zone]
  rfl

theorem lastInstant_held : (Value.instant lastInstant).Held := ⟨⟨by decide, by decide⟩, by decide⟩

theorem lastInstant_read : eastern.zone = .ofSetting "+02:00" ∧ eastern.Unregistered createdDate ∧
    (Value.instant lastInstant).Held ∧ ∃ w, eastern.fromStorage createdDate (.instant lastInstant) = .ok w := by
  have unregistered : eastern.Unregistered createdDate := fun tag other => by cases other
  refine ⟨rfl, unregistered, lastInstant_held, ?_⟩
  have configured : eastern.zone = .ofSetting "+02:00" := rfl
  obtain ⟨returns, -⟩ := coercion_returns_iff configured true
  refine (returns createdDate _ unregistered lastInstant_held).1.mpr ?_
  rintro - t same
  cases same
  rw [eastern_moves]
  decide

theorem lastInstant_unwritten : eastern.Unregistered createdDate ∧ (Value.instant lastInstant).Held ∧
    eastern.toStorage createdDate (.instant lastInstant) = .error .dateOutOfRange := by
  have unregistered : eastern.Unregistered createdDate := fun tag other => by cases other
  refine ⟨unregistered, lastInstant_held, ?_⟩
  have refused : eastern.coerce false createdDate (.instant lastInstant) = _ :=
    Coercer.coerce_instant false rfl lastInstant_held.2
  rw [eastern_moves] at refused
  exact refused

end QueryKit
