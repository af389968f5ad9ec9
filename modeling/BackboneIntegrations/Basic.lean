import Mathlib.Data.Int.Basic
import Mathlib.Tactic.SplitIfs

/-!
# Identifiers and instants

An instant is in microseconds, as the database keeps it. The limits are those of `chrono`.
-/

namespace BackboneIntegrations

abbrev Uuid := Nat

abbrev Time := Int

abbrev DbError := String

def microsPerSecond : Int := 1000000

/-- `DateTime::timestamp`: whole seconds, rounded down. -/
def timestamp (t : Time) : Int := t / microsPerSecond

/-- The instants that `DateTime<Utc>` can hold. -/
def minUtc : Time := -8334601228800000000
def maxUtc : Time := 8210266876799999999

/-- The largest `Duration::seconds` that does not panic. -/
def maxDurationSeconds : Int := 9223372036854775

/-- `t + Duration::seconds(secs)`, or `none` where `chrono` panics. -/
def addSeconds (t : Time) (secs : Int) : Option Time :=
  if -maxDurationSeconds ≤ secs ∧ secs ≤ maxDurationSeconds ∧
      minUtc ≤ t + secs * microsPerSecond ∧ t + secs * microsPerSecond ≤ maxUtc then
    some (t + secs * microsPerSecond)
  else none

theorem addSeconds_eq {t t' : Time} {secs : Int} (h : addSeconds t secs = some t') :
    t' = t + secs * microsPerSecond := by
  unfold addSeconds at h
  split at h
  · exact (Option.some.inj h).symm
  · cases h

end BackboneIntegrations
