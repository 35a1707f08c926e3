import Conform.Failure
import Conform.Value.Basic

/-! A partly specified outcome, as a custom rule may state it, and its completion. -/

namespace Conform

abbrev Outcome := Except Failure Value

structure Verdict where
  valid : Bool
  matched? : Option Value := none
  kind? : Option FailureKind := none
  message? : Option String := none
  path? : Option (List String) := none

namespace Verdict

/-- The failure that a verdict describes: unstated, its kind is `custom` and its message
and path are empty. -/
def failure (v : Verdict) : Failure :=
  ⟨v.kind?.getD .custom, v.message?.getD "", v.path?.getD []⟩

/-- A valid verdict matches its value, or nothing if it names none; the details of the
other side are ignored. -/
def outcome (v : Verdict) : Outcome :=
  if v.valid then .ok (v.matched?.getD .undefined) else .error v.failure

def reject (message : String) : Outcome :=
  outcome { valid := false, kind? := some .custom, message? := some message }

end Verdict

end Conform
