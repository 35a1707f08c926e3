/-! Failures of a check: what kind of rule failed, the message, and the path from the
root of the value to the place of failure. -/

namespace Conform

inductive FailureKind where
  | typeMismatch | instanceMismatch | range | pattern | equality | enumeration
  | arrayLength | arrayElement | objectShape | missingKey | custom | invalidKeyPattern
  | depthExceeded
deriving DecidableEq, Inhabited

namespace FailureKind

def all : List FailureKind :=
  [typeMismatch, instanceMismatch, range, pattern, equality, enumeration, arrayLength,
    arrayElement, objectShape, missingKey, custom, invalidKeyPattern, depthExceeded]

def name : FailureKind → String
  | typeMismatch => "type_mismatch"
  | instanceMismatch => "instance_mismatch"
  | range => "range"
  | pattern => "pattern"
  | equality => "equality"
  | enumeration => "enumeration"
  | arrayLength => "array_length"
  | arrayElement => "array_element"
  | objectShape => "object_shape"
  | missingKey => "missing_key"
  | custom => "custom"
  | invalidKeyPattern => "invalid_key_pattern"
  | depthExceeded => "depth_exceeded"

def ofName? (name : String) : Option FailureKind := all.find? (·.name == name)

end FailureKind

structure Failure where
  kind : FailureKind
  message : String
  path : List String := []
deriving DecidableEq, Inhabited

namespace Failure

def here (kind : FailureKind) (message : String) : Failure := ⟨kind, message, []⟩

def within (token : String) (f : Failure) : Failure := { f with path := token :: f.path }

/-- A tripped depth guard, which no frame may hide. -/
def isFatal (f : Failure) : Bool := f.kind == .depthExceeded

/-- The failure under a new kind and heading; a fatal one stays as it is. -/
def relabelled (kind : FailureKind) (heading : String) (f : Failure) : Failure :=
  if f.isFatal then f else { f with kind, message := heading ++ " " ++ f.message }

@[simp] theorem isFatal_within (token : String) (f : Failure) :
    (f.within token).isFatal = f.isFatal := rfl

theorem relabelled_of_isFatal {f : Failure} (fatal : f.isFatal = true) (kind : FailureKind)
    (heading : String) : f.relabelled kind heading = f := by
  simp [relabelled, fatal]

@[simp] theorem path_relabelled (kind : FailureKind) (heading : String) (f : Failure) :
    (f.relabelled kind heading).path = f.path := by
  unfold relabelled
  split <;> rfl

def pathText (f : Failure) : String := ".".intercalate f.path

end Failure

end Conform
