import Conform.KeyPattern
import Conform.TypeTag

/-! Schemas: trees that describe which values are acceptable. A node is a keyed shape, an
alternation or a typed node, and all three carry the same rules. Custom rules are named
by a type of the caller's choice, so that a schema stays plain data. -/

namespace Conform

variable [RegexEngine]

/-- Limits and wanted values. The limits bound a number, or the length of a string or a
list. -/
structure Constraints where
  allowEmpty : Bool := true
  min? : Option Double := none
  max? : Option Double := none
  length? : Option Nat := none
  pattern? : Option Regex := none
  equals? : Option Value := none
  contains? : Option (List Value) := none

def Constraints.hasBounds (c : Constraints) : Bool :=
  c.min?.isSome || c.max?.isSome || c.length?.isSome || !c.allowEmpty

structure Rules (ν : Type) where
  nullable : Bool := false
  optional : Bool := false
  default? : Option Value := none
  constraints : Constraints := {}
  custom? : Option ν := none

structure TypeRules where
  tag : TypeTag
  instance? : Option String := none
  instances? : Option (List String) := none
  /-- Elements are checked by position. -/
  keepOrder : Bool := false
  keepLength : Bool := false

/-- The classes of which one is required, if any; a list takes the place of a single
class. -/
def TypeRules.classes (type : TypeRules) : List String :=
  type.instances?.getD type.instance?.toList

inductive Schema (ν : Type) where
  | shape (rules : Rules ν) (properties : List (PropertyKey × Schema ν))
  | alternation (rules : Rules ν) (members : List (Schema ν))
  | typed (rules : Rules ν) (type : TypeRules) (items? : Option (List (Schema ν)))
      (nested? : Option (List (PropertyKey × Schema ν)))

namespace Schema

variable {ν : Type}

def ofTag (tag : TypeTag) : Schema ν := typed {} { tag } none none

def any : Schema ν := ofTag .any

instance : Inhabited (Schema ν) := ⟨any⟩

def defaultItems : List (Schema ν) := [any]

def rules : Schema ν → Rules ν
  | shape rules _ | alternation rules _ | typed rules _ _ _ => rules

end Schema

end Conform
