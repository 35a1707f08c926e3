import Conform.Schema.Basic

/-! Building schemas step by step. A later step overrides or adds to the earlier ones, and
a step that does not concern a kind of node leaves it as it is. -/

namespace Conform

namespace Schema

variable [RegexEngine] {ν : Type}

def string : Schema ν := ofTag .string

def number : Schema ν := ofTag .number

def integer : Schema ν := ofTag .integer

def boolean : Schema ν := ofTag .boolean

def emptyShape : Schema ν := shape {} []

def array (items : List (Schema ν)) : Schema ν := typed {} { tag := .array } (some items) none

def oneOf (members : List (Schema ν)) : Schema ν := alternation {} members

def mapRules (change : Rules ν → Rules ν) : Schema ν → Schema ν
  | shape rules properties => shape (change rules) properties
  | alternation rules members => alternation (change rules) members
  | typed rules type items? nested? => typed (change rules) type items? nested?

def mapConstraints (change : Constraints → Constraints) : Schema ν → Schema ν :=
  mapRules fun rules => { rules with constraints := change rules.constraints }

def mapType (change : TypeRules → TypeRules) : Schema ν → Schema ν
  | typed rules type items? nested? => typed rules (change type) items? nested?
  | s => s

def nullable : Schema ν → Schema ν := mapRules ({ · with nullable := true })

def optional : Schema ν → Schema ν := mapRules ({ · with optional := true })

def withDefault (value : Value) : Schema ν → Schema ν :=
  mapRules ({ · with default? := some value, optional := true })

def nonEmpty : Schema ν → Schema ν := mapConstraints ({ · with allowEmpty := false })

def min (limit : Double) : Schema ν → Schema ν :=
  mapConstraints ({ · with min? := some limit })

def max (limit : Double) : Schema ν → Schema ν :=
  mapConstraints ({ · with max? := some limit })

def length (size : Nat) : Schema ν → Schema ν :=
  mapConstraints ({ · with length? := some size })

def matching (pattern : Regex) : Schema ν → Schema ν :=
  mapConstraints ({ · with pattern? := some pattern })

def equals (value : Value) : Schema ν → Schema ν :=
  mapConstraints ({ · with equals? := some value })

def contains (values : List Value) : Schema ν → Schema ν :=
  mapConstraints ({ · with contains? := some values })

def custom (rule : ν) : Schema ν → Schema ν := mapRules ({ · with custom? := some rule })

/-- One more property. On a typed node it belongs to a nested shape; an alternation takes
no properties. -/
def property (s : Schema ν) (key : String) (value : Schema ν) : Schema ν :=
  match s with
  | shape rules properties => shape rules (properties ++ [(.ofText key, value)])
  | alternation rules members => alternation rules members
  | typed rules type items? nested? =>
    typed rules type items? (some (nested?.getD [] ++ [(.ofText key, value)]))

def instanceOf (className : String) : Schema ν → Schema ν :=
  mapType ({ · with instance? := some className })

def instanceOfAny (classNames : List String) : Schema ν → Schema ν :=
  mapType ({ · with instances? := some classNames })

def keepOrder : Schema ν → Schema ν := mapType ({ · with keepOrder := true })

def keepLength : Schema ν → Schema ν := mapType ({ · with keepLength := true })

def items (items : List (Schema ν)) : Schema ν → Schema ν
  | typed rules type _ nested? => typed rules type (some items) nested?
  | s => s

end Schema

end Conform
