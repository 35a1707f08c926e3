import Conform.Value.Basic

/-! The fixed set of type requirements a schema node can make. -/

namespace Conform

inductive TypeTag where
  | any | array | bigInt | boolean | function | integer | float | number | object
  | string | symbol | undefined | null
deriving DecidableEq, Inhabited

namespace TypeTag

def all : List TypeTag :=
  [any, array, bigInt, boolean, function, integer, float, number, object, string, symbol,
    undefined, null]

def name : TypeTag → String
  | any => "any"
  | array => "array"
  | bigInt => "bigint"
  | boolean => "boolean"
  | function => "function"
  | integer => "integer"
  | float => "float"
  | number => "number"
  | object => "object"
  | string => "string"
  | symbol => "symbol"
  | undefined => "undefined"
  | null => "null"

def ofName? (name : String) : Option TypeTag := all.find? (·.name == name)

theorem mem_all (tag : TypeTag) : tag ∈ all := by cases tag <;> simp [all]

theorem name_injective {s t : TypeTag} (same : s.name = t.name) : s = t := by
  revert same
  cases s <;> cases t <;> decide

theorem ofName?_eq_some_iff {name : String} {tag : TypeTag} :
    ofName? name = some tag ↔ tag.name = name := by
  constructor
  · intro found
    simpa using List.find?_some found
  · rintro rfl
    cases found : ofName? tag.name with
    | none => simpa using List.find?_eq_none.1 found tag (mem_all tag)
    | some other =>
      have same : other.name = tag.name := by simpa using List.find?_some found
      rw [name_injective same]

/-- The values whose kind satisfies a tag. Any number satisfies `float`, and lists count
as objects. -/
def accepts : TypeTag → Value → Bool
  | any, .undefined | any, .null => false
  | any, _ => true
  | array, .list _ => true
  | bigInt, .bigInt _ => true
  | boolean, .bool _ => true
  | function, .function _ => true
  | integer, v => v.isWhole
  | float, v | number, v => v.number?.isSome
  | object, .object _ | object, .instanceOf _ _ | object, .list _ => true
  | string, .string _ => true
  | symbol, .symbol _ => true
  | undefined, v => v.isUndefined
  | null, v => v.isNull
  | _, _ => false

def isNumeric : TypeTag → Bool
  | integer | float | number => true
  | _ => false

end TypeTag

end Conform
