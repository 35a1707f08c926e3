import Conform.Number.Double

/-! Runtime values. An absent value is a value of its own, distinct from an explicit
null, and keyed structures keep their fields in the order of insertion, repeated keys
included. -/

namespace Conform

inductive Value where
  | undefined
  | null
  | bool (b : Bool)
  | int (i : Int64)
  | float (x : Double)
  /-- An integer of any size, which is no number to the numeric rules. -/
  | bigInt (i : Int)
  | string (s : String)
  | symbol (description : String)
  | function (name : String)
  | list (items : List Value)
  | object (fields : List (String × Value))
  | instanceOf (className : String) (fields : List (String × Value))
deriving Inhabited

namespace Value

def kindName : Value → String
  | undefined => "undefined"
  | null => "null"
  | bool _ => "boolean"
  | int _ | float _ => "number"
  | bigInt _ => "bigint"
  | string _ => "string"
  | symbol _ => "symbol"
  | function _ => "function"
  | list _ => "array"
  | object _ | instanceOf _ _ => "object"

def isUndefined : Value → Bool
  | undefined => true
  | _ => false

def isNull : Value → Bool
  | null => true
  | _ => false

def number? : Value → Option Double
  | int i => some (.ofInt i.toInt)
  | float x => some x
  | _ => none

def isWhole : Value → Bool
  | int _ => true
  | float x => x.isWhole
  | _ => false

def length? : Value → Option Nat
  | string s => some s.length
  | list items => some items.length
  | _ => none

def fields? : Value → Option (List (String × Value))
  | object fields | instanceOf _ fields => some fields
  | _ => none

def get? (v : Value) (key : String) : Option Value :=
  v.fields?.bind (·.lookup key)

def className? : Value → Option String
  | object _ => some "Object"
  | list _ => some "Array"
  | function _ => some "Function"
  | instanceOf className _ => some className
  | _ => none

/-- The keyed structure with the same class and other fields; a value without fields
becomes an object. -/
def withFields (fields : List (String × Value)) : Value → Value
  | instanceOf className _ => instanceOf className fields
  | _ => object fields

end Value

end Conform
