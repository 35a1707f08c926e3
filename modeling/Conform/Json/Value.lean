import Conform.Json.Document
import Conform.Value.Basic

/-! Values as JSON documents, and documents as values. Every document has a value of its
own; values without a JSON form become null, text, or a plain object. -/

namespace Conform

mutual

def Value.ofDocument : Document → Value
  | .null => .null
  | .bool b => .bool b
  | .integer i => if i.toInt < Int.pow 2 63 then .int (Int64.ofInt i.toInt) else .bigInt i.toInt
  | .float x => .float x.val
  | .string s => .string s
  | .array items => .list (Value.ofItems items)
  | .object fields => .object (Value.ofMembers fields)

def Value.ofItems : List Document → List Value
  | [] => []
  | d :: rest => Value.ofDocument d :: Value.ofItems rest

def Value.ofMembers : List (String × Document) → List (String × Value)
  | [] => []
  | (key, d) :: rest => (key, Value.ofDocument d) :: Value.ofMembers rest

end

mutual

/-- The document of a value: absent values, functions and floats that are not finite
become null, symbols and integers out of range become text, instances lose their class,
and of repeated keys the last one counts. -/
def Document.ofValue : Value → Document
  | .undefined | .null | .function _ => .null
  | .bool b => .bool b
  | .int i => .integer (.ofInt64 i)
  | .float x => if h : x.isFinite = true then .float ⟨x, h⟩ else .null
  | .bigInt i => match JsonInteger.ofInt? i with
    | some small => .integer small
    | none => .string (toString i)
  | .string s | .symbol s => .string s
  | .list items => .array (Document.ofValues items)
  | .object fields | .instanceOf _ fields => .object (Fields.ofPairs (Document.ofFields fields))

def Document.ofValues : List Value → List Document
  | [] => []
  | v :: rest => Document.ofValue v :: Document.ofValues rest

def Document.ofFields : List (String × Value) → List (String × Document)
  | [] => []
  | (key, v) :: rest => (key, Document.ofValue v) :: Document.ofFields rest

end

end Conform
