import Conform.Schema.Basic
import Conform.Value.Text

/-! Schemas and values spelled out in full, constructor by constructor. -/

namespace Conform

namespace StructuralText

def record (name : String) (fields : List (String × String)) : String :=
  name ++ " \x7b " ++ commaSeparated (fields.map fun (field, text) => field ++ ": " ++ text) ++
    " \x7d"

def applied (name argument : String) : String := name ++ "(" ++ argument ++ ")"

def listed (parts : List String) : String := "[" ++ commaSeparated parts ++ "]"

def paired (first second : String) : String := "(" ++ first ++ ", " ++ second ++ ")"

def optional : Option String → String
  | some text => applied "Some" text
  | none => "None"

def bool (b : Bool) : String := if b then "true" else "false"

def quotedChar (c : Char) : List Char :=
  if c = '"' ∨ c = '\\' then ['\\', c]
  else if c = '\n' then ['\\', 'n']
  else if c = '\r' then ['\\', 'r']
  else if c = '\t' then ['\\', 't']
  else if c = '\x00' then ['\\', '0']
  else if c.toNat < 32 ∨ c.toNat = 127 then
    "\\u\x7b".toList ++ Nat.toDigits 16 c.toNat ++ ['\x7d']
  else [c]

def quoted (s : String) : String := String.ofList ('"' :: s.toList.flatMap quotedChar ++ ['"'])

def tag : TypeTag → String
  | .any => "Any"
  | .array => "Array"
  | .bigInt => "BigInt"
  | .boolean => "Boolean"
  | .function => "Function"
  | .integer => "Integer"
  | .float => "Float"
  | .number => "Number"
  | .object => "Object"
  | .string => "String"
  | .symbol => "Symbol"
  | .undefined => "Undefined"
  | .null => "Null"

mutual

def value : Value → String
  | .undefined => "Undefined"
  | .null => "Null"
  | .bool b => applied "Bool" (bool b)
  | .int i => applied "Int" (toString i.toInt)
  | .float x => applied "Float" (x.text .structural)
  | .bigInt i => applied "BigInt" (toString i)
  | .string s => applied "String" (quoted s)
  | .symbol s => applied "Symbol" (quoted s)
  | .function s => applied "Function" (quoted s)
  | .list items => applied "List" (listed (values items))
  | .object items => applied "Object" (listed (fields items))
  | .instanceOf className items =>
    record "Instance" [("class", quoted className), ("fields", listed (fields items))]

def values : List Value → List String
  | [] => []
  | v :: rest => value v :: values rest

def fields : List (String × Value) → List String
  | [] => []
  | (key, v) :: rest => paired (quoted key) (value v) :: fields rest

end

def key : PropertyKey → String
  | .literal name => applied "Literal" (quoted name)
  | .pattern p => applied "Pattern" (record "KeyPattern"
      [("source", quoted p.marker), ("body", quoted p.body), ("flags", quoted p.flags)])

variable [RegexEngine]

def constraints (c : Constraints) : String :=
  record "Constraints" [
    ("empty", bool c.allowEmpty),
    ("min", optional (c.min?.map (·.text .structural))),
    ("max", optional (c.max?.map (·.text .structural))),
    ("length", optional (c.length?.map toString)),
    ("pattern", optional (c.pattern?.map fun r => applied "Regex" (quoted r.source))),
    ("equals", optional (c.equals?.map value)),
    ("contains", optional (c.contains?.map fun vs => listed (values vs)))]

variable {ν : Type}

/-- A node with its rules; of a custom rule only its presence shows. -/
def node (kind : String) (rules : Rules ν) : String :=
  record "Schema" [
    ("kind", kind),
    ("nullable", bool rules.nullable),
    ("optional", bool rules.optional),
    ("default_value", optional (rules.default?.map value)),
    ("constraints", constraints rules.constraints),
    ("has_validator", bool rules.custom?.isSome)]

def properties (parts : List String) : String :=
  record "ShapeSchema" [("properties", listed parts)]

mutual

def schema : Schema ν → String
  | .shape rules entries => node (applied "Shape" (properties (schemaEntries entries))) rules
  | .alternation rules members => node (applied "Alternation" (listed (schemas members))) rules
  | .typed rules type items? nested? =>
    node (applied "Scalar" (record "ScalarSchema" [
      ("tag", tag type.tag),
      ("instance", optional (type.instance?.map quoted)),
      ("instances", optional (type.instances?.map fun names => listed (names.map quoted))),
      ("items", match items? with
        | some items => optional (some (listed (schemas items)))
        | none => optional none),
      ("keep_order", bool type.keepOrder),
      ("keep_length", bool type.keepLength),
      ("shape", match nested? with
        | some entries => optional (some (properties (schemaEntries entries)))
        | none => optional none)])) rules

def schemas : List (Schema ν) → List String
  | [] => []
  | s :: rest => schema s :: schemas rest

def schemaEntries : List (PropertyKey × Schema ν) → List String
  | [] => []
  | (k, s) :: rest => paired (key k) (schema s) :: schemaEntries rest

end

end StructuralText

def Schema.structuralText [RegexEngine] {ν : Type} (s : Schema ν) : String := StructuralText.schema s

end Conform
