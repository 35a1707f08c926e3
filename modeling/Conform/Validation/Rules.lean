import Conform.Schema.Basic
import Conform.Value.Equality
import Conform.Value.Text
import Conform.Verdict

/-! The rules that look at a value alone: its type, its size, its text, its class, and
equality with wanted values. -/

namespace Conform

def typeMismatch (tag : TypeTag) : Value → Failure
  | .undefined => .here .typeMismatch "Non-optional property is 'undefined'!"
  | .null => .here .typeMismatch "Non-nullable property is 'null'!"
  | v => .here .typeMismatch
      ("Invalid property type! Expected '" ++ tag.name ++ "', instead got '" ++ v.shape ++ "'!")

variable [RegexEngine]

namespace Constraints

def checkNumber (c : Constraints) (v : Value) (x : Double) : Except Failure Unit :=
  let outside (which : String) (limit : Double) : Failure := .here .range
    ("Invalid number value! " ++ which ++ " number value is '" ++ limit.text .limit ++
      "', instead got '" ++ v.literal ++ "'!")
  if let some limit := c.min?.filter (x.lt ·) then .error (outside "Minimal" limit)
  else if let some limit := c.max?.filter (·.lt x) then .error (outside "Maximal" limit)
  else .ok ()

def checkLength (c : Constraints) (label noun : String) (size : Nat) : Except Failure Unit :=
  let invalid (detail : String) : Failure :=
    .here .range ("Invalid " ++ label ++ " length! " ++ detail)
  let outside (which : String) (limit : Double) : Failure := invalid
    (which ++ " " ++ label ++ " length is '" ++ limit.text .limit ++ "', instead got '" ++
      toString size ++ "'!")
  if let some wanted := c.length?.filter (· != size) then
    .error (invalid
      ("Expected '" ++ toString wanted ++ "', instead got '" ++ toString size ++ "'!"))
  else if !c.allowEmpty && size == 0 then .error (invalid (noun ++ " cannot be empty!"))
  else if let some limit := c.min?.filter ((Double.ofNat size).lt ·) then
    .error (outside "Minimal" limit)
  else if let some limit := c.max?.filter (·.lt (.ofNat size)) then
    .error (outside "Maximal" limit)
  else .ok ()

/-- The limits, as the type tag gives them meaning: numbers are bounded themselves,
strings and lists by their length, and nothing else is bounded. -/
def checkBounds (c : Constraints) (tag : TypeTag) (v : Value) : Except Failure Unit :=
  if !c.hasBounds then .ok ()
  else if tag.isNumeric then v.number?.elim (.ok ()) (c.checkNumber v)
  else match tag with
    | .string => v.length?.elim (.ok ()) (c.checkLength "string" "String")
    | .array => v.length?.elim (.ok ()) (c.checkLength "array" "Array")
    | _ => .ok ()

def checkPattern (c : Constraints) (tag : TypeTag) (v : Value) : Except Failure Unit :=
  match tag, c.pattern?, v with
  | .string, some pattern, .string text =>
    if pattern.isMatch text then .ok () else .error (.here .pattern
      ("String '" ++ text ++ "' does not match pattern '/" ++ pattern.source ++ "/'!"))
  | _, _, _ => .ok ()

def checkEquality (c : Constraints) (v : Value) : Except Failure Unit :=
  match c.equals? with
  | some wanted =>
    if v.strictEq wanted then .ok () else .error (.here .equality
      ("Invalid property value! Expected value '" ++ wanted.literal ++ "', instead got '" ++
        v.literal ++ "'!"))
  | none => .ok ()

def preview (limit : Nat) (allowed : List Value) : String :=
  commaSeparated ((allowed.take limit).map (·.literal) ++
    if limit < allowed.length then ["..."] else [])

def checkEnumeration (c : Constraints) (previewLimit : Nat) (v : Value) : Except Failure Unit :=
  match c.contains? with
  | some allowed =>
    if allowed.any (v.strictEq ·) then .ok () else .error (.here .enumeration
      ("Invalid property value! Expected one of '" ++ preview previewLimit allowed ++
        "', instead got '" ++ v.literal ++ "'!"))
  | none => .ok ()

end Constraints

def TypeRules.checkClass (type : TypeRules) (v : Value) : Except Failure Unit :=
  match type.classes with
  | [] => .ok ()
  | classes =>
    match v.className? with
    | none => .error (.here .instanceMismatch
        "Invalid property instance! Cannot get instance name of the property!")
    | some className =>
      if classes.contains className then .ok () else .error (.here .instanceMismatch
        ("Invalid property instance! Expected '" ++ " | ".intercalate classes ++
          "', instead got '" ++ className ++ "'!"))

def Rules.absentExit? {ν : Type} (rules : Rules ν) : Value → Option Value
  | .undefined => if rules.optional then some (rules.default?.getD .undefined) else none
  | .null => if rules.nullable then some .null else none
  | _ => none

end Conform
