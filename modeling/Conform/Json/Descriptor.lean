import Conform.Json.Value
import Conform.Schema.Basic

/-! Schemas written as JSON documents. A document with `types` describes an alternation,
one with `properties` but no `type` a keyed shape, and any other object a typed node. The
fields are read in a fixed order, and the first one of the wrong form is the error. -/

namespace Conform

variable [RegexEngine]

namespace Descriptor

abbrev Result := Except SchemaError

def field? {α : Type} (read : Document → Option α) (form : FieldForm)
    (fields : List (String × Document)) (name : String) : Result (Option α) :=
  match fields.lookup name with
  | none => .ok none
  | some d =>
    match read d with
    | some a => .ok (some a)
    | none => .error (.invalidField name form)

def flag (fields : List (String × Document)) (name : String) (absent : Bool) : Result Bool :=
  return (← field? Document.bool? .boolean fields name).getD absent

def typeTag (fields : List (String × Document)) : Result TypeTag := do
  match ← field? Document.string? .string fields "type" with
  | none => return .any
  | some name =>
    match TypeTag.ofName? name with
    | some tag => return tag
    | none => .error (.unknownType name)

def classNames? (d : Document) : Option (List String) :=
  d.items?.bind (·.mapM Document.string?)

/-- A regular expression, written plainly or as a marker with flags. -/
def regex (source : String) : Result Regex :=
  match KeyPattern.ofMarker? source with
  | some p => p.compile
  | none => (Regex.compile source).mapError (.invalidRegex source)

def pattern? (fields : List (String × Document)) : Result (Option Regex) := do
  match ← field? Document.string? .string fields "match" with
  | none => return none
  | some source => return some (← regex source)

def rules {ν : Type} (fields : List (String × Document)) : Result (Rules ν) := do
  let nullable ← flag fields "nullable" false
  let optional ← flag fields "optional" false
  let allowEmpty ← flag fields "empty" true
  let min? ← field? Document.number? .number fields "min"
  let max? ← field? Document.number? .number fields "max"
  let length? ← field? Document.count? .count fields "length"
  let pattern? ← pattern? fields
  let allowed? ← field? Document.items? .array fields "contains"
  let equals? := (fields.lookup "equals").map Value.ofDocument
  return {
    nullable, optional
    default? := (fields.lookup "defaultValue").map Value.ofDocument
    constraints := {
      allowEmpty, min?, max?, length?, pattern?, equals?
      contains? := allowed?.map Value.ofItems } }

def ifPresent {α : Type} : Option (Result α) → Result (Option α)
  | none => .ok none
  | some result => some <$> result

def typed {ν : Type} (fields : List (String × Document))
    (items? : Option (Result (List (Schema ν))))
    (nested? : Option (Result (List (PropertyKey × Schema ν)))) : Result (Schema ν) := do
  let tag ← typeTag fields
  let instance? ← field? Document.string? .string fields "instance"
  let instances? ← field? classNames? .classNames fields "instances"
  let items? ← ifPresent items?
  let keepOrder ← flag fields "keepOrder" false
  let keepLength ← flag fields "keepLength" false
  let nested? ← ifPresent nested?
  let type := { tag, instance?, instances?, keepOrder, keepLength }
  return .typed (← rules fields) type items? nested?

variable {ν : Type}

mutual

def schema : Document → Result (Schema ν)
  | .object fields =>
    match listing? "types" fields, fields.lookup "type", properties? fields with
    | some members, _, _ => do
      let members ← members
      return .alternation (← rules fields) members
    | none, none, some properties => do
      let properties ← properties
      return .shape (← rules fields) properties
    | none, _, properties => typed fields (listing? "items" fields) properties
  | _ => .error .notAnObject

def listing? (name : String) : List (String × Document) → Option (Result (List (Schema ν)))
  | [] => none
  | (key, d) :: rest => if key = name then some (listing name d) else listing? name rest

def listing (name : String) : Document → Result (List (Schema ν))
  | .array items => schemas items
  | _ => .error (.invalidField name .descriptors)

def schemas : List Document → Result (List (Schema ν))
  | [] => return []
  | d :: rest => return (← schema d) :: (← schemas rest)

def properties? : List (String × Document) → Option (Result (List (PropertyKey × Schema ν)))
  | [] => none
  | (key, d) :: rest => if key = "properties" then some (properties d) else properties? rest

def properties : Document → Result (List (PropertyKey × Schema ν))
  | .object fields => entries fields
  | _ => .error (.invalidField "properties" .properties)

def entries : List (String × Document) → Result (List (PropertyKey × Schema ν))
  | [] => return []
  | (key, d) :: rest => do
    let s ← schema d
    return (PropertyKey.ofText key, s) :: (← entries rest)

end

end Descriptor

def Schema.ofDocument {ν : Type} (d : Document) : Except SchemaError (Schema ν) :=
  Descriptor.schema d

end Conform
