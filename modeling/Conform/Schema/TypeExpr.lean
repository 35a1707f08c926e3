import Conform.Schema.Basic
import Conform.Value.Entries
import Conform.Value.Text

/-! Schemas as type expressions, such as an object type that lists its properties. -/

namespace Conform

variable [RegexEngine]

namespace TypeExpr

def union (alternatives : List String) : String := " | ".intercalate alternatives

def braces (properties : List String) : String :=
  "\x7b" ++ commaSeparated properties ++ "\x7d"

/-- The type of a list with elements of the given types. By position, the list of types
is open unless the length is fixed; otherwise the number shown for a fixed length is at
least the lower limit. -/
def ofList (type : TypeRules) (constraints : Constraints) (elements : List String) : String :=
  if type.keepOrder then
    "[" ++ commaSeparated (elements ++ if type.keepLength then [] else ["..."]) ++ "]"
  else
    let alternatives := distinct elements
    let element := union alternatives
    let element := if 1 < alternatives.length then "(" ++ element ++ ")" else element
    let size := if type.keepLength then
        toString (max elements.length (constraints.min?.elim 0 Double.wholePart))
      else ""
    element ++ "[" ++ size ++ "]"

def ofTag (type : TypeRules) : String :=
  match type.classes with
  | [] => type.tag.name
  | classes => union (classes.map fun c =>
      if type.tag = .any then c else type.tag.name ++ " & " ++ c)

/-- A property; one that may be left out has a question mark in place of the alternative
`undefined`. -/
def property (key : PropertyKey) (optional : Bool) (alternatives : List String) : String :=
  if optional then
    key.text ++ "?: " ++ if alternatives.isEmpty then "undefined" else union alternatives
  else key.text ++ ": " ++ union alternatives

end TypeExpr

namespace Schema

variable {ν : Type}

def orNull (rules : Rules ν) (alternatives : List String) : List String :=
  if rules.nullable then alternatives ++ ["null"] else alternatives

def orUndefined (rules : Rules ν) (alternatives : List String) : List String :=
  if rules.optional then alternatives ++ ["undefined"] else alternatives

mutual

def presentTypes : Schema ν → List String
  | shape rules properties => orNull rules [TypeExpr.braces (propertyTypes properties)]
  | alternation rules members => orNull rules (distinct (typeExprs members))
  | typed rules type items? nested? =>
    orNull rules [match nested? with
      | some properties => TypeExpr.braces (propertyTypes properties)
      | none =>
        if type.tag = .array then
          TypeExpr.ofList type rules.constraints (match items? with
            | some items => typeExprs items
            | none => ["any"])
        else TypeExpr.ofTag type]

def typeExprs : List (Schema ν) → List String
  | [] => []
  | s :: rest => TypeExpr.union (orUndefined s.rules (presentTypes s)) :: typeExprs rest

def propertyTypes : List (PropertyKey × Schema ν) → List String
  | [] => []
  | (key, s) :: rest =>
    TypeExpr.property key s.rules.optional (presentTypes s) :: propertyTypes rest

end

def typeExpr (s : Schema ν) : String := TypeExpr.union (orUndefined s.rules (presentTypes s))

def properties? : Schema ν → Option (List (PropertyKey × Schema ν))
  | shape _ properties => some properties
  | alternation _ _ => none
  | typed _ _ _ nested? => nested?

end Schema

end Conform
