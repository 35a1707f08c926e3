import Conform.Config
import Conform.Schema.TypeExpr
import Conform.Validation.Rules
import Conform.Fields

/-! Checking a value against a schema. A check takes a value to the matched value or to
the first failure. Key patterns are compiled by an action of the caller, so that the same
checks run with and without a memo of compiled patterns. -/

namespace Conform

variable [RegexEngine]

/-- What the names of custom rules mean: a value and the node that carries the rule have an
outcome. -/
abbrev CustomRules (ν : Type) := ν → Value → Schema ν → Outcome

structure Context (m : Type → Type) (ν : Type) where
  config : Config
  compile : KeyPattern → m (Except SchemaError Regex)
  custom : CustomRules ν

abbrev Check (m : Type → Type) := Value → ExceptT Failure m Value

def store (fields : List (String × Value)) (key : String) (v : Value) : List (String × Value) :=
  if v.isUndefined then fields else Fields.put key v fields

variable {m : Type → Type} [Monad m] {ν : Type}

namespace Check

def field (check : Check m) (matched : List (String × Value)) (entry : String × Value) :
    ExceptT Failure m (List (String × Value)) := do
  let output ← ExceptT.adapt (·.within entry.1) (check entry.2)
  return store matched entry.1 output

/-- The first check that accepts decides, and so does a fatal failure; otherwise the last
failure counts. -/
def firstOf (last : Failure) : List (Check m) → Check m
  | [], _ => throw last
  | check :: rest, v =>
    tryCatch (check v) fun f => if f.isFatal then throw f else firstOf f rest v

end Check

namespace Context

def guarded (ctx : Context m ν) (depth : Nat) (check : Check m) : Check m := fun v =>
  if ctx.config.maxDepth < depth then
    throw (.here .depthExceeded
      ("Maximum schema depth of '" ++ toString ctx.config.maxDepth ++ "' exceeded!"))
  else check v

/-- The last rules of every node: equality, enumeration, then the custom rule, whose
answer stands. -/
def valueRules (ctx : Context m ν) (schema : Schema ν) : Check m := fun v => do
  schema.rules.constraints.checkEquality v
  schema.rules.constraints.checkEnumeration ctx.config.enumPreview v
  match schema.rules.custom? with
  | some rule => ctx.custom rule v schema
  | none => return v

def patternFields (ctx : Context m ν) (p : KeyPattern) (check : Check m)
    (fields matched : List (String × Value)) : ExceptT Failure m (List (String × Value)) := do
  let token := (PropertyKey.pattern p).text
  match ← (ctx.compile p : m _) with
  | .error e => throw ⟨.invalidKeyPattern, "Invalid key pattern! " ++ e.message, [token]⟩
  | .ok regex =>
    match fields.filter (regex.isMatch ·.1) with
    | [] =>
      let missing : Failure :=
        ⟨.missingKey, "No keys matching pattern '" ++ p.marker ++ "' found!", [token]⟩
      let _ ← ExceptT.adapt (fun f => if f.isFatal then f.within token else missing)
        (check .undefined)
      return matched
    | selected => selected.foldlM check.field matched

def properties (ctx : Context m ν) (entries : List (PropertyKey × Check m))
    (fields : List (String × Value)) : ExceptT Failure m (List (String × Value)) :=
  entries.foldlM (fun matched (key, check) =>
    match key with
    | .literal name => check.field matched (name, (fields.lookup name).getD .undefined)
    | .pattern p => ctx.patternFields p check fields matched) []

def shape (ctx : Context m ν) (schema : Schema ν) (entries : List (PropertyKey × Check m)) :
    Check m := fun v =>
  match schema.rules.absentExit? v with
  | some exit => return exit
  | none =>
    match v.fields? with
    | none => throw (.here .objectShape
        ("Expected '" ++ schema.typeExpr ++ "', instead got '" ++ v.shape ++ "'!"))
    | some fields => do
      let matched ← ctx.properties entries fields
      ctx.valueRules schema (v.withFields matched)

def alternation (ctx : Context m ν) (schema : Schema ν) (members : List (Check m)) :
    Check m := fun v =>
  match schema.rules.absentExit? v with
  | some exit => return exit
  | none => do
    let matched ← ExceptT.adapt
      (fun f => if f.isFatal then f else .here .typeMismatch
        ("Invalid property type! Expected '" ++ schema.typeExpr ++ "', instead got '" ++
          v.shape ++ "'!"))
      (Check.firstOf (.here .typeMismatch "") members v)
    ctx.valueRules schema matched

/-- The check of the element at a position. By position, elements past the last schema
pass as they are. -/
def element (keepOrder : Bool) (items : List (Check m)) (index : Nat) : Check m :=
  if keepOrder then (items[index]?).getD pure
  else Check.firstOf (.here .arrayElement "No item schemas accept the element!") items

def elements (type : TypeRules) (items : List (Check m)) : Check m
  | .list xs =>
    if type.keepLength && xs.length != items.length then
      throw (.here .arrayLength
        ("Invalid number of elements in array! Expected '" ++ toString items.length ++
          "' items, instead got '" ++ toString xs.length ++ "'!"))
    else do
      let matched ← xs.zipIdx.mapM fun (x, index) =>
        ExceptT.adapt (fun f => (f.within ("[" ++ toString index ++ "]")).relabelled
          .arrayElement "Invalid type of element in array!") (element type.keepOrder items index x)
      return .list matched
  | v => return v

def nestedShape (ctx : Context m ν) (declared : List (PropertyKey × Schema ν))
    (entries : List (PropertyKey × Check m)) : Check m := fun v =>
  let heading := "Object does not match the schema!"
  match v.fields? with
  | none => throw (.here .objectShape
      (heading ++ " Expected '" ++ TypeExpr.braces (Schema.propertyTypes declared) ++
        "', instead got '" ++ v.shape ++ "'!"))
  | some fields => do
    let matched ← ExceptT.adapt (·.relabelled .objectShape heading)
      (ctx.properties entries fields)
    return v.withFields matched

/-- A typed node. Only a value of another type may take the exit of absent values; the
rules of the type come before the nested shape. -/
def typed (ctx : Context m ν) (schema : Schema ν) (type : TypeRules) (items : List (Check m))
    (nested? : Option (Check m)) : Check m := fun v =>
  if type.tag.accepts v then do
    schema.rules.constraints.checkBounds type.tag v
    schema.rules.constraints.checkPattern type.tag v
    type.checkClass v
    let listed ← if type.tag = .array then elements type items v else pure v
    let shaped ← nested?.elim (pure listed) (· listed)
    ctx.valueRules schema shaped
  else
    match schema.rules.absentExit? v with
    | some exit => return exit
    | none => throw (typeMismatch type.tag v)

def anyCheck (ctx : Context m ν) (depth : Nat) : Check m :=
  ctx.guarded depth (ctx.typed .any { tag := .any } [] none)

mutual

/-- The check that a schema stands for at a depth. Members, properties and elements are
one level deeper, and the properties of a nested shape two. -/
def check (ctx : Context m ν) : Schema ν → Nat → Check m
  | .shape rules entries, depth =>
    ctx.guarded depth (ctx.shape (.shape rules entries) (checkEntries ctx entries (depth + 1)))
  | .alternation rules members, depth =>
    ctx.guarded depth
      (ctx.alternation (.alternation rules members) (checkAll ctx members (depth + 1)))
  | .typed rules type items? nested?, depth =>
    ctx.guarded depth (ctx.typed (.typed rules type items? nested?) type
      (match items? with
        | some items => checkAll ctx items (depth + 1)
        | none => [anyCheck ctx (depth + 1)])
      (match nested? with
        | some entries => some (ctx.nestedShape entries (checkEntries ctx entries (depth + 2)))
        | none => none))

def checkAll (ctx : Context m ν) : List (Schema ν) → Nat → List (Check m)
  | [], _ => []
  | s :: rest, depth => check ctx s depth :: checkAll ctx rest depth

def checkEntries (ctx : Context m ν) :
    List (PropertyKey × Schema ν) → Nat → List (PropertyKey × Check m)
  | [], _ => []
  | (key, s) :: rest, depth => (key, check ctx s depth) :: checkEntries ctx rest depth

end

end Context

end Conform
