import Conform.Value.Basic
import Conform.Number.Style

/-! Two texts of a value for messages: its shape, which names kinds, and its literal,
which shows the data. -/

namespace Conform

def commaSeparated (parts : List String) : String := ", ".intercalate parts

namespace Value

mutual

/-- The kinds of a value and of its parts; an instance shows its class alone. -/
def shape : Value → String
  | list items => "[" ++ commaSeparated (shapes items) ++ "]"
  | object fields => "\x7b" ++ commaSeparated (fieldShapes fields) ++ "\x7d"
  | instanceOf className _ => className
  | v => v.kindName

def shapes : List Value → List String
  | [] => []
  | v :: rest => shape v :: shapes rest

def fieldShapes : List (String × Value) → List String
  | [] => []
  | (key, v) :: rest => (key ++ ": " ++ shape v) :: fieldShapes rest

end

def escape (s : String) : String :=
  String.ofList (s.toList.flatMap fun c => if c = '\\' ∨ c = '"' then ['\\', c] else [c])

mutual

def literal : Value → String
  | undefined => "undefined"
  | null => "null"
  | bool b => if b then "true" else "false"
  | int i => toString i.toInt
  | float x => x.text .literal
  | bigInt i => toString i ++ "n"
  | string s => "\"" ++ escape s ++ "\""
  | symbol description => "Symbol(" ++ description ++ ")"
  | function name => "[Function: " ++ name ++ "]"
  | list items => "[" ++ commaSeparated (literals items) ++ "]"
  | object fields => "\x7b" ++ commaSeparated (fieldLiterals fields) ++ "\x7d"
  | instanceOf className _ => "[object " ++ className ++ "]"

def literals : List Value → List String
  | [] => []
  | v :: rest => literal v :: literals rest

def fieldLiterals : List (String × Value) → List String
  | [] => []
  | (key, v) :: rest => (key ++ ": " ++ literal v) :: fieldLiterals rest

end

end Value

end Conform
