import Conform.Regex.Basic
import Conform.SchemaError

/-! Keys written as `/pattern/flags`, which stand for every key that the pattern matches. -/

namespace Conform

def markerFlags : List Char := "dgimsuyv".toList

structure KeyPattern where
  body : String
  flags : String
  body_ne_empty : body ≠ ""
  flags_known : flags.toList.all markerFlags.contains = true
deriving DecidableEq

namespace KeyPattern

def marker (p : KeyPattern) : String := "/" ++ p.body ++ "/" ++ p.flags

/-- The marker that a key is, if it is one: its last slash separates a body that is not
empty from flags. -/
def ofMarker? (key : String) : Option KeyPattern :=
  match key.toList with
  | '/' :: rest =>
    let flags := String.ofList (rest.reverse.takeWhile (· != '/')).reverse
    let body := String.ofList (rest.reverse.dropWhile (· != '/')).tail.reverse
    if h : body ≠ "" ∧ flags.toList.all markerFlags.contains = true then
      some ⟨body, flags, h.1, h.2⟩
    else none
  | _ => none

/-- The text to compile: of the flags, `i`, `m` and `s` change what matches, and they are
put in front as they are written. -/
def expression (p : KeyPattern) : String :=
  let inline := p.flags.toList.filter fun c => c == 'i' || c == 'm' || c == 's'
  if inline.isEmpty then p.body else "(?" ++ String.ofList inline ++ ")" ++ p.body

def compile [RegexEngine] (p : KeyPattern) : Except SchemaError Regex :=
  (Regex.compile p.expression).mapError (.invalidRegex p.marker)

end KeyPattern

inductive PropertyKey where
  | literal (name : String)
  | pattern (p : KeyPattern)
deriving DecidableEq

namespace PropertyKey

def ofText (text : String) : PropertyKey :=
  match KeyPattern.ofMarker? text with
  | some p => pattern p
  | none => literal text

def text : PropertyKey → String
  | literal name => name
  | pattern p => "[" ++ p.marker ++ "]"

end PropertyKey

end Conform
