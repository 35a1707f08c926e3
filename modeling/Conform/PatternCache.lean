import Conform.KeyPattern

/-! A memo of compiled key patterns, each under the text of its marker. -/

namespace Conform

variable [RegexEngine]

structure PatternCache where
  compiled : List (String × Regex) := []

namespace PatternCache

def size (cache : PatternCache) : Nat := cache.compiled.length

def isEmpty (cache : PatternCache) : Bool := cache.compiled.isEmpty

def find? (cache : PatternCache) (marker : String) : Option Regex :=
  cache.compiled.lookup marker

/-- The pattern from the memo, or compiled and kept; a pattern that does not compile is
not kept. -/
def compile (p : KeyPattern) : StateM PatternCache (Except SchemaError Regex) := do
  match (← get).find? p.marker with
  | some regex => return .ok regex
  | none =>
    match p.compile with
    | .ok regex =>
      modify fun cache => ⟨cache.compiled ++ [(p.marker, regex)]⟩
      return .ok regex
    | .error e => return .error e

end PatternCache

end Conform
