import Conform.Regex.Reader

/-! Escapes: what a backslash and the characters after it stand for. -/

namespace Conform

namespace Regex

inductive Atom where
  /-- A character; `byte` tells that it was written as two hexadecimal digits. -/
  | char (c : Char) (byte : Bool)
  | test (t : Test)

def Atom.set (members : CharSet) : Atom := .test (.set members)

def Atom.look (condition : Look) : Atom := .test (.look condition)

def hexValue? (c : Char) : Option Nat :=
  if c.isDigit then some (c.toNat - 48)
  else if 'a' ≤ c && c ≤ 'f' then some (c.toNat - 87)
  else if 'A' ≤ c && c ≤ 'F' then some (c.toNat - 55)
  else none

def splitFirst? (separator : List Char) : List Char → Option (List Char × List Char)
  | [] => none
  | c :: rest =>
    if separator.isPrefixOf (c :: rest) then some ([], (c :: rest).drop separator.length)
    else (splitFirst? separator rest).map fun (before, after) => (c :: before, after)

/-- The class that a text between braces names, and whether its complement is meant. A
property is separated from its value by `!=`, `:` or `=`. -/
def namedProperty? (name : List Char) : Option (CharSet × Bool) :=
  let valued (parts : List Char × List Char) :=
    Unicode.valueClass? (String.ofList parts.1) (String.ofList parts.2)
  match splitFirst? ['!', '='] name with
  | some parts => (valued parts).map (·, true)
  | none =>
    match splitFirst? [':'] name <|> splitFirst? ['='] name with
    | some parts => (valued parts).map (·, false)
    | none => (Unicode.namedClass? (String.ofList name)).map (·, false)

def character (code : Nat) : Except SyntaxError Char :=
  if h : code.isValidChar then .ok (Char.ofNatAux code h) else .error .codePoint

namespace Reader

def hexDigits : Nat → Nat → Reader Nat
  | 0, value => pure value
  | count + 1, value => do
    match hexValue? (← next .escapeUnfinished) with
    | some digit => advanceBlank *> hexDigits count (16 * value + digit)
    | none => throw .codePoint

def hexEscape (digits : Nat) : Reader Atom := do
  advanceBlank
  if (← next .escapeUnfinished) == '\x7b' then
    advanceBlank
    let written ← braced .escapeUnfinished (← fuel) []
    match written.mapM hexValue? with
    | none | some [] => throw .codePoint
    | some values => return .char (← character (values.foldl (16 * · + ·) 0)) false
  else
    return .char (← character (← hexDigits digits 0)) (digits == 2)

def propertyEscape (negated : Bool) : Reader Atom := do
  advanceBlank
  let c ← next .escapeUnfinished
  let name ← if c == '\x7b' then advanceBlank *> braced .escapeUnfinished (← fuel) []
    else if c == '\\' then throw .propertyUnknown
    else advanceBlank *> pure [c]
  let flags ← flags
  unless flags.unicode do throw .partialCharacter
  match namedProperty? name with
  | some (members, differs) => return .set (← flags.finish (negated != differs) members)
  | none => throw .propertyUnknown

def classEscape (letter : Char) : Reader Atom := do
  advance
  let flags ← flags
  let s : CharSet := match letter.toLower with
    | 'd' => if flags.unicode then Unicode.isDigit else .asciiDigit
    | 's' => if flags.unicode then Unicode.isWhiteSpace else .asciiSpace
    | _ => flags.word
  return .set (← flags.whole (if letter.isUpper then s.compl else s))

def boundaryName : Nat → List Char → Reader String
  | 0, read => pure (String.ofList read.reverse)
  | fuel + 1, read => do
    match ← peek? with
    | some c =>
      if c.isAlpha || c == '-' then advanceBlank *> boundaryName fuel (c :: read)
      else pure (String.ofList read.reverse)
    | none => pure (String.ofList read.reverse)

/-- A word boundary, or a special one if a name in braces follows. What follows in braces
may also be a count, and then it is left to be read as one. -/
def boundaryEscape : Reader Atom := do
  let word := (← flags).word
  let plain : Atom := .look (.wordBoundary word)
  unless (← peek?) == some '\x7b' do return plain
  let saved ← get
  advanceBlank
  let c ← next .wordBoundary
  unless c.isAlpha || c == '-' do
    set saved
    return plain
  let name ← boundaryName (← fuel) []
  unless (← peek?) == some '\x7d' do throw .wordBoundary
  advance
  match name with
  | "start" => return .look (.wordStart word)
  | "end" => return .look (.wordEnd word)
  | "start-half" => return .look (.wordStartHalf word)
  | "end-half" => return .look (.wordEndHalf word)
  | _ => throw .wordBoundary

def escape : Reader Atom := do
  advance
  let c ← next .escapeUnfinished
  let literal (c : Char) : Reader Atom := advance *> pure (.char c false)
  let look (condition : Look) : Reader Atom := advance *> pure (.look condition)
  let word := (← flags).word
  match c with
  | 'x' => hexEscape 2
  | 'u' => hexEscape 4
  | 'U' => hexEscape 8
  | 'p' => propertyEscape false
  | 'P' => propertyEscape true
  | 'd' | 's' | 'w' | 'D' | 'S' | 'W' => classEscape c
  | 'a' => literal '\x07'
  | 'f' => literal '\x0c'
  | 't' => literal '\t'
  | 'n' => literal '\n'
  | 'r' => literal '\r'
  | 'v' => literal '\x0b'
  | 'A' => look .textStart
  | 'z' => look .textEnd
  | 'b' => advance *> boundaryEscape
  | 'B' => look (.not (.wordBoundary word))
  | '<' => look (.wordStart word)
  | '>' => look (.wordEnd word)
  | _ =>
    if c.isDigit then throw .backreference
    else if c.toNat < 128 && !c.isAlpha then literal c
    else throw .escapeUnknown

end Reader

end Regex

end Conform
