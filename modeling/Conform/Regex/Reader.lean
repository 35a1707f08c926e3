import Conform.Regex.Expr

/-! Reading the text of a pattern: what is left of it, the flags in force, and the
elementary steps. -/

namespace Conform

namespace Regex

inductive SyntaxError where
  | groupUnclosed | groupUnopened | groupName | lookAround
  | flagUnknown | flagRepeated | flagUnfinished
  | nothingToRepeat | countMalformed | countReversed
  | escapeUnfinished | escapeUnknown | backreference | codePoint | wordBoundary
  | classUnclosed | classItem | rangeReversed | propertyUnknown
  | partialCharacter
  | nestedTooDeep
deriving DecidableEq, Inhabited

structure Flags where
  ignoreCase : Bool := false
  multiLine : Bool := false
  dotAll : Bool := false
  crlf : Bool := false
  unicode : Bool := true
  verbose : Bool := false

namespace Flags

def switch? (flags : Flags) (letter : Char) (on : Bool) : Option Flags :=
  match letter with
  | 'i' => some { flags with ignoreCase := on }
  | 'm' => some { flags with multiLine := on }
  | 's' => some { flags with dotAll := on }
  | 'R' => some { flags with crlf := on }
  | 'u' => some { flags with unicode := on }
  | 'x' => some { flags with verbose := on }
  | 'U' => some flags
  | _ => none

def fold (flags : Flags) (s : CharSet) : CharSet :=
  if flags.ignoreCase then (if flags.unicode then s.folded else s.asciiFolded) else s

/-- Without the Unicode flag a set holds bytes, and a byte is a character only in ASCII. -/
def whole (flags : Flags) (s : CharSet) : Except SyntaxError CharSet :=
  if flags.unicode then .ok s
  else if (List.range 128).any fun n => s (Char.ofNat (128 + n)) then .error .partialCharacter
  else .ok (s.inter .ascii)

def finish (flags : Flags) (negated : Bool) (s : CharSet) : Except SyntaxError CharSet :=
  let s := flags.fold s
  flags.whole (if negated then s.compl else s)

def word (flags : Flags) : CharSet := if flags.unicode then Unicode.isWord else .asciiWord

end Flags

structure ReaderState where
  rest : List Char
  flags : Flags := {}
  names : List String := []

abbrev Reader := StateT ReaderState (Except SyntaxError)

def dropBlank (inComment : Bool) : List Char → List Char
  | [] => []
  | c :: rest =>
    if inComment then dropBlank (c != '\n') rest
    else if Unicode.isWhiteSpace c then dropBlank false rest
    else if c == '#' then dropBlank true rest
    else c :: rest

namespace Reader

def peek? : Reader (Option Char) := return (← get).rest.head?

def flags : Reader Flags := return (← get).flags

def setFlags (flags : Flags) : Reader Unit := modify ({ · with flags })

/-- As many steps as any loop over the rest of the text can take. -/
def fuel : Reader Nat := return (← get).rest.length + 1

def advance : Reader Unit := modify fun s => { s with rest := s.rest.tail }

def skipBlank : Reader Unit :=
  modify fun s => if s.flags.verbose then { s with rest := dropBlank false s.rest } else s

def advanceBlank : Reader Unit := advance *> skipBlank

def next (otherwise : SyntaxError) : Reader Char := do
  match ← peek? with
  | some c => pure c
  | none => throw otherwise

def braced (otherwise : SyntaxError) : Nat → List Char → Reader (List Char)
  | 0, _ => throw otherwise
  | fuel + 1, read => do
    let c ← next otherwise
    if c == '\x7d' then advance *> pure read.reverse
    else advanceBlank *> braced otherwise fuel (c :: read)

end Reader

end Regex

end Conform
