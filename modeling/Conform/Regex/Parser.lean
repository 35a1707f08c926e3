import Conform.Regex.Bracket

/-! Reading a whole pattern: elements, repetitions, groups and alternatives. Flags set in
a group hold to the end of that group, across its alternatives. -/

namespace Conform

namespace Regex

structure Part where
  expr : Expr Test
  height : Nat := 0
  /-- A switch of flags is a part that cannot be repeated. -/
  repeatable : Bool := true

namespace Part

def one (test : Test) : Part := ⟨.step test, 0, true⟩

def deepest (parts : List Part) : Nat := (parts.map (·.height)).foldl max 0

def sequence : List Part → Part
  | [part] => part
  | parts => ⟨.cats (parts.map (·.expr)), if parts.isEmpty then 0 else 1 + deepest parts, true⟩

def choice : List Part → Part
  | [part] => part
  | parts => ⟨.alts (parts.map (·.expr)), 1 + deepest parts, true⟩

def grouped (part : Part) : Part := ⟨part.expr, part.height + 1, true⟩

def repeated (least : Nat) (most : Option Nat) (part : Part) : Part :=
  ⟨.rep part.expr least most, part.height + 1, true⟩

end Part

inductive Opening where
  | switch (flags : Flags)
  | group (flags : Flags)

namespace Reader

def groupName : Nat → List Char → Reader String
  | 0, _ => throw .groupName
  | fuel + 1, read => do
    let c ← next .groupName
    if c == '>' then advance *> pure (String.ofList read.reverse)
    else if c == '_' || (if read.isEmpty then Unicode.isAlphabetic c
        else c == '.' || c == '[' || c == ']' || Unicode.isAlphanumeric c) then
      advance *> groupName fuel (c :: read)
    else throw .groupName

/-- The flags switched before a colon or a closing parenthesis, on, or off after the one
hyphen that is allowed. No letter is given twice. -/
def switches : Nat → List Char → Flags → Reader (List Char × Flags)
  | 0, _, _ => throw .flagUnfinished
  | fuel + 1, read, flags => do
    let c ← next .flagUnfinished
    if c == ':' || c == ')' then
      if read.head? == some '-' then throw .flagUnfinished
      return (read, flags)
    if read.contains c then throw .flagRepeated
    let flags ← if c == '-' then pure flags else
      match flags.switch? c (!read.contains '-') with
      | some flags => pure flags
      | none => throw .flagUnknown
    advance
    switches fuel (c :: read) flags

def opening : Reader Opening := do
  advanceBlank
  let s ← get
  let named (rest : List Char) : Reader Opening := do
    set { s with rest }
    let name ← groupName (← fuel) []
    if name.isEmpty || s.names.contains name then throw .groupName
    modify fun s => { s with names := name :: s.names }
    return .group s.flags
  match s.rest with
  | '?' :: '=' :: _ | '?' :: '!' :: _ | '?' :: '<' :: '=' :: _ | '?' :: '<' :: '!' :: _ =>
    throw .lookAround
  | '?' :: 'P' :: '<' :: rest | '?' :: '<' :: rest => named rest
  | '?' :: _ =>
    advance
    let (read, flags) ← switches (← fuel) [] s.flags
    if (← next .groupUnclosed) == ':' then
      advance
      return .group flags
    if read.isEmpty then throw .nothingToRepeat
    advance
    return .switch flags
  | _ => return .group s.flags

def digits : Nat → List Char → Reader (List Char)
  | 0, read => pure read.reverse
  | fuel + 1, read => do
    match ← peek? with
    | some c =>
      if c.isDigit then advanceBlank *> digits fuel (c :: read) else pure read.reverse
    | none => pure read.reverse

def skipSpaces : Reader Unit :=
  modify fun s => { s with rest := s.rest.dropWhile Unicode.isWhiteSpace }

def count : Reader Nat := do
  skipSpaces
  let written ← digits (← fuel) []
  skipSpaces *> skipBlank
  let value := written.foldl (fun n c => 10 * n + (c.toNat - 48)) 0
  if written.isEmpty || Nat.pow 2 32 ≤ value then throw .countMalformed
  return value

def counts : Reader (Nat × Option Nat) := do
  advanceBlank
  let _ ← next .countMalformed
  let least ← count
  let most ← if (← next .countMalformed) == ',' then
      advanceBlank
      if (← next .countMalformed) == '\x7d' then pure none else some <$> count
    else pure (some least)
  unless (← peek?) == some '\x7d' do throw .countMalformed
  advanceBlank
  if most.any (· < least) then throw .countReversed
  return (least, most)

/-- A question mark after a repetition asks for the shortest match, which does not change
whether there is a match. -/
def skipLazy : Reader Unit := do
  if (← peek?) == some '?' then advance

def element (c : Char) : Reader Part := do
  let flags ← flags
  match c with
  | '\\' =>
    match ← escape with
    | .char c byte =>
      if byte && !flags.unicode && 128 ≤ c.toNat then throw .partialCharacter
      return .one (.set (flags.fold (.single c)))
    | .test t => return .one t
  | '.' =>
    advance
    unless flags.unicode do throw .partialCharacter
    let ends : CharSet := if flags.dotAll then .empty
      else if flags.crlf then (CharSet.single '\n').union (.single '\r')
      else .single '\n'
    return .one (.set ends.compl)
  | '^' =>
    advance
    return .one (.look (if !flags.multiLine then .textStart
      else if flags.crlf then .crlfLineStart else .lineStart))
  | '$' =>
    advance
    return .one (.look (if !flags.multiLine then .textEnd
      else if flags.crlf then .crlfLineEnd else .lineEnd))
  | c =>
    advance
    return .one (.set (flags.fold (.single c)))

/-- Alternatives up to the end of the text or the end of the group. The parts of the
present alternative and the alternatives before it are given last first. -/
def alternatives : Nat → List Part → List Part → Reader Part
  | 0, _, _ => throw .nestedTooDeep
  | fuel + 1, parts, before => do
    skipBlank
    let repeatLast (read : Reader (Nat × Option Nat)) : Reader Part := do
      match parts with
      | [] => throw .nothingToRepeat
      | part :: rest =>
        unless part.repeatable do throw .nothingToRepeat
        let (least, most) ← read
        skipLazy
        alternatives fuel (part.repeated least most :: rest) before
    let finished : List Part := .sequence parts.reverse :: before
    match ← peek? with
    | none | some ')' => return .choice finished.reverse
    | some '|' => advance *> alternatives fuel [] finished
    | some '?' => repeatLast (advance *> pure (0, some 1))
    | some '*' => repeatLast (advance *> pure (0, none))
    | some '+' => repeatLast (advance *> pure (1, none))
    | some '\x7b' => repeatLast counts
    | some '[' =>
      let part ← bracket
      alternatives fuel (⟨.step (.set part.members), part.height, true⟩ :: parts) before
    | some '(' =>
      match ← opening with
      | .switch flags =>
        setFlags flags
        alternatives fuel (⟨.empty, 0, false⟩ :: parts) before
      | .group inside =>
        let outside ← flags
        setFlags inside
        let part ← alternatives fuel [] []
        let _ ← next .groupUnclosed
        setFlags outside
        advance
        alternatives fuel (part.grouped :: parts) before
    | some c => alternatives fuel ((← element c) :: parts) before

end Reader

def nestLimit : Nat := 250

def parse (source : String) : Except SyntaxError (Expr Test) := do
  let chars := source.toList
  let (part, s) ← (Reader.alternatives (chars.length + 1) [] []).run { rest := chars }
  unless s.rest.isEmpty do throw .groupUnopened
  if nestLimit < part.height then throw .nestedTooDeep
  return part.expr

end Regex

end Conform
