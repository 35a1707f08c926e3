import Conform.Regex.Escape

/-! Classes in brackets: members, ranges, named classes, nested classes, and the
operations that combine two classes. -/

namespace Conform

namespace Regex

structure ClassPart where
  members : CharSet
  height : Nat := 0

inductive ClassOp where
  | intersection | difference | symmetricDifference

def ClassOp.apply : ClassOp → CharSet → CharSet → CharSet
  | intersection => .inter
  | difference => .diff
  | symmetricDifference => .symmDiff

namespace ClassPart

def union : List ClassPart → ClassPart
  | [] => ⟨.empty, 0⟩
  | [part] => part
  | parts => ⟨.unions (parts.map (·.members)), 1 + (parts.map (·.height)).foldl max 0⟩

/-- What stands left of an operation, combined with the parts right of it. Operations
apply from left to right. -/
def combine (flags : Flags) (left : Option (ClassOp × ClassPart)) (parts : List ClassPart) :
    ClassPart :=
  let right := union parts
  match left with
  | none => right
  | some (op, left) =>
    ⟨op.apply (flags.fold left.members) (flags.fold right.members),
      1 + max left.height right.height⟩

end ClassPart

def namedClass? : List Char → Option (CharSet × Bool × List Char)
  | '[' :: ':' :: rest =>
    let (negated, rest) := match rest with
      | '^' :: rest => (true, rest)
      | rest => (false, rest)
    let name := rest.takeWhile (· != ':')
    match rest.dropWhile (· != ':') with
    | ':' :: ']' :: rest => (CharSet.named? (String.ofList name)).map (·, negated, rest)
    | _ => none
  | _ => none

def following? (verbose : Bool) (rest : List Char) : Option Char :=
  let blanksDropped (text : List Char) := text.dropWhile Unicode.isWhiteSpace
  if verbose then
    match blanksDropped rest.tail with
    | '#' :: comment => (blanksDropped comment).head?
    | text => text.head?
  else rest.tail.head?

namespace Reader

def classAtom : Reader Atom := do
  let c ← next .classUnclosed
  if c == '\\' then escape else advance *> pure (.char c false)

def member (c : Char) (byte : Bool) : Reader Char := do
  if (← flags).unicode || byte || c.toNat < 128 then pure c else throw .partialCharacter

/-- A range, or the class of a single element. A hyphen before a closing bracket or
another hyphen does not make a range. -/
def classRange : Reader ClassPart := do
  let first ← classAtom
  skipBlank
  let c ← next .classUnclosed
  let s ← get
  let after := following? s.flags.verbose s.rest
  if c != '-' || after == some ']' || after == some '-' then
    match first with
    | .char c byte => return ⟨.single (← member c byte), 0⟩
    | .test (.set members) => return ⟨members, 0⟩
    | .test (.look _) => throw .classItem
  else
    advanceBlank
    match first, ← classAtom with
    | .char low lowByte, .char high highByte =>
      if high < low then throw .rangeReversed
      return ⟨.range (← member low lowByte) (← member high highByte), 0⟩
    | _, _ => throw .classItem

def leadingHyphens : Nat → List ClassPart → Reader (List ClassPart)
  | 0, parts => pure parts
  | fuel + 1, parts => do
    if (← peek?) == some '-' then
      advanceBlank *> leadingHyphens fuel (⟨.single '-', 0⟩ :: parts)
    else pure parts

/-- The start of a class: a caret negates it, and hyphens at the front or else a closing
bracket at the front are members. -/
def openClass : Reader (Bool × List ClassPart) := do
  advanceBlank
  let negated := (← peek?) == some '^'
  if negated then advanceBlank
  let hyphens ← leadingHyphens (← fuel) []
  if hyphens.isEmpty && (← peek?) == some ']' then
    advanceBlank
    return (negated, [⟨.single ']', 0⟩])
  return (negated, hyphens)

def classParts :
    Nat → Option (ClassOp × ClassPart) → List ClassPart → Reader ClassPart
  | 0, _, _ => throw .classUnclosed
  | fuel + 1, left, parts => do
    skipBlank
    let c ← next .classUnclosed
    let s ← get
    let operation (op : ClassOp) : Reader ClassPart := do
      advance
      advance
      classParts fuel (some (op, .combine s.flags left parts)) []
    match c, s.rest.tail.head? with
    | ']', _ => advance *> pure (.combine s.flags left parts)
    | '&', some '&' => operation .intersection
    | '-', some '-' => operation .difference
    | '~', some '~' => operation .symmetricDifference
    | '[', _ =>
      match namedClass? s.rest with
      | some (named, negated, rest) =>
        set { s with rest }
        classParts fuel left (⟨← s.flags.finish negated named, 0⟩ :: parts)
      | none =>
        let (negated, first) ← openClass
        let inner ← classParts fuel none first
        let members ← s.flags.finish negated inner.members
        classParts fuel left (⟨members, inner.height + 1⟩ :: parts)
    | _, _ => classParts fuel left ((← classRange) :: parts)

def bracket : Reader ClassPart := do
  let (negated, first) ← openClass
  let inner ← classParts (← fuel) none first
  return ⟨← (← flags).finish negated inner.members, inner.height + 1⟩

end Reader

end Regex

end Conform
