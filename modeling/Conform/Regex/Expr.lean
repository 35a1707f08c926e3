import Conform.Regex.CharSet

/-! Regular expressions and their meaning. A set of positions in a text is a number whose
bits are the positions, and an expression takes the positions where it may start to those
where it may end. -/

namespace Conform

abbrev Look := Option Char → Option Char → Bool

namespace Look

def textStart : Look := fun before _ => before.isNone

def textEnd : Look := fun _ after => after.isNone

def lineStart : Look := fun before _ => before.isNone || before == some '\n'

def lineEnd : Look := fun _ after => after.isNone || after == some '\n'

def crlfLineStart : Look := fun before after =>
  before.isNone || before == some '\n' || (before == some '\r' && after != some '\n')

def crlfLineEnd : Look := fun before after =>
  after.isNone || after == some '\r' || (after == some '\n' && before != some '\r')

def wordBoundary (word : CharSet) : Look := fun before after => before.any word != after.any word

def wordStart (word : CharSet) : Look := fun before after => !before.any word && after.any word

def wordEnd (word : CharSet) : Look := fun before after => before.any word && !after.any word

def wordStartHalf (word : CharSet) : Look := fun before _ => !before.any word

def wordEndHalf (word : CharSet) : Look := fun _ after => !after.any word

def not (look : Look) : Look := fun before after => !look before after

end Look

inductive Test where
  | set (members : CharSet)
  | look (condition : Look)

inductive Expr (α : Type) where
  | empty
  | none
  | step (a : α)
  | cat (first second : Expr α)
  | alt (first second : Expr α)
  /-- From `least` to `most` times in a row, or without an upper limit. -/
  | rep (body : Expr α) (least : Nat) (most : Option Nat)

/-- A step in a given text: it goes from the positions in `bits` over `width` characters. -/
structure Gate where
  bits : Nat
  width : Nat

namespace Test

def setBits (members : CharSet) : List Char → Nat
  | [] => 0
  | c :: rest => 2 * setBits members rest + if members c then 1 else 0

def lookBits (condition : Look) (before : Option Char) : List Char → Nat
  | [] => if condition before none then 1 else 0
  | c :: rest =>
    2 * lookBits condition (some c) rest + if condition before (some c) then 1 else 0

def gate (text : List Char) : Test → Gate
  | set members => ⟨setBits members text, 1⟩
  | look condition => ⟨lookBits condition none text, 0⟩

end Test

namespace Expr

variable {α β : Type}

def cats : List (Expr α) → Expr α
  | [] => empty
  | [e] => e
  | e :: rest => cat e (cats rest)

def alts : List (Expr α) → Expr α
  | [] => none
  | [e] => e
  | e :: rest => alt e (alts rest)

def map (f : α → β) : Expr α → Expr β
  | empty => empty
  | none => none
  | step a => step (f a)
  | cat first second => cat (first.map f) (second.map f)
  | alt first second => alt (first.map f) (second.map f)
  | rep body least most => rep (body.map f) least most

def iterate (change : Nat → Nat) : Nat → Nat → Nat
  | 0, positions => positions
  | count + 1, positions =>
    let next := change positions
    if next = positions then positions else iterate change count next

/-- The positions that an expression reaches from some positions of a text of `size`
characters. A repetition taken more often than there are positions reaches nothing new. -/
def reach (size : Nat) : Expr Gate → Nat → Nat
  | empty, positions => positions
  | none, _ => 0
  | step gate, positions => (positions &&& gate.bits) <<< gate.width
  | cat first second, positions => reach size second (reach size first positions)
  | alt first second, positions => reach size first positions ||| reach size second positions
  | rep body least most, positions =>
    let bound := size + 1
    let required := iterate (reach size body) (min least bound) positions
    let optional := most.elim bound fun most => min (most - least) bound
    iterate (fun reached => reached ||| reach size body reached) optional required

def occursIn (e : Expr Test) (text : String) : Bool :=
  let chars := text.toList
  let size := chars.length
  reach size (e.map (Test.gate chars)) (Nat.pow 2 (size + 1) - 1) != 0

end Expr

end Conform
