import Conform.Unicode.CategoryRuns

/-! General categories of characters and the classes built from them. -/

namespace Conform

namespace Unicode

inductive Category where
  | lu | ll | lt | lm | lo | mn | mc | me | nd | nl | no | pc | pd | ps | pe | pi | pf | po
  | sm | sc | sk | so | zs | zl | zp | cc | cf | cs | co | cn
deriving DecidableEq, Inhabited

namespace Category

def inOrder : Array Category :=
  #[lu, ll, lt, lm, lo, mn, mc, me, nd, nl, no, pc, pd, ps, pe, pi, pf, po, sm, sc, sk, so,
    zs, zl, zp, cc, cf, cs, co, cn, mn, mc, so]

def isLetter (category : Category) : Bool := [lu, ll, lt, lm, lo].contains category

def isMark (category : Category) : Bool := [mn, mc, me].contains category

def isNumber (category : Category) : Bool := [nd, nl, no].contains category

end Category

structure Traits where
  category : Category
  alphabetic : Bool
deriving Inhabited

/-- The traits that a letter stands for. The last three letters stand for marks and
symbols that are alphabetic. -/
def Traits.ofLetter (letter : Char) : Traits :=
  let index := if letter.isLower then letter.toNat - 97 else letter.toNat - 65 + 26
  let category := Category.inOrder.getD index .cn
  ⟨category, category.isLetter || category == .nl || decide (30 ≤ index)⟩

def traitRuns : Array (Nat × Traits) :=
  let step (state : Nat × Nat × Array (Nat × Traits)) (c : Char) :=
    let (start, length, runs) := state
    if c.isDigit then (start, 10 * length + (c.toNat - 48), runs)
    else (start + max length 1, 0, runs.push (start, Traits.ofLetter c))
  (categoryRuns.foldl (fun state line => line.toList.foldl step state) (0, 0, #[])).2.2

/-- The last index from `low` on whose run starts at `code` or before, found by halving
the indices between `low` and `high`. -/
def runIndex (code : Nat) : Nat → Nat → Nat → Nat
  | 0, low, _ => low
  | fuel + 1, low, high =>
    if high ≤ low + 1 then low else
      let middle := (low + high) / 2
      if (traitRuns.getD middle default).1 ≤ code then runIndex code fuel middle high
      else runIndex code fuel low middle

def traits (c : Char) : Traits :=
  (traitRuns.getD (runIndex c.toNat traitRuns.size 0 traitRuns.size) default).2

def category (c : Char) : Category := (traits c).category

def isAlphabetic (c : Char) : Bool := (traits c).alphabetic

def isAlphanumeric (c : Char) : Bool :=
  let t := traits c
  t.alphabetic || t.category.isNumber

def isDigit (c : Char) : Bool := category c == .nd

def isWord (c : Char) : Bool :=
  let t := traits c
  t.alphabetic || t.category.isMark || t.category == .nd || t.category == .pc
    || c == '\u200c' || c == '\u200d'

def isWhiteSpace (c : Char) : Bool :=
  let n := c.toNat
  (9 ≤ n && n ≤ 13) || n == 32 || n == 0x85 || n == 0xa0 || n == 0x1680
    || (0x2000 ≤ n && n ≤ 0x200a) || n == 0x2028 || n == 0x2029 || n == 0x202f
    || n == 0x205f || n == 0x3000

end Unicode

end Conform
