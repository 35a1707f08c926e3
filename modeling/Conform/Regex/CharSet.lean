import Conform.Unicode.Property
import Conform.Unicode.CaseOrbit

/-! Sets of characters by membership. -/

namespace Conform

abbrev CharSet := Char → Bool

namespace CharSet

def empty : CharSet := fun _ => false

def single (c : Char) : CharSet := fun d => d == c

def range (low high : Char) : CharSet := fun c => low ≤ c && c ≤ high

def union (s t : CharSet) : CharSet := fun c => s c || t c

def inter (s t : CharSet) : CharSet := fun c => s c && t c

def diff (s t : CharSet) : CharSet := fun c => s c && !t c

def symmDiff (s t : CharSet) : CharSet := fun c => s c != t c

def compl (s : CharSet) : CharSet := fun c => !s c

def unions (sets : List CharSet) : CharSet := fun c => sets.any (· c)

def folded (s : CharSet) : CharSet := fun c => (Unicode.caseOrbit c).any s

/-- The characters equal to a member up to the case of unaccented Latin letters. -/
def asciiFolded (s : CharSet) : CharSet := fun c => s c || s c.toLower || s c.toUpper

def ascii : CharSet := fun c => c.toNat < 128

def asciiDigit : CharSet := range '0' '9'

def asciiAlpha : CharSet := (range 'a' 'z').union (range 'A' 'Z')

def asciiWord : CharSet := (asciiAlpha.union asciiDigit).union (single '_')

def asciiSpace : CharSet := (range '\t' '\r').union (single ' ')

def named? : String → Option CharSet
  | "alnum" => some (asciiAlpha.union asciiDigit)
  | "alpha" => some asciiAlpha
  | "ascii" => some ascii
  | "blank" => some ((single '\t').union (single ' '))
  | "cntrl" => some ((range '\x00' '\x1f').union (single '\x7f'))
  | "digit" => some asciiDigit
  | "graph" => some (range '!' '~')
  | "lower" => some (range 'a' 'z')
  | "print" => some (range ' ' '~')
  | "punct" => some ((range '!' '~').diff (asciiAlpha.union asciiDigit))
  | "space" => some asciiSpace
  | "upper" => some (range 'A' 'Z')
  | "word" => some asciiWord
  | "xdigit" => some (unions [asciiDigit, range 'a' 'f', range 'A' 'F'])
  | _ => none

end CharSet

end Conform
