import Conform.Regex.Basic
import Conform.Regex.Parser

/-! The engine of this library. It knows of the properties of characters the general
categories and a few more, and sets no limit to the size of a program. -/

namespace Conform

namespace Regex

def SyntaxError.text : SyntaxError → String
  | groupUnclosed => "unclosed group"
  | groupUnopened => "unopened group"
  | groupName => "invalid capture group name"
  | lookAround => "look-around, including look-ahead and look-behind, is not supported"
  | flagUnknown => "unrecognized flag"
  | flagRepeated => "duplicate flag"
  | flagUnfinished => "expected flag but got end of regex"
  | nothingToRepeat => "repetition operator missing expression"
  | countMalformed => "invalid counted repetition"
  | countReversed => "invalid repetition count range, the start must be <= the end"
  | escapeUnfinished => "incomplete escape sequence, reached end of pattern prematurely"
  | escapeUnknown => "unrecognized escape sequence"
  | backreference => "backreferences are not supported"
  | codePoint => "hexadecimal literal is not a Unicode scalar value"
  | wordBoundary => "invalid special word boundary assertion"
  | classUnclosed => "unclosed character class"
  | classItem => "invalid range boundary, must be a literal"
  | rangeReversed => "invalid character class range, the start must be <= the end"
  | propertyUnknown => "Unicode property not found"
  | partialCharacter => "pattern can match invalid UTF-8"
  | nestedTooDeep => "exceeded the maximum number of nested parentheses or brackets"

end Regex

instance Regex.engine : RegexEngine where
  Program := Expr Test
  compile source := (Regex.parse source).mapError ("regex parse error: " ++ ·.text)
  isMatch program text := program.occursIn text

end Conform
