/-! Regular expressions, as an engine compiles and runs them. The engine is a parameter of
everything that follows. -/

namespace Conform

/-- An engine of regular expressions. It makes a program of a source text, or says what is
wrong with the text, and it tells whether a program matches anywhere in a text. -/
class RegexEngine where
  Program : Type
  compile : String → Except String Program
  isMatch : Program → String → Bool

variable [RegexEngine]

structure Regex where
  source : String
  program : RegexEngine.Program
  compiled : RegexEngine.compile source = .ok program

namespace Regex

def compile (source : String) : Except String Regex :=
  match compiled : RegexEngine.compile source with
  | .ok program => .ok ⟨source, program, compiled⟩
  | .error diagnosis => .error diagnosis

def isMatch (r : Regex) (text : String) : Bool := RegexEngine.isMatch r.program text

theorem ext_source {r s : Regex} (same : r.source = s.source) : r = s := by
  obtain ⟨source, program, compiled⟩ := r
  obtain ⟨source', program', compiled'⟩ := s
  subst same
  cases compiled.symm.trans compiled'
  rfl

theorem source_of_compile {source : String} {r : Regex} (h : compile source = .ok r) :
    r.source = source := by
  unfold compile at h
  split at h
  · cases h; rfl
  · cases h

theorem compile_source (r : Regex) : compile r.source = .ok r := by
  obtain ⟨source, program, compiled⟩ := r
  unfold compile
  split
  · next found => cases found.symm.trans compiled; rfl
  · next found => cases found.symm.trans compiled

end Regex

end Conform
