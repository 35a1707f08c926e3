import Conform.Validation.Check
import Conform.PatternCache

/-! Validation, once or in a session that keeps compiled key patterns. -/

namespace Conform

variable [RegexEngine] {ν : Type}

def Context.direct (config : Config) (custom : CustomRules ν) : Context Id ν :=
  ⟨config, fun p => p.compile, custom⟩

/-- Patterns are compiled where they are first met. -/
def Context.caching (config : Config) (custom : CustomRules ν) :
    Context (StateM PatternCache) ν :=
  ⟨config, PatternCache.compile, custom⟩

def validateWith (config : Config) (custom : CustomRules ν) (v : Value) (schema : Schema ν) :
    Outcome :=
  ((Context.direct config custom).check schema 0 v).run.run

def validate (custom : CustomRules ν) (v : Value) (schema : Schema ν) : Outcome :=
  validateWith {} custom v schema

inductive Step (ν : Type) where
  | validate (v : Value) (schema : Schema ν)
  | compile (p : KeyPattern)
  | clear

inductive Answer where
  | outcome (o : Outcome)
  | compiled (result : Except SchemaError Regex)
  | cleared

namespace Session

def validate (config : Config) (custom : CustomRules ν) (v : Value)
    (schema : Schema ν) : StateM PatternCache Outcome :=
  ((Context.caching config custom).check schema 0 v).run

def step (config : Config) (custom : CustomRules ν) : Step ν → StateM PatternCache Answer
  | .validate v schema => .outcome <$> validate config custom v schema
  | .compile p => .compiled <$> PatternCache.compile p
  | .clear => do
    set ({} : PatternCache)
    return .cleared

end Session

end Conform
