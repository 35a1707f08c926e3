import Conform.Proofs.Requests

/-! Sessions. Every pattern that is kept belongs to the marker under which it is kept, whatever was asked
before, so that no answer depends on what is kept. -/

namespace Conform

namespace PatternCache

variable [RegexEngine]

/-- Whatever patterns are kept, the answer is the given one, and those that are kept afterwards are still
the patterns of their markers. -/
def Answers {α : Type} (x : StateM PatternCache α) (a : α) : Prop :=
  ∀ cache : PatternCache, cache.Faithful → ∃ after : PatternCache, after.Faithful ∧ (x.run cache).run = (a, after)

namespace Answers

variable {α β : Type} {x : StateM PatternCache α} {a : α}

theorem pure (a : α) : Answers (pure a) a := fun cache faithful => ⟨cache, faithful, rfl⟩

theorem bind {next : α → StateM PatternCache β} {b : β} (first : Answers x a) (later : Answers (next a) b) :
    Answers (x >>= next) b := by
  intro cache faithful
  obtain ⟨middle, faithful, ran⟩ := first cache faithful
  obtain ⟨after, faithful, rest⟩ := later middle faithful
  refine ⟨after, faithful, ?_⟩
  rw [← rest, StateT.run_bind, Id.run_bind, ran]

theorem map (answers : Answers x a) (g : α → β) : Answers (g <$> x) (g a) := by
  rw [map_eq_pure_bind]
  exact answers.bind (pure (g a))

theorem fresh (answers : Answers x a) : (x.run {}).run.1 = a := by
  obtain ⟨after, _, ran⟩ := answers {} faithful_empty
  rw [ran]

theorem of_records {asked : List KeyPattern} (records : requests.Records x a asked) : Answers x a :=
  fun cache faithful => ⟨requests.addAll cache asked, requests.sound_addAll faithful asked, records cache faithful⟩

end Answers

end PatternCache

variable [RegexEngine] {ν : Type} {config : Config} {custom : CustomRules ν}

namespace Session

theorem validate_answers (v : Value) (s : Schema ν) :
    PatternCache.Answers (validate config custom v s) (validateWith config custom v s) := by
  obtain ⟨asked, _, records⟩ := validate_runs v s
  exact .of_records records

/-- The answer of a step without a history: a session of its own validates the value, and a marker is
compiled where it stands. -/
def alone (config : Config) (custom : CustomRules ν) : Step ν → Answer
  | .validate v schema => .outcome ((validate config custom v schema).run {}).run.1
  | .compile p => .compiled p.compile
  | .clear => .cleared

theorem step_answers (step : Step ν) :
    PatternCache.Answers (Session.step config custom step) (alone config custom step) := by
  cases step with
  | validate v schema =>
    rw [alone, (validate_answers v schema).fresh]
    exact (validate_answers v schema).map Answer.outcome
  | compile p => exact (PatternCache.Answers.of_records (PatternCache.records_compile p)).map Answer.compiled
  | clear => exact fun cache faithful => ⟨{}, PatternCache.faithful_empty, rfl⟩

theorem steps_answer (steps : List (Step ν)) :
    PatternCache.Answers (steps.mapM (Session.step config custom)) (steps.map (alone config custom)) := by
  induction steps with
  | nil => exact .pure []
  | cons step rest ih =>
    rw [List.mapM_cons, List.map_cons]
    exact (step_answers step).bind (ih.bind (.pure _))

/-- The patterns that a session keeps do not show: every step answers as it would without a history. -/
theorem answers_without_history (config : Config) (custom : CustomRules ν) (steps : List (Step ν)) :
    ((steps.mapM (Session.step config custom)).run {}).run.1 = steps.map (alone config custom) :=
  (steps_answer steps).fresh

end Session

end Conform
