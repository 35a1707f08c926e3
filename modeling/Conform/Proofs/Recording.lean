import Conform.Proofs.Relating

/-! Computations that leave a record. Such a computation has one answer and one list of events, whatever state
it is run on, and it adds the events to that state one by one. -/

namespace Conform

/-- How a state takes up an event, and which states stay sound by that. -/
structure Recorder (σ ε : Type) where
  add : σ → ε → σ
  Sound : σ → Prop
  sound_add {state : σ} (event : ε) : Sound state → Sound (add state event)

namespace Recorder

variable {σ ε α β : Type} (R : Recorder σ ε)

def addAll (state : σ) (events : List ε) : σ := events.foldl R.add state

theorem addAll_append (state : σ) (events later : List ε) :
    R.addAll state (events ++ later) = R.addAll (R.addAll state events) later :=
  List.foldl_append

theorem sound_addAll {state : σ} (sound : R.Sound state) (events : List ε) : R.Sound (R.addAll state events) := by
  induction events generalizing state with
  | nil => exact sound
  | cons event rest ih => exact ih (R.sound_add event sound)

/-- On every sound state, the answer is the given one and the given events are recorded. -/
def Records (x : StateM σ α) (a : α) (events : List ε) : Prop :=
  ∀ state, R.Sound state → (x.run state).run = (a, R.addAll state events)

section Records

variable {R} {x : StateM σ α} {a : α} {events later : List ε}

theorem Records.pure (a : α) : R.Records (pure a) a [] := fun _ _ => rfl

theorem Records.bind {next : α → StateM σ β} {b : β} (first : R.Records x a events)
    (rest : R.Records (next a) b later) : R.Records (x >>= next) b (events ++ later) := by
  intro state sound
  rw [addAll_append, ← rest _ (R.sound_addAll sound events), StateT.run_bind, Id.run_bind, first state sound]

theorem Records.map (records : R.Records x a events) (g : α → β) : R.Records (g <$> x) (g a) events := by
  rw [map_eq_pure_bind, ← events.append_nil]
  exact records.bind (.pure (g a))

theorem records_mapM {step : β → StateM σ α} {answer : β → α} {record : β → List ε} {steps : List β}
    (each : ∀ b ∈ steps, R.Records (step b) (answer b) (record b)) :
    R.Records (steps.mapM step) (steps.map answer) (steps.flatMap record) := by
  induction steps with
  | nil => exact .pure []
  | cons b rest ih =>
    obtain ⟨first, later⟩ := List.forall_mem_cons.1 each
    rw [List.mapM_cons, List.map_cons, List.flatMap_cons]
    exact first.bind ((ih later).map (answer b :: ·))

end Records

def Runs (Own : ε → Prop) (x : StateM σ α) (a : α) : Prop :=
  ∃ events, (∀ event ∈ events, Own event) ∧ R.Records x a events

namespace Runs

variable {R} {Own : ε → Prop} {x : StateM σ α} {a : α}

theorem pure (a : α) : R.Runs Own (pure a) a := ⟨[], nofun, .pure a⟩

theorem bind {next : α → StateM σ β} {b : β} (first : R.Runs Own x a) (rest : R.Runs Own (next a) b) :
    R.Runs Own (x >>= next) b := by
  obtain ⟨events, own, records⟩ := first
  obtain ⟨later, ownLater, recordsLater⟩ := rest
  exact ⟨events ++ later, List.forall_mem_append.2 ⟨own, ownLater⟩, records.bind recordsLater⟩

theorem map (runs : R.Runs Own x a) (g : α → β) : R.Runs Own (g <$> x) (g a) := by
  obtain ⟨events, own, records⟩ := runs
  exact ⟨events, own, records.map g⟩

end Runs

def relation (Own : ε → Prop) : CheckRelation (StateM σ) Id where
  Rel x y := R.Runs Own x.run (outcome y)
  rel_pure a := .pure _
  rel_throw f := .pure _
  rel_bind {_ _ _ y _ _} first later := by
    rw [ExceptT.run_bind, outcome_bind]
    refine first.bind ?_
    cases outcome y with
    | ok a => exact later a
    | error f => exact .pure _
  rel_adapt runs _ := by
    rw [outcome_adapt]
    exact runs.map _
  rel_retry {_ _ y _ _} first later := by
    rw [ExceptT.run_tryCatch, outcome_tryCatch]
    refine first.bind ?_
    cases outcome y with
    | ok a => exact .pure _
    | error f =>
      dsimp only
      split
      · exact .pure _
      · exact later f

/-- Settings that differ only in how patterns are compiled. -/
theorem settings [RegexEngine] {ν : Type} (Own : ε → Prop) (config : Config) (custom : CustomRules ν)
    (compile : KeyPattern → StateM σ (Except SchemaError Regex)) :
    (R.relation Own).Settings ⟨config, compile, custom⟩ (Context.direct config custom) where
  custom := rfl
  preview := rfl
  guarded related depth := by
    refine CheckRelation.rel_guarded ?_ related depth
    rfl

end Recorder

end Conform
