import Conform.Proofs.Markers
import Conform.Proofs.Recording
import Conform.Regex.Engine

/-! What a session compiles. A check asks for the same markers whatever is kept already, so that what is kept
in the end is settled by which markers were asked for, and not by their order or how often. -/

namespace Conform

namespace PatternCache

variable [RegexEngine]

def Faithful (cache : PatternCache) : Prop :=
  ∀ entry ∈ cache.compiled, ∃ p : KeyPattern, p.marker = entry.1 ∧ p.compile = .ok entry.2

theorem faithful_empty : Faithful {} := nofun

theorem Faithful.compile_of_find? {cache : PatternCache} (faithful : cache.Faithful) {p : KeyPattern} {regex : Regex}
    (found : cache.find? p.marker = some regex) : p.compile = .ok regex := by
  obtain ⟨q, same, compiled⟩ := faithful _ (Fields.mem_of_lookup found)
  exact KeyPattern.marker_injective same ▸ compiled

def markers (cache : PatternCache) : List String := cache.compiled.map (·.1)

theorem not_mem_markers_of_find? {cache : PatternCache} {marker : String} (missing : cache.find? marker = none) :
    marker ∉ cache.markers := by
  intro member
  obtain ⟨entry, kept, rfl⟩ := List.mem_map.1 member
  have different := List.lookup_eq_none_iff.1 missing entry kept
  simp at different

/-- What is kept once a marker was asked for. -/
def ask (cache : PatternCache) (p : KeyPattern) : PatternCache :=
  match cache.find? p.marker, p.compile with
  | none, .ok regex => ⟨cache.compiled ++ [(p.marker, regex)]⟩
  | _, _ => cache

/-- A pattern is compiled once, and the answer is the one that compiling it again would give. -/
theorem run_compile {cache : PatternCache} (faithful : cache.Faithful) (p : KeyPattern) :
    ((compile p).run cache).run = (p.compile, cache.ask p) := by
  cases found : cache.find? p.marker with
  | some regex =>
    have compiled := faithful.compile_of_find? found
    simp [compile, ask, found, compiled]
  | none => cases compiled : p.compile <;> simp [compile, ask, found, compiled]

theorem ask_cases (cache : PatternCache) (p : KeyPattern) :
    cache.ask p = cache ∧ (p.marker ∈ cache.markers ∨ ∀ regex, p.compile ≠ .ok regex) ∨
      ∃ regex, p.compile = .ok regex ∧ p.marker ∉ cache.markers ∧
        cache.ask p = ⟨cache.compiled ++ [(p.marker, regex)]⟩ := by
  cases found : cache.find? p.marker with
  | some regex =>
    have kept : p.marker ∈ cache.markers := List.mem_map_of_mem (Fields.mem_of_lookup found)
    exact .inl ⟨by simp [ask, found], .inl kept⟩
  | none =>
    cases compiled : p.compile with
    | error e => exact .inl ⟨by simp [ask, found, compiled], .inr nofun⟩
    | ok regex => exact .inr ⟨regex, rfl, not_mem_markers_of_find? found, by simp [ask, found, compiled]⟩

theorem Faithful.ask {cache : PatternCache} (faithful : cache.Faithful) (p : KeyPattern) : (cache.ask p).Faithful := by
  obtain ⟨same, _⟩ | ⟨regex, compiled, _, added⟩ := cache.ask_cases p
  · rwa [same]
  · rw [added]
    exact List.forall_mem_append.2 ⟨faithful, List.forall_mem_singleton.2 ⟨p, rfl, compiled⟩⟩

theorem mem_markers_ask {cache : PatternCache} {p : KeyPattern} {marker : String} :
    marker ∈ (cache.ask p).markers ↔ marker ∈ cache.markers ∨ p.marker = marker ∧ ∃ regex, p.compile = .ok regex := by
  obtain ⟨same, kept | broken⟩ | ⟨regex, compiled, _, added⟩ := cache.ask_cases p
  · rw [same]
    refine ⟨.inl, ?_⟩
    rintro (member | ⟨rfl, _⟩)
    · exact member
    · exact kept
  · rw [same]
    refine ⟨.inl, ?_⟩
    rintro (member | ⟨_, regex, compiled⟩)
    · exact member
    · cases broken regex compiled
  · rw [added]
    simp [markers, compiled, eq_comm]

theorem nodup_ask {cache : PatternCache} (distinct : cache.markers.Nodup) (p : KeyPattern) :
    (cache.ask p).markers.Nodup := by
  obtain ⟨same, _⟩ | ⟨regex, _, new, added⟩ := cache.ask_cases p
  · rwa [same]
  · rw [added, markers, List.map_append, List.nodup_append]
    refine ⟨distinct, by simp, fun marker kept other last => ?_⟩
    obtain rfl : other = p.marker := List.mem_singleton.1 last
    rintro rfl
    exact new kept

def requests : Recorder PatternCache KeyPattern where
  add := ask
  Sound := Faithful
  sound_add p faithful := faithful.ask p

theorem records_compile (p : KeyPattern) : requests.Records (compile p) p.compile [p] :=
  fun _ faithful => run_compile faithful p

theorem mem_markers_addAll {cache : PatternCache} {asked : List KeyPattern} {marker : String} :
    marker ∈ (requests.addAll cache asked).markers ↔
      marker ∈ cache.markers ∨ ∃ p ∈ asked, p.marker = marker ∧ ∃ regex, p.compile = .ok regex := by
  induction asked generalizing cache with
  | nil => simp [Recorder.addAll]
  | cons p rest ih =>
    change marker ∈ (requests.addAll (cache.ask p) rest).markers ↔ _
    rw [ih, mem_markers_ask, or_assoc, List.exists_mem_cons_iff]

theorem nodup_addAll {cache : PatternCache} (distinct : cache.markers.Nodup) (asked : List KeyPattern) :
    (requests.addAll cache asked).markers.Nodup := by
  induction asked generalizing cache with
  | nil => exact distinct
  | cons p rest ih => exact ih (nodup_ask distinct p)

end PatternCache

open PatternCache (requests)

section

variable [RegexEngine] {ν : Type}

def Schema.Declares (s : Schema ν) (p : KeyPattern) : Prop :=
  ∃ node ∈ s.nodes, ∃ entry ∈ node.properties?.getD [], entry.1 = .pattern p

def Step.MayAsk : Step ν → KeyPattern → Prop
  | .validate _ s, p => s.Declares p
  | .compile q, p => q = p
  | .clear, _ => False

end

namespace Session

section

variable [RegexEngine] {ν : Type} {config : Config} {custom : CustomRules ν}

/-- A session answers as validation that keeps no patterns, and asks only for patterns of the schema. -/
theorem validate_runs (v : Value) (s : Schema ν) :
    requests.Runs s.Declares (validate config custom v s) (validateWith config custom v s) := by
  have compiles : s.Everywhere fun node => ∀ entry ∈ node.properties?.getD [],
      (requests.relation s.Declares).Compiles (Context.caching config custom) (Context.direct config custom) entry.1 := by
    intro node inside entry member p marker
    have asks : requests.Runs s.Declares (PatternCache.compile p) p.compile :=
      ⟨[p], List.forall_mem_singleton.2 ⟨node, inside, entry, member, marker⟩, PatternCache.records_compile p⟩
    exact asks.map Except.ok
  exact CheckRelation.rel_check (requests.settings s.Declares config custom PatternCache.compile) compiles 0 v

theorem step_runs (config : Config) (custom : CustomRules ν) {step : Step ν} (keeps : step ≠ .clear) :
    ∃ answer, requests.Runs step.MayAsk (Session.step config custom step) answer := by
  cases step with
  | validate v s => exact ⟨_, (validate_runs v s).map Answer.outcome⟩
  | compile p =>
    have asks : requests.Runs (Step.compile (ν := ν) p).MayAsk (PatternCache.compile p) p.compile :=
      ⟨[p], List.forall_mem_singleton.2 rfl, PatternCache.records_compile p⟩
    exact ⟨_, asks.map Answer.compiled⟩
  | clear => cases keeps rfl

def kept (config : Config) (custom : CustomRules ν) (steps : List (Step ν)) : PatternCache :=
  ((steps.mapM (Session.step config custom)).run {}).run.2

structure Asked (config : Config) (custom : CustomRules ν) (asked : Step ν → List KeyPattern) : Prop where
  mayAsk : ∀ step ≠ .clear, ∀ p ∈ asked step, step.MayAsk p
  kept : ∀ steps : List (Step ν), (∀ step ∈ steps, step ≠ .clear) →
    kept config custom steps = requests.addAll {} (steps.flatMap asked)

theorem exists_asked (config : Config) (custom : CustomRules ν) : ∃ asked, Asked config custom asked := by
  have each (step : Step ν) : ∃ (answer : Answer) (asked : List KeyPattern), step ≠ .clear →
      (∀ p ∈ asked, step.MayAsk p) ∧ requests.Records (Session.step config custom step) answer asked := by
    by_cases clears : step = .clear
    · exact ⟨.cleared, [], (absurd clears ·)⟩
    · obtain ⟨answer, asked, mayAsk, records⟩ := step_runs config custom clears
      exact ⟨answer, asked, fun _ => ⟨mayAsk, records⟩⟩
  choose answer asked spec using each
  refine ⟨asked, fun step keeps => (spec step keeps).1, fun steps keep => ?_⟩
  have records := Recorder.records_mapM fun step member => (spec step (keep step member)).2
  rw [kept, records {} PatternCache.faithful_empty]

namespace Asked

variable {asked : Step ν → List KeyPattern} (spec : Asked config custom asked) {steps : List (Step ν)}
  (keep : ∀ step ∈ steps, step ≠ .clear)
include spec keep

theorem mem_markers {marker : String} : marker ∈ (Session.kept config custom steps).markers ↔
    ∃ step ∈ steps, ∃ p ∈ asked step, p.marker = marker ∧ ∃ regex, p.compile = .ok regex := by
  rw [spec.kept steps keep, PatternCache.mem_markers_addAll]
  simp only [PatternCache.markers, List.map_nil, List.not_mem_nil, false_or, List.mem_flatMap]
  constructor
  · rintro ⟨p, ⟨step, member, found⟩, compiles⟩
    exact ⟨step, member, p, found, compiles⟩
  · rintro ⟨step, member, p, found, compiles⟩
    exact ⟨p, ⟨step, member, found⟩, compiles⟩

theorem mem_markers_iff_alone {marker : String} : marker ∈ (Session.kept config custom steps).markers ↔
    ∃ step ∈ steps, marker ∈ (Session.kept config custom [step]).markers := by
  rw [spec.mem_markers keep]
  refine exists_congr fun step => and_congr_right fun member => ?_
  rw [spec.mem_markers (List.forall_mem_singleton.2 (keep step member))]
  simp only [List.mem_singleton, exists_eq_left]

theorem nodup_markers : (Session.kept config custom steps).markers.Nodup := by
  have nothing : ({} : PatternCache).markers.Nodup := List.nodup_nil
  rw [spec.kept steps keep]
  exact PatternCache.nodup_addAll nothing _

theorem exists_mayAsk {entry : String × Regex} (inside : entry ∈ (Session.kept config custom steps).compiled) :
    ∃ step ∈ steps, ∃ p : KeyPattern, step.MayAsk p ∧ p.marker = entry.1 ∧ p.compile = .ok entry.2 := by
  have faithful : (Session.kept config custom steps).Faithful := by
    rw [spec.kept steps keep]
    exact requests.sound_addAll PatternCache.faithful_empty _
  obtain ⟨step, member, p, found, same, _⟩ := (spec.mem_markers keep).1 (List.mem_map_of_mem inside)
  obtain ⟨q, marker, compiled⟩ := faithful entry inside
  obtain rfl := KeyPattern.marker_injective (marker.trans same.symm)
  exact ⟨step, member, q, spec.mayAsk step (keep step member) q found, marker, compiled⟩

theorem mem_markers_of_compile {p : KeyPattern} {regex : Regex} (asks : .compile p ∈ steps)
    (compiled : p.compile = .ok regex) : p.marker ∈ (Session.kept config custom steps).markers := by
  have records : ∀ step ∈ [Step.compile p],
      requests.Records (Session.step config custom step) (.compiled p.compile) [p] :=
    List.forall_mem_singleton.2 ((PatternCache.records_compile p).map Answer.compiled)
  have alone : Session.kept config custom [.compile p] = requests.addAll {} [p] :=
    congrArg Prod.snd (Recorder.records_mapM records {} PatternCache.faithful_empty)
  refine (spec.mem_markers_iff_alone keep).2 ⟨.compile p, asks, ?_⟩
  rw [alone, PatternCache.mem_markers_addAll]
  exact .inr ⟨p, List.mem_singleton_self p, rfl, regex, compiled⟩

/-- The same steps in another order and any number of times keep as many patterns under the same markers. -/
theorem perm_markers {steps' : List (Step ν)} (same : ∀ step, step ∈ steps' ↔ step ∈ steps) :
    (Session.kept config custom steps').markers.Perm (Session.kept config custom steps).markers := by
  have keep' : ∀ step ∈ steps', step ≠ .clear := fun step member => keep step ((same step).1 member)
  refine (List.perm_ext_iff_of_nodup (spec.nodup_markers keep') (spec.nodup_markers keep)).2 fun marker => ?_
  rw [spec.mem_markers keep', spec.mem_markers keep]
  simp only [same]

end Asked

/-- What a session keeps is settled by which steps were made: it is what each of them alone would keep, patterns
that the steps may ask for under their markers, each one once. A pattern that a step asks to be compiled is among
them if it can be. -/
theorem kept_of_steps (config : Config) (custom : CustomRules ν) {steps : List (Step ν)}
    (keep : ∀ step ∈ steps, step ≠ .clear) :
    (∀ marker, marker ∈ (kept config custom steps).markers ↔
      ∃ step ∈ steps, marker ∈ (kept config custom [step]).markers) ∧
    (∀ entry ∈ (kept config custom steps).compiled, ∃ step ∈ steps, ∃ p : KeyPattern,
      step.MayAsk p ∧ p.marker = entry.1 ∧ p.compile = .ok entry.2) ∧
    (∀ p regex, .compile p ∈ steps → p.compile = .ok regex → p.marker ∈ (kept config custom steps).markers) ∧
    (kept config custom steps).markers.Nodup ∧
    ∀ steps' : List (Step ν), (∀ step, step ∈ steps' ↔ step ∈ steps) →
      (∀ marker, marker ∈ (kept config custom steps').markers ↔ marker ∈ (kept config custom steps).markers) ∧
        (kept config custom steps').size = (kept config custom steps).size := by
  obtain ⟨asked, spec⟩ := exists_asked config custom
  refine ⟨fun marker => spec.mem_markers_iff_alone keep, fun entry inside => spec.exists_mayAsk keep inside,
    fun p regex asks compiled => spec.mem_markers_of_compile keep asks compiled, spec.nodup_markers keep,
    fun steps' same => ?_⟩
  have perm := spec.perm_markers keep same
  refine ⟨fun marker => perm.mem_iff, ?_⟩
  have sizes := perm.length_eq
  rwa [PatternCache.markers, PatternCache.markers, List.length_map, List.length_map] at sizes

end

def startsWithA : KeyPattern := ⟨"^a", "", by simp, rfl⟩

def startsWithB : KeyPattern := ⟨"^b", "", by simp, rfl⟩

def accepting : CustomRules Unit := fun _ v _ => .ok v

def eitherKey : Schema Unit :=
  .alternation {} [.shape {} [(.pattern startsWithA, .any)], .shape {} [(.pattern startsWithB, .any)]]

def lookups : List (Step Unit) := [.validate (.object [("b", .null), ("bc", .int 1)]) eitherKey, .compile startsWithA]

theorem lookups_kept :
    (∀ step ∈ lookups, step ≠ .clear) ∧
    (kept {} accepting lookups).markers = ["/^a/", "/^b/"] ∧
    (∀ marker, marker ∈ (kept {} accepting lookups).markers ↔
      ∃ step ∈ lookups, marker ∈ (kept {} accepting [step]).markers) ∧
    (∀ entry ∈ (kept {} accepting lookups).compiled, ∃ step ∈ lookups, ∃ p : KeyPattern,
      step.MayAsk p ∧ p.marker = entry.1 ∧ p.compile = .ok entry.2) ∧
    (∀ p regex, .compile p ∈ lookups → p.compile = .ok regex → p.marker ∈ (kept {} accepting lookups).markers) ∧
    (kept {} accepting lookups).markers.Nodup ∧
    ∀ steps' : List (Step Unit), (∀ step, step ∈ steps' ↔ step ∈ lookups) →
      (∀ marker, marker ∈ (kept {} accepting steps').markers ↔ marker ∈ (kept {} accepting lookups).markers) ∧
        (kept {} accepting steps').size = (kept {} accepting lookups).size := by
  have keep : ∀ step ∈ lookups, step ≠ .clear := List.forall_mem_cons.2 ⟨nofun, List.forall_mem_singleton.2 nofun⟩
  exact ⟨keep, by rfl, kept_of_steps {} accepting keep⟩

end Session

end Conform
