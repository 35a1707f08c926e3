import Conform.Proofs.Conjunction
import Conform.Proofs.Stability

/-! Properties that share a key. Each of them checks the field of the given structure, but only one
value comes out under the key, and it is the last one that counts. A literal property is sure to
accept what comes out under its key where that value is its own. -/

namespace Conform

theorem Value.get?_withFields (v : Value) (fields : List (String × Value)) (name : String) :
    (v.withFields fields).get? name = fields.lookup name := by
  rw [Value.get?, Value.fields?_withFields, Option.bind_some]

section

variable [RegexEngine] {ν : Type} {config : Config} {custom : CustomRules ν}

/-- Schemas without rules of the caller and without equality that fit under the depth limit and whose
nodes accept their own defaults. -/
structure Ordinary (config : Config) (custom : CustomRules ν) (s : Schema ν) : Prop where
  uncustomized : s.Everywhere fun node => node.rules.custom? = none
  silent : s.Everywhere fun node => ¬Compares node
  defaults : s.Everywhere (DefaultAccepted config custom)
  fits : s.height ≤ config.maxDepth

theorem Ordinary.plain {s : Schema ν} (ordinary : Ordinary config custom s) : Plain config s :=
  ⟨ordinary.uncustomized, ordinary.fits⟩

theorem Ordinary.entry {rules : Rules ν} {properties : List (PropertyKey × Schema ν)}
    (ordinary : Ordinary config custom (.shape rules properties)) {entry : PropertyKey × Schema ν}
    (member : entry ∈ properties) : Ordinary config custom entry.2 where
  uncustomized := (ordinary.plain.entry member).uncustomized
  silent := Schema.everywhereBelow_shape.1 (Schema.everywhere_iff.1 ordinary.silent).2 entry member
  defaults := Schema.everywhereBelow_shape.1 (Schema.everywhere_iff.1 ordinary.defaults).2 entry member
  fits := (ordinary.plain.entry member).fits

theorem Ordinary.accepts_again {s : Schema ν} (ordinary : Ordinary config custom s)
    (once : s.Everywhere SelectsOnce) {v w : Value} (matched : validateWith config custom v s = .ok w) :
    ∃ y, validateWith config custom w s = .ok y := by
  have all : s.Everywhere (Reaccepts config custom) := fun node inside =>
    ⟨fun compares => absurd compares (ordinary.silent node inside), once node inside,
      ordinary.defaults node inside⟩
  exact (exists_matched_iff ordinary.plain (reaccepts_verbatim all) w).2
    (describes_matched ordinary.plain all matched)

/-- A property alone makes a structure out of a value that has something under a name. -/
def Contributes (config : Config) (custom : CustomRules ν) (v : Value) (entry : PropertyKey × Schema ν)
    (name : String) : Prop :=
  ∃ u, validateWith config custom v (.shape {} [entry]) = .ok u ∧ (u.get? name).isSome = true

theorem contributes_iff {v : Value} {fields : List (String × Value)} (keyed : v.fields? = some fields)
    {entry : PropertyKey × Schema ν} {name : String} :
    Contributes config custom v entry name ↔
      ∃ pairs, Stores config custom fields entry pairs ∧
        ∃ pair ∈ pairs, pair.1 = name ∧ pair.2.isUndefined = false := by
  have stands (pairs : List (String × Value)) :
      ((storeAll [] pairs).lookup name).isSome = true ↔
        ∃ pair ∈ pairs, pair.1 = name ∧ pair.2.isUndefined = false := by
    rw [← Option.ne_none_iff_isSome, ne_eq, lookup_storeAll_eq_none]
    push Not
    exact Iff.rfl
  simp only [Contributes, plainShape_ok keyed, List.forall₂_cons_left_iff, List.forall₂_nil_left_iff]
  constructor
  · intro given
    obtain ⟨_, ⟨_, ⟨pairs, _, stores, rfl, rfl⟩, rfl⟩, found⟩ := given
    rw [Value.get?_withFields, List.flatten_cons, List.flatten_nil, List.append_nil, stands] at found
    exact ⟨pairs, stores, found⟩
  · intro given
    obtain ⟨pairs, stores, found⟩ := given
    refine ⟨_, ⟨[pairs], ⟨pairs, [], stores, rfl, rfl⟩, rfl⟩, ?_⟩
    rw [Value.get?_withFields, List.flatten_cons, List.flatten_nil, List.append_nil, stands]
    exact found

theorem stores_iff_adds {rules : Rules ν} {properties : List (PropertyKey × Schema ν)}
    (plain : Plain config (.shape rules properties)) {entry : PropertyKey × Schema ν}
    (member : entry ∈ properties) {fields pairs : List (String × Value)} :
    Stores config custom fields entry pairs ↔
      Adds fields entry.1 (fun x => validateWith config custom x entry.2) pairs := by
  have lower := Schema.height_entry rules member
  have fits := plain.fits
  have level : (Context.direct config custom).check entry.2 1 = (Context.direct config custom).check entry.2 0 :=
    Context.check_level _ (by change 1 + entry.2.height ≤ config.maxDepth; omega)
  rw [Stores, level]
  exact Iff.rfl

theorem stores_of_addsAll {rules : Rules ν} {properties : List (PropertyKey × Schema ν)}
    (plain : Plain config (.shape rules properties)) {fields : List (String × Value)}
    {groups : List (List (String × Value))} (adds : AddsAll config custom fields properties groups) :
    List.Forall₂ (Stores config custom fields) properties groups := by
  have marked := (List.forall₂_and_left properties groups).2 ⟨fun _ member => member, adds⟩
  exact marked.imp fun _ _ both => (stores_iff_adds plain both.1).2 both.2

theorem StructureBecomes.literal {properties : List (PropertyKey × Schema ν)} {v w : Value} {name : String}
    {s : Schema ν} (becomes : StructureBecomes config custom properties v w)
    (member : (.literal name, s) ∈ properties) :
    ∃ y, validateWith config custom ((v.get? name).getD .undefined) s = .ok y := by
  obtain ⟨fields, groups, keyed, adds, _⟩ := becomes
  obtain ⟨before, after, rfl⟩ := List.append_of_mem member
  obtain ⟨_, _, _, _, _, own, _⟩ := split_of_forall₂ adds
  rw [Value.get?, keyed, Option.bind_some]
  cases own with
  | literal accepted => exact ⟨_, accepted⟩

theorem lookup_eq_none_of_idle {v : Value} {fields : List (String × Value)} (keyed : v.fields? = some fields)
    {entries : List (PropertyKey × Schema ν)} {groups : List (List (String × Value))}
    (each : List.Forall₂ (Stores config custom fields) entries groups) {name : String}
    (idle : ∀ entry ∈ entries, ¬Contributes config custom v entry name) :
    (storeAll [] groups.flatten).lookup name = none := by
  induction each with
  | nil => rfl
  | cons stores _ ih =>
    obtain ⟨first, rest⟩ := List.forall_mem_cons.1 idle
    rw [List.flatten_cons, lookup_storeAll_append, ih rest, Option.none_or, lookup_storeAll_eq_none]
    intro pair member stored
    exact first ((contributes_iff keyed).2 ⟨_, stores, pair, member, stored⟩)

theorem conforms_of_exit {rules : Rules ν} {properties : List (PropertyKey × Schema ν)}
    (ordinary : Ordinary config custom (.shape rules properties)) {name : String} {s : Schema ν}
    (member : (.literal name, s) ∈ properties) {v w : Value} {stored : List (String × Value)}
    (keyed : w.fields? = some stored) (exit : rules.absentExit? v = some w) :
    ∃ y, validateWith config custom ((w.get? name).getD .undefined) s = .ok y := by
  have present := rules.absentExit?_of_keyed keyed
  rcases Rules.absentExit?_cases exit with rfl | ⟨optional, default⟩
  · cases exit.symm.trans present
  · obtain ⟨y, accepted⟩ := (Schema.everywhere_iff.1 ordinary.defaults).1 optional w default
    rcases (validateWith_shape ordinary.plain).1 accepted with exit | ⟨_, becomes, _⟩
    · cases exit.symm.trans present
    · exact becomes.literal member

/-- Under the key of a literal property comes out what the property itself stores, unless another
property contributes there: one after it, or one before it where it contributes nothing itself. -/
theorem exists_own_output {rules : Rules ν} {before after : List (PropertyKey × Schema ν)} {name : String}
    {s : Schema ν} (plain : Plain config (.shape rules (before ++ (.literal name, s) :: after))) {v : Value}
    {fields : List (String × Value)} (keyed : v.fields? = some fields) {groups : List (List (String × Value))}
    (adds : AddsAll config custom fields (before ++ (.literal name, s) :: after) groups)
    (last : ∀ entry ∈ after, ¬Contributes config custom v entry name)
    (own : Contributes config custom v (.literal name, s) name ∨
      ∀ entry ∈ before, ¬Contributes config custom v entry name) :
    ∃ y, validateWith config custom ((fields.lookup name).getD .undefined) s = .ok y ∧
      ((storeAll [] groups.flatten).lookup name).getD .undefined = y := by
  have member : (.literal name, s) ∈ before ++ (.literal name, s) :: after := by simp
  obtain ⟨earlier, pairs, later, rfl, ahead, literal, behind⟩ := split_of_forall₂ (stores_of_addsAll plain adds)
  rw [List.flatten_append, List.flatten_cons, lookup_storeAll_append, lookup_storeAll_append,
    lookup_eq_none_of_idle keyed behind last, Option.none_or]
  cases (stores_iff_adds plain member).1 literal with
  | @literal _ _ y accepted =>
    refine ⟨y, accepted, ?_⟩
    by_cases absent : y.isUndefined = true
    · -- The property stores nothing, so that nothing else may stand under its key.
      have idle : ∀ entry ∈ before, ¬Contributes config custom v entry name := by
        refine own.resolve_left fun contributes => ?_
        obtain ⟨_, stores, pair, inside, _, present⟩ := (contributes_iff keyed).1 contributes
        cases (stores_iff_adds plain member).1 stores with
        | literal again =>
          cases accepted.symm.trans again
          obtain rfl := List.mem_singleton.1 inside
          cases absent.symm.trans present
      rw [lookup_eq_none_of_idle keyed ahead idle, Value.isUndefined_iff.1 absent]
      rfl
    · simp [storeAll, store, absent, Fields.put]

/-- A literal property accepts what comes out under its key, unless that comes from another property:
none after it contributes anything there, and none before it does where it contributes nothing itself. -/
theorem validateWith_literal_conforms {rules : Rules ν} {properties before after : List (PropertyKey × Schema ν)}
    {name : String} {s : Schema ν} (ordinary : Ordinary config custom (.shape rules properties))
    (declared : properties = before ++ (.literal name, s) :: after) (once : s.Everywhere SelectsOnce)
    {v w : Value} (matched : validateWith config custom v (.shape rules properties) = .ok w)
    (keyed : w.fields?.isSome = true) (last : ∀ entry ∈ after, ¬Contributes config custom v entry name)
    (own : Contributes config custom v (.literal name, s) name ∨
      ∀ entry ∈ before, ¬Contributes config custom v entry name) :
    ∃ y, validateWith config custom ((w.get? name).getD .undefined) s = .ok y := by
  have member : (.literal name, s) ∈ properties := by simp [declared]
  obtain ⟨stored, keyed⟩ := Option.isSome_iff_exists.1 keyed
  rcases (validateWith_shape ordinary.plain).1 matched with exit | ⟨_, becomes, _⟩
  · exact conforms_of_exit ordinary member keyed exit
  · obtain ⟨fields, groups, structured, adds, rfl⟩ := becomes
    subst declared
    obtain ⟨y, accepted, same⟩ := exists_own_output ordinary.plain structured adds last own
    rw [Value.get?_withFields, same]
    exact (ordinary.entry member).accepts_again once accepted

theorem ordinary_of_bare {s : Schema ν} (bare : s.Everywhere (·.rules = {})) (fits : s.height ≤ config.maxDepth) :
    Ordinary config custom s where
  uncustomized node inside := by simp [show node.rules = {} from bare node inside]
  silent node inside := by simp [Compares, show node.rules = {} from bare node inside]
  defaults node inside optional := by
    rw [show node.rules = {} from bare node inside] at optional
    cases optional
  fits := fits

theorem bare_shape {properties : List (PropertyKey × Schema ν)}
    (each : ∀ entry ∈ properties, entry.2.Everywhere (·.rules = {})) :
    (Schema.shape {} properties).Everywhere (·.rules = {}) :=
  Schema.everywhere_iff.2 ⟨rfl, Schema.everywhereBelow_shape.2 each⟩

theorem bare_any : (Schema.any : Schema ν).Everywhere (·.rules = {}) := List.forall_mem_singleton.2 rfl

end

def having (name : String) : Schema Empty := .shape {} [(.literal name, .any)]

theorem bare_having (name : String) : (having name).Everywhere (·.rules = {}) :=
  bare_shape (List.forall_mem_singleton.2 bare_any)

theorem having_once (name : String) : (having name).Everywhere SelectsOnce := by
  refine List.forall_mem_cons.2 ⟨?_, List.forall_mem_singleton.2 nofun⟩
  intro _ found
  cases found
  exact List.pairwise_singleton _ _

def both : Value := .object [("p", .int 1), ("q", .int 2)]

def literalBetween : List (PropertyKey × Schema Empty) :=
  [(.pattern extension, having "q"), (.literal "x-a", having "p"), (.literal "y", .any)]

theorem literalBetween_conforms :
    Ordinary {} noRules (.shape {} literalBetween) ∧ (having "p").Everywhere SelectsOnce ∧
    validateWith {} noRules (.object [("x-a", both), ("y", .int 3)]) (.shape {} literalBetween) =
      .ok (.object [("x-a", .object [("p", .int 1)]), ("y", .int 3)]) ∧
    ¬Contributes {} noRules (.object [("x-a", both), ("y", .int 3)]) (.literal "y", .any) "x-a" ∧
    Contributes {} noRules (.object [("x-a", both), ("y", .int 3)]) (.literal "x-a", having "p") "x-a" ∧
    ∃ y, validateWith {} noRules (.object [("p", .int 1)]) (having "p") = .ok y := by
  have ordinary : Ordinary {} noRules (.shape {} literalBetween) := by
    refine ordinary_of_bare (bare_shape ?_) (by decide)
    simp only [literalBetween, List.forall_mem_cons]
    exact ⟨bare_having _, bare_having _, bare_any, nofun⟩
  have matched : validateWith {} noRules (.object [("x-a", both), ("y", .int 3)]) (.shape {} literalBetween) =
      .ok (.object [("x-a", .object [("p", .int 1)]), ("y", .int 3)]) := by rfl
  have declared : literalBetween =
      [(.pattern extension, having "q")] ++ (.literal "x-a", having "p") :: [(.literal "y", .any)] := rfl
  have elsewhere : ¬Contributes {} noRules (.object [("x-a", both), ("y", .int 3)]) (.literal "y", .any) "x-a" := by
    intro given
    obtain ⟨u, stored, found⟩ := given
    have alone : validateWith {} noRules (.object [("x-a", both), ("y", .int 3)])
        (.shape {} [(.literal "y", .any)]) = .ok (.object [("y", .int 3)]) := by rfl
    cases alone.symm.trans stored
    cases found
  have own : Contributes {} noRules (.object [("x-a", both), ("y", .int 3)]) (.literal "x-a", having "p") "x-a" :=
    ⟨_, rfl, rfl⟩
  exact ⟨ordinary, having_once "p", matched, elsewhere, own, validateWith_literal_conforms ordinary declared
    (having_once "p") matched rfl (List.forall_mem_singleton.2 elsewhere) (.inl own)⟩

/-- An ordinary shape leaves something under a literal key that the schema of the property rejects. -/
def Overwrites (properties : List (PropertyKey × Schema Empty)) (v : Value) (name : String)
    (s : Schema Empty) : Prop :=
  Ordinary {} noRules (.shape {} properties) ∧ (.literal name, s) ∈ properties ∧
    ∃ w, validateWith {} noRules v (.shape {} properties) = .ok w ∧ w.fields?.isSome = true ∧
      (validateWith {} noRules ((w.get? name).getD .undefined) s).isOk = false

def markerLast : List (PropertyKey × Schema Empty) := [(.literal "x-a", having "p"), (.pattern extension, having "q")]

def defaultedNumber : Schema Empty :=
  .typed { optional := true, default? := some (.int 5) } { tag := .integer } none none

def textLast : List (PropertyKey × Schema Empty) :=
  [(.literal "a", defaultedNumber), (.literal "a", optionalText)]

theorem textLast_everywhere {condition : Schema Empty → Prop} (own : condition (.shape {} textLast))
    (number : condition defaultedNumber) (text : condition optionalText) :
    (Schema.shape {} textLast).Everywhere condition :=
  List.forall_mem_cons.2 ⟨own, List.forall_mem_cons.2 ⟨number, List.forall_mem_singleton.2 text⟩⟩

theorem textLast_ordinary : Ordinary {} noRules (.shape {} textLast) where
  uncustomized := textLast_everywhere rfl rfl rfl
  silent := textLast_everywhere (not_compares rfl rfl) (not_compares rfl rfl) (not_compares rfl rfl)
  defaults := by
    refine textLast_everywhere nofun (fun _ d found => ?_) nofun
    cases found
    exact ⟨_, rfl⟩
  fits := by decide

def either : Schema Empty := .shape {} [(.literal "a", having "p"), (.literal "a", having "q")]

/-- The conditions on shared keys are needed. A literal property rejects what a later marker has left
under its key, what an earlier default has left under a key that it leaves out itself, and what its own
schema makes of a structure where two of its properties share a key. -/
theorem literal_overwritten :
    Overwrites markerLast (.object [("x-a", both)]) "x-a" (having "p") ∧
    Overwrites textLast (.object []) "a" optionalText ∧
    Overwrites [(.literal "k", either)] (.object [("k", .object [("a", both)])]) "k" either := by
  have bare : either.Everywhere (·.rules = {}) := by
    refine bare_shape ?_
    simp only [List.forall_mem_cons]
    exact ⟨bare_having _, bare_having _, nofun⟩
  refine ⟨⟨ordinary_of_bare (bare_shape ?_) (by decide), List.mem_cons_self, _, rfl, rfl, rfl⟩,
    ⟨textLast_ordinary, List.mem_cons_of_mem _ List.mem_cons_self, _, rfl, rfl, rfl⟩,
    ordinary_of_bare (bare_shape (List.forall_mem_singleton.2 bare)) (by decide), List.mem_cons_self, _, rfl, rfl, rfl⟩
  simp only [markerLast, List.forall_mem_cons]
  exact ⟨bare_having _, bare_having _, nofun⟩

end Conform
