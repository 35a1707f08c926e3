import Conform.Proofs.Meaning
import Conform.Proofs.TypeReading
import Conform.Schema.Builder

/-! What a type expression tells of its schema. Without rules other than the flags, the values that a schema
accepts can be read off its type expression, if no union stands before the suffix of lists without brackets. -/

namespace Conform

namespace Schema

open TypeExpr

variable [RegexEngine] {ν : Type}

inductive RuleFree : Schema ν → Prop where
  | ofTag {tag : TypeTag} (other : tag ≠ .array) : RuleFree (.ofTag tag)
  | array {items : List (Schema ν)} (each : ∀ s ∈ items, RuleFree s) : RuleFree (.array items)
  | oneOf {members : List (Schema ν)} (each : ∀ s ∈ members, RuleFree s) : RuleFree (.oneOf members)
  | nullable {s : Schema ν} (free : RuleFree s) : RuleFree s.nullable
  | optional {s : Schema ν} (free : RuleFree s) : RuleFree s.optional

inductive Flagged : Schema ν → Prop where
  | tag (nullable optional : Bool) {tag : TypeTag} (other : tag ≠ .array) :
      Flagged (.typed { nullable, optional } { tag } none none)
  | list (nullable optional : Bool) {items : List (Schema ν)} (each : ∀ s ∈ items, RuleFree s) :
      Flagged (.typed { nullable, optional } { tag := .array } (some items) none)
  | alternation (nullable optional : Bool) {members : List (Schema ν)} (each : ∀ s ∈ members, RuleFree s) :
      Flagged (.alternation { nullable, optional } members)

theorem RuleFree.flagged {s : Schema ν} (free : s.RuleFree) : s.Flagged := by
  induction free with
  | ofTag other => exact .tag false false other
  | array each => exact .list false false each
  | oneOf each => exact .alternation false false each
  | nullable _ ih =>
    cases ih with
    | tag _ optional other => exact .tag true optional other
    | list _ optional each => exact .list true optional each
    | alternation _ optional each => exact .alternation true optional each
  | optional _ ih =>
    cases ih with
    | tag nullable _ other => exact .tag nullable true other
    | list nullable _ each => exact .list nullable true each
    | alternation nullable _ each => exact .alternation nullable true each

theorem RuleFree.everywhere {s : Schema ν} (free : s.RuleFree) : s.Everywhere RuleFree := by
  induction s with
  | shape rules properties => cases free.flagged
  | alternation rules members ih =>
    refine everywhere_iff.2 ⟨free, everywhereBelow_alternation.2 fun s member => ?_⟩
    cases free.flagged with
    | alternation _ _ each => exact ih s member (each s member)
  | typed rules type items? nested? itemsIh =>
    refine everywhere_iff.2 ⟨free, everywhereBelow_typed.2 ?_⟩
    cases free.flagged with
    | tag => exact ⟨nofun, nofun⟩
    | list _ _ each => exact ⟨fun s member => itemsIh rfl s member (each s member), nofun⟩

theorem RuleFree.accepts_iff {config : Config} {custom : CustomRules ν} {s : Schema ν} (free : s.RuleFree)
    (fits : s.height ≤ config.maxDepth) (v : Value) :
    (validateWith config custom v s).isOk = true ↔ s.Describes v := by
  have silent (node : Schema ν) (inside : node ∈ s.nodes) :
      node.rules.custom? = none ∧ ComparesVerbatim node := by
    cases (free.everywhere node inside).flagged <;> exact ⟨rfl, comparesVerbatim_of_silent rfl rfl⟩
  have plain : Plain config s := ⟨fun node inside => (silent node inside).1, fits⟩
  exact isOk_iff_describes plain fun node inside => (silent node inside).2

section Meaning

variable {nullable optional : Bool} {v : Value}

theorem describes_flagged {tag : TypeTag} {items? : Option (List (Schema ν))} :
    (typed { nullable, optional } { tag } items? none).Describes v ↔
      tag.accepts v = false ∧ ({ nullable, optional } : Rules ν).Spares v ∨
      tag.accepts v = true ∧
        (tag = .array → v ∈ listsOf {x | ∃ s ∈ elementSchemas items?, s.Describes x}) := by
  have bounded : ({} : Constraints).Bounds tag v :=
    ⟨fun _ _ _ => ⟨nofun, nofun⟩, fun _ _ _ => ⟨nofun, nofun, nofun, nofun⟩⟩
  have matched : ({} : Constraints).Matches tag v := nofun
  have wanted : ({} : Constraints).Wants v := ⟨nofun, nofun⟩
  have classified : ({ tag } : TypeRules).Classifies v := fun named => absurd rfl named
  have lists : ({ tag } : TypeRules).Lists ((elementSchemas items?).map Describes) v ↔
      v ∈ listsOf {x | ∃ s ∈ elementSchemas items?, s.Describes x} := by
    simp [TypeRules.Lists, listsOf]
  rw [describes_typed, lists]
  simp only [bounded, matched, wanted, classified, reduceCtorEq, false_implies, implies_true, and_true, true_and]

theorem describes_tag {tag : TypeTag} (other : tag ≠ .array) :
    (typed { nullable, optional } { tag } none none : Schema ν).Describes v ↔
      tag.accepts v = true ∨ ({ nullable, optional } : Rules ν).Spares v := by
  simp only [describes_flagged, other, false_implies, and_true]
  cases tag.accepts v <;> simp

theorem describes_list {items : List (Schema ν)} :
    (typed { nullable, optional } { tag := .array } (some items) none).Describes v ↔
      v ∈ listsOf {x | ∃ s ∈ items, s.Describes x} ∨ ({ nullable, optional } : Rules ν).Spares v := by
  rw [describes_flagged]
  cases v <;> simp [TypeTag.accepts, listsOf, Rules.Spares, elementSchemas]

theorem describes_members {members : List (Schema ν)} :
    (alternation { nullable, optional } members).Describes v ↔
      (∃ s ∈ members, s.Describes v) ∨ ({ nullable, optional } : Rules ν).Spares v := by
  have wanted : ({} : Constraints).Wants v := ⟨nofun, nofun⟩
  simp only [describes_alternation, wanted, and_true, or_comm]

end Meaning

/-- Schemas whose type expression is no union, as it has one alternative at most and that one is no union. -/
inductive ShowsOne : Schema ν → Prop where
  | typed {rules : Rules ν} {type : TypeRules} {items? : Option (List (Schema ν))}
      {nested? : Option (List (PropertyKey × Schema ν))} (unclassed : type.classes = [])
      (required : rules.nullable = false ∧ rules.optional = false) : ShowsOne (.typed rules type items? nested?)
  | alternation {rules : Rules ν} {members : List (Schema ν)} (each : ∀ s ∈ members, ShowsOne s)
      (few : (orUndefined rules (orNull rules (distinct (typeExprs members)))).length ≤ 1) :
      ShowsOne (.alternation rules members)

/-- Elements whose types look alike, and therefore stand without brackets, do not look like a union. -/
def Bracketed : Schema ν → Prop
  | .typed _ _ (some items) _ => (distinct (typeExprs items)).length ≤ 1 → ∀ s ∈ items, s.ShowsOne
  | _ => True

theorem typeExprs_eq (schemas : List (Schema ν)) : typeExprs schemas = schemas.map typeExpr := by
  induction schemas with
  | nil => rfl
  | cons s rest ih => rw [typeExprs, ih, List.map_cons, typeExpr]

theorem forall_distinct_typeExprs {schemas : List (Schema ν)} {condition : String → Prop}
    (each : ∀ s ∈ schemas, condition s.typeExpr) : ∀ text ∈ distinct (typeExprs schemas), condition text := by
  intro text member
  rw [distinct, List.mem_eraseDups, typeExprs_eq] at member
  obtain ⟨s, inside, rfl⟩ := List.mem_map.1 member
  exact each s inside

/-- The type expression stands for what its schema describes, also before the suffix of lists if it is no union. -/
structure Legible (s : Schema ν) : Prop where
  reads : ReadsAs s.typeExpr {v | s.Describes v}
  one : s.ShowsOne → ReadsAsOne s.typeExpr {v | s.Describes v}

section Expressions

variable {schemas : List (Schema ν)} (legible : ∀ s ∈ schemas, s.Legible)
include legible

theorem readAny_typeExprs : readAny (typeExprs schemas) = {v | ∃ s ∈ schemas, s.Describes v} := by
  rw [typeExprs_eq]
  ext v
  simp only [readAny, List.mem_map, exists_exists_and_eq_and, Set.mem_ofPred_eq]
  refine exists_congr fun s => and_congr_right fun member => ?_
  rw [(legible s member).reads.read_eq, Set.mem_ofPred_eq]

theorem readsAs_distinct : ∀ text ∈ distinct (typeExprs schemas), ReadsAs text (read text) :=
  forall_distinct_typeExprs fun s member => (legible s member).reads.own

theorem readsAsOne_distinct (ones : ∀ s ∈ schemas, s.ShowsOne) :
    ∀ text ∈ distinct (typeExprs schemas), ReadsAsOne text (read text) :=
  forall_distinct_typeExprs fun s member => ((legible s member).one (ones s member)).own

theorem readsAsOne_ofList (bracketed : (distinct (typeExprs schemas)).length ≤ 1 → ∀ s ∈ schemas, s.ShowsOne) :
    ReadsAsOne (ofList { tag := .array } {} (typeExprs schemas)) (listsOf {x | ∃ s ∈ schemas, s.Describes x}) := by
  rw [← readAny_typeExprs legible, ← readAny_distinct]
  refine ReadsAsOne.list ?_
  split
  · exact .bracketed (readsAs_union (readsAs_distinct legible))
  · next few =>
    have few := Nat.le_of_not_lt few
    exact readsAsOne_union few (readsAsOne_distinct legible (bracketed few))

end Expressions

section Flags

variable (rules : Rules ν) {texts : List String}

theorem readAny_flags (texts : List String) :
    readAny (orUndefined rules (orNull rules texts)) = readAny texts ∪ {v | rules.Spares v} := by
  rw [readAny_orUndefined, readAny_orNull, Set.union_assoc, Set.union_comm {v | v = Value.null ∧ _}]
  rfl

theorem readsAs_flags (each : ∀ text ∈ texts, ReadsAs text (read text)) :
    ReadsAs (union (orUndefined rules (orNull rules texts))) (readAny texts ∪ {v | rules.Spares v}) := by
  rw [← readAny_flags]
  exact readsAs_union
    (forall_flags rules (ReadsAsOne.name .null).reads.own (ReadsAsOne.name .undefined).reads.own each)

theorem readsAsOne_flags (few : (orUndefined rules (orNull rules texts)).length ≤ 1)
    (each : ∀ text ∈ texts, ReadsAsOne text (read text)) :
    ReadsAsOne (union (orUndefined rules (orNull rules texts))) (readAny texts ∪ {v | rules.Spares v}) := by
  rw [← readAny_flags]
  exact readsAsOne_union few
    (forall_flags rules (ReadsAsOne.name .null).own (ReadsAsOne.name .undefined).own each)

end Flags

theorem legible_typed {rules : Rules ν} {type : TypeRules} {items? : Option (List (Schema ν))} {text : String}
    {values : Set Value} (one : ReadsAsOne text values)
    (shown : (typed rules type items? none).typeExpr = union (orUndefined rules (orNull rules [text])))
    (means : ∀ v, (typed rules type items? none).Describes v ↔ v ∈ values ∨ rules.Spares v) :
    (typed rules type items? none).Legible := by
  have described : {v | (typed rules type items? none).Describes v} = readAny [text] ∪ {v | rules.Spares v} := by
    rw [readAny_singleton, one.reads.read_eq]
    exact Set.ext means
  constructor
  · rw [shown, described]
    exact readsAs_flags rules (List.forall_mem_singleton.2 one.reads.own)
  · intro single
    cases single with
    | typed _ required =>
      have few : (orUndefined rules (orNull rules [text])).length ≤ 1 := by simp [orUndefined, orNull, required]
      rw [shown, described]
      exact readsAsOne_flags rules few (List.forall_mem_singleton.2 one.own)

theorem RuleFree.legible {s : Schema ν} (free : s.RuleFree) (bracketed : s.Everywhere Bracketed) : s.Legible := by
  induction s with
  | shape rules properties => cases free.flagged
  | alternation rules members ih =>
    obtain ⟨_, below⟩ := everywhere_iff.1 bracketed
    cases free.flagged with
    | alternation nullable optional each =>
      have legible : ∀ s ∈ members, s.Legible := fun s member =>
        ih s member (each s member) (everywhereBelow_alternation.1 below s member)
      have described : {v | (alternation { nullable, optional } members).Describes v} =
          readAny (distinct (typeExprs members)) ∪ {v | ({ nullable, optional } : Rules ν).Spares v} := by
        rw [readAny_distinct, readAny_typeExprs legible]
        exact Set.ext fun v => describes_members
      constructor
      · rw [described]
        exact readsAs_flags _ (readsAs_distinct legible)
      · intro single
        cases single with
        | alternation ones few =>
          rw [described]
          exact readsAsOne_flags _ few (readsAsOne_distinct legible ones)
  | typed rules type items? nested? itemsIh =>
    obtain ⟨own, below⟩ := everywhere_iff.1 bracketed
    cases free.flagged with
    | @tag nullable optional tag other =>
      refine legible_typed (.name tag) ?_ fun v => describes_tag other
      rw [typeExpr, presentTypes]
      simp only [if_neg other]
      rfl
    | @list nullable optional items each =>
      -- The elements are legible by induction; that they are single alternatives where it matters is assumed.
      have legible : ∀ s ∈ items, s.Legible := fun s member =>
        itemsIh rfl s member (each s member) ((everywhereBelow_typed.1 below).1 s member)
      exact legible_typed (readsAsOne_ofList legible own) rfl fun v => describes_list

end Schema

open Schema

/-- Without rules other than the flags, schemas with one type expression accept the same values, if the elements
of lists are in brackets wherever their type is a union. -/
theorem typeExpr_determines [RegexEngine] {ν : Type} {config : Config} {custom : CustomRules ν} {s t : Schema ν}
    (free : s.RuleFree ∧ t.RuleFree) (bracketed : s.Everywhere Bracketed ∧ t.Everywhere Bracketed)
    (fits : s.height ≤ config.maxDepth ∧ t.height ≤ config.maxDepth) (same : s.typeExpr = t.typeExpr) (v : Value) :
    (validateWith config custom v s).isOk = true ↔ (validateWith config custom v t).isOk = true := by
  have told {s : Schema ν} (free : s.RuleFree) (bracketed : s.Everywhere Bracketed) :
      s.Describes v ↔ v ∈ TypeExpr.read s.typeExpr := by
    rw [(free.legible bracketed).reads.read_eq]
    rfl
  rw [free.1.accepts_iff fits.1, free.2.accepts_iff fits.2, told free.1 bracketed.1, told free.2 bracketed.2, same]

def nullableTexts : Schema Empty := .array [.nullable .string, .number]

def numbersOrNull : Schema Empty := .array [.string, .oneOf [.ofTag .null, .number]]

theorem ruleFree_string : (Schema.string : Schema Empty).RuleFree := .ofTag nofun

theorem ruleFree_number : (Schema.number : Schema Empty).RuleFree := .ofTag nofun

theorem nullableTexts_determined :
    (nullableTexts.RuleFree ∧ numbersOrNull.RuleFree) ∧
      (nullableTexts.Everywhere Bracketed ∧ numbersOrNull.Everywhere Bracketed) ∧
      (nullableTexts.height ≤ ({} : Config).maxDepth ∧ numbersOrNull.height ≤ ({} : Config).maxDepth) ∧
      nullableTexts.typeExpr = numbersOrNull.typeExpr ∧
      ((validateWith {} noRules (.list [.null, .string "a"]) nullableTexts).isOk = true ↔
        (validateWith {} noRules (.list [.null, .string "a"]) numbersOrNull).isOk = true) := by
  have null : (Schema.ofTag .null : Schema Empty).RuleFree := .ofTag nofun
  have nullOrNumber : (Schema.oneOf [.ofTag .null, .number] : Schema Empty).RuleFree :=
    .oneOf (by simp [null, ruleFree_number])
  have free : nullableTexts.RuleFree ∧ numbersOrNull.RuleFree :=
    ⟨.array (by simp [ruleFree_string.nullable, ruleFree_number]), .array (by simp [ruleFree_string, nullOrNumber])⟩
  have bracketed : nullableTexts.Everywhere Bracketed ∧ numbersOrNull.Everywhere Bracketed := by
    -- Only the roots are lists, and their elements have types that differ.
    constructor
    · refine List.forall_mem_cons.2 ⟨fun few => absurd few (by decide), ?_⟩
      exact List.forall_mem_cons.2 ⟨trivial, List.forall_mem_singleton.2 trivial⟩
    · refine List.forall_mem_cons.2 ⟨fun few => absurd few (by decide), ?_⟩
      refine List.forall_mem_cons.2 ⟨trivial, List.forall_mem_cons.2 ⟨trivial, ?_⟩⟩
      exact List.forall_mem_cons.2 ⟨trivial, List.forall_mem_singleton.2 trivial⟩
  have fits : nullableTexts.height ≤ ({} : Config).maxDepth ∧ numbersOrNull.height ≤ ({} : Config).maxDepth := by
    decide
  have same : nullableTexts.typeExpr = numbersOrNull.typeExpr := by decide
  exact ⟨free, bracketed, fits, same, typeExpr_determines free bracketed fits same _⟩

/-- A list of texts or numbers has the type expression of a text or a list of numbers. -/
theorem typeExpr_ambiguous :
    ¬∀ (s t : Schema Empty), s.RuleFree → t.RuleFree → ∀ config : Config, s.height ≤ config.maxDepth →
      t.height ≤ config.maxDepth → s.typeExpr = t.typeExpr → ∀ v : Value,
        ((validateWith config noRules v s).isOk = true ↔ (validateWith config noRules v t).isOk = true) := by
  intro determines
  have either : (Schema.oneOf [.string, .number] : Schema Empty).RuleFree :=
    .oneOf (by simp [ruleFree_string, ruleFree_number])
  have numbers : (Schema.array [.number] : Schema Empty).RuleFree := .array (by simp [ruleFree_number])
  have wrong := determines (.array [.oneOf [.string, .number]]) (.oneOf [.string, .array [.number]])
    (.array (by simp [either])) (.oneOf (by simp [ruleFree_string, numbers])) {} (by decide) (by decide) (by decide)
    (.list [.string "a"])
  exact absurd (wrong.1 (by decide)) (by decide)

end Conform
