import Conform.Proofs.Outcome
import Conform.Proofs.Rules
import Conform.Proofs.SchemaTree
import Conform.Validation.Session

/-! When a check succeeds, and with which value: one statement for each part of the check of a
node. -/

namespace Conform

variable [RegexEngine] {ν : Type} {config : Config} {custom : CustomRules ν}

/-- The pairs that one property adds to the matched fields. A literal key adds one. A marker
adds one for each field that it selects; if it selects none, an absent value has to do. -/
inductive Adds (fields : List (String × Value)) :
    PropertyKey → (Value → Outcome) → List (String × Value) → Prop where
  | literal {name : String} {check : Value → Outcome} {y : Value}
      (accepted : check ((fields.lookup name).getD .undefined) = .ok y) :
      Adds fields (.literal name) check [(name, y)]
  | pattern {p : KeyPattern} {regex : Regex} {check : Value → Outcome}
      {pairs : List (String × Value)} (compiled : p.compile = .ok regex)
      (each : List.Forall₂ (Check.Keeps check) (fields.filter (regex.isMatch ·.1)) pairs)
      (absent : fields.filter (regex.isMatch ·.1) = [] → ∃ y, check .undefined = .ok y) :
      Adds fields (.pattern p) check pairs

namespace Context

theorem guarded_ok {ctx : Context Id ν} {depth : Nat} {check : Check Id} {v w : Value} :
    outcome (ctx.guarded depth check v) = .ok w ↔ depth ≤ ctx.config.maxDepth ∧ outcome (check v) = .ok w := by
  unfold guarded
  split
  · next deep => simp [Nat.not_le.2 deep]
  · next shallow => simp [Nat.not_lt.1 shallow]

theorem valueRules_ok {ctx : Context Id ν} {schema : Schema ν} {v w : Value} :
    outcome (ctx.valueRules schema v) = .ok w ↔
      schema.rules.constraints.Wants v ∧
        (match schema.rules.custom? with
          | some rule => ctx.custom rule v schema
          | none => .ok v) = .ok w := by
  rw [valueRules, outcome_rule_ok, outcome_rule_ok, Constraints.checkEquality_ok,
    Constraints.checkEnumeration_ok, ← and_assoc]
  cases schema.rules.custom? with
  | some rule => rw [outcome_liftExcept]; rfl
  | none => rfl

theorem patternFields_ok {p : KeyPattern} {check : Check Id}
    {fields matched out : List (String × Value)} :
    outcome ((direct config custom).patternFields p check fields matched) = .ok out ↔
      ∃ pairs, Adds fields (.pattern p) (fun x => outcome (check x)) pairs ∧
        storeAll matched pairs = out := by
  rw [patternFields, outcome_bind_ok]
  simp only [outcome_liftId, Except.ok.injEq, exists_eq_left', direct, Id.run]
  cases compiled : p.compile with
  | error e =>
    simp only [outcome_throw, reduceCtorEq, false_iff]
    intro given
    obtain ⟨pairs, ⟨⟩ | ⟨other, _, _⟩, _⟩ := given
    cases compiled.symm.trans other
  | ok regex =>
    cases selected : fields.filter (regex.isMatch ·.1) with
    | nil =>
      simp only [selected, outcome_bind_ok, outcome_adapt, mapError_ok, outcome_pure, Except.ok.injEq]
      constructor
      · intro given
        obtain ⟨y, accepted, rfl⟩ := given
        exact ⟨[], .pattern compiled (by rw [selected]; exact .nil) fun _ => ⟨y, accepted⟩, rfl⟩
      · intro given
        obtain ⟨pairs, ⟨⟩ | ⟨other, each, absent⟩, rfl⟩ := given
        cases compiled.symm.trans other
        obtain ⟨y, accepted⟩ := absent selected
        rw [selected, List.forall₂_nil_left_iff] at each
        exact ⟨y, accepted, each ▸ rfl⟩
    | cons field rest =>
      simp only [selected, Check.foldlM_field_ok]
      constructor
      · intro given
        obtain ⟨pairs, each, rfl⟩ := given
        exact ⟨pairs, .pattern compiled (selected ▸ each) (by simp [selected]), rfl⟩
      · intro given
        obtain ⟨pairs, ⟨⟩ | ⟨other, each, _⟩, rfl⟩ := given
        cases compiled.symm.trans other
        exact ⟨pairs, selected ▸ each, rfl⟩

/-- The properties of a shape succeed together when each of them does, and the pairs that they
add are stored in order of declaration. -/
theorem properties_ok {entries : List (PropertyKey × Check Id)}
    {fields out : List (String × Value)} :
    outcome ((direct config custom).properties entries fields) = .ok out ↔
      ∃ groups, List.Forall₂ (fun entry => Adds fields entry.1 fun x => outcome (entry.2 x))
        entries groups ∧ storeAll [] groups.flatten = out := by
  apply foldlM_store_ok
  intro matched entry next
  obtain ⟨key, check⟩ := entry
  cases key with
  | pattern p => exact patternFields_ok
  | literal name =>
    refine Check.field_ok.trans ⟨?_, ?_⟩
    · intro given
      obtain ⟨y, accepted, rfl⟩ := given
      exact ⟨_, .literal accepted, rfl⟩
    · intro given
      obtain ⟨_, ⟨accepted⟩, rfl⟩ := given
      exact ⟨_, accepted, rfl⟩

theorem shape_ok {schema : Schema ν} {entries : List (PropertyKey × Check Id)} {v w : Value} :
    outcome ((direct config custom).shape schema entries v) = .ok w ↔
      schema.rules.absentExit? v = some w ∨ schema.rules.absentExit? v = none ∧
        ∃ fields groups, v.fields? = some fields ∧
          List.Forall₂ (fun entry => Adds fields entry.1 fun x => outcome (entry.2 x)) entries groups ∧
          outcome ((direct config custom).valueRules schema
            (v.withFields (storeAll [] groups.flatten))) = .ok w := by
  unfold shape
  cases schema.rules.absentExit? v with
  | some exit => simp
  | none =>
    cases v.fields? with
    | none => simp
    | some fields => simp [outcome_bind_ok, properties_ok]

theorem alternation_ok {ctx : Context Id ν} {schema : Schema ν} {members : List (Check Id)} {v w : Value} :
    outcome (ctx.alternation schema members v) = .ok w ↔
      schema.rules.absentExit? v = some w ∨ schema.rules.absentExit? v = none ∧
        ∃ before check after x, members = before ++ check :: after ∧
          (∀ earlier ∈ before, earlier.Rejects v false) ∧ outcome (check v) = .ok x ∧
          outcome (ctx.valueRules schema x) = .ok w := by
  unfold alternation
  cases schema.rules.absentExit? v with
  | some exit => simp
  | none =>
    simp only [outcome_bind_ok, outcome_adapt, mapError_ok, Check.firstOf_ok, reduceCtorEq, false_or,
      true_and]
    constructor
    · intro given
      obtain ⟨x, ⟨before, check, after, split, rejected, accepted⟩, holds⟩ := given
      exact ⟨before, check, after, x, split, rejected, accepted, holds⟩
    · intro given
      obtain ⟨before, check, after, x, split, rejected, accepted, holds⟩ := given
      exact ⟨x, ⟨before, check, after, split, rejected, accepted⟩, holds⟩

omit [RegexEngine] in
theorem element_ok {keepOrder : Bool} {items : List (Check Id)} {index : Nat} {x y : Value} :
    outcome (element keepOrder items index x) = .ok y ↔
      keepOrder = true ∧ (items[index]? = none ∧ y = x ∨
        ∃ check, items[index]? = some check ∧ outcome (check x) = .ok y) ∨
      keepOrder = false ∧ ∃ before check after, items = before ++ check :: after ∧
        (∀ earlier ∈ before, earlier.Rejects x false) ∧ outcome (check x) = .ok y := by
  unfold element
  cases keepOrder with
  | false => simp [Check.firstOf_ok]
  | true => cases items[index]? <;> simp [eq_comm]

omit [RegexEngine] in
theorem elements_ok {type : TypeRules} {items : List (Check Id)} {xs : List Value} {w : Value} :
    outcome (elements type items (.list xs)) = .ok w ↔
      (type.keepLength = true → xs.length = items.length) ∧
        ∃ ys, w = .list ys ∧ ys.length = xs.length ∧
          ∀ index x y, xs[index]? = some x → ys[index]? = some y →
            outcome (element type.keepOrder items index x) = .ok y := by
  simp only [elements]
  split
  · next wrong =>
    simp only [Bool.and_eq_true, bne_iff_ne] at wrong
    simp [wrong]
  · next right =>
    simp only [outcome_bind_ok, mapM_ok, outcome_adapt, mapError_ok, outcome_pure, Except.ok.injEq,
      List.forall₂_iff_get, List.length_zipIdx, List.get_eq_getElem, List.getElem_zipIdx, Nat.zero_add]
    have fixed : type.keepLength = true → xs.length = items.length := by simpa using right
    constructor
    · intro given
      obtain ⟨ys, ⟨same, each⟩, rfl⟩ := given
      refine ⟨fixed, ys, rfl, same.symm, fun index x y atX atY => ?_⟩
      obtain ⟨inXs, rfl⟩ := List.getElem?_eq_some_iff.1 atX
      obtain ⟨inYs, rfl⟩ := List.getElem?_eq_some_iff.1 atY
      exact each index inXs inYs
    · intro given
      obtain ⟨_, ys, rfl, same, each⟩ := given
      refine ⟨ys, ⟨same.symm, fun index inXs inYs => ?_⟩, rfl⟩
      exact each index _ _ (List.getElem?_eq_getElem inXs) (List.getElem?_eq_getElem inYs)

theorem nestedShape_ok {declared : List (PropertyKey × Schema ν)}
    {entries : List (PropertyKey × Check Id)} {v w : Value} :
    outcome ((direct config custom).nestedShape declared entries v) = .ok w ↔
      ∃ fields groups, v.fields? = some fields ∧
        List.Forall₂ (fun entry => Adds fields entry.1 fun x => outcome (entry.2 x)) entries groups ∧
        v.withFields (storeAll [] groups.flatten) = w := by
  unfold nestedShape
  cases v.fields? with
  | none => simp
  | some fields =>
    simp only [outcome_bind_ok, outcome_adapt, mapError_ok, properties_ok, outcome_pure,
      Except.ok.injEq, Option.some.injEq]
    constructor
    · intro given
      obtain ⟨_, ⟨groups, each, rfl⟩, same⟩ := given
      exact ⟨fields, groups, rfl, each, same⟩
    · intro given
      obtain ⟨_, groups, rfl, each, same⟩ := given
      exact ⟨_, ⟨groups, each, rfl⟩, same⟩

theorem typed_ok {ctx : Context Id ν} {schema : Schema ν} {type : TypeRules} {items : List (Check Id)}
    {nested? : Option (Check Id)} {v w : Value} :
    outcome (ctx.typed schema type items nested? v) = .ok w ↔
      type.tag.accepts v = false ∧ schema.rules.absentExit? v = some w ∨
      type.tag.accepts v = true ∧ schema.rules.constraints.Bounds type.tag v ∧
        schema.rules.constraints.Matches type.tag v ∧ type.Classifies v ∧
        ∃ listed shaped,
          (if type.tag = .array then outcome (elements type items v) = .ok listed else listed = v) ∧
          (nested?.elim (shaped = listed) fun nested => outcome (nested listed) = .ok shaped) ∧
          outcome (ctx.valueRules schema shaped) = .ok w := by
  unfold typed
  cases accepted : type.tag.accepts v with
  | false => cases schema.rules.absentExit? v <;> simp
  | true =>
    rw [if_pos rfl, outcome_rule_ok, outcome_rule_ok, outcome_rule_ok, Constraints.checkBounds_ok,
      Constraints.checkPattern_ok, TypeRules.checkClass_ok]
    simp only [reduceCtorEq, false_and, false_or, true_and]
    refine and_congr_right fun _ => and_congr_right fun _ => and_congr_right fun _ => ?_
    by_cases array : type.tag = .array <;> cases nested? <;>
      simp [array, outcome_bind_ok]

end Context

end Conform
