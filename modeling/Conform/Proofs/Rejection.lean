import Conform.Proofs.Success

/-! When a check fails, and with which failure: one statement for each part of the check of a
node. -/

namespace Conform

variable [RegexEngine] {ν : Type} {config : Config} {custom : CustomRules ν}

/-- How one property fails. The failure comes from a field that the key selects or from the
absent value that stands for one, or it is about the marker itself. -/
inductive PropertyFails (fields : List (String × Value)) :
    PropertyKey → (Value → Outcome) → Failure → Prop where
  | literal {name : String} {check : Value → Outcome} {inner : Failure}
      (rejected : check ((fields.lookup name).getD .undefined) = .error inner) :
      PropertyFails fields (.literal name) check (inner.within name)
  | invalidMarker {p : KeyPattern} {check : Value → Outcome} {e : SchemaError}
      (invalid : p.compile = .error e) :
      PropertyFails fields (.pattern p) check
        ⟨.invalidKeyPattern, "Invalid key pattern! " ++ e.message, [(PropertyKey.pattern p).text]⟩
  | selected {p : KeyPattern} {regex : Regex} {check : Value → Outcome} {field : String × Value}
      {inner : Failure} (compiled : p.compile = .ok regex) (member : field ∈ fields)
      (matched : regex.isMatch field.1 = true) (rejected : check field.2 = .error inner) :
      PropertyFails fields (.pattern p) check (inner.within field.1)
  | absent {p : KeyPattern} {regex : Regex} {check : Value → Outcome} {inner : Failure}
      (compiled : p.compile = .ok regex) (none : ∀ field ∈ fields, regex.isMatch field.1 = false)
      (rejected : check .undefined = .error inner) (fatal : inner.isFatal = true) :
      PropertyFails fields (.pattern p) check (inner.within (PropertyKey.pattern p).text)
  | missing {p : KeyPattern} {regex : Regex} {check : Value → Outcome} {inner : Failure}
      (compiled : p.compile = .ok regex) (none : ∀ field ∈ fields, regex.isMatch field.1 = false)
      (rejected : check .undefined = .error inner) (mild : inner.isFatal = false) :
      PropertyFails fields (.pattern p) check
        ⟨.missingKey, "No keys matching pattern '" ++ p.marker ++ "' found!",
          [(PropertyKey.pattern p).text]⟩

namespace Context

theorem guarded_error {ctx : Context Id ν} {depth : Nat} {check : Check Id} {v : Value} {f : Failure} :
    outcome (ctx.guarded depth check v) = .error f ↔
      ctx.config.maxDepth < depth ∧ f = .here .depthExceeded
        ("Maximum schema depth of '" ++ toString ctx.config.maxDepth ++ "' exceeded!") ∨
      depth ≤ ctx.config.maxDepth ∧ outcome (check v) = .error f := by
  unfold guarded
  split
  · next deep => simp [deep, Nat.not_le.2 deep, eq_comm]
  · next shallow => simp [shallow, Nat.not_lt.1 shallow]

theorem valueRules_error {ctx : Context Id ν} {schema : Schema ν} {v : Value} {f : Failure} :
    outcome (ctx.valueRules schema v) = .error f ↔
      schema.rules.constraints.checkEquality v = .error f ∨
      schema.rules.constraints.checkEquality v = .ok () ∧
        (schema.rules.constraints.checkEnumeration ctx.config.enumPreview v = .error f ∨
        schema.rules.constraints.checkEnumeration ctx.config.enumPreview v = .ok () ∧
          ∃ rule, schema.rules.custom? = some rule ∧ ctx.custom rule v schema = .error f) := by
  rw [valueRules, outcome_rule_error, outcome_rule_error]
  cases schema.rules.custom? with
  | some rule => simp
  | none => simp

theorem patternFields_error {p : KeyPattern} {check : Check Id}
    {fields matched : List (String × Value)} {f : Failure}
    (failed : outcome ((direct config custom).patternFields p check fields matched) = .error f) :
    PropertyFails fields (.pattern p) (fun x => outcome (check x)) f := by
  rw [patternFields, outcome_bind_error] at failed
  simp only [outcome_liftId, Except.ok.injEq, exists_eq_left', direct, Id.run, reduceCtorEq, false_or] at failed
  cases compiled : p.compile with
  | error e =>
    simp only [compiled, outcome_throw, Except.error.injEq] at failed
    exact failed ▸ .invalidMarker compiled
  | ok regex =>
    cases selected : fields.filter (regex.isMatch ·.1) with
    | nil =>
      have none : ∀ field ∈ fields, regex.isMatch field.1 = false := by
        simpa [List.filter_eq_nil_iff] using selected
      simp only [compiled, selected, outcome_bind_error, outcome_adapt, mapError_error, outcome_pure,
        reduceCtorEq, and_false, exists_false, or_false] at failed
      obtain ⟨inner, rejected, rfl⟩ := failed
      split
      · next fatal => exact .absent compiled none rejected fatal
      · next mild => exact .missing compiled none rejected (by simpa using mild)
    | cons first rest =>
      simp only [compiled, selected] at failed
      obtain ⟨field, member, inner, rejected, rfl⟩ := Check.foldlM_field_error failed
      obtain ⟨inFields, matched⟩ := List.mem_filter.1 (selected ▸ member)
      exact .selected compiled inFields matched rejected

theorem properties_error {entries : List (PropertyKey × Check Id)} {fields : List (String × Value)}
    {f : Failure} (failed : outcome ((direct config custom).properties entries fields) = .error f) :
    ∃ entry ∈ entries, PropertyFails fields entry.1 (fun x => outcome (entry.2 x)) f := by
  obtain ⟨⟨key, check⟩, member, matched, step⟩ := foldlM_error failed
  refine ⟨_, member, ?_⟩
  cases key with
  | literal name =>
    obtain ⟨inner, rejected, rfl⟩ := Check.field_error.1 step
    exact .literal rejected
  | pattern p => exact patternFields_error step

theorem shape_error {schema : Schema ν} {entries : List (PropertyKey × Check Id)} {v : Value} {f : Failure}
    (failed : outcome ((direct config custom).shape schema entries v) = .error f) :
    schema.rules.absentExit? v = none ∧
      (v.fields? = none ∧ f = .here .objectShape
        ("Expected '" ++ schema.typeExpr ++ "', instead got '" ++ v.shape ++ "'!") ∨
      ∃ fields, v.fields? = some fields ∧
        ((∃ entry ∈ entries, PropertyFails fields entry.1 (fun x => outcome (entry.2 x)) f) ∨
        ∃ groups, List.Forall₂ (fun entry => Adds fields entry.1 fun x => outcome (entry.2 x)) entries groups ∧
          outcome ((direct config custom).valueRules schema
            (v.withFields (storeAll [] groups.flatten))) = .error f)) := by
  unfold shape at failed
  cases exit : schema.rules.absentExit? v with
  | some exit => simp [exit] at failed
  | none =>
    simp only [exit] at failed
    refine ⟨rfl, ?_⟩
    cases keyed : v.fields? with
    | none =>
      simp only [keyed, outcome_throw, Except.error.injEq] at failed
      exact .inl ⟨rfl, failed.symm⟩
    | some fields =>
      simp only [keyed, outcome_bind_error] at failed
      refine .inr ⟨fields, rfl, ?_⟩
      rcases failed with failed | ⟨matched, accepted, failed⟩
      · exact .inl (properties_error failed)
      · obtain ⟨groups, each, rfl⟩ := properties_ok.1 accepted
        exact .inr ⟨groups, each, failed⟩

theorem alternation_error {ctx : Context Id ν} {schema : Schema ν} {members : List (Check Id)} {v : Value}
    {f : Failure} (failed : outcome (ctx.alternation schema members v) = .error f) :
    schema.rules.absentExit? v = none ∧
      ((∃ before check after, members = before ++ check :: after ∧
        (∀ earlier ∈ before, earlier.Rejects v false) ∧ outcome (check v) = .error f ∧
        f.isFatal = true) ∨
      (∀ check ∈ members, check.Rejects v false) ∧ f = .here .typeMismatch
        ("Invalid property type! Expected '" ++ schema.typeExpr ++ "', instead got '" ++ v.shape ++ "'!") ∨
      ∃ before check after x, members = before ++ check :: after ∧
        (∀ earlier ∈ before, earlier.Rejects v false) ∧ outcome (check v) = .ok x ∧
        outcome (ctx.valueRules schema x) = .error f) := by
  unfold alternation at failed
  cases exit : schema.rules.absentExit? v with
  | some exit => simp [exit] at failed
  | none =>
    simp only [exit, outcome_bind_error, outcome_adapt, mapError_error, mapError_ok] at failed
    refine ⟨rfl, ?_⟩
    rcases failed with ⟨inner, failed, rfl⟩ | ⟨x, accepted, failed⟩
    · rcases Check.firstOf_error failed with ⟨before, check, after, split, rejected, found, fatal⟩ | ⟨all, found⟩
      · rw [if_pos fatal]
        exact .inl ⟨before, check, after, split, rejected, found, fatal⟩
      · have mild : ¬inner.isFatal = true := by
          rcases found with ⟨_, rfl⟩ | ⟨before, check, rfl, found⟩
          · decide
          · obtain ⟨g, rejected, mild⟩ := all check (by simp)
            cases found.symm.trans rejected
            simp [mild]
        rw [if_neg mild]
        exact .inr (.inl ⟨all, rfl⟩)
    · obtain ⟨before, check, after, split, rejected, found⟩ := Check.firstOf_ok.1 accepted
      exact .inr (.inr ⟨before, check, after, x, split, rejected, found, failed⟩)

omit [RegexEngine] in
theorem element_error {keepOrder : Bool} {items : List (Check Id)} {index : Nat} {x : Value} {f : Failure}
    (failed : outcome (element keepOrder items index x) = .error f) :
    keepOrder = true ∧ (∃ check, items[index]? = some check ∧ outcome (check x) = .error f) ∨
    keepOrder = false ∧
      ((∃ before check after, items = before ++ check :: after ∧
        (∀ earlier ∈ before, earlier.Rejects x false) ∧ outcome (check x) = .error f ∧
        f.isFatal = true) ∨
      (∀ check ∈ items, check.Rejects x false) ∧
        (items = [] ∧ f = .here .arrayElement "No item schemas accept the element!" ∨
          ∃ before check, items = before ++ [check] ∧ outcome (check x) = .error f)) := by
  unfold element at failed
  cases keepOrder with
  | false => exact .inr ⟨rfl, Check.firstOf_error failed⟩
  | true =>
    cases found : items[index]? with
    | none => simp [found] at failed
    | some check => exact .inl ⟨rfl, check, rfl, by simpa [found] using failed⟩

omit [RegexEngine] in
theorem elements_error {type : TypeRules} {items : List (Check Id)} {v : Value} {f : Failure}
    (failed : outcome (elements type items v) = .error f) :
    ∃ xs, v = .list xs ∧
      (type.keepLength = true ∧ xs.length ≠ items.length ∧ f = .here .arrayLength
        ("Invalid number of elements in array! Expected '" ++ toString items.length ++
          "' items, instead got '" ++ toString xs.length ++ "'!") ∨
      ∃ index x inner, xs[index]? = some x ∧
        outcome (element type.keepOrder items index x) = .error inner ∧
        f = (inner.within ("[" ++ toString index ++ "]")).relabelled .arrayElement
          "Invalid type of element in array!") := by
  unfold elements at failed
  split at failed
  · next xs =>
    refine ⟨xs, rfl, ?_⟩
    split at failed
    · next wrong =>
      simp only [Bool.and_eq_true, bne_iff_ne] at wrong
      exact .inl ⟨wrong.1, wrong.2, (Except.error.inj failed).symm⟩
    · simp only [outcome_bind_error, outcome_pure, reduceCtorEq, and_false, exists_false, or_false] at failed
      obtain ⟨⟨x, index⟩, member, step⟩ := mapM_error failed
      simp only [outcome_adapt, mapError_error] at step
      obtain ⟨inner, rejected, rfl⟩ := step
      exact .inr ⟨index, x, inner, List.mem_zipIdx_iff_getElem?.1 member, rejected, rfl⟩
  · cases failed

theorem nestedShape_error {declared : List (PropertyKey × Schema ν)}
    {entries : List (PropertyKey × Check Id)} {v : Value} {f : Failure}
    (failed : outcome ((direct config custom).nestedShape declared entries v) = .error f) :
    v.fields? = none ∧ f = .here .objectShape ("Object does not match the schema!" ++ " Expected '" ++
      TypeExpr.braces (Schema.propertyTypes declared) ++ "', instead got '" ++ v.shape ++ "'!") ∨
    ∃ fields, v.fields? = some fields ∧
      ∃ entry ∈ entries, ∃ inner, PropertyFails fields entry.1 (fun x => outcome (entry.2 x)) inner ∧
        f = inner.relabelled .objectShape "Object does not match the schema!" := by
  unfold nestedShape at failed
  cases keyed : v.fields? with
  | none =>
    simp only [keyed, outcome_throw, Except.error.injEq] at failed
    exact .inl ⟨rfl, failed.symm⟩
  | some fields =>
    simp only [keyed, outcome_bind_error, outcome_adapt, mapError_error, outcome_pure, reduceCtorEq,
      and_false, exists_false, or_false] at failed
    obtain ⟨inner, failed, rfl⟩ := failed
    obtain ⟨entry, member, fails⟩ := properties_error failed
    exact .inr ⟨fields, rfl, entry, member, inner, fails, rfl⟩

theorem typed_error {ctx : Context Id ν} {schema : Schema ν} {type : TypeRules} {items : List (Check Id)}
    {nested? : Option (Check Id)} {v : Value} {f : Failure}
    (failed : outcome (ctx.typed schema type items nested? v) = .error f) :
    type.tag.accepts v = false ∧ schema.rules.absentExit? v = none ∧ f = typeMismatch type.tag v ∨
    type.tag.accepts v = true ∧
      (schema.rules.constraints.checkBounds type.tag v = .error f ∨
      schema.rules.constraints.checkPattern type.tag v = .error f ∨
      type.checkClass v = .error f ∨
      type.tag = .array ∧ outcome (elements type items v) = .error f ∨
      (∃ nested listed, nested? = some nested ∧
        (if type.tag = .array then outcome (elements type items v) = .ok listed else listed = v) ∧
        outcome (nested listed) = .error f) ∨
      ∃ listed shaped, schema.rules.constraints.Bounds type.tag v ∧
        schema.rules.constraints.Matches type.tag v ∧ type.Classifies v ∧
        (if type.tag = .array then outcome (elements type items v) = .ok listed else listed = v) ∧
        (nested?.elim (shaped = listed) fun nested => outcome (nested listed) = .ok shaped) ∧
        outcome (ctx.valueRules schema shaped) = .error f) := by
  unfold typed at failed
  cases accepted : type.tag.accepts v with
  | false => cases exit : schema.rules.absentExit? v <;> simp_all
  | true =>
    rw [if_pos accepted, outcome_rule_error, outcome_rule_error, outcome_rule_error] at failed
    refine .inr ⟨rfl, ?_⟩
    rcases failed with failed | ⟨bounds, failed | ⟨pattern, failed | ⟨className, failed⟩⟩⟩
    · exact .inl failed
    · exact .inr (.inl failed)
    · exact .inr (.inr (.inl failed))
    · refine .inr (.inr (.inr ?_))
      rw [Constraints.checkBounds_ok] at bounds
      rw [Constraints.checkPattern_ok] at pattern
      rw [TypeRules.checkClass_ok] at className
      by_cases array : type.tag = .array <;> cases nested? <;>
        simp [array, outcome_bind_error] at failed ⊢ <;> grind

end Context

end Conform
