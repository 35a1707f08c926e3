import Conform.Proofs.LastRules
import Conform.Proofs.Meaning

/-! The elements of a list. Each is answered at its own position, and the list by all of its elements together: they are
matched one by one and in order, or the first that is not accepted makes the list fail. -/

namespace Conform

theorem Failure.relabelled_within (kind : FailureKind) (heading token : String) (inner : Failure) :
    (inner.within token).relabelled kind heading =
      ⟨if inner.isFatal then .depthExceeded else kind,
        if inner.isFatal then inner.message else heading ++ " " ++ inner.message, token :: inner.path⟩ := by
  cases fatal : inner.isFatal with
  | true =>
    have deep : inner.kind = .depthExceeded := beq_iff_eq.1 fatal
    rw [relabelled_of_isFatal (by exact fatal), within, deep]
    rfl
  | false =>
    rw [relabelled, isFatal_within, fatal]
    rfl

theorem Context.elements_error_iff {type : TypeRules} {items : List (Check Id)} {xs : List Value}
    (fixed : type.keepLength = true → xs.length = items.length) {f : Failure} :
    outcome (elements type items (.list xs)) = .error f ↔
      ∃ (index : Nat) (x : Value) (inner : Failure), xs[index]? = some x ∧
        (∀ earlier < index, ∀ y, xs[earlier]? = some y →
          ∃ z, outcome (element type.keepOrder items earlier y) = .ok z) ∧
        outcome (element type.keepOrder items index x) = .error inner ∧
        f = (inner.within ("[" ++ toString index ++ "]")).relabelled .arrayElement
          "Invalid type of element in array!" := by
  have right : ¬(type.keepLength && xs.length != items.length) = true := by simpa using fixed
  simp only [elements, if_neg right, outcome_bind_error, outcome_pure, reduceCtorEq, and_false, exists_false,
    or_false, mapM_error_iff, outcome_adapt, mapError_ok, mapError_error, List.getElem?_zipIdx, Nat.zero_add,
    Option.map_eq_some_iff, forall_exists_index, and_imp, forall_apply_eq_imp_iff₂]
  constructor
  · intro given
    obtain ⟨index, _, ⟨x, found, rfl⟩, fine, inner, failed, rfl⟩ := given
    exact ⟨index, x, inner, found, fine, failed, rfl⟩
  · intro given
    obtain ⟨index, x, inner, found, fine, failed, rfl⟩ := given
    exact ⟨index, _, ⟨x, found, rfl⟩, fine, inner, failed, rfl⟩

section

variable [RegexEngine] {ν : Type} {config : Config} {custom : CustomRules ν}

/-- What is answered to the element at a position, one level below the node of the list: by position the schema there
answers, and past the last schema the element passes as it is; otherwise the schemas are asked in order. -/
def elementAnswer (config : Config) (custom : CustomRules ν) (keepOrder : Bool) (schemas : List (Schema ν))
    (index : Nat) (x : Value) : Outcome :=
  let answers := schemas.map fun s => outcome ((Context.direct config custom).check s 1 x)
  if keepOrder then answers[index]?.getD (.ok x)
  else firstAnswer (.here .arrayElement "No item schemas accept the element!") answers

theorem element_eq (keepOrder : Bool) (schemas : List (Schema ν)) (index : Nat) (x : Value) :
    outcome (Context.element keepOrder (schemas.map ((Context.direct config custom).check · 1)) index x) =
      elementAnswer config custom keepOrder schemas index x := by
  unfold Context.element elementAnswer
  cases keepOrder with
  | false => simp [Check.firstOf_eq, Function.comp_def]
  | true => cases found : schemas[index]? <;> simp [found]

section Node

variable {rules : Rules ν} {type : TypeRules} {items? : Option (List (Schema ν))} {xs : List Value}

theorem validateWith_elements (array : type.tag = .array) (free : rules.constraints.equals? = none)
    (unlisted : rules.constraints.contains? = none) (uncustomized : rules.custom? = none)
    (bounds : rules.constraints.Bounds .array (.list xs)) (classified : type.Classifies (.list xs)) :
    validateWith config custom (.list xs) (.typed rules type items? none) =
      outcome (Context.elements type
        ((Schema.elementSchemas items?).map ((Context.direct config custom).check · 1)) (.list xs)) := by
  change outcome ((Context.direct config custom).check _ 0 (.list xs)) = _
  have accepted : type.tag.accepts (.list xs) = true := by rw [array]; rfl
  have pattern : rules.constraints.Matches type.tag (.list xs) := fun _ _ _ _ => nofun
  have last : (Context.direct config custom).valueRules (.typed rules type items? none) = pure :=
    Context.valueRules_of_undeclared _ free unlisted uncustomized
  rw [← array] at bounds
  rw [Context.check_typed, Context.guarded_of_le _ (Nat.zero_le _), Context.typed]
  simp only [if_pos accepted, if_pos array, Schema.rules, Constraints.checkBounds_ok.2 bounds,
    Constraints.checkPattern_ok.2 pattern, TypeRules.checkClass_ok.2 classified, Option.map_none, Option.elim_none,
    last, bind_pure]
  rfl

/-- A list is accepted if each of its elements is, and matched by what they become at their positions. Otherwise it fails
as the first element that is not accepted, with the position of that element in front of the path. -/
theorem validateWith_list (array : type.tag = .array) (free : rules.constraints.equals? = none)
    (unlisted : rules.constraints.contains? = none) (uncustomized : rules.custom? = none)
    (bounds : rules.constraints.Bounds .array (.list xs)) (classified : type.Classifies (.list xs))
    (fixed : type.keepLength = true → xs.length = (Schema.elementSchemas items?).length) :
    ((∃ w, validateWith config custom (.list xs) (.typed rules type items? none) = .ok w) ↔
      ∀ (index : Nat) (x : Value), xs[index]? = some x →
        ∃ y, elementAnswer config custom type.keepOrder (Schema.elementSchemas items?) index x = .ok y) ∧
    (∀ w, validateWith config custom (.list xs) (.typed rules type items? none) = .ok w →
      ∃ ys, w = .list ys ∧ ys.length = xs.length ∧
        ∀ (index : Nat) (x y : Value), xs[index]? = some x → ys[index]? = some y →
          elementAnswer config custom type.keepOrder (Schema.elementSchemas items?) index x = .ok y) ∧
    ∀ f, validateWith config custom (.list xs) (.typed rules type items? none) = .error f ↔
      ∃ (index : Nat) (x : Value) (inner : Failure), xs[index]? = some x ∧
        (∀ earlier < index, ∀ y, xs[earlier]? = some y →
          ∃ z, elementAnswer config custom type.keepOrder (Schema.elementSchemas items?) earlier y = .ok z) ∧
        elementAnswer config custom type.keepOrder (Schema.elementSchemas items?) index x = .error inner ∧
        f = ⟨if inner.isFatal then .depthExceeded else .arrayElement,
          if inner.isFatal then inner.message else "Invalid type of element in array!" ++ " " ++ inner.message,
          ("[" ++ toString index ++ "]") :: inner.path⟩ := by
  rw [validateWith_elements array free unlisted uncustomized bounds classified]
  have fixed' : type.keepLength = true → xs.length =
      ((Schema.elementSchemas items?).map ((Context.direct config custom).check · 1)).length := by
    simpa using fixed
  refine ⟨?_, fun w matched => ?_, fun f => ?_⟩
  · simp only [← exists_results, Context.elements_ok, element_eq]
    constructor
    · intro given
      obtain ⟨_, _, ys, rfl, same, each⟩ := given
      exact ⟨ys, same, each⟩
    · intro given
      obtain ⟨ys, same, each⟩ := given
      exact ⟨_, fixed', ys, rfl, same, each⟩
  · obtain ⟨_, ys, rfl, same, each⟩ := Context.elements_ok.1 matched
    simp only [element_eq] at each
    exact ⟨ys, rfl, same, each⟩
  · simp only [Context.elements_error_iff fixed', element_eq, Failure.relabelled_within]

end Node

end

def scalarItems : List (Schema Empty) := [.ofTag .string, .ofTag .integer, .ofTag .boolean]

def scalars : Schema Empty :=
  .typed { constraints := { length? := some 3 } } { tag := .array, instance? := some "Array", keepLength := true }
    (some scalarItems) none

theorem scalars_answer :
    scalars.rules.constraints.Bounds .array (.list [.int 1, .string "a", .null]) ∧
      TypeRules.Classifies { tag := .array, instance? := some "Array", keepLength := true }
        (.list [.int 1, .string "a", .null]) ∧
      [Value.int 1, .string "a", .null].length = (Schema.elementSchemas (some scalarItems)).length ∧
      validateWith {} noRules (.list [.int 1, .string "a", .null]) scalars =
        .error ⟨.arrayElement, "Invalid type of element in array! Non-nullable property is 'null'!", ["[2]"]⟩ := by
  have bounds : scalars.rules.constraints.Bounds .array (.list [.int 1, .string "a", .null]) :=
    Constraints.checkBounds_ok.1 rfl
  have classified : TypeRules.Classifies { tag := .array, instance? := some "Array", keepLength := true }
      (.list [.int 1, .string "a", .null]) := TypeRules.checkClass_ok.1 rfl
  refine ⟨bounds, classified, rfl, ((validateWith_list rfl rfl rfl rfl bounds classified fun _ => rfl).2.2 _).2
    ⟨2, .null, .here .typeMismatch "Non-nullable property is 'null'!", rfl, fun earlier before y found => ?_, rfl, rfl⟩⟩
  match earlier, before with
  | 0, _ | 1, _ =>
    cases found
    exact ⟨_, rfl⟩

end Conform
