import Conform.Proofs.Doubles
import Conform.Proofs.TypeMeaning

/-! The length that the type expression of a list shows where the length is fixed. It is the number of schemas for
elements, or the whole part of the lower limit if that is greater. Then the limit keeps every list out that has one
element for each schema, so that the length that shows is the length of all lists that are accepted. -/

namespace Conform

namespace Double

theorem ofNat_eq_ofInt (n : Nat) : ofNat n = ofInt n := by
  have sign : decide ((n : Int) < 0) = false := decide_eq_false (Int.not_lt.2 (Int.natCast_nonneg n))
  rw [ofNat, ofInt, sign, Int.natAbs_natCast]

theorem units_le_of_reached {n : Nat} {limit : Double} (small : n < 2 ^ 53) (finite : limit.isFinite = true)
    (positive : limit.isNegative = false) (reached : (ofNat n).lt limit = false) : limit.units ≤ n * unitsInOne := by
  have number : limit.isNaN = false := decide_eq_false (Nat.not_lt.2 (of_decide_eq_true finite).le)
  have ranks : limit.rank ≤ (ofInt n).rank := by
    simpa [lt, ofNat_eq_ofInt, isNaN_ofInt, number] using reached
  have words : limit.word ≤ wordOfRatio n 1 := by
    simpa [rank, positive, Int.not_lt.2 (Int.natCast_nonneg n)] using ranks
  calc
    limit.units = magnitude limit.word := units_eq limit
    _ ≤ magnitude (wordOfRatio n 1) := magnitude_strictMono.monotone words
    _ = n * unitsInOne := magnitude_wordOfRatio small

theorem wholePart_le {n : Nat} {limit : Double} (small : n < 2 ^ 53) (reached : (ofNat n).lt limit = false) :
    limit.wholePart ≤ n := by
  unfold wholePart
  split
  · next counted =>
    obtain ⟨finite, positive⟩ := Bool.and_eq_true_iff.1 counted
    rw [Bool.not_eq_true'] at positive
    have whole : limit.units / unitsInOne ≤ n := by
      apply Nat.div_le_of_le_mul
      rw [Nat.mul_comm]
      exact units_le_of_reached small finite positive reached
    unfold unitsInOne at whole
    exact (Nat.min_le_right _ _).trans whole
  · exact Nat.zero_le n

end Double

namespace TypeExpr

def element (elements : List String) : String :=
  if 1 < (distinct elements).length then "(" ++ union (distinct elements) ++ ")" else union (distinct elements)

def sized (elements : List String) (length : Nat) : String := element elements ++ "[" ++ toString length ++ "]"

theorem ofList_sized [RegexEngine] {type : TypeRules} (unordered : type.keepOrder = false) (fixed : type.keepLength = true)
    (constraints : Constraints) (elements : List String) :
    ofList type constraints elements =
      sized elements (max elements.length (constraints.min?.elim 0 Double.wholePart)) := by
  simp only [ofList, unordered, fixed, if_true, if_false, Bool.false_eq_true]
  rfl

end TypeExpr

section Lists

variable [RegexEngine] {ν : Type} {rules : Rules ν} {type : TypeRules} {items? : Option (List (Schema ν))}

theorem Schema.typeExpr_list (rules : Rules ν) (items? : Option (List (Schema ν))) (array : type.tag = .array) :
    (Schema.typed rules type items? none).typeExpr = TypeExpr.union (orUndefined rules (orNull rules
      [TypeExpr.ofList type rules.constraints (typeExprs (elementSchemas items?))])) := by
  cases items? <;>
  · rw [typeExpr, presentTypes]
    simp only [if_pos array]
    rfl

theorem length_of_accepted (array : type.tag = .array) {config : Config} {custom : CustomRules ν} {xs : List Value}
    {w : Value} (accepted : validateWith config custom (.list xs) (.typed rules type items? none) = .ok w) :
    rules.constraints.BoundsLength xs.length ∧
      (type.keepLength = true → xs.length = (Schema.elementSchemas items?).length) := by
  have own : type.tag.accepts (.list xs) = true := by rw [array]; rfl
  change outcome ((Context.direct config custom).check (.typed rules type items? none) 0 (.list xs)) = .ok w at accepted
  rw [Context.check_typed, Context.guarded_ok, Context.typed_ok] at accepted
  obtain ⟨_, ⟨other, _⟩ | ⟨_, bounds, _, _, listed, _, elements, _⟩⟩ := accepted
  · cases own.symm.trans other
  · rw [if_pos array, Context.elements_ok, List.length_map] at elements
    exact ⟨bounds.2 (.inr array) xs.length rfl, elements.1⟩

/-- The lower limit raises no length that it lets through. -/
theorem Constraints.BoundsLength.max_wholePart {c : Constraints} {size : Nat} (bounds : c.BoundsLength size)
    (small : size < 2 ^ 53) : max size (c.min?.elim 0 Double.wholePart) = size := by
  apply Nat.max_eq_left
  cases declared : c.min? with
  | none => exact Nat.zero_le size
  | some limit => exact Double.wholePart_le small (bounds.2.2.1 limit declared)

/-- A node of lists with a fixed length shows a number behind the types of its elements, if these have no fixed order
and there is no nested shape. Whatever its other rules are, all lists of fewer than `2 ^ 53` elements that it accepts
have this length. -/
theorem typeExpr_shows_length (rules : Rules ν) (items? : Option (List (Schema ν))) (array : type.tag = .array)
    (unordered : type.keepOrder = false) (fixed : type.keepLength = true) : ∃ n,
      (Schema.typed rules type items? none).typeExpr = TypeExpr.union (Schema.orUndefined rules (Schema.orNull rules
        [TypeExpr.sized (Schema.typeExprs (Schema.elementSchemas items?)) n])) ∧
      ∀ (config : Config) (custom : CustomRules ν) {xs : List Value} {w : Value}, xs.length < 2 ^ 53 →
        validateWith config custom (.list xs) (.typed rules type items? none) = .ok w → xs.length = n := by
  have shown := Schema.typeExpr_list rules items? array
  rw [TypeExpr.ofList_sized unordered fixed] at shown
  refine ⟨_, shown, ?_⟩
  intro config custom xs w small accepted
  obtain ⟨bounds, each⟩ := length_of_accepted array accepted
  have declared : (Schema.typeExprs (Schema.elementSchemas items?)).length = xs.length := by
    rw [Schema.typeExprs_eq, List.length_map, each fixed]
  rw [declared, bounds.max_wholePart small]

end Lists

def scores : Schema Empty :=
  .typed { nullable := true, constraints := { min? := some ⟨0x4004000000000000⟩ } }
    { tag := .array, keepLength := true } (some [.string, .number, .number]) none

theorem scores_show_length :
    [Value.string "a", .int 1, .int 2].length < 2 ^ 53 ∧
      validateWith {} noRules (.list [.string "a", .int 1, .int 2]) scores =
        .ok (.list [.string "a", .int 1, .int 2]) ∧
      scores.typeExpr = "(string | number)[3] | null" := by
  obtain ⟨n, shown, lengths⟩ := @typeExpr_shows_length _ Empty { tag := .array, keepLength := true }
    scores.rules (some [.string, .number, .number]) rfl rfl rfl
  have short : [Value.string "a", .int 1, .int 2].length < 2 ^ 53 := by decide
  have accepted : validateWith {} noRules (.list [.string "a", .int 1, .int 2]) scores =
      .ok (.list [.string "a", .int 1, .int 2]) := by rfl
  have three : 3 = n := lengths {} noRules short accepted
  refine ⟨short, accepted, ?_⟩
  rw [← three] at shown
  exact shown.trans (by rfl)

end Conform
