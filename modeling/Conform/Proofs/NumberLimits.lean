import Conform.Json.Descriptor
import Conform.Proofs.Meaning
import Conform.Proofs.Rounding

/-! Limits on numbers. The numbers of documents are compared as doubles, into which integers are rounded. Rounding keeps
the order of all of them, so that a number is accepted between two accepted ones, unless it is an integer beyond the
signed range, which is no number among values. -/

namespace Conform

inductive JsonNumber where
  | integer (i : JsonInteger)
  | float (x : FiniteDouble)

namespace JsonNumber

def document : JsonNumber → Document
  | integer i => .integer i
  | float x => .float x

def value (n : JsonNumber) : Value := Value.ofDocument n.document

/-- The exact value, counted in units of `2 ^ -1074`. -/
def units : JsonNumber → Int
  | integer i => i.toInt * Double.unitsInOne
  | float x => if x.val.isNegative then -x.val.units else x.val.units

def nearest : JsonNumber → Double
  | integer i => .ofInt i.toInt
  | float x => x.val

/-- Integers that have become wide ones. -/
def Wide : JsonNumber → Prop
  | integer i => Int.pow 2 63 ≤ i.toInt
  | float _ => False

theorem isNaN_nearest (n : JsonNumber) : n.nearest.isNaN = false := by
  cases n with
  | integer i => exact Double.isNaN_ofInt i.toInt
  | float x =>
    have finite : x.val.word < Double.infinityWord := of_decide_eq_true x.property
    exact decide_eq_false (Nat.not_lt.2 finite.le)

theorem exists_hasWord (n : JsonNumber) : ∃ size word, Double.HasWord size word ∧
    (n.units = size ∧ n.nearest.rank = word ∨ n.units = -size ∧ n.nearest.rank = -word) := by
  cases n with
  | integer i =>
    refine ⟨_, _, .whole i.toInt.natAbs, ?_⟩
    simp only [units, nearest, Double.rank, Double.isNegative_ofInt, Double.word_ofInt, decide_eq_true_eq, Nat.cast_mul]
    by_cases negative : i.toInt < 0
    · have size : i.toInt = -(i.toInt.natAbs : Int) := by omega
      rw [if_pos negative, ← Int.neg_mul, ← size]
      exact .inr ⟨rfl, rfl⟩
    · have size : i.toInt = (i.toInt.natAbs : Int) := by omega
      rw [if_neg negative, ← size]
      exact .inl ⟨rfl, rfl⟩
  | float x =>
    refine ⟨_, _, .double (of_decide_eq_true x.property), ?_⟩
    have rank : (float x).nearest.rank = if x.val.isNegative then -(x.val.word : Int) else x.val.word := rfl
    rw [units, rank]
    by_cases negative : x.val.isNegative = true
    · rw [if_pos negative, if_pos negative]
      exact .inr ⟨rfl, rfl⟩
    · rw [if_neg negative, if_neg negative]
      exact .inl ⟨rfl, rfl⟩

theorem rank_nearest_mono {n k : JsonNumber} (le : n.units ≤ k.units) : n.nearest.rank ≤ k.nearest.rank := by
  obtain ⟨size, word, has, first⟩ := n.exists_hasWord
  obtain ⟨size', word', has', second⟩ := k.exists_hasWord
  have zero : Double.HasWord 0 0 := .double (by decide : 0 < Double.infinityWord)
  have up := has.mono has'
  have down := has'.mono has
  have none := has.mono zero
  have none' := has'.mono zero
  omega

theorem number?_value (n : JsonNumber) :
    n.Wide ∧ n.value.number? = none ∨ ¬n.Wide ∧ n.value.number? = some n.nearest := by
  cases n with
  | integer i =>
    simp only [value, document, Value.ofDocument, Wide, nearest]
    by_cases wide : Int.pow 2 63 ≤ i.toInt
    · rw [if_neg (Int.not_lt.2 wide)]
      exact .inl ⟨wide, rfl⟩
    · rw [if_pos (Int.not_le.1 wide)]
      have same : (Int64.ofInt i.toInt).toInt = i.toInt := Int64.toInt_ofInt_of_le i.minimum_le (Int.not_le.1 wide)
      exact .inr ⟨wide, congrArg (some <| Double.ofInt ·) same⟩
  | float x => exact .inr ⟨id, rfl⟩

end JsonNumber

def numberLimits (min? max? : Option JsonNumber) : Document :=
  .object (("type", .string "number") ::
    ((min?.toList.map fun n => ("min", n.document)) ++ max?.toList.map fun n => ("max", n.document)))

section Between

variable [RegexEngine] {ν : Type}

def numberBetween (min? max? : Option Double) : Schema ν :=
  .typed { constraints := { min?, max? } } { tag := .number } none none

theorem ofDocument_numberLimits (min? max? : Option JsonNumber) :
    Schema.ofDocument (numberLimits min? max?) =
      .ok (numberBetween (min?.map (·.nearest)) (max?.map (·.nearest)) : Schema ν) := by
  rcases min? with _ | _ | _ <;> rcases max? with _ | _ | _ <;> rfl

theorem validateWith_numberBetween (config : Config) (custom : CustomRules ν) {min? max? : Option Double}
    (n : JsonNumber) :
    (validateWith config custom n.value (numberBetween min? max?)).isOk = true ↔
      ¬n.Wide ∧ ({ min?, max? } : Constraints).BoundsNumber n.nearest := by
  rw [numberBetween, isOk_iff_bounds (by decide)]
  rcases n.number?_value with ⟨wide, refused⟩ | ⟨narrow, accepted⟩
  · have other : TypeTag.number.accepts n.value = false := congrArg Option.isSome refused
    simp [other, wide]
  · have own : TypeTag.number.accepts n.value = true := congrArg Option.isSome accepted
    simp [own, narrow, accepted, Constraints.Bounds, TypeTag.isNumeric]

end Between

/-- Limits that let two numbers through let through every number between them. -/
theorem Constraints.BoundsNumber.between [RegexEngine] {c : Constraints} {low n high : JsonNumber}
    (first : c.BoundsNumber low.nearest) (last : c.BoundsNumber high.nearest) (lower : low.units ≤ n.units)
    (upper : n.units ≤ high.units) : c.BoundsNumber n.nearest := by
  have up := JsonNumber.rank_nearest_mono lower
  have down := JsonNumber.rank_nearest_mono upper
  constructor
  · intro limit declared
    have reached := first.1 limit declared
    simp only [Double.lt, JsonNumber.isNaN_nearest, Bool.not_false, Bool.true_and, Bool.and_eq_false_iff,
      decide_eq_false_iff_not] at reached ⊢
    exact reached.imp_right fun reached => by omega
  · intro limit declared
    have reached := last.2 limit declared
    simp only [Double.lt, JsonNumber.isNaN_nearest, Bool.not_false, Bool.and_true, Bool.and_eq_false_iff,
      decide_eq_false_iff_not] at reached ⊢
    exact reached.imp_right fun reached => by omega

/-- Documents for numbers with limits are schemas. Between two numbers that such a schema accepts, in the order of exact
values, it accepts all others, except for the integers beyond the signed range. -/
theorem numberLimits_between [RegexEngine] {ν : Type} (min? max? : Option JsonNumber) : ∃ s : Schema ν,
    Schema.ofDocument (numberLimits min? max?) = .ok s ∧
      ∀ (config : Config) (custom : CustomRules ν) {a b c : JsonNumber}, a.units ≤ b.units → b.units ≤ c.units →
        (validateWith config custom a.value s).isOk = true → (validateWith config custom c.value s).isOk = true →
          ((validateWith config custom b.value s).isOk = true ↔ ¬b.Wide) := by
  refine ⟨_, ofDocument_numberLimits min? max?, ?_⟩
  intro config custom a b c lower upper first last
  rw [validateWith_numberBetween] at first last ⊢
  exact and_iff_left (first.2.between last.2 lower upper)

def evenBelow : JsonNumber := .float ⟨⟨0x4340000000000000⟩, by decide⟩

def evenAbove : JsonNumber := .float ⟨⟨0x4340000000000001⟩, by decide⟩

def oddBetween : JsonNumber := .integer ⟨9007199254740993, by decide, by decide⟩

theorem oddBetween_accepted : ∃ s : Schema Empty,
    Schema.ofDocument (numberLimits (some evenBelow) (some evenAbove)) = .ok s ∧
      evenBelow.units ≤ oddBetween.units ∧ oddBetween.units ≤ evenAbove.units ∧
      (validateWith {} noRules evenBelow.value s).isOk = true ∧
      (validateWith {} noRules evenAbove.value s).isOk = true ∧
      ((validateWith {} noRules oddBetween.value s).isOk = true ↔ ¬oddBetween.Wide) := by
  obtain ⟨s, loaded, between⟩ := @numberLimits_between _ Empty (some evenBelow) (some evenAbove)
  have lower : evenBelow.units ≤ oddBetween.units := by decide +kernel
  have upper : oddBetween.units ≤ evenAbove.units := by decide +kernel
  have first : (validateWith {} noRules evenBelow.value s).isOk = true := by
    cases loaded
    decide
  have last : (validateWith {} noRules evenAbove.value s).isOk = true := by
    cases loaded
    decide
  exact ⟨s, loaded, lower, upper, first, last, between {} noRules lower upper first last⟩

/-- The integer `2 ^ 63` lies between zero and a float that the schema accepts. -/
theorem numberLimits_gap :
    ¬∀ min? max? : Option JsonNumber, ∃ s : Schema Empty,
      Schema.ofDocument (numberLimits min? max?) = .ok s ∧
        ∀ a b c : JsonNumber, a.units ≤ b.units → b.units ≤ c.units →
          (validateWith {} noRules a.value s).isOk = true → (validateWith {} noRules c.value s).isOk = true →
            (validateWith {} noRules b.value s).isOk = true := by
  intro convex
  obtain ⟨s, loaded, between⟩ := convex none none
  cases loaded
  have accepted := between (.integer (.ofInt64 0)) (.integer ⟨9223372036854775808, by decide, by decide⟩)
    (.float ⟨⟨0x43f0000000000000⟩, by decide⟩) (by decide +kernel) (by decide +kernel) (by decide) (by decide)
  exact absurd accepted (by decide)

end Conform
