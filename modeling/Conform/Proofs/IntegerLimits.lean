import Conform.Json.Descriptor
import Conform.Proofs.Meaning
import Conform.Proofs.Rounding

/-! Limits on integers. The integer and its limits are compared as doubles, so that limits are exact unless
doubles are too coarse for an integer and its limit. -/

namespace Conform

open Double

def integerLimits (low high : JsonInteger) : Document :=
  .object [("type", .string "integer"), ("min", .integer low), ("max", .integer high)]

section Between

variable [RegexEngine] {ν : Type} {low high : Int}

def integerBetween (low high : Int) : Schema ν :=
  .typed { constraints := { min? := some (.ofInt low), max? := some (.ofInt high) } } { tag := .integer } none none

theorem ofDocument_integerLimits (low high : JsonInteger) :
    Schema.ofDocument (integerLimits low high) = .ok (integerBetween low.toInt high.toInt : Schema ν) := rfl

theorem bounds_integerBetween {i : Int64} :
    (integerBetween low high : Schema ν).rules.constraints.Bounds .integer (.int i) ↔
      (ofInt i.toInt).lt (ofInt low) = false ∧ (ofInt high).lt (ofInt i.toInt) = false := by
  simp [integerBetween, Schema.rules, Constraints.Bounds, Constraints.BoundsNumber, TypeTag.isNumeric, Value.number?]

theorem validateWith_integerBetween (config : Config) (custom : CustomRules ν) (i : Int64) :
    (validateWith config custom (.int i) (integerBetween low high)).isOk = true ↔
      (low ≤ i.toInt ∨ Merge i.toInt low) ∧ (i.toInt ≤ high ∨ Merge high i.toInt) := by
  rw [← ofInt_lt_eq_false_iff, ← ofInt_lt_eq_false_iff, ← @bounds_integerBetween _ ν, integerBetween,
    isOk_iff_bounds (by decide)]
  exact and_iff_right rfl

end Between

/-- A document with integers as limits is a schema that accepts the integers between them, and those that a
double does not tell from a limit that they miss. -/
theorem integerLimits_accepts [RegexEngine] {ν : Type} (low high : Int64) : ∃ s : Schema ν,
    Schema.ofDocument (integerLimits (.ofInt64 low) (.ofInt64 high)) = .ok s ∧
      ∀ (config : Config) (custom : CustomRules ν) (i : Int64),
        (validateWith config custom (.int i) s).isOk = true ↔
          (low ≤ i ∨ Merge i.toInt low.toInt) ∧ (i ≤ high ∨ Merge high.toInt i.toInt) := by
  refine ⟨_, ofDocument_integerLimits _ _, ?_⟩
  intro config custom i
  rw [Int64.le_iff_toInt_le, Int64.le_iff_toInt_le]
  exact validateWith_integerBetween config custom i

theorem integerBetween_exact [RegexEngine] {ν : Type} {low high : Int} (small : low.natAbs < 2 ^ 53 ∧ high.natAbs < 2 ^ 53)
    (config : Config) (custom : CustomRules ν) (i : Int64) :
    (validateWith config custom (.int i) (integerBetween low high)).isOk = true ↔ low ≤ i.toInt ∧ i.toInt ≤ high := by
  have lower : ¬Merge i.toInt low := fun merge => absurd merge.far.2 (Nat.not_le_of_lt small.1)
  have upper : ¬Merge high i.toInt := fun merge => absurd merge.far.1 (Nat.not_le_of_lt small.2)
  rw [validateWith_integerBetween, or_iff_left lower, or_iff_left upper]

/-- The limit `2 ^ 53` does not keep `2 ^ 53 + 1` out. -/
theorem integerLimits_inexact :
    ¬∀ (low high : Int64), ∃ s : Schema Empty,
      Schema.ofDocument (integerLimits (.ofInt64 low) (.ofInt64 high)) = .ok s ∧
        ∀ i : Int64, (validateWith {} noRules (.int i) s).isOk = true ↔ low ≤ i ∧ i ≤ high := by
  intro exact
  obtain ⟨s, loaded, decides⟩ := exact 0 9007199254740992
  cases loaded
  exact absurd ((decides 9007199254740993).1 (by decide)) (by decide)

end Conform
