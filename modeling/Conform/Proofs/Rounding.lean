import Conform.Proofs.Doubles

/-! Integers as doubles. Rounding to the nearest double keeps the order of integers, but far from zero it
makes one double of several integers. Comparing integers as doubles is exact up to that. -/

namespace Conform

namespace Double

theorem roundHalfEven_le (num den : Nat) : roundHalfEven num den ≤ num / den + 1 := by
  unfold roundHalfEven
  dsimp only
  split
  · omega
  · split <;> omega

theorem roundHalfEven_mono {num num' : Nat} (le : num ≤ num') (den : Nat) :
    roundHalfEven num den ≤ roundHalfEven num' den := by
  rcases Nat.lt_or_eq_of_le (Nat.div_le_div_right (c := den) le) with below | same
  · calc
      roundHalfEven num den ≤ num / den + 1 := roundHalfEven_le num den
      _ ≤ num' / den := below
      _ ≤ roundHalfEven num' den := div_le_roundHalfEven num' den
  · -- Both lie between the same two whole numbers, and their remainders are in order.
    have first := Nat.div_add_mod num den
    have second := Nat.div_add_mod num' den
    rw [same] at first
    have remainders : num % den ≤ num' % den := by omega
    unfold roundHalfEven
    dsimp only
    rw [same]
    split
    · exact div_le_roundHalfEven num' den
    · split <;> split <;> grind

theorem significand_bounds {n : Nat} (positive : n ≠ 0) :
    2 ^ 52 ≤ n * 2 ^ (52 - n.log2) / 2 ^ (n.log2 - 52) ∧
      n * 2 ^ (52 - n.log2) / 2 ^ (n.log2 - 52) < 2 ^ 53 := by
  rw [Nat.le_div_iff_mul_le (Nat.two_pow_pos _), Nat.div_lt_iff_lt_mul (Nat.two_pow_pos _)]
  constructor
  · calc
      2 ^ 52 * 2 ^ (n.log2 - 52) = 2 ^ n.log2 * 2 ^ (52 - n.log2) := by
        rw [← Nat.pow_add, ← Nat.pow_add]; congr 1; omega
      _ ≤ n * 2 ^ (52 - n.log2) := Nat.mul_le_mul_right _ (Nat.log2_self_le positive)
  · calc
      n * 2 ^ (52 - n.log2) < 2 ^ (n.log2 + 1) * 2 ^ (52 - n.log2) :=
        Nat.mul_lt_mul_of_pos_right Nat.lt_log2_self (Nat.two_pow_pos _)
      _ = 2 ^ 53 * 2 ^ (n.log2 - 52) := by rw [← Nat.pow_add, ← Nat.pow_add]; congr 1; omega

theorem wordOfRatio_mono {n k : Nat} (le : n ≤ k) : wordOfRatio n 1 ≤ wordOfRatio k 1 := by
  by_cases zero : n = 0
  · simp [zero, wordOfRatio]
  have positive : k ≠ 0 := by omega
  rw [wordOfRatio_one zero, wordOfRatio_one positive]
  apply min_le_min_left
  have sizes : n.log2 ≤ k.log2 := by
    rw [Nat.le_log2 positive]
    exact Nat.le_trans (Nat.log2_self_le zero) le
  rcases Nat.lt_or_eq_of_le sizes with below | same
  · -- Rounding up goes to the next power of two at most.
    have upper := Nat.le_trans (roundHalfEven_le (n * 2 ^ (52 - n.log2)) (2 ^ (n.log2 - 52)))
      (significand_bounds zero).2
    have lower := Nat.le_trans (significand_bounds positive).1
      (div_le_roundHalfEven (k * 2 ^ (52 - k.log2)) (2 ^ (k.log2 - 52)))
    omega
  · rw [same]
    exact Nat.add_le_add_left (roundHalfEven_mono (Nat.mul_le_mul_right _ le) _) _

theorem rank_ofInt_mono {i k : Int} (le : i ≤ k) : (ofInt i).rank ≤ (ofInt k).rank := by
  simp only [rank, isNegative_ofInt, word_ofInt, decide_eq_true_eq]
  split
  · split
    · have words : wordOfRatio k.natAbs 1 ≤ wordOfRatio i.natAbs 1 := wordOfRatio_mono (by omega)
      omega
    · omega
  · have words : wordOfRatio i.natAbs 1 ≤ wordOfRatio k.natAbs 1 := wordOfRatio_mono (by omega)
    split <;> omega

theorem roundHalfEven_mul (n : Nat) {den : Nat} (positive : 0 < den) : roundHalfEven (n * den) den = n := by
  simp [roundHalfEven, Nat.mul_div_left, positive]

theorem magnitude_whole (shift : Nat) {significand : Nat} (leading : 2 ^ 52 ≤ significand)
    (bound : significand < 2 ^ 53) :
    magnitude ((shift + 1074) * 2 ^ 52 + significand) = significand * 2 ^ shift * unitsInOne := by
  rw [magnitude_fields _ leading bound]
  unfold unitsInOne
  generalize 1074 = exponent
  rw [Nat.pow_add, Nat.mul_assoc, Nat.pow_eq]

theorem magnitude_roundingWord : magnitude roundingWord = 2 ^ 53 * unitsInOne := by
  have fields : roundingWord = (1 + 1074) * 2 ^ 52 + 2 ^ 52 := rfl
  have doubled : 2 ^ 52 * 2 ^ 1 = 2 ^ 53 := by decide
  rw [fields, magnitude_whole 1 (Nat.le_refl _) (by decide), doubled]

/-- Finite words from `2 ^ 53` on are the nearest ones to the whole numbers that they stand for. -/
theorem exists_whole {word : Nat} (large : roundingWord ≤ word) (finite : word < infinityWord) :
    ∃ n, magnitude word = n * unitsInOne ∧ wordOfRatio n 1 = word := by
  obtain ⟨shift, significand, leading, bound, rfl⟩ :
      ∃ shift significand, 2 ^ 52 ≤ significand ∧ significand < 2 ^ 53 ∧
        word = (shift + 1074) * 2 ^ 52 + significand := by
    unfold roundingWord at large
    exact ⟨word / 2 ^ 52 - 1075, 2 ^ 52 + word % 2 ^ 52, by omega, by omega, by omega⟩
  have nonzero : significand * 2 ^ shift ≠ 0 := Nat.mul_ne_zero (by omega) (Nat.two_pow_pos shift).ne'
  have size : (significand * 2 ^ shift).log2 = shift + 52 := by
    rw [Nat.log2_eq_iff nonzero]
    constructor
    · calc
        2 ^ (shift + 52) = 2 ^ 52 * 2 ^ shift := by rw [← Nat.pow_add, Nat.add_comm]
        _ ≤ significand * 2 ^ shift := Nat.mul_le_mul_right _ leading
    · calc
        significand * 2 ^ shift < 2 ^ 53 * 2 ^ shift := Nat.mul_lt_mul_of_pos_right bound (Nat.two_pow_pos shift)
        _ = 2 ^ (shift + 52 + 1) := by rw [← Nat.pow_add]; congr 1; omega
  have unscaled : 52 - (shift + 52) = 0 := by omega
  refine ⟨significand * 2 ^ shift, magnitude_whole shift leading bound, ?_⟩
  rw [wordOfRatio_one nonzero, size, unscaled, pow_zero, Nat.mul_one, Nat.add_sub_cancel,
    roundHalfEven_mul significand (Nat.two_pow_pos shift)]
  omega

section Nearest

variable {n word : Nat}

theorem wordOfRatio_le_of_le_magnitude (finite : word < infinityWord) (le : n * unitsInOne ≤ magnitude word) :
    wordOfRatio n 1 ≤ word := by
  by_cases large : roundingWord ≤ word
  · obtain ⟨k, whole, own⟩ := exists_whole large finite
    rw [whole] at le
    rw [← own]
    exact wordOfRatio_mono (Nat.le_of_mul_le_mul_right le unitsInOne_pos)
  · have below : n * unitsInOne < 2 ^ 53 * unitsInOne := by
      calc
        n * unitsInOne ≤ magnitude word := le
        _ < magnitude roundingWord := magnitude_strictMono (Nat.not_le.1 large)
        _ = 2 ^ 53 * unitsInOne := magnitude_roundingWord
    have small : n < 2 ^ 53 := Nat.lt_of_mul_lt_mul_right below
    rw [← magnitude_wordOfRatio small] at le
    exact magnitude_strictMono.le_iff_le.1 le

theorem le_wordOfRatio_of_magnitude_le (finite : word < infinityWord) (le : magnitude word ≤ n * unitsInOne) :
    word ≤ wordOfRatio n 1 := by
  by_cases large : roundingWord ≤ word
  · obtain ⟨k, whole, own⟩ := exists_whole large finite
    rw [whole] at le
    rw [← own]
    exact wordOfRatio_mono (Nat.le_of_mul_le_mul_right le unitsInOne_pos)
  · by_cases small : n < 2 ^ 53
    · rw [← magnitude_wordOfRatio small] at le
      exact magnitude_strictMono.le_iff_le.1 le
    · exact (Nat.not_le.1 large).le.trans (roundingWord_le_wordOfRatio (Nat.not_lt.1 small))

end Nearest

/-- A magnitude, and the word that it has as a double: the nearest one to a natural number, or the word of a finite
double itself. -/
inductive HasWord : Nat → Nat → Prop where
  | whole (n : Nat) : HasWord (n * unitsInOne) (wordOfRatio n 1)
  | double {word : Nat} (finite : word < infinityWord) : HasWord (magnitude word) word

theorem HasWord.mono {size size' word word' : Nat} (first : HasWord size word) (second : HasWord size' word')
    (le : size ≤ size') : word ≤ word' := by
  cases first with
  | whole n =>
    cases second with
    | whole k => exact wordOfRatio_mono (Nat.le_of_mul_le_mul_right le unitsInOne_pos)
    | double finite => exact wordOfRatio_le_of_le_magnitude finite le
  | double finite =>
    cases second with
    | whole k => exact le_wordOfRatio_of_magnitude_le finite le
    | double _ => exact magnitude_strictMono.le_iff_le.1 le

/-- Two integers that are rounded to one double, too far from zero for it to tell them apart. -/
structure Merge (i k : Int) : Prop where
  differ : i ≠ k
  far : 2 ^ 53 ≤ i.natAbs ∧ 2 ^ 53 ≤ k.natAbs
  rounded : (ofInt i == ofInt k) = true

theorem merge_of_rounded {i k : Int} (differ : i ≠ k) (rounded : (ofInt i == ofInt k) = true) : Merge i k := by
  refine ⟨differ, ⟨?_, ?_⟩, rounded⟩
  · apply Nat.le_of_not_lt
    intro small
    rw [beq_comm] at rounded
    exact differ ((ofInt_beq_ofInt small).1 rounded).symm
  · apply Nat.le_of_not_lt
    intro small
    exact differ ((ofInt_beq_ofInt small).1 rounded)

theorem ofInt_beq_iff {i k : Int} : (ofInt i == ofInt k) = true ↔ i = k ∨ Merge i k := by
  constructor
  · intro rounded
    exact or_iff_not_imp_left.2 fun differ => merge_of_rounded differ rounded
  · intro given
    rcases given with rfl | merge
    · exact beq_iff.2 ⟨isNaN_ofInt i, isNaN_ofInt i, rfl⟩
    · exact merge.rounded

theorem ofInt_lt_eq_false_iff {i k : Int} : (ofInt i).lt (ofInt k) = false ↔ k ≤ i ∨ Merge i k := by
  have order : (ofInt i).lt (ofInt k) = false ↔ (ofInt k).rank ≤ (ofInt i).rank := by
    simp [lt, isNaN_ofInt]
  rw [order]
  constructor
  · intro reversed
    by_cases le : k ≤ i
    · exact .inl le
    · have ranks : (ofInt i).rank ≤ (ofInt k).rank := rank_ofInt_mono (by omega)
      have same : (ofInt i).rank = (ofInt k).rank := Int.le_antisymm ranks reversed
      exact .inr (merge_of_rounded (by omega) (beq_iff.2 ⟨isNaN_ofInt i, isNaN_ofInt k, same⟩))
  · intro given
    rcases given with le | merge
    · exact rank_ofInt_mono le
    · exact Int.le_of_eq (beq_iff.1 merge.rounded).2.2.symm

end Double

end Conform
