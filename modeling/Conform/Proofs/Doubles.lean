import Conform.Number.Double
import Mathlib.Order.Monotone.Basic
import Mathlib.Tactic.Ring

/-! Doubles as numbers. The magnitude of a word grows with the word, so that finite doubles of one sign are
told apart by their values, and integers below `2 ^ 53` are converted exactly. -/

namespace Conform

namespace Double

/-- The magnitude that a word without its sign bit stands for, in units of `2 ^ -1074`. -/
def magnitude (word : Nat) : Nat :=
  (if word / Nat.pow 2 52 = 0 then word % Nat.pow 2 52 else Nat.pow 2 52 + word % Nat.pow 2 52) *
    Nat.pow 2 (word / Nat.pow 2 52 - 1)

theorem units_eq (x : Double) : x.units = magnitude x.word := rfl

theorem magnitude_of_lt {word : Nat} (small : word < 2 ^ 52) : magnitude word = word := by
  simp only [magnitude, Nat.pow_eq, Nat.div_eq_of_lt small, Nat.mod_eq_of_lt small, if_pos, Nat.zero_sub, pow_zero,
    Nat.mul_one]

theorem magnitude_fields (exponent : Nat) {significand : Nat} (leading : 2 ^ 52 ≤ significand)
    (bound : significand < 2 ^ 53) : magnitude (exponent * 2 ^ 52 + significand) = significand * 2 ^ exponent := by
  have split : exponent * 2 ^ 52 + significand = 2 ^ 52 * (exponent + 1) + (significand - 2 ^ 52) := by omega
  have small : significand - 2 ^ 52 < 2 ^ 52 := by omega
  have field : (exponent * 2 ^ 52 + significand) / 2 ^ 52 = exponent + 1 := by
    rw [split, Nat.mul_add_div (by decide), Nat.div_eq_of_lt small, Nat.add_zero]
  have fraction : (exponent * 2 ^ 52 + significand) % 2 ^ 52 = significand - 2 ^ 52 := by
    rw [split, Nat.mul_add_mod, Nat.mod_eq_of_lt small]
  rw [magnitude]
  simp only [Nat.pow_eq, field, fraction, Nat.add_sub_cancel, Nat.add_one_ne_zero, if_false]
  rw [Nat.add_sub_cancel' leading]

theorem magnitude_lt_succ (word : Nat) : magnitude word < magnitude (word + 1) := by
  by_cases small : word < 2 ^ 52
  · rw [magnitude_of_lt small]
    by_cases last : word + 1 = 2 ^ 52
    · have next := magnitude_fields 0 (Nat.le_refl (2 ^ 52)) (by decide)
      rw [last, ← Nat.zero_add (2 ^ 52), ← Nat.zero_mul (2 ^ 52), next]
      omega
    · rw [magnitude_of_lt (by omega)]
      omega
  · obtain ⟨exponent, significand, leading, bound, rfl⟩ :
        ∃ exponent significand, 2 ^ 52 ≤ significand ∧ significand < 2 ^ 53 ∧
          word = exponent * 2 ^ 52 + significand :=
      ⟨word / 2 ^ 52 - 1, 2 ^ 52 + word % 2 ^ 52, by omega, by omega, by omega⟩
    rw [magnitude_fields exponent leading bound]
    by_cases last : significand + 1 = 2 ^ 53
    · -- The next word has the next exponent and the least significand.
      have carried : exponent * 2 ^ 52 + significand + 1 = (exponent + 1) * 2 ^ 52 + 2 ^ 52 := by omega
      rw [carried, magnitude_fields (exponent + 1) (Nat.le_refl _) (by decide)]
      calc
        significand * 2 ^ exponent < (2 * 2 ^ 52) * 2 ^ exponent :=
          Nat.mul_lt_mul_of_pos_right (by omega) (Nat.two_pow_pos exponent)
        _ = 2 ^ 52 * 2 ^ (exponent + 1) := by ring
    · rw [Nat.add_assoc, magnitude_fields exponent (by omega) (by omega)]
      exact Nat.mul_lt_mul_of_pos_right (Nat.lt_succ_self significand) (Nat.two_pow_pos exponent)

theorem magnitude_strictMono : StrictMono magnitude := strictMono_nat_of_lt_succ magnitude_lt_succ

section Conversion

theorem roundHalfEven_one (n : Nat) : roundHalfEven n 1 = n := by
  simp [roundHalfEven, Nat.mod_one]

theorem div_le_roundHalfEven (num den : Nat) : num / den ≤ roundHalfEven num den := by
  unfold roundHalfEven
  dsimp only
  split
  · exact Nat.le_refl _
  · split <;> omega

theorem binaryExponent_one {n : Nat} (positive : n ≠ 0) : binaryExponent n 1 = n.log2 := by
  have reached : ¬n < 2 ^ n.log2 := Nat.not_lt.2 (Nat.log2_self_le positive)
  have one : Nat.log2 1 = 0 := by decide
  simp [binaryExponent, one, reached]

/-- The word of a positive natural number: an exponent field from its size, and the number rounded to 53 bits. -/
theorem wordOfRatio_one {n : Nat} (positive : n ≠ 0) :
    wordOfRatio n 1 = min infinityWord
      ((n.log2 + 1022) * 2 ^ 52 + roundHalfEven (n * 2 ^ (52 - n.log2)) (2 ^ (n.log2 - 52))) := by
  have up : (52 - (n.log2 : Int)).toNat = 52 - n.log2 := by omega
  have down : ((n.log2 : Int) - 52).toNat = n.log2 - 52 := by omega
  have field : ((n.log2 : Int) + 1022).toNat = n.log2 + 1022 := by omega
  have normal : max (n.log2 : Int) (-1022) = n.log2 := by omega
  simp only [wordOfRatio, if_neg positive, binaryExponent_one positive, normal, up, down, field, Nat.pow_eq, Nat.one_mul]

theorem wordOfRatio_of_lt {n : Nat} (positive : n ≠ 0) (small : n < 2 ^ 53) :
    wordOfRatio n 1 = (n.log2 + 1022) * 2 ^ 52 + n * 2 ^ (52 - n.log2) ∧
      2 ^ 52 ≤ n * 2 ^ (52 - n.log2) ∧ n * 2 ^ (52 - n.log2) < 2 ^ 53 := by
  have size : n.log2 < 53 := (Nat.log2_lt positive).2 small
  have least : 2 ^ 52 ≤ n * 2 ^ (52 - n.log2) := by
    calc
      2 ^ 52 = 2 ^ n.log2 * 2 ^ (52 - n.log2) := by rw [← Nat.pow_add]; congr 1; omega
      _ ≤ n * 2 ^ (52 - n.log2) := Nat.mul_le_mul_right _ (Nat.log2_self_le positive)
  have bound : n * 2 ^ (52 - n.log2) < 2 ^ 53 := by
    calc
      n * 2 ^ (52 - n.log2) < 2 ^ (n.log2 + 1) * 2 ^ (52 - n.log2) :=
        Nat.mul_lt_mul_of_pos_right Nat.lt_log2_self (Nat.two_pow_pos _)
      _ = 2 ^ 53 := by rw [← Nat.pow_add]; congr 1; omega
  have whole : n.log2 - 52 = 0 := by omega
  refine ⟨?_, least, bound⟩
  rw [wordOfRatio_one positive, whole, pow_zero, roundHalfEven_one, infinityWord, Nat.pow_eq]
  omega

theorem wordOfRatio_le (n : Nat) : wordOfRatio n 1 ≤ infinityWord := by
  by_cases positive : n = 0
  · simp [positive, wordOfRatio]
  · rw [wordOfRatio_one positive]
    exact Nat.min_le_left _ _

def unitsInOne : Nat := Nat.pow 2 1074

theorem unitsInOne_pos : 0 < unitsInOne := by
  unfold unitsInOne
  generalize 1074 = exponent
  exact Nat.two_pow_pos exponent

theorem magnitude_wordOfRatio {n : Nat} (small : n < 2 ^ 53) : magnitude (wordOfRatio n 1) = n * unitsInOne := by
  by_cases positive : n = 0
  · rw [positive, Nat.zero_mul]
    rfl
  · obtain ⟨word, least, bound⟩ := wordOfRatio_of_lt positive small
    have size : n.log2 < 53 := (Nat.log2_lt positive).2 small
    have exponent : 52 - n.log2 + (n.log2 + 1022) = 1074 := by omega
    unfold unitsInOne
    rw [← exponent, word, magnitude_fields _ least bound, Nat.mul_assoc, ← Nat.pow_add, Nat.pow_eq]

/-- The least word of the numbers from `2 ^ 53` on. -/
def roundingWord : Nat := 1076 * 2 ^ 52

theorem wordOfRatio_lt_roundingWord {n : Nat} (small : n < 2 ^ 53) : wordOfRatio n 1 < roundingWord := by
  by_cases positive : n = 0
  · simp [positive, wordOfRatio, roundingWord]
  · obtain ⟨word, _, bound⟩ := wordOfRatio_of_lt positive small
    have size : n.log2 < 53 := (Nat.log2_lt positive).2 small
    rw [word, roundingWord]
    omega

theorem roundingWord_le_wordOfRatio {n : Nat} (large : 2 ^ 53 ≤ n) : roundingWord ≤ wordOfRatio n 1 := by
  have positive : n ≠ 0 := by omega
  have size : 53 ≤ n.log2 := (Nat.le_log2 positive).2 large
  have whole : 52 - n.log2 = 0 := by omega
  have least : 2 ^ 52 ≤ n / 2 ^ (n.log2 - 52) := by
    rw [Nat.le_div_iff_mul_le (Nat.two_pow_pos _), ← Nat.pow_add, Nat.add_sub_cancel' (by omega)]
    exact Nat.log2_self_le positive
  have rounded := Nat.le_trans least (div_le_roundHalfEven n (2 ^ (n.log2 - 52)))
  rw [wordOfRatio_one positive, whole, pow_zero, Nat.mul_one, roundingWord, infinityWord, Nat.pow_eq]
  omega

theorem eq_of_wordOfRatio_eq {n k : Nat} (small : n < 2 ^ 53) (same : wordOfRatio n 1 = wordOfRatio k 1) :
    n = k := by
  have bound := wordOfRatio_lt_roundingWord small
  by_cases large : 2 ^ 53 ≤ k
  · have far := roundingWord_le_wordOfRatio large
    omega
  · have equal := congrArg magnitude same
    rw [magnitude_wordOfRatio small, magnitude_wordOfRatio (Nat.not_le.1 large)] at equal
    exact Nat.eq_of_mul_eq_mul_right unitsInOne_pos equal

end Conversion

section Words

variable {word : Nat} (negative : Bool) (bound : word < 2 ^ 63)
include bound

theorem toNat_ofWord : (ofWord negative word).bits.toNat = word + if negative then 2 ^ 63 else 0 := by
  rw [ofWord, UInt64.toNat_ofNat', Nat.pow_eq]
  apply Nat.mod_eq_of_lt
  split <;> omega

@[simp] theorem word_ofWord : (ofWord negative word).word = word := by
  rw [Double.word, toNat_ofWord negative bound, Nat.pow_eq]
  split <;> omega

@[simp] theorem isNegative_ofWord : (ofWord negative word).isNegative = negative := by
  rw [isNegative, toNat_ofWord negative bound, Nat.pow_eq]
  cases negative
  · simpa using bound
  · simp

end Words

theorem toNat_bits (x : Double) : x.bits.toNat = x.word + if x.isNegative then 2 ^ 63 else 0 := by
  have range : x.bits.toNat < 2 ^ 64 := x.bits.toNat_lt
  simp only [Double.word, isNegative, Nat.pow_eq, decide_eq_true_eq]
  split <;> omega

theorem eq_of_word_eq {x y : Double} (word : x.word = y.word) (sign : x.isNegative = y.isNegative) : x = y := by
  have same : x.bits.toNat = y.bits.toNat := by rw [toNat_bits, toNat_bits, word, sign]
  obtain ⟨bits⟩ := x
  exact congrArg Double.mk (UInt64.toNat_inj.1 same)

section Equality

variable {x y z : Double}

theorem beq_iff : (x == y) = true ↔ x.isNaN = false ∧ y.isNaN = false ∧ x.rank = y.rank := by
  change (!x.isNaN && !y.isNaN && x.rank == y.rank) = true ↔ _
  simp only [Bool.and_eq_true, Bool.not_eq_true', beq_iff_eq, and_assoc]

theorem beq_comm (x y : Double) : (x == y) = (y == x) := by
  rw [Bool.eq_iff_iff, beq_iff, beq_iff, and_left_comm, @eq_comm _ x.rank]

theorem beq_trans (first : (x == y) = true) (second : (y == z) = true) : (x == z) = true := by
  obtain ⟨number, _, ranks⟩ := beq_iff.1 first
  obtain ⟨_, number', ranks'⟩ := beq_iff.1 second
  exact beq_iff.2 ⟨number, number', ranks.trans ranks'⟩

end Equality

@[simp] theorem word_ofInt (i : Int) : (ofInt i).word = wordOfRatio i.natAbs 1 :=
  word_ofWord _ (Nat.lt_of_le_of_lt (wordOfRatio_le _) (by decide))

@[simp] theorem isNegative_ofInt (i : Int) : (ofInt i).isNegative = decide (i < 0) :=
  isNegative_ofWord _ (Nat.lt_of_le_of_lt (wordOfRatio_le _) (by decide))

theorem isNaN_ofInt (i : Int) : (ofInt i).isNaN = false := by
  simpa [isNaN] using wordOfRatio_le i.natAbs

/-- A double that is exactly an integer. The negative zero is none. -/
structure Represents (x : Double) (i : Int) : Prop where
  finite : x.isFinite = true
  sign : x.isNegative = decide (i < 0)
  magnitude : x.units = i.natAbs * unitsInOne

theorem Represents.isWhole {x : Double} {i : Int} (represents : x.Represents i) : x.isWhole = true := by
  have whole : x.units % unitsInOne = 0 := by rw [represents.magnitude, Nat.mul_mod_left]
  unfold unitsInOne at whole
  exact Bool.and_eq_true_iff.2 ⟨represents.finite, beq_iff_eq.2 whole⟩

section SmallIntegers

variable {i : Int} (small : i.natAbs < 2 ^ 53)
include small

theorem represents_ofInt : (ofInt i).Represents i where
  finite := by
    have below := wordOfRatio_lt_roundingWord small
    simp only [isFinite, word_ofInt, decide_eq_true_eq]
    exact Nat.lt_trans below (by decide)
  sign := isNegative_ofInt i
  magnitude := by rw [units_eq, word_ofInt, magnitude_wordOfRatio small]

theorem Represents.eq_ofInt {x : Double} (represents : x.Represents i) : x = ofInt i := by
  refine eq_of_word_eq (magnitude_strictMono.injective ?_) ?_
  · exact represents.magnitude.trans (represents_ofInt small).magnitude.symm
  · exact represents.sign.trans (isNegative_ofInt i).symm

theorem ofInt_beq_ofInt {k : Int} : (ofInt k == ofInt i) = true ↔ k = i := by
  constructor
  · intro same
    have ranks : (ofInt k).rank = (ofInt i).rank := (beq_iff.1 same).2.2
    simp only [rank, isNegative_ofInt, word_ofInt, decide_eq_true_eq] at ranks
    have words : wordOfRatio i.natAbs 1 = wordOfRatio k.natAbs 1 := by
      split at ranks <;> split at ranks <;> omega
    have sizes := eq_of_wordOfRatio_eq small words
    -- Only zero has the word of zero, so that any other rank tells the sign.
    have zero : wordOfRatio i.natAbs 1 = 0 → i.natAbs = 0 := fun none => eq_of_wordOfRatio_eq (k := 0) small none
    split at ranks <;> split at ranks <;> omega
  · rintro rfl
    exact beq_iff.2 ⟨isNaN_ofInt k, isNaN_ofInt k, rfl⟩

end SmallIntegers

end Double
end Conform
