import Conform.Validation.Rules

/-! What the rules about a value alone demand, and that each of them is checked exactly. A
failure of such a rule is located at the value itself and has the kind of the rule. -/

namespace Conform

theorem typeMismatch_eq (tag : TypeTag) (v : Value) :
    ∃ message, typeMismatch tag v = .here .typeMismatch message := by
  unfold typeMismatch
  split <;> exact ⟨_, rfl⟩

theorem TypeRules.checkClass_error {type : TypeRules} {v : Value} {f : Failure}
    (failed : type.checkClass v = .error f) : ∃ message, f = .here .instanceMismatch message := by
  unfold checkClass at failed
  grind

def TypeRules.Classifies (type : TypeRules) (v : Value) : Prop :=
  type.classes ≠ [] → ∃ className ∈ type.classes, v.className? = some className

theorem TypeRules.checkClass_ok {type : TypeRules} {v : Value} :
    type.checkClass v = .ok () ↔ type.Classifies v := by
  unfold checkClass Classifies
  cases type.classes with
  | nil => simp
  | cons first rest => cases v.className? <;> simp [Decidable.or_iff_not_imp_left]

variable [RegexEngine]

namespace Constraints

def BoundsNumber (c : Constraints) (x : Double) : Prop :=
  (∀ limit, c.min? = some limit → x.lt limit = false) ∧
  (∀ limit, c.max? = some limit → limit.lt x = false)

def BoundsLength (c : Constraints) (size : Nat) : Prop :=
  (∀ wanted, c.length? = some wanted → size = wanted) ∧
  (c.allowEmpty = false → size ≠ 0) ∧
  (∀ limit, c.min? = some limit → (Double.ofNat size).lt limit = false) ∧
  (∀ limit, c.max? = some limit → limit.lt (Double.ofNat size) = false)

/-- The limits under a type tag: numeric tags bound the number, the tags of strings and lists
bound the length. -/
def Bounds (c : Constraints) (tag : TypeTag) (v : Value) : Prop :=
  (tag.isNumeric = true → ∀ x, v.number? = some x → c.BoundsNumber x) ∧
  (tag = .string ∨ tag = .array → ∀ size, v.length? = some size → c.BoundsLength size)

def Matches (c : Constraints) (tag : TypeTag) (v : Value) : Prop :=
  tag = .string → ∀ pattern text, c.pattern? = some pattern → v = .string text →
    pattern.isMatch text = true

def Wants (c : Constraints) (v : Value) : Prop :=
  (∀ wanted, c.equals? = some wanted → v.strictEq wanted = true) ∧
  (∀ allowed, c.contains? = some allowed → ∃ candidate ∈ allowed, v.strictEq candidate = true)

theorem checkNumber_ok {c : Constraints} {v : Value} {x : Double} :
    c.checkNumber v x = .ok () ↔ c.BoundsNumber x := by
  unfold checkNumber BoundsNumber
  cases c.min? <;> cases c.max? <;> simp [Option.filter] <;> grind

theorem checkLength_ok {c : Constraints} {label noun : String} {size : Nat} :
    c.checkLength label noun size = .ok () ↔ c.BoundsLength size := by
  unfold checkLength BoundsLength
  cases c.length? <;> cases c.min? <;> cases c.max? <;> simp [Option.filter] <;> grind

theorem bounds_of_unbounded {c : Constraints} (unbounded : c.hasBounds = false) (tag : TypeTag) (v : Value) :
    c.Bounds tag v := by
  simp only [hasBounds, Bool.or_eq_false_iff, Option.isSome_eq_false_iff, Option.isNone_iff_eq_none,
    Bool.not_eq_false'] at unbounded
  obtain ⟨⟨⟨low, high⟩, size⟩, empty⟩ := unbounded
  simp [Bounds, BoundsNumber, BoundsLength, low, high, size, empty]

theorem checkBounds_ok {c : Constraints} {tag : TypeTag} {v : Value} :
    c.checkBounds tag v = .ok () ↔ c.Bounds tag v := by
  unfold checkBounds
  split
  · next unbounded =>
    rw [Bool.not_eq_true'] at unbounded
    exact iff_of_true rfl (bounds_of_unbounded unbounded tag v)
  · unfold Bounds
    cases tag <;> cases v.number? <;> cases v.length? <;>
      simp [TypeTag.isNumeric, checkNumber_ok, checkLength_ok]

theorem checkPattern_ok {c : Constraints} {tag : TypeTag} {v : Value} :
    c.checkPattern tag v = .ok () ↔ c.Matches tag v := by
  unfold checkPattern Matches
  split
  · next pattern text found => simp [found]
  · next other =>
    simp only [true_iff]
    intro same pattern text found equal
    obtain rfl := same
    obtain rfl := equal
    exact absurd found (other pattern text rfl · rfl)

theorem checkEquality_ok {c : Constraints} {v : Value} :
    c.checkEquality v = .ok () ↔
      ∀ wanted, c.equals? = some wanted → v.strictEq wanted = true := by
  unfold checkEquality
  cases c.equals? <;> simp

theorem checkEnumeration_ok {c : Constraints} {previewLimit : Nat} {v : Value} :
    c.checkEnumeration previewLimit v = .ok () ↔
      ∀ allowed, c.contains? = some allowed → ∃ candidate ∈ allowed, v.strictEq candidate = true := by
  unfold checkEnumeration
  cases c.contains? <;> simp

theorem checkNumber_error {c : Constraints} {v : Value} {x : Double} {f : Failure}
    (failed : c.checkNumber v x = .error f) : ∃ message, f = .here .range message := by
  unfold checkNumber at failed
  grind

theorem checkLength_error {c : Constraints} {label noun : String} {size : Nat} {f : Failure}
    (failed : c.checkLength label noun size = .error f) : ∃ message, f = .here .range message := by
  unfold checkLength at failed
  grind

theorem checkBounds_error {c : Constraints} {tag : TypeTag} {v : Value} {f : Failure}
    (failed : c.checkBounds tag v = .error f) : ∃ message, f = .here .range message := by
  unfold checkBounds at failed
  split at failed
  · cases failed
  split at failed
  · cases number : v.number? with
    | none => simp [number] at failed
    | some x => exact checkNumber_error (by simpa [number] using failed)
  · split at failed
    · cases length : v.length? with
      | none => simp [length] at failed
      | some size => exact checkLength_error (by simpa [length] using failed)
    · cases length : v.length? with
      | none => simp [length] at failed
      | some size => exact checkLength_error (by simpa [length] using failed)
    · cases failed

theorem checkPattern_error {c : Constraints} {tag : TypeTag} {v : Value} {f : Failure}
    (failed : c.checkPattern tag v = .error f) : ∃ message, f = .here .pattern message := by
  unfold checkPattern at failed
  grind

theorem checkEquality_error {c : Constraints} {v : Value} {f : Failure}
    (failed : c.checkEquality v = .error f) : ∃ message, f = .here .equality message := by
  unfold checkEquality at failed
  grind

theorem checkEnumeration_error {c : Constraints} {previewLimit : Nat} {v : Value} {f : Failure}
    (failed : c.checkEnumeration previewLimit v = .error f) :
    ∃ message, f = .here .enumeration message := by
  unfold checkEnumeration at failed
  grind

end Constraints

/-- The two ways in which a value may be missing. -/
def Rules.Spares {ν : Type} (rules : Rules ν) (v : Value) : Prop :=
  v = .undefined ∧ rules.optional = true ∨ v = .null ∧ rules.nullable = true

theorem Rules.absentExit?_eq_some {ν : Type} {rules : Rules ν} {v w : Value} :
    rules.absentExit? v = some w ↔
      v = .undefined ∧ rules.optional = true ∧ w = rules.default?.getD .undefined ∨
      v = .null ∧ rules.nullable = true ∧ w = .null := by
  cases v <;> simp only [absentExit?, reduceCtorEq, false_and, or_false, false_or, true_and]
  · by_cases optional : rules.optional = true <;> simp [optional, eq_comm]
  · by_cases nullable : rules.nullable = true <;> simp [nullable, eq_comm]

theorem Rules.absentExit?_cases {ν : Type} {rules : Rules ν} {v w : Value} (exit : rules.absentExit? v = some w) :
    w = v ∨ rules.optional = true ∧ rules.default? = some w := by
  rcases Rules.absentExit?_eq_some.1 exit with ⟨rfl, optional, rfl⟩ | ⟨rfl, _, rfl⟩
  · cases declared : rules.default? with
    | none => exact .inl rfl
    | some d => exact .inr ⟨optional, rfl⟩
  · exact .inl rfl

theorem Rules.absentExit?_of_keyed {ν : Type} (rules : Rules ν) {v : Value} {fields : List (String × Value)}
    (keyed : v.fields? = some fields) : rules.absentExit? v = none := by
  cases v <;> cases keyed <;> rfl

theorem Rules.exists_absentExit? {ν : Type} {rules : Rules ν} {v : Value} :
    (∃ w, rules.absentExit? v = some w) ↔ rules.Spares v := by
  simp only [absentExit?_eq_some, Spares]
  constructor
  · intro given
    obtain ⟨w, ⟨same, optional, _⟩ | ⟨same, nullable, _⟩⟩ := given
    · exact .inl ⟨same, optional⟩
    · exact .inr ⟨same, nullable⟩
  · intro given
    rcases given with ⟨same, optional⟩ | ⟨same, nullable⟩
    · exact ⟨_, .inl ⟨same, optional, rfl⟩⟩
    · exact ⟨_, .inr ⟨same, nullable, rfl⟩⟩

end Conform
