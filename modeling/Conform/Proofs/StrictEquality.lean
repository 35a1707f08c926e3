import Conform.Proofs.Rounding
import Conform.Proofs.Simulation
import Conform.Proofs.ValueTree
import Conform.Value.Equality

/-! Transitivity of equality by numeric value. Two integers are compared exactly, but an integer and a float are
compared as doubles. Equality is transitive except where a float between two integers hides that they differ. -/

namespace Conform

namespace Value

section Parts

variable {mixed : Int64 → Double → Bool}

theorem agreeItems_iff {xs ys : List Value} :
    agreeItems mixed xs ys = true ↔ List.Forall₂ (fun x y => agree mixed x y = true) xs ys := by
  induction xs generalizing ys with
  | nil => cases ys <;> simp [agreeItems]
  | cons x xs ih => cases ys <;> simp [agreeItems, ih]

theorem agreeFields_iff {fields fields' : List (String × Value)} :
    agreeFields mixed fields fields' = true ↔
      List.Forall₂ (FieldsRelate fun x y => agree mixed x y = true) fields fields' := by
  induction fields generalizing fields' with
  | nil => cases fields' <;> simp [agreeFields]
  | cons field fields ih => cases fields' <;> simp [agreeFields, ih, fieldsRelate_iff]

theorem agree_list_iff {xs : List Value} {b : Value} :
    agree mixed (list xs) b = true ↔ ∃ ys, b = list ys ∧ List.Forall₂ (fun x y => agree mixed x y = true) xs ys := by
  cases b with
  | list ys =>
    have parts : agree mixed (list xs) (list ys) = true ↔ List.Forall₂ (fun x y => agree mixed x y = true) xs ys :=
      agreeItems_iff
    simp [parts]
  | _ => simp [agree]

theorem agree_object_iff {fields : List (String × Value)} {b : Value} :
    agree mixed (object fields) b = true ↔ ∃ fields', b = object fields' ∧
      List.Forall₂ (FieldsRelate fun x y => agree mixed x y = true) fields fields' := by
  cases b with
  | object fields' =>
    have parts : agree mixed (object fields) (object fields') = true ↔
        List.Forall₂ (FieldsRelate fun x y => agree mixed x y = true) fields fields' := agreeFields_iff
    simp [parts]
  | _ => simp [agree]

theorem agree_instanceOf_iff {className : String} {fields : List (String × Value)} {b : Value} :
    agree mixed (instanceOf className fields) b = true ↔ ∃ fields', b = instanceOf className fields' ∧
      List.Forall₂ (FieldsRelate fun x y => agree mixed x y = true) fields fields' := by
  cases b with
  | instanceOf other fields' =>
    have parts : agree mixed (instanceOf className fields) (instanceOf other fields') = true ↔ other = className ∧
        List.Forall₂ (FieldsRelate fun x y => agree mixed x y = true) fields fields' := by
      change (className == other && agreeFields mixed fields fields') = true ↔ _
      rw [Bool.and_eq_true, beq_iff_eq, eq_comm, agreeFields_iff]
    simp [parts]
  | _ => simp [agree]

theorem eq_of_agree {a b : Value} (same : agree mixed a b = true) (unnumbered : a.number? = none)
    (unlisted : ∀ xs, a ≠ list xs) (unkeyed : a.fields? = none) : b = a := by
  cases a with
  | int | float => cases unnumbered
  | list xs => exact absurd rfl (unlisted xs)
  | object | instanceOf => cases unkeyed
  | _ => cases b <;> simp_all [agree]

theorem fields_compose {R S T : Value → Value → Prop} {fields between fields' : List (String × Value)}
    (first : List.Forall₂ (FieldsRelate R) fields between) (second : List.Forall₂ (FieldsRelate S) between fields')
    (values : ∀ a ∈ fields, ∀ (y : Value) (b : String × Value), (a, b) ∈ fields.zip fields' →
      R a.2 y → S y b.2 → T a.2 b.2) : List.Forall₂ (FieldsRelate T) fields fields' := by
  refine forall₂_compose first second ?_
  intro a member _ b place one other
  exact fieldsRelate_iff.2 ⟨one.key.trans other.key, values a member _ b place one.value other.value⟩

end Parts

/-- At some place, two trees hold integers that merge. -/
inductive MergeWithin : Value → Value → Prop where
  | int {i k : Int64} (merge : Double.Merge i.toInt k.toInt) : MergeWithin (int i) (int k)
  | list {xs ys : List Value} {x y : Value} (place : (x, y) ∈ xs.zip ys) (parts : MergeWithin x y) :
      MergeWithin (list xs) (list ys)
  | object {fields fields' : List (String × Value)} {a b : String × Value} (place : (a, b) ∈ fields.zip fields')
      (parts : MergeWithin a.2 b.2) : MergeWithin (object fields) (object fields')
  | instanceOf {className className' : String} {fields fields' : List (String × Value)} {a b : String × Value}
      (place : (a, b) ∈ fields.zip fields') (parts : MergeWithin a.2 b.2) :
      MergeWithin (instanceOf className fields) (instanceOf className' fields')

theorem mergeWithin_int_iff {i k : Int64} : (int i).MergeWithin (int k) ↔ Double.Merge i.toInt k.toInt := by
  constructor
  · intro given
    cases given with
    | int merge => exact merge
  · exact .int

theorem strictEq_number_iff {a : Value} {x : Double} (number : a.number? = some x) {b : Value} :
    a.strictEq b = true ↔ ∃ y, b.number? = some y ∧ (x == y) = true ∧ ¬a.MergeWithin b := by
  cases a with
  | int i =>
    cases number
    cases b with
    | int k =>
      have exactly : (int i).strictEq (int k) = true ↔ i.toInt = k.toInt := by
        rw [Int64.toInt_inj]
        exact beq_iff_eq
      have apart : i.toInt = k.toInt → ¬Double.Merge i.toInt k.toInt := fun same merge => merge.differ same
      simp only [exactly, number?, Option.some.injEq, exists_eq_left', mergeWithin_int_iff, Double.ofInt_beq_iff]
      rw [or_and_right, and_not_self_iff, or_false, and_iff_left_of_imp apart]
    | float y =>
      have never : ¬(int i).MergeWithin (float y) := nofun
      simp [strictEq, agree, number?, never]
    | _ => simp [strictEq, agree, number?]
  | float x =>
    cases number
    have never : ¬(float x).MergeWithin b := nofun
    cases b with
    | int k => simp [strictEq, agree, number?, never, Double.beq_comm x]
    | _ => simp [strictEq, agree, number?, never]
  | _ => cases number

theorem not_mergeWithin_of_strictEq {a b : Value} (same : a.strictEq b = true) : ¬a.MergeWithin b := by
  intro merge
  induction merge with
  | int merge =>
    obtain ⟨_, _, _, apart⟩ := (strictEq_number_iff rfl).1 same
    exact apart (.int merge)
  | list place _ ih =>
    obtain ⟨_, ⟨⟩, each⟩ := agree_list_iff.1 same
    exact ih ((List.forall₂_iff_zip.1 each).2 place)
  | object place _ ih =>
    obtain ⟨_, ⟨⟩, each⟩ := agree_object_iff.1 same
    exact ih ((List.forall₂_iff_zip.1 each).2 place).value
  | instanceOf place _ ih =>
    obtain ⟨_, ⟨⟩, each⟩ := agree_instanceOf_iff.1 same
    exact ih ((List.forall₂_iff_zip.1 each).2 place).value

theorem numbers_equal_of_apart {a b c : Value} {x : Double} (number : a.number? = some x)
    (first : a.strictEq b = true) (second : b.strictEq c = true) (apart : ¬a.MergeWithin c) :
    a.strictEq c = true := by
  obtain ⟨y, between, same, _⟩ := (strictEq_number_iff number).1 first
  obtain ⟨z, last, same', _⟩ := (strictEq_number_iff between).1 second
  exact (strictEq_number_iff number).2 ⟨z, last, Double.beq_trans same same', apart⟩

theorem strictEq_of_apart {a b c : Value} (first : a.strictEq b = true) (second : b.strictEq c = true)
    (apart : ¬a.MergeWithin c) : a.strictEq c = true := by
  -- Equal values have the same form, so that only numbers can be spelt differently in the three values.
  induction a generalizing b c with
  | int | float => exact numbers_equal_of_apart rfl first second apart
  | list xs ih =>
    obtain ⟨ys, rfl, each⟩ := agree_list_iff.1 first
    obtain ⟨zs, rfl, each'⟩ := agree_list_iff.1 second
    refine agree_list_iff.2 ⟨zs, rfl, forall₂_compose each each' ?_⟩
    intro x member y z place one other
    exact ih x member one other fun parts => apart (.list place parts)
  | object fields ih =>
    obtain ⟨_, rfl, each⟩ := agree_object_iff.1 first
    obtain ⟨fields', rfl, each'⟩ := agree_object_iff.1 second
    refine agree_object_iff.2 ⟨fields', rfl, fields_compose each each' ?_⟩
    intro a member y b place one other
    exact ih a member one other fun parts => apart (.object place parts)
  | instanceOf className fields ih =>
    obtain ⟨_, rfl, each⟩ := agree_instanceOf_iff.1 first
    obtain ⟨fields', rfl, each'⟩ := agree_instanceOf_iff.1 second
    refine agree_instanceOf_iff.2 ⟨fields', rfl, fields_compose each each' ?_⟩
    intro a member y b place one other
    exact ih a member one other fun parts => apart (.instanceOf place parts)
  | _ =>
    obtain rfl := eq_of_agree first rfl nofun rfl
    exact second

/-- By way of a third value, two values are equal exactly if no integers merge between them. -/
theorem strictEq_trans_iff {a b c : Value} (first : a.strictEq b = true) (second : b.strictEq c = true) :
    a.strictEq c = true ↔ ¬a.MergeWithin c :=
  ⟨not_mergeWithin_of_strictEq, strictEq_of_apart first second⟩

def price (amounts : List Value) (scale : Value) : Value :=
  .object [("amounts", .list amounts), ("scale", scale)]

theorem price_strictEq :
    (price [.int 1250] (.float (.ofInt 2))).strictEq (price [.float (.ofInt 1250)] (.float (.ofInt 2))) = true ∧
      (price [.float (.ofInt 1250)] (.float (.ofInt 2))).strictEq (price [.float (.ofInt 1250)] (.int 2)) = true ∧
      ¬(price [.int 1250] (.float (.ofInt 2))).MergeWithin (price [.float (.ofInt 1250)] (.int 2)) := by
  refine ⟨by decide, by decide, ?_⟩
  exact (strictEq_trans_iff (b := price [.float (.ofInt 1250)] (.float (.ofInt 2))) (by decide) (by decide)).1
    (by decide)

/-- A float between them hides that two integers differ. -/
theorem strictEq_not_transitive :
    ¬∀ a b c : Value, a.strictEq b = true → b.strictEq c = true → a.strictEq c = true := by
  intro transitive
  have wrong := transitive (.int 9007199254740993) (.float (.ofInt 9007199254740992)) (.int 9007199254740992)
    (by decide) (by decide)
  exact absurd wrong (by decide)

end Value

end Conform
