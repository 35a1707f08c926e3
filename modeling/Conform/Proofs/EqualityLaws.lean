import Conform.Proofs.StrictEquality

/-! Laws of both equalities of values. Neither depends on which of two values comes first, and a value equals itself
unless some float in it is not a number. What is equal by kind is equal by numeric value, and unlike the latter, equality
by kind is transitive. -/

namespace Conform

namespace Value

inductive Within (u : Value) : Value → Prop where
  | self : Within u u
  | list {xs : List Value} {x : Value} (member : x ∈ xs) (inside : Within u x) : Within u (list xs)
  | object {fields : List (String × Value)} {field : String × Value} (member : field ∈ fields)
      (inside : Within u field.2) : Within u (object fields)
  | instanceOf {className : String} {fields : List (String × Value)} {field : String × Value} (member : field ∈ fields)
      (inside : Within u field.2) : Within u (instanceOf className fields)

def NaNFree (v : Value) : Prop := ∀ x : Double, (float x).Within v → x.isNaN = false

theorem nanFree_float_iff {x : Double} : (float x).NaNFree ↔ x.isNaN = false := by
  constructor
  · intro free
    exact free x .self
  · intro number y inside
    cases inside with
    | self => exact number

theorem nanFree_list_iff {xs : List Value} : (list xs).NaNFree ↔ ∀ v ∈ xs, v.NaNFree := by
  constructor
  · intro free v member x inside
    exact free x (.list member inside)
  · intro each x inside
    cases inside with
    | list member inside => exact each _ member x inside

theorem nanFree_object_iff {fields : List (String × Value)} :
    (object fields).NaNFree ↔ ∀ field ∈ fields, field.2.NaNFree := by
  constructor
  · intro free field member x inside
    exact free x (.object member inside)
  · intro each x inside
    cases inside with
    | object member inside => exact each _ member x inside

theorem nanFree_instanceOf_iff {className : String} {fields : List (String × Value)} :
    (instanceOf className fields).NaNFree ↔ ∀ field ∈ fields, field.2.NaNFree := by
  constructor
  · intro free field member x inside
    exact free x (.instanceOf member inside)
  · intro each x inside
    cases inside with
    | instanceOf member inside => exact each _ member x inside

section Agreement

variable {mixed mixed' : Int64 → Double → Bool}

theorem agreeFields_self_iff {fields : List (String × Value)} :
    agreeFields mixed fields fields = true ↔ ∀ field ∈ fields, agree mixed field.2 field.2 = true := by
  simp only [agreeFields_iff, List.forall₂_same, fieldsRelate_iff, true_and]

theorem agree_self_iff {a : Value} : agree mixed a a = true ↔ a.NaNFree := by
  induction a with
  | float x =>
    have same : agree mixed (float x) (float x) = true ↔ x.isNaN = false := by
      change (x == x) = true ↔ _
      simp [Double.beq_iff]
    exact same.trans nanFree_float_iff.symm
  | list xs ih =>
    have same : agree mixed (list xs) (list xs) = true ↔ ∀ v ∈ xs, agree mixed v v = true :=
      agreeItems_iff.trans List.forall₂_same
    rw [same, nanFree_list_iff]
    exact forall₂_congr ih
  | object fields ih =>
    have same : agree mixed (object fields) (object fields) = true ↔
        ∀ field ∈ fields, agree mixed field.2 field.2 = true := agreeFields_self_iff
    rw [same, nanFree_object_iff]
    exact forall₂_congr ih
  | instanceOf className fields ih =>
    have same : agree mixed (instanceOf className fields) (instanceOf className fields) = true ↔
        ∀ field ∈ fields, agree mixed field.2 field.2 = true := by
      change (className == className && agreeFields mixed fields fields) = true ↔ _
      rw [beq_self_eq_true, Bool.true_and, agreeFields_self_iff]
    rw [same, nanFree_instanceOf_iff]
    exact forall₂_congr ih
  | _ =>
    refine iff_of_true (by simp [agree]) ?_
    intro x inside
    cases inside

theorem agreeFields_both {fields fields' : List (String × Value)} (same : agreeFields mixed fields fields' = true)
    (values : ∀ field ∈ fields', ∀ {x : Value}, agree mixed x field.2 = true →
      agree mixed' x field.2 = true ∧ agree mixed' field.2 x = true) :
    agreeFields mixed' fields fields' = true ∧ agreeFields mixed' fields' fields = true := by
  have each : List.Forall₂ (FieldsRelate fun x y => agree mixed' x y = true ∧ agree mixed' y x = true) fields fields' :=
    forall₂_imp_of_mem (agreeFields_iff.1 same) fun a b member related =>
      fieldsRelate_iff.2 ⟨related.key, values b member related.value⟩
  rw [agreeFields_iff, agreeFields_iff]
  constructor
  · exact each.imp fun a b related => fieldsRelate_iff.2 ⟨related.key, related.value.1⟩
  · exact (each.imp fun a b related => fieldsRelate_iff.2 ⟨related.key.symm, related.value.2⟩).flip

theorem agree_both (wider : ∀ i x, mixed i x = true → mixed' i x = true) {a b : Value}
    (same : agree mixed a b = true) : agree mixed' a b = true ∧ agree mixed' b a = true := by
  induction b generalizing a with
  | int k =>
    cases a with
    | int i => exact ⟨same, beq_iff_eq.2 (beq_iff_eq.1 same).symm⟩
    | float x => exact ⟨wider k x same, wider k x same⟩
    | _ => simp [agree] at same
  | float y =>
    cases a with
    | int i => exact ⟨wider i y same, wider i y same⟩
    | float x => exact ⟨same, (Double.beq_comm y x).trans same⟩
    | _ => simp [agree] at same
  | list ys ih =>
    cases a with
    | list xs =>
      have each : List.Forall₂ (fun x y => agree mixed' x y = true ∧ agree mixed' y x = true) xs ys :=
        forall₂_imp_of_mem (agreeItems_iff.1 same) fun x y member => ih y member
      exact ⟨agreeItems_iff.2 (each.imp fun _ _ => And.left), agreeItems_iff.2 (each.imp fun _ _ => And.right).flip⟩
    | _ => simp [agree] at same
  | object fields' ih =>
    cases a with
    | object fields => exact agreeFields_both same ih
    | _ => simp [agree] at same
  | instanceOf className' fields' ih =>
    cases a with
    | instanceOf className fields =>
      obtain ⟨classes, parts⟩ := Bool.and_eq_true_iff.1 same
      obtain ⟨forth, back⟩ := agreeFields_both parts ih
      exact ⟨Bool.and_eq_true_iff.2 ⟨classes, forth⟩,
        Bool.and_eq_true_iff.2 ⟨beq_iff_eq.2 (beq_iff_eq.1 classes).symm, back⟩⟩
    | _ => simp [agree] at same
  | _ => cases a <;> simp_all [agree]

theorem agree_comm (a b : Value) : agree mixed a b = agree mixed b a := by
  have symm {a b : Value} (same : agree mixed a b = true) : agree mixed b a = true :=
    (agree_both (fun _ _ => id) same).2
  exact Bool.eq_iff_iff.2 ⟨symm, symm⟩

end Agreement

section Kinds

/-- Equality by kind is transitive, as no float stands between integers. -/
theorem beq_trans {a b c : Value} (first : (a == b) = true) (second : (b == c) = true) : (a == c) = true := by
  induction a generalizing b c with
  | int i =>
    cases b with
    | int k =>
      obtain rfl : i = k := beq_iff_eq.1 first
      exact second
    | _ => cases first
  | float x =>
    cases b with
    | float y =>
      cases c with
      | float z => exact Double.beq_trans first second
      | _ => cases second
    | _ => cases first
  | list xs ih =>
    obtain ⟨ys, rfl, each⟩ := agree_list_iff.1 first
    obtain ⟨zs, rfl, each'⟩ := agree_list_iff.1 second
    exact agree_list_iff.2 ⟨zs, rfl, forall₂_compose each each' fun x member _ _ _ => ih x member⟩
  | object fields ih =>
    obtain ⟨_, rfl, each⟩ := agree_object_iff.1 first
    obtain ⟨fields', rfl, each'⟩ := agree_object_iff.1 second
    exact agree_object_iff.2 ⟨fields', rfl, fields_compose each each' fun a member _ _ _ => ih a member⟩
  | instanceOf className fields ih =>
    obtain ⟨_, rfl, each⟩ := agree_instanceOf_iff.1 first
    obtain ⟨fields', rfl, each'⟩ := agree_instanceOf_iff.1 second
    exact agree_instanceOf_iff.2 ⟨fields', rfl, fields_compose each each' fun a member _ _ _ => ih a member⟩
  | _ =>
    obtain rfl := eq_of_agree first rfl nofun rfl
    exact second

instance : PartialEquivBEq Value where
  symm {a b} same := (agree_comm b a).trans same
  trans := beq_trans

end Kinds

/-- Equality by numeric value is symmetric. It is reflexive exactly where every float is a number, and coarser than
equality by kind. -/
theorem strictEq_laws (a b : Value) :
    a.strictEq b = b.strictEq a ∧
      (a.strictEq a = true ↔ ∀ x : Double, (float x).Within a → x.isNaN = false) ∧
      ((a == b) = true → a.strictEq b = true) := by
  refine ⟨agree_comm a b, agree_self_iff, ?_⟩
  intro kinds
  have wider (i : Int64) (x : Double) (never : false = true) : (Double.ofInt i.toInt == x) = true := nomatch never
  exact (agree_both wider kinds).1

theorem zeroPrices_equal :
    (price [.int 3] (.float ⟨0x8000000000000000⟩) == price [.int 3] (.float ⟨0⟩)) = true ∧
      (price [.int 3] (.float ⟨0x8000000000000000⟩)).strictEq (price [.int 3] (.float ⟨0⟩)) = true := by
  have kinds : (price [.int 3] (.float ⟨0x8000000000000000⟩) == price [.int 3] (.float ⟨0⟩)) = true := by decide
  exact ⟨kinds, (strictEq_laws _ _).2.2 kinds⟩

end Value

end Conform
