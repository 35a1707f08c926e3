import Conform.Value.Text

/-! Values as trees: induction on them, and their texts in terms of the texts of their parts. -/

namespace Conform

namespace Value

@[elab_as_elim, induction_eliminator]
theorem induct {motive : Value → Prop} (undefined : motive .undefined) (null : motive .null)
    (bool : ∀ b, motive (.bool b)) (int : ∀ i, motive (.int i)) (float : ∀ x, motive (.float x))
    (bigInt : ∀ i, motive (.bigInt i)) (string : ∀ s, motive (.string s))
    (symbol : ∀ description, motive (.symbol description)) (function : ∀ name, motive (.function name))
    (list : ∀ items, (∀ v ∈ items, motive v) → motive (.list items))
    (object : ∀ fields, (∀ field ∈ fields, motive field.2) → motive (.object fields))
    (instanceOf : ∀ className fields, (∀ field ∈ fields, motive field.2) →
      motive (.instanceOf className fields)) : (v : Value) → motive v
  | .undefined => undefined
  | .null => null
  | .bool b => bool b
  | .int i => int i
  | .float x => float x
  | .bigInt i => bigInt i
  | .string s => string s
  | .symbol description => symbol description
  | .function name => function name
  | .list items => list items fun v _ =>
      induct undefined null bool int float bigInt string symbol function list object instanceOf v
  | .object fields => object fields fun field _ =>
      induct undefined null bool int float bigInt string symbol function list object instanceOf field.2
  | .instanceOf className fields => instanceOf className fields fun field _ =>
      induct undefined null bool int float bigInt string symbol function list object instanceOf field.2
termination_by v => sizeOf v
decreasing_by
  · have smaller := List.sizeOf_lt_of_mem ‹_ ∈ items›
    simp only [Value.list.sizeOf_spec]
    omega
  all_goals
    have smaller := List.sizeOf_lt_of_mem ‹_ ∈ fields›
    obtain ⟨key, v⟩ := field
    simp only [Value.object.sizeOf_spec, Value.instanceOf.sizeOf_spec, Prod.mk.sizeOf_spec] at smaller ⊢
    omega

theorem shapes_eq (items : List Value) : shapes items = items.map shape := by
  induction items with
  | nil => rfl
  | cons v rest ih => rw [shapes, ih, List.map_cons]

theorem fieldShapes_eq (fields : List (String × Value)) :
    fieldShapes fields = fields.map fun field => field.1 ++ ": " ++ field.2.shape := by
  induction fields with
  | nil => rfl
  | cons field rest ih => rw [fieldShapes, ih, List.map_cons]

theorem literals_eq (items : List Value) : literals items = items.map literal := by
  induction items with
  | nil => rfl
  | cons v rest ih => rw [literals, ih, List.map_cons]

end Value

end Conform
