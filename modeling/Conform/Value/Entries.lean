import Conform.Value.Equality

/-! The entries of a value in order, and lists without their repetitions. -/

namespace Conform

structure Entry where
  index : Nat
  key? : Option String
  value : Value

def distinct {α : Type} [BEq α] (items : List α) : List α := items.eraseDups

namespace Value

/-- Elements of a list, fields of a keyed structure, nothing for an absent or null
value, and any other value as its own single entry. -/
def entries : Value → List Entry
  | undefined | null => []
  | list items => items.zipIdx.map fun (v, i) => ⟨i, none, v⟩
  | object fields | instanceOf _ fields =>
      fields.zipIdx.map fun ((key, v), i) => ⟨i, some key, v⟩
  | v => [⟨0, none, v⟩]

def withoutRepeats : Value → Value
  | list items => list (distinct items)
  | v => v

end Value

end Conform
