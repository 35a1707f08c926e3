import Conform.Schema.Basic

/-! Schemas as trees: induction on them, the nodes that they consist of, and their height,
which is how many levels below its root a check can go. -/

namespace Conform

namespace Schema

variable [RegexEngine] {ν : Type}

def elementSchemas (items? : Option (List (Schema ν))) : List (Schema ν) := items?.getD defaultItems

private theorem sizeOf_entry_lt {entry : PropertyKey × Schema ν}
    {properties : List (PropertyKey × Schema ν)} (member : entry ∈ properties) :
    sizeOf entry.2 < sizeOf properties := by
  have smaller := List.sizeOf_lt_of_mem member
  obtain ⟨key, s⟩ := entry
  simp only [Prod.mk.sizeOf_spec] at smaller ⊢
  omega

/-- Induction on everything that a schema declares, schemas of elements included on nodes that
are not of lists. -/
@[elab_as_elim]
theorem inductDeclared {motive : Schema ν → Prop}
    (shape : ∀ rules properties, (∀ entry ∈ properties, motive entry.2) →
      motive (.shape rules properties))
    (alternation : ∀ rules members, (∀ s ∈ members, motive s) →
      motive (.alternation rules members))
    (typed : ∀ rules type items? nested?, (∀ s ∈ items?.getD [], motive s) →
      (∀ entry ∈ nested?.getD [], motive entry.2) →
      motive (.typed rules type items? nested?)) : (s : Schema ν) → motive s
  | .shape rules properties => shape rules properties fun entry _ =>
      inductDeclared shape alternation typed entry.2
  | .alternation rules members => alternation rules members fun s _ =>
      inductDeclared shape alternation typed s
  | .typed rules type items? nested? =>
      typed rules type items? nested? (fun s _ => inductDeclared shape alternation typed s)
        fun entry _ => inductDeclared shape alternation typed entry.2
termination_by s => sizeOf s
decreasing_by
  · have smaller := sizeOf_entry_lt ‹_ ∈ properties›
    simp only [Schema.shape.sizeOf_spec]
    omega
  · have smaller := List.sizeOf_lt_of_mem ‹_ ∈ members›
    simp only [Schema.alternation.sizeOf_spec]
    omega
  · cases items? with
    | none => cases ‹_ ∈ Option.getD none []›
    | some items =>
      have smaller := List.sizeOf_lt_of_mem ‹_ ∈ Option.getD (some items) []›
      simp only [Option.getD_some, Schema.typed.sizeOf_spec, Option.some.sizeOf_spec] at smaller ⊢
      omega
  · cases nested? with
    | none => cases ‹_ ∈ Option.getD none []›
    | some properties =>
      have smaller := sizeOf_entry_lt ‹_ ∈ Option.getD (some properties) []›
      simp only [Option.getD_some, Schema.typed.sizeOf_spec, Option.some.sizeOf_spec] at smaller ⊢
      omega

/-- Induction on schemas. Only a node of lists has schemas of elements, among them the one
that counts where none are declared. -/
@[elab_as_elim, induction_eliminator]
theorem induct {motive : Schema ν → Prop}
    (shape : ∀ rules properties, (∀ entry ∈ properties, motive entry.2) →
      motive (.shape rules properties))
    (alternation : ∀ rules members, (∀ s ∈ members, motive s) →
      motive (.alternation rules members))
    (typed : ∀ rules type items? nested?,
      (type.tag = .array → ∀ s ∈ elementSchemas items?, motive s) →
      (∀ properties, nested? = some properties → ∀ entry ∈ properties, motive entry.2) →
      motive (.typed rules type items? nested?)) (s : Schema ν) : motive s := by
  induction s using inductDeclared with
  | shape rules properties ih => exact shape rules properties ih
  | alternation rules members ih => exact alternation rules members ih
  | typed rules type items? nested? itemsIh nestedIh =>
    refine typed rules type items? nested? (fun _ s member => ?_) fun _ found entry member => ?_
    · cases items? with
      | some items => exact itemsIh s member
      | none =>
        -- The default schema of elements lies outside the tree, but has no parts itself.
        obtain rfl : s = .any := List.mem_singleton.1 member
        exact typed {} { tag := .any } none none nofun nofun
    · subst found
      exact nestedIh entry member

mutual

def descendants : Schema ν → List (Schema ν)
  | shape _ properties => nodesOfEntries properties
  | alternation _ members => nodesOfAll members
  | typed _ _ items? nested? =>
    (match items? with
      | some items => nodesOfAll items
      | none => []) ++
    (match nested? with
      | some properties => nodesOfEntries properties
      | none => [])

def nodesOfAll : List (Schema ν) → List (Schema ν)
  | [] => []
  | s :: rest => s :: descendants s ++ nodesOfAll rest

def nodesOfEntries : List (PropertyKey × Schema ν) → List (Schema ν)
  | [] => []
  | (_, s) :: rest => s :: descendants s ++ nodesOfEntries rest

end

def nodes (s : Schema ν) : List (Schema ν) := s :: s.descendants

theorem nodesOfAll_eq (schemas : List (Schema ν)) : nodesOfAll schemas = schemas.flatMap nodes := by
  induction schemas with
  | nil => rfl
  | cons s rest ih => rw [nodesOfAll, ih, List.flatMap_cons, nodes]

theorem nodesOfEntries_eq (properties : List (PropertyKey × Schema ν)) :
    nodesOfEntries properties = properties.flatMap fun entry => entry.2.nodes := by
  induction properties with
  | nil => rfl
  | cons entry rest ih => rw [nodesOfEntries, ih, List.flatMap_cons, nodes]

def Everywhere (condition : Schema ν → Prop) (s : Schema ν) : Prop := ∀ node ∈ s.nodes, condition node

def EverywhereBelow (condition : Schema ν → Prop) (s : Schema ν) : Prop :=
  ∀ node ∈ s.descendants, condition node

theorem everywhere_iff {condition : Schema ν → Prop} {s : Schema ν} :
    s.Everywhere condition ↔ condition s ∧ s.EverywhereBelow condition := by
  simp only [Everywhere, EverywhereBelow, nodes, List.forall_mem_cons]

theorem descendants_shape (rules : Rules ν) (properties : List (PropertyKey × Schema ν)) :
    (shape rules properties).descendants = properties.flatMap fun entry => entry.2.nodes :=
  nodesOfEntries_eq properties

theorem descendants_alternation (rules : Rules ν) (members : List (Schema ν)) :
    (alternation rules members).descendants = members.flatMap nodes :=
  nodesOfAll_eq members

theorem descendants_typed (rules : Rules ν) (type : TypeRules) (items? : Option (List (Schema ν)))
    (nested? : Option (List (PropertyKey × Schema ν))) :
    (typed rules type items? nested?).descendants =
      (items?.getD []).flatMap nodes ++ (nested?.getD []).flatMap fun entry => entry.2.nodes := by
  cases items? <;> cases nested? <;> simp [descendants, nodesOfAll_eq, nodesOfEntries_eq]

theorem everywhereBelow_shape {condition : Schema ν → Prop} {rules : Rules ν}
    {properties : List (PropertyKey × Schema ν)} :
    (shape rules properties).EverywhereBelow condition ↔
      ∀ entry ∈ properties, entry.2.Everywhere condition := by
  simp only [EverywhereBelow, Everywhere, descendants_shape, List.forall_mem_flatMap]

theorem everywhereBelow_alternation {condition : Schema ν → Prop} {rules : Rules ν}
    {members : List (Schema ν)} :
    (alternation rules members).EverywhereBelow condition ↔
      ∀ s ∈ members, s.Everywhere condition := by
  simp only [EverywhereBelow, Everywhere, descendants_alternation, List.forall_mem_flatMap]

theorem everywhereBelow_typed {condition : Schema ν → Prop} {rules : Rules ν} {type : TypeRules}
    {items? : Option (List (Schema ν))} {nested? : Option (List (PropertyKey × Schema ν))} :
    (typed rules type items? nested?).EverywhereBelow condition ↔
      (∀ s ∈ items?.getD [], s.Everywhere condition) ∧
      (∀ entry ∈ nested?.getD [], entry.2.Everywhere condition) := by
  simp only [EverywhereBelow, Everywhere, descendants_typed, List.forall_mem_append,
    List.forall_mem_flatMap]

theorem everywhere_elementSchema {condition : Schema ν → Prop} {rules : Rules ν}
    {type : TypeRules} {items? : Option (List (Schema ν))}
    {nested? : Option (List (PropertyKey × Schema ν))} (any : condition .any)
    (all : (typed rules type items? nested?).EverywhereBelow condition) {s : Schema ν}
    (member : s ∈ elementSchemas items?) : s.Everywhere condition := by
  cases items? with
  | some items => exact (everywhereBelow_typed.1 all).1 s member
  | none =>
    obtain rfl : s = .any := List.mem_singleton.1 member
    exact everywhere_iff.2 ⟨any, everywhereBelow_typed.2 ⟨nofun, nofun⟩⟩

mutual

/-- How deep below a node its check goes. Members, properties and elements are one level
down, and the properties of a nested shape two. -/
def height : Schema ν → Nat
  | shape _ properties => heightOfEntries properties
  | alternation _ members => heightOfAll members
  | typed _ type items? nested? =>
    max
      (match items? with
        | some items => if type.tag = .array then heightOfAll items else 0
        | none => if type.tag = .array then 1 else 0)
      (match nested? with
        | some properties => if properties.isEmpty then 0 else heightOfEntries properties + 1
        | none => 0)

def heightOfAll : List (Schema ν) → Nat
  | [] => 0
  | s :: rest => max (height s + 1) (heightOfAll rest)

def heightOfEntries : List (PropertyKey × Schema ν) → Nat
  | [] => 0
  | (_, s) :: rest => max (height s + 1) (heightOfEntries rest)

end

theorem height_lt_heightOfAll {s : Schema ν} {schemas : List (Schema ν)} (member : s ∈ schemas) :
    s.height < heightOfAll schemas := by
  induction schemas with
  | nil => simp at member
  | cons first rest ih =>
    rw [heightOfAll]
    rcases List.mem_cons.1 member with rfl | later
    · omega
    · have bound := ih later
      omega

theorem heightOfAll_le_iff {schemas : List (Schema ν)} {limit : Nat} :
    heightOfAll schemas ≤ limit ↔ ∀ s ∈ schemas, s.height < limit := by
  induction schemas with
  | nil => simp [heightOfAll]
  | cons s rest ih =>
    rw [heightOfAll, List.forall_mem_cons, ← ih]
    omega

theorem height_lt_heightOfEntries {entry : PropertyKey × Schema ν}
    {properties : List (PropertyKey × Schema ν)} (member : entry ∈ properties) :
    entry.2.height < heightOfEntries properties := by
  induction properties with
  | nil => simp at member
  | cons first rest ih =>
    rw [heightOfEntries]
    rcases List.mem_cons.1 member with rfl | later
    · omega
    · have bound := ih later
      omega

theorem height_typed (rules : Rules ν) (type : TypeRules) (items? : Option (List (Schema ν)))
    (nested? : Option (List (PropertyKey × Schema ν))) :
    (typed rules type items? nested?).height =
      max (if type.tag = .array then heightOfAll (elementSchemas items?) else 0)
        (nested?.elim 0 fun properties =>
          if properties.isEmpty then 0 else heightOfEntries properties + 1) := by
  cases items? <;> cases nested? <;> rfl

theorem height_entry (rules : Rules ν) {properties : List (PropertyKey × Schema ν)}
    {entry : PropertyKey × Schema ν} (member : entry ∈ properties) :
    entry.2.height + 1 ≤ (shape rules properties).height :=
  height_lt_heightOfEntries member

theorem height_member (rules : Rules ν) {members : List (Schema ν)} {s : Schema ν}
    (member : s ∈ members) : s.height + 1 ≤ (alternation rules members).height :=
  height_lt_heightOfAll member

theorem height_element (rules : Rules ν) {type : TypeRules} {items? : Option (List (Schema ν))}
    (nested? : Option (List (PropertyKey × Schema ν))) {s : Schema ν} (array : type.tag = .array)
    (member : s ∈ elementSchemas items?) :
    s.height + 1 ≤ (typed rules type items? nested?).height := by
  have bound := height_lt_heightOfAll member
  rw [height_typed, if_pos array]
  omega

theorem height_nested (rules : Rules ν) (type : TypeRules) (items? : Option (List (Schema ν)))
    {properties : List (PropertyKey × Schema ν)} {entry : PropertyKey × Schema ν}
    (member : entry ∈ properties) :
    entry.2.height + 2 ≤ (typed rules type items? (some properties)).height := by
  have bound := height_lt_heightOfEntries member
  have inhabited : ¬properties.isEmpty = true := by
    rw [List.isEmpty_iff]
    exact List.ne_nil_of_mem member
  rw [height_typed, Option.elim_some, if_neg inhabited]
  omega

end Schema

end Conform
