import Conform.Proofs.Stability

/-! Undeclared keys. What a node with properties does with a structure, its failures and their texts
included, depends on the declared fields of the structure alone. -/

namespace Conform

section Structures

variable {v : Value} {fields : List (String × Value)} (keyed : v.fields? = some fields)
include keyed

theorem Value.className?_withFields (fields' : List (String × Value)) :
    (v.withFields fields').className? = v.className? := by
  cases v <;> cases keyed <;> rfl

theorem TypeRules.checkClass_withFields (type : TypeRules) (fields' : List (String × Value)) :
    type.checkClass (v.withFields fields') = type.checkClass v := by
  unfold TypeRules.checkClass
  rw [Value.className?_withFields keyed]

theorem TypeTag.accepts_structure {tag : TypeTag} (structures : tag = .object ∨ tag = .any) :
    tag.accepts v = true := by
  rcases structures with rfl | rfl <;> cases v <;> cases keyed <;> rfl

end Structures

section

variable [RegexEngine]

instance PropertyKey.decidableSelects (key : PropertyKey) (name : String) : Decidable (key.Selects name) :=
  match key with
  | .literal own => inferInstanceAs (Decidable (name = own))
  | .pattern p =>
    match compiled : p.compile with
    | .ok regex => decidable_of_iff (regex.isMatch name = true) (PropertyKey.selects_pattern compiled name)
    | .error _ => .isFalse fun given => by
      obtain ⟨_, other, _⟩ := given
      cases compiled.symm.trans other

def declaredFields (keys : List PropertyKey) (fields : List (String × Value)) : List (String × Value) :=
  fields.filter fun field => decide (∃ key ∈ keys, key.Selects field.1)

section Keys

variable {keys : List PropertyKey} (fields : List (String × Value))

theorem lookup_declaredFields {name : String} (declared : .literal name ∈ keys) :
    (declaredFields keys fields).lookup name = fields.lookup name := by
  refine Fields.lookup_filter (fun other => decide (∃ key ∈ keys, key.Selects other)) ?_ fields
  exact decide_eq_true ⟨_, declared, rfl⟩

theorem filter_declaredFields {p : KeyPattern} {regex : Regex} (declared : .pattern p ∈ keys)
    (compiled : p.compile = .ok regex) :
    (declaredFields keys fields).filter (regex.isMatch ·.1) = fields.filter (regex.isMatch ·.1) := by
  rw [declaredFields, List.filter_filter]
  apply List.filter_congr
  intro field _
  cases selected : regex.isMatch field.1 with
  | false => rfl
  | true => exact decide_eq_true ⟨_, declared, regex, compiled, selected⟩

end Keys

variable {ν : Type} {config : Config} {custom : CustomRules ν}

namespace Context

theorem patternFields_declared {keys : List PropertyKey} {p : KeyPattern} (declared : .pattern p ∈ keys)
    (check : Check Id) (fields matched : List (String × Value)) :
    (direct config custom).patternFields p check (declaredFields keys fields) matched =
      (direct config custom).patternFields p check fields matched := by
  simp only [patternFields, direct, liftId_bind, Id.run]
  cases compiled : p.compile with
  | error e => rfl
  | ok regex => simp only [filter_declaredFields fields declared compiled]

theorem properties_declared {keys : List PropertyKey} {entries : List (PropertyKey × Check Id)}
    (declared : ∀ entry ∈ entries, entry.1 ∈ keys) (fields : List (String × Value)) :
    (direct config custom).properties entries (declaredFields keys fields) =
      (direct config custom).properties entries fields := by
  refine foldlM_congr ?_ []
  intro entry member matched
  have own := declared entry member
  obtain ⟨key, check⟩ := entry
  cases key with
  | literal name => simp only [lookup_declaredFields fields own]
  | pattern p => exact patternFields_declared own check fields matched

theorem properties_of_declared {properties : List (PropertyKey × Schema ν)} {fields fields' : List (String × Value)}
    (same : declaredFields (properties.map Prod.fst) fields = declaredFields (properties.map Prod.fst) fields')
    (check : Schema ν → Check Id) :
    (direct config custom).properties (properties.map fun entry => (entry.1, check entry.2)) fields =
      (direct config custom).properties (properties.map fun entry => (entry.1, check entry.2)) fields' := by
  have declared : ∀ entry ∈ properties.map fun entry => (entry.1, check entry.2),
      entry.1 ∈ properties.map Prod.fst :=
    List.forall_mem_map.2 fun entry member => List.mem_map_of_mem member
  calc
    _ = (direct config custom).properties _ (declaredFields (properties.map Prod.fst) fields) :=
      (properties_declared declared fields).symm
    _ = (direct config custom).properties _ (declaredFields (properties.map Prod.fst) fields') := by rw [same]
    _ = _ := properties_declared declared fields'

end Context

theorem Context.typed_structure {v : Value} {fields : List (String × Value)} (keyed : v.fields? = some fields)
    {ctx : Context Id ν} {schema : Schema ν} {type : TypeRules}
    (structures : type.tag = .object ∨ type.tag = .any) (items : List (Check Id)) (nested : Check Id) :
    ctx.typed schema type items (some nested) v = (do
      type.checkClass v
      let shaped ← nested v
      ctx.valueRules schema shaped) := by
  have other : type.tag ≠ .array := by rcases structures with same | same <;> simp [same]
  have bounded : schema.rules.constraints.checkBounds type.tag v = .ok () := by
    apply Constraints.checkBounds_ok.2
    rcases structures with same | same <;> simp [same, Constraints.Bounds, TypeTag.isNumeric]
  have matched : schema.rules.constraints.checkPattern type.tag v = .ok () := by
    rcases structures with same | same <;> rw [same] <;> rfl
  simp only [typed, TypeTag.accepts_structure keyed structures, if_true, bounded, matched, if_neg other]
  rfl

/-- Nodes with properties for structures of any kind. -/
inductive AsksFor (properties : List (PropertyKey × Schema ν)) : Schema ν → Prop where
  | shape (rules : Rules ν) : AsksFor properties (.shape rules properties)
  | typed (rules : Rules ν) (type : TypeRules) (items? : Option (List (Schema ν)))
      (structures : type.tag = .object ∨ type.tag = .any) :
      AsksFor properties (.typed rules type items? (some properties))

/-- Structures of one kind with the same declared fields have the same result, whatever else they hold. -/
theorem validateWith_undeclared (config : Config) (custom : CustomRules ν) {s : Schema ν}
    {properties : List (PropertyKey × Schema ν)} (asks : AsksFor properties s) {v : Value}
    {fields fields' : List (String × Value)} (keyed : v.fields? = some fields)
    (same : declaredFields (properties.map Prod.fst) fields = declaredFields (properties.map Prod.fst) fields') :
    validateWith config custom v s = validateWith config custom (v.withFields fields') s := by
  have keyed' : (v.withFields fields').fields? = some fields' := Value.fields?_withFields v fields'
  have matched (depth : Nat) := @Context.properties_of_declared _ ν config custom properties fields fields' same
    ((Context.direct config custom).check · depth)
  -- Of the fields, a check sees the ones that it matches and puts these in their place.
  change outcome ((Context.direct config custom).check s 0 v) = outcome ((Context.direct config custom).check s 0 _)
  apply congrArg outcome
  cases asks with
  | shape rules =>
    rw [Context.check_shape, Context.guarded_of_le _ (Nat.zero_le _)]
    unfold Context.shape
    simp only [Schema.rules, Rules.absentExit?_of_keyed _ keyed, Rules.absentExit?_of_keyed _ keyed', keyed, keyed',
      matched, Value.withFields_withFields]
  | typed rules type items? structures =>
    rw [Context.check_typed, Context.guarded_of_le _ (Nat.zero_le _), Option.map_some,
      Context.typed_structure keyed structures, Context.typed_structure keyed' structures,
      TypeRules.checkClass_withFields keyed]
    unfold Context.nestedShape
    simp only [keyed, keyed', matched, Value.withFields_withFields]

end

def extensions : List (PropertyKey × Schema Empty) :=
  [(.literal "x-id", .any), (.pattern extension, optionalText)]

def boxOfExtensions : Schema Empty :=
  .typed {} { tag := .object, instance? := some "Box" } none (some extensions)

def listedExtension : List (String × Value) := [("a", .int 1), ("x-id", .string "7"), ("x-b", .list [])]

def reorderedExtension : List (String × Value) :=
  [("x-id", .string "7"), ("b", .null), ("x-b", .list []), ("a", .null)]

theorem boxOfExtensions_undeclared :
    AsksFor extensions boxOfExtensions ∧
      (Value.instanceOf "Box" listedExtension).fields? = some listedExtension ∧
      declaredFields (extensions.map Prod.fst) listedExtension =
        declaredFields (extensions.map Prod.fst) reorderedExtension ∧
      validateWith {} noRules (.instanceOf "Box" listedExtension) boxOfExtensions =
        validateWith {} noRules (.instanceOf "Box" reorderedExtension) boxOfExtensions := by
  have asks : AsksFor extensions boxOfExtensions := .typed _ _ _ (.inl rfl)
  have same : declaredFields (extensions.map Prod.fst) listedExtension =
      declaredFields (extensions.map Prod.fst) reorderedExtension := rfl
  exact ⟨asks, rfl, same, validateWith_undeclared {} noRules asks rfl same⟩

end Conform
