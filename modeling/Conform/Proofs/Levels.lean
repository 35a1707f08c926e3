import Conform.Proofs.Rejection

/-! The levels of a check. The check of a schema that fits under the depth limit does not depend
on the level where it starts, and its depth guard never trips. -/

namespace Conform

variable [RegexEngine]

namespace Context

section Equations

variable {m : Type → Type} [Monad m] {ν : Type} (ctx : Context m ν)

theorem checkAll_eq (schemas : List (Schema ν)) (depth : Nat) :
    ctx.checkAll schemas depth = schemas.map (ctx.check · depth) := by
  induction schemas with
  | nil => rfl
  | cons s rest ih => rw [checkAll, ih, List.map_cons]

theorem checkEntries_eq (properties : List (PropertyKey × Schema ν)) (depth : Nat) :
    ctx.checkEntries properties depth = properties.map fun entry => (entry.1, ctx.check entry.2 depth) := by
  induction properties with
  | nil => rfl
  | cons entry rest ih => rw [checkEntries, ih, List.map_cons]

theorem check_shape (rules : Rules ν) (properties : List (PropertyKey × Schema ν)) (depth : Nat) :
    ctx.check (.shape rules properties) depth =
      ctx.guarded depth (ctx.shape (.shape rules properties)
        (properties.map fun entry => (entry.1, ctx.check entry.2 (depth + 1)))) := by
  rw [check, checkEntries_eq]

theorem check_alternation (rules : Rules ν) (members : List (Schema ν)) (depth : Nat) :
    ctx.check (.alternation rules members) depth =
      ctx.guarded depth (ctx.alternation (.alternation rules members)
        (members.map (ctx.check · (depth + 1)))) := by
  rw [check, checkAll_eq]

theorem typed_of_ne_array {schema : Schema ν} {type : TypeRules} (other : type.tag ≠ .array)
    (items items' : List (Check m)) (nested? : Option (Check m)) :
    ctx.typed schema type items nested? = ctx.typed schema type items' nested? := by
  funext v
  simp only [typed, if_neg other]

theorem check_any (depth : Nat) : ctx.check .any depth = ctx.anyCheck depth := by
  rw [anyCheck, ctx.typed_of_ne_array (by decide) [] [ctx.anyCheck (depth + 1)]]
  rfl

theorem check_typed (rules : Rules ν) (type : TypeRules) (items? : Option (List (Schema ν)))
    (nested? : Option (List (PropertyKey × Schema ν))) (depth : Nat) :
    ctx.check (.typed rules type items? nested?) depth =
      ctx.guarded depth (ctx.typed (.typed rules type items? nested?) type
        ((Schema.elementSchemas items?).map (ctx.check · (depth + 1)))
        (nested?.map fun properties => ctx.nestedShape properties
          (properties.map fun entry => (entry.1, ctx.check entry.2 (depth + 2))))) := by
  cases items? <;> cases nested? <;>
    simp [check, checkAll_eq, checkEntries_eq, Schema.elementSchemas, Schema.defaultItems, check_any]

omit [Monad m] in
theorem entries_congr {properties : List (PropertyKey × Schema ν)} {check check' : PropertyKey × Schema ν → Check m}
    (same : ∀ entry ∈ properties, check entry = check' entry) :
    (properties.map fun entry => (entry.1, check entry)) = properties.map fun entry => (entry.1, check' entry) :=
  List.map_congr_left fun entry member => congrArg (Prod.mk entry.1) (same entry member)

theorem typed_congr {schema : Schema ν} {type : TypeRules} {schemas : List (Schema ν)}
    {nested? : Option (List (PropertyKey × Schema ν))} {item item' : Schema ν → Check m}
    {check check' : PropertyKey × Schema ν → Check m}
    (items : type.tag = .array → ∀ s ∈ schemas, item s = item' s)
    (nested : ∀ properties, nested? = some properties → ∀ entry ∈ properties, check entry = check' entry) :
    ctx.typed schema type (schemas.map item)
        (nested?.map fun properties => ctx.nestedShape properties
          (properties.map fun entry => (entry.1, check entry))) =
      ctx.typed schema type (schemas.map item')
        (nested?.map fun properties => ctx.nestedShape properties
          (properties.map fun entry => (entry.1, check' entry))) := by
  have shapes : (nested?.map fun properties => ctx.nestedShape properties
        (properties.map fun entry => (entry.1, check entry))) =
      nested?.map fun properties => ctx.nestedShape properties
        (properties.map fun entry => (entry.1, check' entry)) :=
    Option.map_congr fun properties found => congrArg _ (entries_congr (nested properties found))
  rw [shapes]
  by_cases array : type.tag = .array
  · rw [List.map_congr_left (items array)]
  · exact ctx.typed_of_ne_array array ..

theorem guarded_of_le {depth : Nat} (shallow : depth ≤ ctx.config.maxDepth) (check : Check m) :
    ctx.guarded depth check = check := by
  funext v
  rw [guarded, if_neg (Nat.not_lt.2 shallow)]

private theorem shape_of_level {rules : Rules ν} {properties : List (PropertyKey × Schema ν)} {depth : Nat}
    (shallow : depth ≤ ctx.config.maxDepth)
    (level : ∀ entry ∈ properties, ctx.check entry.2 (depth + 1) = ctx.check entry.2 0) :
    ctx.check (.shape rules properties) depth =
      ctx.shape (.shape rules properties)
        (properties.map fun entry => (entry.1, ctx.check entry.2 0)) := by
  rw [check_shape, guarded_of_le ctx shallow, entries_congr level]

private theorem alternation_of_level {rules : Rules ν} {members : List (Schema ν)} {depth : Nat}
    (shallow : depth ≤ ctx.config.maxDepth)
    (level : ∀ s ∈ members, ctx.check s (depth + 1) = ctx.check s 0) :
    ctx.check (.alternation rules members) depth =
      ctx.alternation (.alternation rules members) (members.map (ctx.check · 0)) := by
  rw [check_alternation, guarded_of_le ctx shallow, List.map_congr_left level]

private theorem typed_of_level {rules : Rules ν} {type : TypeRules} {items? : Option (List (Schema ν))}
    {nested? : Option (List (PropertyKey × Schema ν))} {depth : Nat}
    (shallow : depth ≤ ctx.config.maxDepth)
    (items : type.tag = .array → ∀ s ∈ Schema.elementSchemas items?,
      ctx.check s (depth + 1) = ctx.check s 0)
    (nested : ∀ properties, nested? = some properties → ∀ entry ∈ properties,
      ctx.check entry.2 (depth + 2) = ctx.check entry.2 0) :
    ctx.check (.typed rules type items? nested?) depth =
      ctx.typed (.typed rules type items? nested?) type
        ((Schema.elementSchemas items?).map (ctx.check · 0))
        (nested?.map fun properties => ctx.nestedShape properties
          (properties.map fun entry => (entry.1, ctx.check entry.2 0))) := by
  rw [check_typed, guarded_of_le ctx shallow]
  exact ctx.typed_congr items nested

/-- The check of a schema that fits under the limit is the same at every level. -/
theorem check_level {s : Schema ν} {depth : Nat} (fits : depth + s.height ≤ ctx.config.maxDepth) :
    ctx.check s depth = ctx.check s 0 := by
  have start : 0 + s.height ≤ ctx.config.maxDepth := by omega
  induction s generalizing depth with
  | shape rules properties ih =>
    have level {d : Nat} (fits : d + (Schema.shape rules properties).height ≤ ctx.config.maxDepth) :
        ∀ entry ∈ properties, ctx.check entry.2 (d + 1) = ctx.check entry.2 0 := by
      intro entry member
      have below := Schema.height_entry rules member
      exact ih entry member (by omega) (by omega)
    rw [shape_of_level ctx (by omega) (level fits), shape_of_level ctx (by omega) (level start)]
  | alternation rules members ih =>
    have level {d : Nat} (fits : d + (Schema.alternation rules members).height ≤ ctx.config.maxDepth) :
        ∀ s ∈ members, ctx.check s (d + 1) = ctx.check s 0 := by
      intro s member
      have below := Schema.height_member rules member
      exact ih s member (by omega) (by omega)
    rw [alternation_of_level ctx (by omega) (level fits),
      alternation_of_level ctx (by omega) (level start)]
  | typed rules type items? nested? itemsIh nestedIh =>
    have items {d : Nat} (fits : d + (Schema.typed rules type items? nested?).height ≤ ctx.config.maxDepth) :
        type.tag = .array → ∀ s ∈ Schema.elementSchemas items?, ctx.check s (d + 1) = ctx.check s 0 := by
      intro array s member
      have below := Schema.height_element rules nested? array member
      exact itemsIh array s member (by omega) (by omega)
    have nested {d : Nat} (fits : d + (Schema.typed rules type items? nested?).height ≤ ctx.config.maxDepth) :
        ∀ properties, nested? = some properties → ∀ entry ∈ properties,
          ctx.check entry.2 (d + 2) = ctx.check entry.2 0 := by
      intro properties same entry member
      obtain rfl := same
      have below := Schema.height_nested rules type items? member
      exact nestedIh properties rfl entry member (by omega) (by omega)
    rw [typed_of_level ctx (by omega) (items fits) (nested fits),
      typed_of_level ctx (by omega) (items start) (nested start)]

theorem check_shape_of_fits {rules : Rules ν} {properties : List (PropertyKey × Schema ν)}
    (fits : (Schema.shape rules properties).height ≤ ctx.config.maxDepth) :
    ctx.check (.shape rules properties) 0 =
      ctx.shape (.shape rules properties)
        (properties.map fun entry => (entry.1, ctx.check entry.2 0)) := by
  apply shape_of_level ctx (Nat.zero_le _)
  intro entry member
  apply ctx.check_level
  have below := Schema.height_entry rules member
  omega

theorem check_alternation_of_fits {rules : Rules ν} {members : List (Schema ν)}
    (fits : (Schema.alternation rules members).height ≤ ctx.config.maxDepth) :
    ctx.check (.alternation rules members) 0 =
      ctx.alternation (.alternation rules members) (members.map (ctx.check · 0)) := by
  apply alternation_of_level ctx (Nat.zero_le _)
  intro s member
  apply ctx.check_level
  have below := Schema.height_member rules member
  omega

theorem check_typed_of_fits {rules : Rules ν} {type : TypeRules} {items? : Option (List (Schema ν))}
    {nested? : Option (List (PropertyKey × Schema ν))}
    (fits : (Schema.typed rules type items? nested?).height ≤ ctx.config.maxDepth) :
    ctx.check (.typed rules type items? nested?) 0 =
      ctx.typed (.typed rules type items? nested?) type
        ((Schema.elementSchemas items?).map (ctx.check · 0))
        (nested?.map fun properties => ctx.nestedShape properties
          (properties.map fun entry => (entry.1, ctx.check entry.2 0))) := by
  refine typed_of_level ctx (Nat.zero_le _) (fun array s member => ctx.check_level ?_) ?_
  · have below := Schema.height_element rules nested? array member
    omega
  · intro properties same entry member
    obtain rfl := same
    have below := Schema.height_nested rules type items? member
    exact ctx.check_level (by omega)

end Equations

variable {ν : Type} {config : Config} {custom : CustomRules ν}

def QuietRule (custom : CustomRules ν) (node : Schema ν) : Prop :=
  ∀ rule, node.rules.custom? = some rule → ∀ v f, custom rule v node = .error f → f.isFatal = false

private theorem valueRules_mild {schema : Schema ν} (quiet : QuietRule custom schema) {v : Value}
    {f : Failure} (failed : outcome ((direct config custom).valueRules schema v) = .error f) :
    f.isFatal = false := by
  rcases valueRules_error.1 failed with equality | ⟨_, enumeration | ⟨_, rule, found, rejected⟩⟩
  · obtain ⟨message, rfl⟩ := Constraints.checkEquality_error equality
    rfl
  · obtain ⟨message, rfl⟩ := Constraints.checkEnumeration_error enumeration
    rfl
  · exact quiet rule found v f rejected

theorem PropertyFails.mild {fields : List (String × Value)} {key : PropertyKey} {check : Value → Outcome}
    {f : Failure} (inner : ∀ x g, check x = .error g → g.isFatal = false)
    (fails : PropertyFails fields key check f) : f.isFatal = false := by
  cases fails with
  | literal rejected =>
    rw [Failure.isFatal_within]
    exact inner _ _ rejected
  | invalidMarker => rfl
  | selected _ _ _ rejected =>
    rw [Failure.isFatal_within]
    exact inner _ _ rejected
  | absent _ _ rejected fatal => exact absurd fatal (by simp [inner _ _ rejected])
  | missing => rfl

omit [RegexEngine] in
theorem isFatal_relabelled {f : Failure} (kind : FailureKind) (heading : String)
    (mild : f.isFatal = false) (other : kind ≠ .depthExceeded) :
    (f.relabelled kind heading).isFatal = false := by
  rw [Failure.relabelled, if_neg (by simp [mild])]
  simpa [Failure.isFatal] using other

private theorem properties_mild {properties : List (PropertyKey × Schema ν)} (check : Schema ν → Check Id)
    {fields : List (String × Value)} {f : Failure}
    (inner : ∀ entry ∈ properties, ∀ x g, outcome (check entry.2 x) = .error g → g.isFatal = false)
    (failed : ∃ entry ∈ properties.map fun entry => (entry.1, check entry.2),
      PropertyFails fields entry.1 (fun x => outcome (entry.2 x)) f) : f.isFatal = false := by
  obtain ⟨_, mapped, fails⟩ := failed
  obtain ⟨entry, member, rfl⟩ := List.mem_map.1 mapped
  exact PropertyFails.mild (inner entry member) fails

omit [RegexEngine] in
private theorem element_mild {keepOrder : Bool} {items : List (Check Id)} {index : Nat} {x : Value} {f : Failure}
    (inner : ∀ check ∈ items, ∀ g, outcome (check x) = .error g → g.isFatal = false)
    (failed : outcome (element keepOrder items index x) = .error f) : f.isFatal = false := by
  rcases element_error failed with ⟨_, check, found, rejected⟩ |
    ⟨_, ⟨before, check, after, rfl, _, rejected, _⟩ | ⟨_, ⟨_, rfl⟩ | ⟨before, check, rfl, rejected⟩⟩⟩
  · exact inner check (List.mem_of_getElem? found) f rejected
  · exact inner check (by simp) f rejected
  · rfl
  · exact inner check (by simp) f rejected

omit [RegexEngine] in
private theorem elements_mild {type : TypeRules} {items : List (Check Id)} {v : Value} {f : Failure}
    (inner : ∀ check ∈ items, ∀ x g, outcome (check x) = .error g → g.isFatal = false)
    (failed : outcome (elements type items v) = .error f) : f.isFatal = false := by
  obtain ⟨xs, _, ⟨_, _, rfl⟩ | ⟨index, x, g, _, rejected, rfl⟩⟩ := elements_error failed
  · rfl
  · refine isFatal_relabelled _ _ ?_ (by decide)
    rw [Failure.isFatal_within]
    exact element_mild (fun check member => inner check member x) rejected

private theorem nestedShape_mild {properties : List (PropertyKey × Schema ν)} (check : Schema ν → Check Id)
    {v : Value} {f : Failure}
    (inner : ∀ entry ∈ properties, ∀ x g, outcome (check entry.2 x) = .error g → g.isFatal = false)
    (failed : outcome ((direct config custom).nestedShape properties
      (properties.map fun entry => (entry.1, check entry.2)) v) = .error f) : f.isFatal = false := by
  rcases nestedShape_error failed with ⟨_, rfl⟩ | ⟨fields, _, entry, member, g, fails, rfl⟩
  · rfl
  · refine isFatal_relabelled _ _ ?_ (by decide)
    exact properties_mild check inner ⟨entry, member, fails⟩

/-- Where no custom rule says otherwise, the depth guard never trips on a schema that fits. -/
theorem check_mild {s : Schema ν} (fits : s.height ≤ config.maxDepth)
    (quiet : s.Everywhere (QuietRule custom)) {v : Value} {f : Failure}
    (failed : outcome ((direct config custom).check s 0 v) = .error f) : f.isFatal = false := by
  induction s generalizing v f with
  | shape rules properties ih =>
    obtain ⟨own, below⟩ := Schema.everywhere_iff.1 quiet
    rw [Schema.everywhereBelow_shape] at below
    rw [check_shape_of_fits _ fits] at failed
    obtain ⟨_, ⟨_, rfl⟩ | ⟨fields, _, failed | ⟨groups, _, failed⟩⟩⟩ := shape_error failed
    · rfl
    · refine properties_mild ((direct config custom).check · 0)
        (fun entry member x g => ih entry member ?_ (below entry member)) failed
      have lower := Schema.height_entry rules member
      omega
    · exact valueRules_mild own failed
  | alternation rules members ih =>
    obtain ⟨own, below⟩ := Schema.everywhere_iff.1 quiet
    rw [Schema.everywhereBelow_alternation] at below
    rw [check_alternation_of_fits _ fits] at failed
    obtain ⟨_, ⟨before, check, after, split, _, rejected, _⟩ | ⟨_, rfl⟩ | ⟨_, _, _, x, _, _, _, failed⟩⟩ :=
      alternation_error failed
    · have mapped : check ∈ members.map ((direct config custom).check · 0) := by simp [split]
      obtain ⟨s, member, rfl⟩ := List.mem_map.1 mapped
      have lower := Schema.height_member rules member
      exact ih s member (by omega) (below s member) rejected
    · rfl
    · exact valueRules_mild own failed
  | typed rules type items? nested? itemsIh nestedIh =>
    obtain ⟨own, below⟩ := Schema.everywhere_iff.1 quiet
    rw [check_typed_of_fits _ fits] at failed
    rcases typed_error failed with ⟨_, _, rfl⟩ | ⟨_, failed | failed | failed | ⟨array, failed⟩ |
      ⟨_, listed, found, _, failed⟩ | ⟨_, shaped, _, _, _, _, _, failed⟩⟩
    · obtain ⟨message, same⟩ := typeMismatch_eq type.tag v
      rw [same]
      rfl
    · obtain ⟨message, rfl⟩ := Constraints.checkBounds_error failed
      rfl
    · obtain ⟨message, rfl⟩ := Constraints.checkPattern_error failed
      rfl
    · obtain ⟨message, rfl⟩ := TypeRules.checkClass_error failed
      rfl
    · refine elements_mild (List.forall_mem_map.2 fun s member x g => ?_) failed
      have lower := Schema.height_element rules nested? array member
      exact itemsIh array s member (by omega) (Schema.everywhere_elementSchema nofun below member)
    · obtain ⟨properties, rfl, rfl⟩ := Option.map_eq_some_iff.1 found
      refine nestedShape_mild ((direct config custom).check · 0) (fun entry member x g => ?_) failed
      have lower := Schema.height_nested rules type items? member
      exact nestedIh properties rfl entry member (by omega) ((Schema.everywhereBelow_typed.1 below).2 entry member)
    · exact valueRules_mild own failed

end Context

end Conform
