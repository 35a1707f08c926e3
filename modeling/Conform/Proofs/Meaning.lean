import Conform.Proofs.Plain
import Conform.Regex.Engine

/-! The meaning of schemas as conditions on values, stated without any order of checks, and that
validation decides it. -/

namespace Conform

section

variable [RegexEngine] {ν : Type}

/-- What a property asks of the fields of a structure, where its schema means a condition. A
marker has to compile. -/
def PropertyKey.Asks (means : Value → Prop) (fields : List (String × Value)) : PropertyKey → Prop
  | .literal name => means ((fields.lookup name).getD .undefined)
  | .pattern p => ∃ regex, p.compile = .ok regex ∧
      (∀ field ∈ fields, regex.isMatch field.1 = true → means field.2) ∧
      ((∀ field ∈ fields, regex.isMatch field.1 = false) → means .undefined)

def KeyedBy (properties : List (PropertyKey × (Value → Prop))) (v : Value) : Prop :=
  ∃ fields, v.fields? = some fields ∧ ∀ entry ∈ properties, entry.1.Asks entry.2 fields

def TypeRules.Lists (type : TypeRules) (items : List (Value → Prop)) (v : Value) : Prop :=
  ∃ xs, v = .list xs ∧ (type.keepLength = true → xs.length = items.length) ∧
    if type.keepOrder then
      ∀ (index : Nat) (x : Value) (means : Value → Prop),
        xs[index]? = some x → items[index]? = some means → means x
    else ∀ x ∈ xs, ∃ means ∈ items, means x

namespace Schema

mutual

/-- The values that a schema describes. Shapes and alternations spare a missing value, typed
nodes spare it only where the type does not match, and equality is with the value itself. -/
def Describes : Schema ν → Value → Prop
  | shape rules properties, v =>
    rules.Spares v ∨ KeyedBy (describedEntries properties) v ∧ rules.constraints.Wants v
  | alternation rules members, v =>
    rules.Spares v ∨ (∃ means ∈ describedAll members, means v) ∧ rules.constraints.Wants v
  | typed rules type items? nested?, v =>
    type.tag.accepts v = false ∧ rules.Spares v ∨
    type.tag.accepts v = true ∧ rules.constraints.Bounds type.tag v ∧
      rules.constraints.Matches type.tag v ∧ type.Classifies v ∧
      (type.tag = .array → type.Lists
        (match items? with
          | some items => describedAll items
          | none => [fun x => TypeTag.any.accepts x = true]) v) ∧
      (match nested? with
        | some properties => KeyedBy (describedEntries properties) v
        | none => True) ∧
      rules.constraints.Wants v

def describedAll : List (Schema ν) → List (Value → Prop)
  | [] => []
  | s :: rest => s.Describes :: describedAll rest

def describedEntries : List (PropertyKey × Schema ν) → List (PropertyKey × (Value → Prop))
  | [] => []
  | (key, s) :: rest => (key, s.Describes) :: describedEntries rest

end

theorem describedAll_eq (schemas : List (Schema ν)) : describedAll schemas = schemas.map Describes := by
  induction schemas with
  | nil => rfl
  | cons s rest ih => rw [describedAll, ih, List.map_cons]

theorem describedEntries_eq (properties : List (PropertyKey × Schema ν)) :
    describedEntries properties = properties.map fun entry => (entry.1, entry.2.Describes) := by
  induction properties with
  | nil => rfl
  | cons entry rest ih => rw [describedEntries, ih, List.map_cons]

theorem describes_any (v : Value) : (any : Schema ν).Describes v ↔ TypeTag.any.accepts v = true := by
  simp [any, ofTag, Describes, Rules.Spares, Constraints.Bounds, Constraints.Matches,
    Constraints.Wants, TypeRules.Classifies, TypeRules.classes, TypeTag.isNumeric]

theorem describes_shape {rules : Rules ν} {properties : List (PropertyKey × Schema ν)} {v : Value} :
    (shape rules properties).Describes v ↔
      rules.Spares v ∨ KeyedBy (properties.map fun entry => (entry.1, entry.2.Describes)) v ∧
        rules.constraints.Wants v := by
  rw [Describes, describedEntries_eq]

theorem describes_alternation {rules : Rules ν} {members : List (Schema ν)} {v : Value} :
    (alternation rules members).Describes v ↔
      rules.Spares v ∨ (∃ s ∈ members, s.Describes v) ∧ rules.constraints.Wants v := by
  rw [Describes, describedAll_eq]
  simp only [List.mem_map, exists_exists_and_eq_and]

theorem describes_typed {rules : Rules ν} {type : TypeRules} {items? : Option (List (Schema ν))}
    {nested? : Option (List (PropertyKey × Schema ν))} {v : Value} :
    (typed rules type items? nested?).Describes v ↔
      type.tag.accepts v = false ∧ rules.Spares v ∨
      type.tag.accepts v = true ∧ rules.constraints.Bounds type.tag v ∧
        rules.constraints.Matches type.tag v ∧ type.Classifies v ∧
        (type.tag = .array → type.Lists ((elementSchemas items?).map Describes) v) ∧
        (∀ properties, nested? = some properties →
          KeyedBy (properties.map fun entry => (entry.1, entry.2.Describes)) v) ∧
        rules.constraints.Wants v := by
  have undeclared : [fun x => TypeTag.any.accepts x = true] = [Describes (any : Schema ν)] :=
    congrArg (fun means => [means]) (funext fun x => propext (describes_any x).symm)
  cases items? <;> cases nested? <;>
    simp [Describes, describedAll_eq, describedEntries_eq, elementSchemas, defaultItems, undeclared]

end Schema

def Compares (node : Schema ν) : Prop :=
  node.rules.constraints.equals? ≠ none ∨ node.rules.constraints.contains? ≠ none

/-- Equality is asked for only where no shape is at or below a node and no default strictly below. -/
def ComparesVerbatim (node : Schema ν) : Prop :=
  Compares node → node.Everywhere (·.properties? = none) ∧ node.EverywhereBelow (·.rules.default? = none)

theorem ComparesVerbatim.bare {s : Schema ν} (verbatim : ComparesVerbatim s) (compares : Compares s) :
    s.properties? = none :=
  (Schema.everywhere_iff.1 (verbatim compares).1).1

theorem ComparesVerbatim.below {s : Schema ν} (verbatim : ComparesVerbatim s) (compares : Compares s) :
    s.EverywhereBelow Rigid := by
  obtain ⟨bare, undeclared⟩ := verbatim compares
  exact fun node inside => ⟨(Schema.everywhere_iff.1 bare).2 node inside, undeclared node inside⟩

theorem not_compares {s : Schema ν} (free : s.rules.constraints.equals? = none)
    (unlisted : s.rules.constraints.contains? = none) : ¬Compares s := by
  intro compares
  rcases compares with declared | declared
  · exact declared free
  · exact declared unlisted

theorem comparesVerbatim_of_silent {s : Schema ν} (free : s.rules.constraints.equals? = none)
    (unlisted : s.rules.constraints.contains? = none) : ComparesVerbatim s :=
  fun compares => absurd compares (not_compares free unlisted)

theorem wants_of_not_compares {s : Schema ν} (silent : ¬Compares s) (v : Value) :
    s.rules.constraints.Wants v := by
  simp only [Compares, ne_eq, not_or, Decidable.not_not] at silent
  constructor
  · intro wanted declared
    cases silent.1.symm.trans declared
  · intro allowed declared
    cases silent.2.symm.trans declared

/-- Equality may be asked of the value itself where a node that asks for it replaces nothing. -/
theorem exists_wants {s : Schema ν} {Becomes : Value → Prop} {v : Value}
    (kept : Compares s → ∀ w, Becomes w → w = v) :
    (∃ w, Becomes w ∧ s.rules.constraints.Wants w) ↔
      (∃ w, Becomes w) ∧ s.rules.constraints.Wants v := by
  by_cases compares : Compares s
  · constructor
    · intro given
      obtain ⟨w, becomes, holds⟩ := given
      obtain rfl := kept compares w becomes
      exact ⟨⟨w, becomes⟩, holds⟩
    · intro given
      obtain ⟨⟨w, becomes⟩, holds⟩ := given
      obtain rfl := kept compares w becomes
      exact ⟨w, becomes, holds⟩
  · simp only [wants_of_not_compares compares, and_true]

variable {config : Config} {custom : CustomRules ν}

theorem exists_adds {fields : List (String × Value)} {key : PropertyKey} {check : Value → Outcome} :
    (∃ pairs, Adds fields key check pairs) ↔ key.Asks (fun x => ∃ y, check x = .ok y) fields := by
  cases key with
  | literal name =>
    constructor
    · intro given
      obtain ⟨_, adds⟩ := given
      cases adds with
      | literal accepted => exact ⟨_, accepted⟩
    · intro given
      obtain ⟨y, accepted⟩ := given
      exact ⟨_, .literal accepted⟩
  | pattern p =>
    have selected {regex : Regex} :
        (∃ pairs, List.Forall₂ (Check.Keeps check) (fields.filter (regex.isMatch ·.1)) pairs) ↔
          ∀ field ∈ fields, regex.isMatch field.1 = true → ∃ y, check field.2 = .ok y := by
      simp only [exists_forall₂, List.mem_filter, and_imp, Check.Keeps]
      refine forall₃_congr fun field _ _ => ⟨?_, ?_⟩
      · intro given
        obtain ⟨pair, _, accepted⟩ := given
        exact ⟨pair.2, accepted⟩
      · intro given
        obtain ⟨y, accepted⟩ := given
        exact ⟨(field.1, y), rfl, accepted⟩
    have nothing {regex : Regex} : fields.filter (regex.isMatch ·.1) = [] ↔
        ∀ field ∈ fields, regex.isMatch field.1 = false := by
      simp only [List.filter_eq_nil_iff, Bool.not_eq_true]
    constructor
    · intro given
      obtain ⟨pairs, ⟨⟩ | ⟨compiled, each, absent⟩⟩ := given
      exact ⟨_, compiled, selected.1 ⟨pairs, each⟩, fun none => absent (nothing.2 none)⟩
    · intro given
      obtain ⟨regex, compiled, each, absent⟩ := given
      obtain ⟨pairs, each⟩ := selected.2 each
      exact ⟨pairs, .pattern compiled each fun none => absent (nothing.1 none)⟩

theorem exists_structureBecomes_iff {properties : List (PropertyKey × Schema ν)} {v : Value}
    (decided : ∀ entry ∈ properties, ∀ x, (∃ y, validateWith config custom x entry.2 = .ok y) ↔
      entry.2.Describes x) :
    (∃ w, StructureBecomes config custom properties v w) ↔
      KeyedBy (properties.map fun entry => (entry.1, entry.2.Describes)) v := by
  have satisfied (fields : List (String × Value)) :
      (∃ groups, AddsAll config custom fields properties groups) ↔
        ∀ entry ∈ properties, entry.1.Asks entry.2.Describes fields := by
    simp only [exists_addsAll, exists_adds]
    apply forall₂_congr
    intro entry member
    rw [funext fun x => propext (decided entry member x)]
  simp only [KeyedBy, List.forall_mem_map, ← satisfied]
  constructor
  · intro given
    obtain ⟨w, fields, groups, keyed, adds, _⟩ := given
    exact ⟨fields, keyed, groups, adds⟩
  · intro given
    obtain ⟨fields, keyed, groups, adds⟩ := given
    exact ⟨_, fields, groups, keyed, adds, rfl⟩

theorem exists_elementBecomes {keepOrder : Bool} {items : List (Schema ν)} {index : Nat} {x : Value} :
    (∃ y, ElementBecomes config custom keepOrder items index x y) ↔
      if keepOrder then ∀ s, items[index]? = some s → ∃ y, validateWith config custom x s = .ok y
      else ∃ s ∈ items, ∃ y, validateWith config custom x s = .ok y := by
  cases keepOrder with
  | false =>
    simp only [ElementBecomes, Bool.false_eq_true, false_and, true_and, false_or, if_false]
    exact exists_firstAccepts_iff
  | true =>
    simp only [ElementBecomes, true_and, Bool.true_eq_false, false_and, or_false, if_true]
    cases items[index]? <;> simp

theorem exists_elementsBecome_iff {type : TypeRules} {items : List (Schema ν)} {v : Value}
    (decided : ∀ s ∈ items, ∀ x, (∃ y, validateWith config custom x s = .ok y) ↔ s.Describes x) :
    (∃ xs ys, v = .list xs ∧ ElementsBecome config custom type items xs ys) ↔
      type.Lists (items.map Schema.Describes) v := by
  simp only [exists_and_left, exists_elementsBecome, exists_elementBecomes, TypeRules.Lists,
    List.length_map, List.getElem?_map, Option.map_eq_some_iff, List.mem_map]
  refine exists_congr fun xs => and_congr_right fun _ => and_congr_right fun _ => ?_
  split
  · constructor
    · intro each index x _ atIndex given
      obtain ⟨s, found, rfl⟩ := given
      exact (decided s (List.mem_of_getElem? found) x).1 (each index x atIndex s found)
    · intro each index x atIndex s found
      exact (decided s (List.mem_of_getElem? found) x).2 (each index x _ atIndex ⟨s, found, rfl⟩)
  · constructor
    · intro each x member
      obtain ⟨index, atIndex⟩ := List.mem_iff_getElem?.1 member
      obtain ⟨s, member, accepted⟩ := each index x atIndex
      exact ⟨_, ⟨s, member, rfl⟩, (decided s member x).1 accepted⟩
    · intro each index x atIndex
      obtain ⟨_, ⟨s, member, rfl⟩, holds⟩ := each x (List.mem_of_getElem? atIndex)
      exact ⟨s, member, (decided s member x).2 holds⟩

theorem exists_contentBecomes_iff {type : TypeRules} {items? : Option (List (Schema ν))}
    {nested? : Option (List (PropertyKey × Schema ν))} {v : Value}
    (items : type.tag = .array → ∀ s ∈ Schema.elementSchemas items?, ∀ x,
      (∃ y, validateWith config custom x s = .ok y) ↔ s.Describes x)
    (nested : ∀ properties, nested? = some properties → ∀ entry ∈ properties, ∀ x,
      (∃ y, validateWith config custom x entry.2 = .ok y) ↔ entry.2.Describes x) :
    (∃ w, ContentBecomes config custom type items? nested? v w) ↔
      (type.tag = .array → type.Lists ((Schema.elementSchemas items?).map Schema.Describes) v) ∧
      ∀ properties, nested? = some properties →
        KeyedBy (properties.map fun entry => (entry.1, entry.2.Describes)) v := by
  constructor
  · intro given
    obtain ⟨w, become⟩ := given
    cases become with
    | list array become =>
      exact ⟨fun _ => (exists_elementsBecome_iff (items array)).1 ⟨_, _, rfl, become⟩, nofun⟩
    | keyed other become =>
      refine ⟨fun array => absurd array other, ?_⟩
      intro _ given
      cases given
      exact (exists_structureBecomes_iff (nested _ rfl)).1 ⟨_, become⟩
    | same other => exact ⟨fun array => absurd array other, nofun⟩
  · intro given
    obtain ⟨listed, nests⟩ := given
    by_cases array : type.tag = .array
    · obtain ⟨xs, ys, rfl, become⟩ := (exists_elementsBecome_iff (items array)).2 (listed array)
      cases nested? with
      | none => exact ⟨_, .list array become⟩
      | some properties =>
        obtain ⟨fields, found, _⟩ := nests properties rfl
        cases found
    · cases nested? with
      | none => exact ⟨v, .same array⟩
      | some properties =>
        obtain ⟨w, become⟩ := (exists_structureBecomes_iff (nested _ rfl)).2 (nests properties rfl)
        exact ⟨w, .keyed array become⟩

theorem Rules.exists_exit_or {rules : Rules ν} {v : Value} {Becomes : Value → Prop} :
    (∃ w, rules.absentExit? v = some w ∨ rules.absentExit? v = none ∧ Becomes w) ↔
      rules.Spares v ∨ ∃ w, Becomes w := by
  rw [← Rules.exists_absentExit?]
  cases rules.absentExit? v <;> simp

theorem exists_matched_iff {s : Schema ν} (plain : Plain config s) (verbatim : s.Everywhere ComparesVerbatim)
    (v : Value) : (∃ w, validateWith config custom v s = .ok w) ↔ s.Describes v := by
  induction s generalizing v with
  | shape rules properties ih =>
    obtain ⟨own, below⟩ := Schema.everywhere_iff.1 verbatim
    rw [Schema.everywhereBelow_shape] at below
    have keyed : (∃ w, StructureBecomes config custom properties v w) ↔ _ :=
      exists_structureBecomes_iff fun entry member => ih entry member (plain.entry member) (below entry member)
    have kept (compares : Compares (.shape rules properties)) (w : Value)
        (_ : StructureBecomes config custom properties v w) : w = v := by
      cases own.bare compares
    simp only [validateWith_shape plain, Rules.exists_exit_or, Schema.describes_shape, ← keyed]
    exact or_congr_right (exists_wants kept)
  | alternation rules members ih =>
    obtain ⟨own, below⟩ := Schema.everywhere_iff.1 verbatim
    rw [Schema.everywhereBelow_alternation] at below
    have chosen : (∃ w, FirstAccepts config custom members v w) ↔ ∃ s ∈ members, s.Describes v :=
      exists_firstAccepts_iff.trans (exists_congr fun s => and_congr_right fun member =>
        ih s member (plain.member member) (below s member) v)
    have kept (compares : Compares (.alternation rules members)) (w : Value)
        (first : FirstAccepts config custom members v w) : w = v := by
      obtain ⟨s, member, accepted⟩ := first.accepts
      have rigid := Schema.everywhereBelow_alternation.1 (own.below compares) s member
      exact eq_of_rigid (plain.member member) rigid accepted
    simp only [validateWith_alternation plain, Rules.exists_exit_or, Schema.describes_alternation, ← chosen]
    exact or_congr_right (exists_wants kept)
  | typed rules type items? nested? itemsIh nestedIh =>
    obtain ⟨own, below⟩ := Schema.everywhere_iff.1 verbatim
    have content : (∃ w, ContentBecomes config custom type items? nested? v w) ↔
        (type.tag = .array → type.Lists ((Schema.elementSchemas items?).map Schema.Describes) v) ∧
        ∀ properties, nested? = some properties →
          KeyedBy (properties.map fun entry => (entry.1, entry.2.Describes)) v := by
      refine exists_contentBecomes_iff (fun array s member => ?_) fun properties found entry member => ?_
      · exact itemsIh array s member (plain.element array member)
          (Schema.everywhere_elementSchema (comparesVerbatim_of_silent rfl rfl) below member)
      · exact nestedIh properties found entry member (plain.nested found member)
          ((Schema.everywhereBelow_typed.1 below).2 entry (by rw [found]; exact member))
    have kept (compares : Compares (.typed rules type items? nested?)) (w : Value)
        (become : ContentBecomes config custom type items? nested? v w) : w = v := by
      cases become with
      | list array become =>
        refine congrArg Value.list (become.eq_of_kept fun s member x y accepted => ?_)
        have rigid := Schema.everywhere_elementSchema rigid_any (own.below compares) member
        exact eq_of_rigid (plain.element array member) rigid accepted
      | keyed => cases own.bare compares
      | same => rfl
    have compared : (∃ w, ContentBecomes config custom type items? nested? v w ∧ rules.constraints.Wants w) ↔ _ :=
      exists_wants kept
    simp only [validateWith_typed plain, exists_or, exists_and_left, Rules.exists_absentExit?, compared,
      content, and_assoc, Schema.rules, Schema.describes_typed]

theorem isOk_iff_describes {s : Schema ν} (plain : Plain config s) (verbatim : s.Everywhere ComparesVerbatim)
    {v : Value} : (validateWith config custom v s).isOk = true ↔ s.Describes v := by
  rw [← exists_matched_iff plain verbatim]
  cases validateWith config custom v s <;> simp [Except.isOk, Except.toBool]

theorem isOk_iff_bounds {tag : TypeTag} (other : tag ≠ .array) {min? max? : Option Double} {v : Value} :
    (validateWith config custom v (.typed { constraints := { min?, max? } } { tag } none none)).isOk = true ↔
      tag.accepts v = true ∧ ({ min?, max? } : Constraints).Bounds tag v := by
  have plain : Plain config (.typed { constraints := { min?, max? } } { tag } none none : Schema ν) := by
    refine ⟨List.forall_mem_singleton.2 rfl, ?_⟩
    rw [Schema.height_typed, if_neg other]
    exact Nat.zero_le _
  have verbatim : (.typed { constraints := { min?, max? } } { tag } none none : Schema ν).Everywhere ComparesVerbatim :=
    List.forall_mem_singleton.2 (comparesVerbatim_of_silent rfl rfl)
  rw [isOk_iff_describes plain verbatim, Schema.describes_typed]
  simp [Rules.Spares, Constraints.Matches, Constraints.Wants, TypeRules.Classifies, TypeRules.classes, other]

/-- Validation against a plain schema that asks for equality only where it replaces nothing decides
whether the schema describes the value. -/
theorem validateWith_decides {s : Schema ν} (uncustomized : s.Everywhere fun node => node.rules.custom? = none)
    (fits : s.height ≤ config.maxDepth) (verbatim : s.Everywhere ComparesVerbatim) (v : Value) :
    (validateWith config custom v s).isOk = true ↔ s.Describes v :=
  isOk_iff_describes ⟨uncustomized, fits⟩ verbatim

end

def extension : KeyPattern := ⟨"^x", "", by decide, by decide⟩

def noRules : CustomRules Empty := nofun

def versionNumber : Schema Empty := .typed
  { optional := true, default? := some (.int 1), constraints := { equals? := some (.int 1) } }
  { tag := .integer } none none

def optionalText : Schema Empty := .typed { optional := true } { tag := .string } none none

def versioned : Schema Empty :=
  .shape {} [(.literal "version", versionNumber), (.pattern extension, optionalText)]

theorem versioned_everywhere {condition : Schema Empty → Prop} (own : condition versioned)
    (number : condition versionNumber) (text : condition optionalText) : versioned.Everywhere condition :=
  List.forall_mem_cons.2 ⟨own, List.forall_mem_cons.2 ⟨number, List.forall_mem_singleton.2 text⟩⟩

theorem versioned_verbatim : versioned.Everywhere ComparesVerbatim :=
  versioned_everywhere (comparesVerbatim_of_silent rfl rfl)
    (fun _ => ⟨List.forall_mem_singleton.2 rfl, nofun⟩) (comparesVerbatim_of_silent rfl rfl)

theorem versioned_describes :
    (versioned.Everywhere fun node => node.rules.custom? = none) ∧ versioned.height ≤ ({} : Config).maxDepth ∧
      versioned.Everywhere ComparesVerbatim ∧
      versioned.Describes (.object [("x-id", .string "7"), ("version", .int 1), ("y", .null)]) := by
  have uncustomized : versioned.Everywhere fun node => node.rules.custom? = none :=
    versioned_everywhere rfl rfl rfl
  have fits : versioned.height ≤ ({} : Config).maxDepth := by decide
  have matched : (validateWith {} noRules
      (.object [("x-id", .string "7"), ("version", .int 1), ("y", .null)]) versioned).isOk = true := by decide
  exact ⟨uncustomized, fits, versioned_verbatim,
    (validateWith_decides uncustomized fits versioned_verbatim _).1 matched⟩

def exactly : Schema Unit :=
  .shape { constraints := { equals? := some (.object [("a", .int 1)]) } } [(.literal "a", .any)]

def defaulted : Schema Unit :=
  .typed { constraints := { equals? := some (.list [.int 1]) } } { tag := .array }
    (some [.typed { optional := true, default? := some (.int 1) } { tag := .integer } none none]) none

def customized : Schema Unit := .typed { custom? := some () } { tag := .any } none none

def rejecting : CustomRules Unit := fun _ _ _ => Verdict.reject "Rejected!"

/-- The conditions of the decision are needed. A shape compares the structure that it has put
together, and a list the elements with their defaults; a low limit rejects what a schema
describes, and so does a custom rule. -/
theorem validateWith_departs :
    ((validateWith {} rejecting (.object [("a", .int 1), ("b", .int 2)]) exactly).isOk = true ∧
      ¬exactly.Describes (.object [("a", .int 1), ("b", .int 2)])) ∧
    ((validateWith {} rejecting (.list [.undefined]) defaulted).isOk = true ∧
      ¬defaulted.Describes (.list [.undefined])) ∧
    ((validateWith { maxDepth := 0 } rejecting (.object [("a", .int 1)]) exactly).isOk = false ∧
      exactly.Describes (.object [("a", .int 1)])) ∧
    ((validateWith {} rejecting (.bool true) customized).isOk = false ∧ customized.Describes (.bool true)) := by
  refine ⟨⟨by decide, fun described => ?_⟩, ⟨by decide, fun described => ?_⟩, ⟨by decide, ?_⟩, by decide, ?_⟩
  · rcases Schema.describes_shape.1 described with (⟨⟨⟩, _⟩ | ⟨⟨⟩, _⟩) | ⟨_, holds⟩
    exact absurd (holds.1 _ rfl) (by decide)
  · rcases Schema.describes_typed.1 described with ⟨differs, _⟩ | ⟨_, _, _, _, _, _, holds⟩
    · cases differs
    · exact absurd (holds.1 _ rfl) (by decide)
  · refine Schema.describes_shape.2 (.inr ⟨⟨_, rfl, ?_⟩, ?_, nofun⟩)
    · simp only [List.map_cons, List.map_nil, List.forall_mem_singleton]
      exact (Schema.describes_any _).2 rfl
    · intro _ given
      cases given
      decide
  · refine Schema.describes_typed.2 (.inr ⟨rfl, ?_, nofun, fun named => absurd rfl named, nofun, nofun, nofun, nofun⟩)
    exact ⟨nofun, fun sized => by rcases sized with ⟨⟨⟩⟩ | ⟨⟨⟩⟩⟩

end Conform
