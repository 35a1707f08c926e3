import Conform.Proofs.Levels

/-! Validation of plain schemas, which have no custom rules and fit under the depth limit: what
a node accepts, and what it makes of it, in terms of its parts alone. -/

namespace Conform

variable [RegexEngine] {ν : Type} {config : Config} {custom : CustomRules ν}

/-- A schema without custom rules that is no higher than the depth limit. -/
structure Plain (config : Config) (s : Schema ν) : Prop where
  uncustomized : s.Everywhere fun node => node.rules.custom? = none
  fits : s.height ≤ config.maxDepth

namespace Plain

theorem own {s : Schema ν} (plain : Plain config s) : s.rules.custom? = none :=
  (Schema.everywhere_iff.1 plain.uncustomized).1

theorem entry {rules : Rules ν} {properties : List (PropertyKey × Schema ν)}
    (plain : Plain config (.shape rules properties)) {entry : PropertyKey × Schema ν}
    (member : entry ∈ properties) : Plain config entry.2 := by
  have below := (Schema.everywhere_iff.1 plain.uncustomized).2
  have lower := Schema.height_entry rules member
  exact ⟨Schema.everywhereBelow_shape.1 below entry member, by have := plain.fits; omega⟩

theorem member {rules : Rules ν} {members : List (Schema ν)}
    (plain : Plain config (.alternation rules members)) {s : Schema ν} (member : s ∈ members) :
    Plain config s := by
  have below := (Schema.everywhere_iff.1 plain.uncustomized).2
  have lower := Schema.height_member rules member
  exact ⟨Schema.everywhereBelow_alternation.1 below s member, by have := plain.fits; omega⟩

section Typed

variable {rules : Rules ν} {type : TypeRules} {items? : Option (List (Schema ν))}
  {nested? : Option (List (PropertyKey × Schema ν))}

theorem element (plain : Plain config (.typed rules type items? nested?)) (array : type.tag = .array)
    {s : Schema ν} (member : s ∈ Schema.elementSchemas items?) : Plain config s := by
  have below := (Schema.everywhere_iff.1 plain.uncustomized).2
  have lower := Schema.height_element rules nested? array member
  exact ⟨Schema.everywhere_elementSchema (by rfl) below member, by have := plain.fits; omega⟩

theorem nested (plain : Plain config (.typed rules type items? nested?))
    {properties : List (PropertyKey × Schema ν)} (found : nested? = some properties)
    {entry : PropertyKey × Schema ν} (member : entry ∈ properties) : Plain config entry.2 := by
  subst found
  have below := (Schema.everywhere_iff.1 plain.uncustomized).2
  have lower := Schema.height_nested rules type items? member
  exact ⟨(Schema.everywhereBelow_typed.1 below).2 entry member, by have := plain.fits; omega⟩

end Typed

theorem mild {s : Schema ν} (plain : Plain config s) {v : Value} {f : Failure}
    (failed : validateWith config custom v s = .error f) : f.isFatal = false := by
  refine Context.check_mild plain.fits (fun node inside rule found => ?_) failed
  simp [plain.uncustomized node inside] at found

theorem valueRules {s : Schema ν} (plain : Plain config s) {v w : Value} :
    outcome ((Context.direct config custom).valueRules s v) = .ok w ↔
      s.rules.constraints.Wants v ∧ w = v := by
  rw [Context.valueRules_ok, plain.own, Except.ok.injEq, eq_comm (a := v)]

end Plain

/-- Of several schemas, the first that accepts a value decides what the value becomes. -/
def FirstAccepts (config : Config) (custom : CustomRules ν) (schemas : List (Schema ν)) (v w : Value) : Prop :=
  ∃ before s after, schemas = before ++ s :: after ∧
    (∀ earlier ∈ before, ∀ y, validateWith config custom v earlier ≠ .ok y) ∧
    validateWith config custom v s = .ok w

theorem FirstAccepts.accepts {schemas : List (Schema ν)} {v w : Value}
    (first : FirstAccepts config custom schemas v w) :
    ∃ s ∈ schemas, validateWith config custom v s = .ok w := by
  obtain ⟨before, s, after, rfl, _, accepted⟩ := first
  exact ⟨s, by simp, accepted⟩

theorem exists_firstAccepts {schemas : List (Schema ν)} {v w : Value} {s : Schema ν}
    (member : s ∈ schemas) (accepted : validateWith config custom v s = .ok w) :
    ∃ y, FirstAccepts config custom schemas v y := by
  induction schemas with
  | nil => simp at member
  | cons first rest ih =>
    cases answer : validateWith config custom v first with
    | ok y => exact ⟨y, [], first, rest, rfl, by simp, answer⟩
    | error f =>
      have later : s ∈ rest := by
        apply (List.mem_cons.1 member).resolve_left
        intro same
        cases (same ▸ accepted).symm.trans answer
      obtain ⟨y, before, s, after, rfl, none, accepted⟩ := ih later
      refine ⟨y, first :: before, s, after, rfl, List.forall_mem_cons.2 ⟨?_, none⟩, accepted⟩
      simp [answer]

theorem exists_firstAccepts_iff {schemas : List (Schema ν)} {v : Value} :
    (∃ w, FirstAccepts config custom schemas v w) ↔ ∃ s ∈ schemas, ∃ w, validateWith config custom v s = .ok w := by
  constructor
  · intro given
    obtain ⟨w, first⟩ := given
    obtain ⟨s, member, accepted⟩ := first.accepts
    exact ⟨s, member, w, accepted⟩
  · intro given
    obtain ⟨s, member, w, accepted⟩ := given
    exact exists_firstAccepts member accepted

theorem firstAccepts_checks {schemas : List (Schema ν)} (plain : ∀ s ∈ schemas, Plain config s)
    {v w : Value} :
    (∃ before check after, schemas.map ((Context.direct config custom).check · 0) = before ++ check :: after ∧
      (∀ earlier ∈ before, earlier.Rejects v false) ∧ outcome (check v) = .ok w) ↔
    FirstAccepts config custom schemas v w := by
  constructor
  · intro given
    obtain ⟨_, _, _, split, rejected, accepted⟩ := given
    obtain ⟨before, s, after, rfl, rfl, rfl, rfl⟩ := split_of_map split
    refine ⟨before, s, after, rfl, fun earlier member y accepted => ?_, accepted⟩
    obtain ⟨f, failed, _⟩ := rejected _ (List.mem_map_of_mem member)
    cases failed.symm.trans accepted
  · intro given
    obtain ⟨before, s, after, rfl, none, accepted⟩ := given
    refine ⟨_, _, _, by rw [List.map_append, List.map_cons], fun check mapped => ?_, accepted⟩
    obtain ⟨earlier, member, rfl⟩ := List.mem_map.1 mapped
    cases answer : validateWith config custom v earlier with
    | ok y => exact absurd answer (none earlier member y)
    | error f => exact ⟨f, answer, (plain earlier (by simp [member])).mild answer⟩

/-- What the properties of a shape add to the matched fields, each as its own schema decides. -/
def AddsAll (config : Config) (custom : CustomRules ν) (fields : List (String × Value)) :
    List (PropertyKey × Schema ν) → List (List (String × Value)) → Prop :=
  List.Forall₂ fun entry => Adds fields entry.1 fun x => validateWith config custom x entry.2

def StructureBecomes (config : Config) (custom : CustomRules ν) (properties : List (PropertyKey × Schema ν))
    (v w : Value) : Prop :=
  ∃ fields groups, v.fields? = some fields ∧ AddsAll config custom fields properties groups ∧
    w = v.withFields (storeAll [] groups.flatten)

def ElementBecomes (config : Config) (custom : CustomRules ν) (keepOrder : Bool) (items : List (Schema ν))
    (index : Nat) (x y : Value) : Prop :=
  keepOrder = true ∧ (items[index]? = none ∧ y = x ∨
    ∃ s, items[index]? = some s ∧ validateWith config custom x s = .ok y) ∨
  keepOrder = false ∧ FirstAccepts config custom items x y

def ElementsBecome (config : Config) (custom : CustomRules ν) (type : TypeRules) (items : List (Schema ν))
    (xs ys : List Value) : Prop :=
  (type.keepLength = true → xs.length = items.length) ∧ ys.length = xs.length ∧
    ∀ index x y, xs[index]? = some x → ys[index]? = some y →
      ElementBecomes config custom type.keepOrder items index x y

theorem exists_addsAll {fields : List (String × Value)} {properties : List (PropertyKey × Schema ν)} :
    (∃ groups, AddsAll config custom fields properties groups) ↔
      ∀ entry ∈ properties, ∃ pairs,
        Adds fields entry.1 (fun x => validateWith config custom x entry.2) pairs :=
  exists_forall₂

theorem exists_elementsBecome {type : TypeRules} {items : List (Schema ν)} {xs : List Value} :
    (∃ ys, ElementsBecome config custom type items xs ys) ↔
      (type.keepLength = true → xs.length = items.length) ∧
        ∀ (index : Nat) (x : Value), xs[index]? = some x →
          ∃ y, ElementBecomes config custom type.keepOrder items index x y := by
  simp only [ElementsBecome, exists_and_left]
  exact and_congr_right fun _ => exists_results

/-- What a value of the right type becomes. Lists are no keyed structures, so that a node of lists
with a nested shape has nothing for them to become. -/
inductive ContentBecomes (config : Config) (custom : CustomRules ν) (type : TypeRules)
    (items? : Option (List (Schema ν))) :
    Option (List (PropertyKey × Schema ν)) → Value → Value → Prop where
  | list {xs ys : List Value} (array : type.tag = .array)
      (become : ElementsBecome config custom type (Schema.elementSchemas items?) xs ys) :
      ContentBecomes config custom type items? none (.list xs) (.list ys)
  | keyed {properties : List (PropertyKey × Schema ν)} {v w : Value} (other : type.tag ≠ .array)
      (become : StructureBecomes config custom properties v w) :
      ContentBecomes config custom type items? (some properties) v w
  | same {v : Value} (other : type.tag ≠ .array) : ContentBecomes config custom type items? none v v

theorem validateWith_shape {rules : Rules ν} {properties : List (PropertyKey × Schema ν)}
    (plain : Plain config (.shape rules properties)) {v w : Value} :
    validateWith config custom v (.shape rules properties) = .ok w ↔
      rules.absentExit? v = some w ∨ rules.absentExit? v = none ∧
        StructureBecomes config custom properties v w ∧ rules.constraints.Wants w := by
  change outcome ((Context.direct config custom).check _ 0 v) = .ok w ↔ _
  rw [Context.check_shape_of_fits _ plain.fits, Context.shape_ok]
  simp only [List.forall₂_map_left_iff, plain.valueRules, Schema.rules]
  refine or_congr_right (and_congr_right fun _ => ?_)
  constructor
  · intro given
    obtain ⟨fields, groups, keyed, adds, holds, rfl⟩ := given
    exact ⟨⟨fields, groups, keyed, adds, rfl⟩, holds⟩
  · intro given
    obtain ⟨⟨fields, groups, keyed, adds, rfl⟩, holds⟩ := given
    exact ⟨fields, groups, keyed, adds, holds, rfl⟩

theorem validateWith_alternation {rules : Rules ν} {members : List (Schema ν)}
    (plain : Plain config (.alternation rules members)) {v w : Value} :
    validateWith config custom v (.alternation rules members) = .ok w ↔
      rules.absentExit? v = some w ∨ rules.absentExit? v = none ∧
        FirstAccepts config custom members v w ∧ rules.constraints.Wants w := by
  change outcome ((Context.direct config custom).check _ 0 v) = .ok w ↔ _
  rw [Context.check_alternation_of_fits _ plain.fits, Context.alternation_ok]
  simp only [plain.valueRules, Schema.rules, ← firstAccepts_checks fun s member => plain.member member]
  refine or_congr_right (and_congr_right fun _ => ?_)
  constructor
  · intro given
    obtain ⟨before, check, after, _, split, rejected, accepted, holds, rfl⟩ := given
    exact ⟨⟨before, check, after, split, rejected, accepted⟩, holds⟩
  · intro given
    obtain ⟨⟨before, check, after, split, rejected, accepted⟩, holds⟩ := given
    exact ⟨before, check, after, w, split, rejected, accepted, holds, rfl⟩

section Typed

variable {rules : Rules ν} {type : TypeRules} {items? : Option (List (Schema ν))}
  {nested? : Option (List (PropertyKey × Schema ν))}

theorem elements_plain (plain : Plain config (.typed rules type items? nested?)) (array : type.tag = .array)
    {xs : List Value} {w : Value} :
    outcome (Context.elements type ((Schema.elementSchemas items?).map
      ((Context.direct config custom).check · 0)) (.list xs)) = .ok w ↔
    ∃ ys, w = .list ys ∧ ElementsBecome config custom type (Schema.elementSchemas items?) xs ys := by
  have one (index : Nat) (x y : Value) :
      outcome (Context.element type.keepOrder ((Schema.elementSchemas items?).map
        ((Context.direct config custom).check · 0)) index x) = .ok y ↔
      ElementBecomes config custom type.keepOrder (Schema.elementSchemas items?) index x y := by
    rw [Context.element_ok, firstAccepts_checks fun s member => plain.element array member]
    simp only [ElementBecomes, List.getElem?_map, Option.map_eq_none_iff, Option.map_eq_some_iff]
    refine or_congr_left (and_congr_right fun _ => or_congr_right ⟨?_, ?_⟩)
    · intro given
      obtain ⟨_, ⟨s, found, rfl⟩, accepted⟩ := given
      exact ⟨s, found, accepted⟩
    · intro given
      obtain ⟨s, found, accepted⟩ := given
      exact ⟨_, ⟨s, found, rfl⟩, accepted⟩
  rw [Context.elements_ok]
  simp only [one, List.length_map, ElementsBecome]
  constructor
  · intro given
    obtain ⟨fixed, ys, rfl, same, each⟩ := given
    exact ⟨ys, rfl, fixed, same, each⟩
  · intro given
    obtain ⟨ys, rfl, fixed, same, each⟩ := given
    exact ⟨fixed, ys, rfl, same, each⟩

theorem nestedShape_plain {properties : List (PropertyKey × Schema ν)} {v w : Value} :
    outcome ((Context.direct config custom).nestedShape properties
      (properties.map fun entry => (entry.1, (Context.direct config custom).check entry.2 0)) v) = .ok w ↔
    StructureBecomes config custom properties v w := by
  simp only [Context.nestedShape_ok, List.forall₂_map_left_iff, eq_comm (b := w)]
  exact Iff.rfl

theorem contentBecomes_iff {v w : Value} :
    ContentBecomes config custom type items? nested? v w ↔
      ∃ listed,
        (if type.tag = .array then ∃ xs ys, v = .list xs ∧ listed = .list ys ∧
            ElementsBecome config custom type (Schema.elementSchemas items?) xs ys
          else listed = v) ∧
        nested?.elim (w = listed) fun properties => StructureBecomes config custom properties listed w := by
  constructor
  · intro given
    rcases given with ⟨array, become⟩ | ⟨other, become⟩ | ⟨other⟩
    · exact ⟨_, by rw [if_pos array]; exact ⟨_, _, rfl, rfl, become⟩, rfl⟩
    · exact ⟨_, by rw [if_neg other], become⟩
    · exact ⟨_, by rw [if_neg other], rfl⟩
  · intro given
    obtain ⟨listed, elements, nested⟩ := given
    split at elements
    · next array =>
      obtain ⟨xs, ys, rfl, rfl, become⟩ := elements
      cases nested? with
      | none =>
        obtain rfl : w = .list ys := nested
        exact .list array become
      | some properties =>
        obtain ⟨fields, groups, keyed, _⟩ := nested
        cases keyed
    · next other =>
      subst elements
      cases nested? with
      | none =>
        obtain rfl : w = listed := nested
        exact .same other
      | some properties => exact .keyed other nested

theorem validateWith_typed (plain : Plain config (.typed rules type items? nested?)) {v w : Value} :
    validateWith config custom v (.typed rules type items? nested?) = .ok w ↔
      type.tag.accepts v = false ∧ rules.absentExit? v = some w ∨
      type.tag.accepts v = true ∧ rules.constraints.Bounds type.tag v ∧
        rules.constraints.Matches type.tag v ∧ type.Classifies v ∧
        ContentBecomes config custom type items? nested? v w ∧ rules.constraints.Wants w := by
  have listing {listed : Value} (accepted : type.tag.accepts v = true) :
      (if type.tag = .array then outcome (Context.elements type ((Schema.elementSchemas items?).map
        ((Context.direct config custom).check · 0)) v) = .ok listed else listed = v) ↔
      (if type.tag = .array then ∃ xs ys, v = .list xs ∧ listed = .list ys ∧
        ElementsBecome config custom type (Schema.elementSchemas items?) xs ys else listed = v) := by
    split
    · next array =>
      obtain ⟨xs, rfl⟩ : ∃ xs, v = .list xs := by
        rw [array] at accepted
        cases v <;> simp_all [TypeTag.accepts]
      rw [elements_plain plain array]
      simp
    · exact Iff.rfl
  have nesting {listed shaped : Value} :
      ((nested?.map fun properties => (Context.direct config custom).nestedShape properties
        (properties.map fun entry => (entry.1, (Context.direct config custom).check entry.2 0))).elim
        (shaped = listed) fun nested => outcome (nested listed) = .ok shaped) ↔
      nested?.elim (shaped = listed) fun properties =>
        StructureBecomes config custom properties listed shaped := by
    cases nested? with
    | none => exact Iff.rfl
    | some properties => exact nestedShape_plain
  change outcome ((Context.direct config custom).check _ 0 v) = .ok w ↔ _
  rw [Context.check_typed_of_fits _ plain.fits, Context.typed_ok]
  simp only [nesting, plain.valueRules, Schema.rules, contentBecomes_iff]
  refine or_congr_right (and_congr_right fun accepted => and_congr_right fun _ =>
    and_congr_right fun _ => and_congr_right fun _ => ?_)
  simp only [← listing accepted]
  constructor
  · intro given
    obtain ⟨listed, _, elements, nested, holds, rfl⟩ := given
    exact ⟨⟨listed, elements, nested⟩, holds⟩
  · intro given
    obtain ⟨⟨listed, elements, nested⟩, holds⟩ := given
    exact ⟨listed, w, elements, nested, holds, rfl⟩

end Typed

/-- A node that cannot replace a value: it has no properties, and nothing stands for an absent value. -/
def Rigid (node : Schema ν) : Prop := node.properties? = none ∧ node.rules.default? = none

theorem rigid_any : Rigid (.any : Schema ν) := ⟨rfl, rfl⟩

theorem ElementsBecome.eq_of_kept {type : TypeRules} {items : List (Schema ν)} {xs ys : List Value}
    (become : ElementsBecome config custom type items xs ys)
    (kept : ∀ s ∈ items, ∀ x y, validateWith config custom x s = .ok y → y = x) : ys = xs := by
  obtain ⟨_, same, each⟩ := become
  apply List.ext_getElem same
  intro index inYs inXs
  rcases each index _ _ (List.getElem?_eq_getElem inXs) (List.getElem?_eq_getElem inYs) with
    ⟨_, ⟨_, unchanged⟩ | ⟨s, found, accepted⟩⟩ | ⟨_, first⟩
  · exact unchanged
  · exact kept s (List.mem_of_getElem? found) _ _ accepted
  · obtain ⟨s, member, accepted⟩ := first.accepts
    exact kept s member _ _ accepted

/-- A rigid schema matches every value that it accepts as it is. -/
theorem eq_of_rigid {s : Schema ν} (plain : Plain config s) (rigid : s.Everywhere Rigid) {v w : Value}
    (accepted : validateWith config custom v s = .ok w) : w = v := by
  have exits {rules : Rules ν} (undeclared : rules.default? = none) {v w : Value}
      (exit : rules.absentExit? v = some w) : w = v := by
    rcases Rules.absentExit?_cases exit with same | ⟨_, declared⟩
    · exact same
    · cases undeclared.symm.trans declared
  induction s generalizing v w with
  | shape rules properties => cases (Schema.everywhere_iff.1 rigid).1.1
  | alternation rules members ih =>
    obtain ⟨⟨_, undeclared⟩, below⟩ := Schema.everywhere_iff.1 rigid
    rcases (validateWith_alternation plain).1 accepted with exit | ⟨_, first, _⟩
    · exact exits undeclared exit
    · obtain ⟨s, member, accepted⟩ := first.accepts
      exact ih s member (plain.member member) (Schema.everywhereBelow_alternation.1 below s member) accepted
  | typed rules type items? nested? itemsIh =>
    obtain ⟨⟨bare, undeclared⟩, below⟩ := Schema.everywhere_iff.1 rigid
    rcases (validateWith_typed plain).1 accepted with ⟨_, exit⟩ | ⟨_, _, _, _, becomes, _⟩
    · exact exits undeclared exit
    · cases becomes with
      | list array become =>
        refine congrArg Value.list (become.eq_of_kept fun s member x y accepted => ?_)
        exact itemsIh array s member (plain.element array member)
          (Schema.everywhere_elementSchema rigid_any below member) accepted
      | keyed => cases bare
      | same => rfl

end Conform
