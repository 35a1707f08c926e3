import Conform.Proofs.Loading
import Conform.Regex.Engine

/-! The forms of the fields of a descriptor, and that documents are read exactly where the fields that
are read have their forms. A node reads the fields of its own kind; others may hold anything. -/

namespace Conform

namespace Descriptor

def parts (name : String) (d : Document) : List Document :=
  match name, d with
  | "types", .array items | "items", .array items => items
  | "properties", .object fields => fields.map Prod.snd
  | _, _ => []

def sharedFields : List String :=
  ["nullable", "optional", "defaultValue", "empty", "min", "max", "length", "match", "equals", "contains"]

def typeFields : List String := ["type", "instance", "instances", "keepOrder", "keepLength"]

def recognisedFields : List String := "types" :: typeFields ++ ["items", "properties"] ++ sharedFields

/-- The fields that are read: of `types`, `type` and `properties`, those that are present decide. -/
def fieldsRead (fields : List (String × Document)) : List String :=
  if (fields.lookup "types").isSome then "types" :: sharedFields
  else if (fields.lookup "type").isNone && (fields.lookup "properties").isSome then "properties" :: sharedFields
  else typeFields ++ ["items", "properties"] ++ sharedFields

section Forms

variable {α : Type} {d? : Option Document}

theorem exists_rel {read : Document → α → Prop} :
    (∃ a?, Option.Rel read d? a?) ↔ ∀ d, d? = some d → ∃ a, read d a := by
  cases d? with
  | none => exact ⟨nofun, fun _ => ⟨none, .none⟩⟩
  | some d =>
    simp only [Option.some.injEq, forall_eq']
    constructor
    · intro given
      obtain ⟨_, ⟨read⟩⟩ := given
      exact ⟨_, read⟩
    · intro given
      obtain ⟨a, read⟩ := given
      exact ⟨some a, .some read⟩

theorem exists_flag {absent : Bool} :
    (∃ b, StatesFlag d? absent b) ↔ ∀ d, d? = some d → ∃ b, d = .bool b := by
  cases d? with
  | none => exact ⟨nofun, fun _ => ⟨absent, rfl⟩⟩
  | some d => simp [StatesFlag]

theorem exists_tag : (∃ tag, StatesTag d? tag) ↔ ∀ d, d? = some d → ∃ tag : TypeTag, d = .string tag.name := by
  cases d? with
  | none => exact ⟨nofun, fun _ => ⟨.any, rfl⟩⟩
  | some d => simp [StatesTag]

theorem exists_number {d : Document} : (∃ x, d.number? = some x) ↔ (∃ i, d = .integer i) ∨ ∃ x, d = .float x := by
  cases d <;> simp [Document.number?]

theorem exists_count {d : Document} : (∃ n, d.count? = some n) ↔ ∃ i : JsonInteger, 0 ≤ i.toInt ∧ d = .integer i := by
  cases d <;> simp [Document.count?]

theorem exists_classNames {d : Document} :
    (∃ names, classNames? d = some names) ↔ ∃ names : List String, d = .array (names.map .string) := by
  simp only [classNames?_eq_some_iff]

end Forms

section Kinds

variable {fields : List (String × Document)} {d : Document}

theorem fieldsRead_alternation (types : fields.lookup "types" = some d) :
    fieldsRead fields = "types" :: sharedFields := by
  simp [fieldsRead, types]

theorem fieldsRead_shape (single : fields.lookup "types" = none) (untyped : fields.lookup "type" = none)
    (found : fields.lookup "properties" = some d) : fieldsRead fields = "properties" :: sharedFields := by
  simp [fieldsRead, single, untyped, found]

theorem fieldsRead_typed (single : fields.lookup "types" = none)
    (tagged : fields.lookup "type" = none → fields.lookup "properties" = none) :
    fieldsRead fields = typeFields ++ ["items", "properties"] ++ sharedFields := by
  cases found : fields.lookup "type" with
  | none => simp [fieldsRead, single, found, tagged found]
  | some d => simp [fieldsRead, single, found]

theorem parts_eq_nil {name : String} (leaf : name ∈ typeFields ++ sharedFields) (d : Document) : parts name d = [] := by
  unfold parts
  split
  · exact absurd leaf (by decide)
  · exact absurd leaf (by decide)
  · exact absurd leaf (by decide)
  · rfl

end Kinds

variable [RegexEngine]

def HasForm (name : String) (d : Document) : Prop :=
  match name with
  | "type" => ∃ tag : TypeTag, d = .string tag.name
  | "instance" => ∃ className, d = .string className
  | "instances" => ∃ classNames : List String, d = .array (classNames.map .string)
  | "types" | "items" | "contains" => ∃ items, d = .array items
  | "properties" => ∃ fields, d = .object fields
  | "keepOrder" | "keepLength" | "nullable" | "optional" | "empty" => ∃ b, d = .bool b
  | "min" | "max" => (∃ i, d = .integer i) ∨ ∃ x, d = .float x
  | "length" => ∃ i : JsonInteger, 0 ≤ i.toInt ∧ d = .integer i
  | "match" => ∃ source r, d = .string source ∧ regex source = .ok r
  | _ => True

def WellTyped (fields : List (String × Document)) (names : List String) : Prop :=
  ∀ name ∈ names, ∀ d, fields.lookup name = some d → HasForm name d

/-- A field has its form where it is present, and the descriptors inside it are as they should be. -/
def Sound (inner : Document → Prop) (fields : List (String × Document)) (name : String) : Prop :=
  ∀ d, fields.lookup name = some d → HasForm name d ∧ ∀ part ∈ parts name d, inner part

/-- An object whose fields have their forms, as far as they count, and so on in the descriptors inside
these fields. -/
inductive WellFormed (counts : List (String × Document) → List String) : Document → Prop where
  | object {fields : List (String × Document)} (typed : WellTyped fields (counts fields))
      (nested : ∀ name ∈ counts fields, ∀ d, fields.lookup name = some d → ∀ part ∈ parts name d,
        WellFormed counts part) :
      WellFormed counts (.object fields)

section States

variable {ν : Type} {fields : List (String × Document)}

theorem exists_statesRules : (∃ r : Rules ν, StatesRules fields r) ↔ WellTyped fields sharedFields := by
  constructor
  · intro given
    obtain ⟨r, states⟩ := given
    simp only [WellTyped, sharedFields, List.forall_mem_cons]
    refine ⟨exists_flag.1 ⟨_, states.nullable⟩, exists_flag.1 ⟨_, states.optional⟩, fun _ _ => trivial,
      exists_flag.1 ⟨_, states.allowEmpty⟩, fun d found => exists_number.1 (exists_rel.1 ⟨_, states.min?⟩ d found),
      fun d found => exists_number.1 (exists_rel.1 ⟨_, states.max?⟩ d found),
      fun d found => exists_count.1 (exists_rel.1 ⟨_, states.length?⟩ d found), fun d found => ?_, fun _ _ => trivial,
      fun d found => ?_, nofun⟩
    · obtain ⟨r, source, text, compiled⟩ := exists_rel.1 ⟨_, states.pattern?⟩ d found
      exact ⟨source, r, text, compiled⟩
    · obtain ⟨allowed?, read, _⟩ := states.contains?
      obtain ⟨items, listed⟩ := exists_rel.1 ⟨_, read⟩ d found
      exact ⟨items, Document.items?_eq_some_iff.1 listed⟩
  · intro forms
    obtain ⟨nullable, statesNullable⟩ := exists_flag.2 (forms "nullable" (by decide))
    obtain ⟨optional, statesOptional⟩ := exists_flag.2 (forms "optional" (by decide))
    obtain ⟨allowEmpty, statesEmpty⟩ := exists_flag.2 (forms "empty" (by decide))
    obtain ⟨min?, statesMin⟩ := exists_rel.2 fun d found => exists_number.2 (forms "min" (by decide) d found)
    obtain ⟨max?, statesMax⟩ := exists_rel.2 fun d found => exists_number.2 (forms "max" (by decide) d found)
    obtain ⟨length?, statesLength⟩ := exists_rel.2 fun d found => exists_count.2 (forms "length" (by decide) d found)
    have source (d) (found : fields.lookup "match" = some d) : ∃ r, StatesRegex d r := by
      obtain ⟨source, r, text, compiled⟩ := forms "match" (by decide) d found
      exact ⟨r, source, text, compiled⟩
    obtain ⟨pattern?, statesPattern⟩ := exists_rel.2 source
    have list (d) (found : fields.lookup "contains" = some d) : ∃ items, d.items? = some items := by
      obtain ⟨items, listed⟩ := forms "contains" (by decide) d found
      exact ⟨items, Document.items?_eq_some_iff.2 listed⟩
    obtain ⟨allowed?, statesContains⟩ := exists_rel.2 list
    exact ⟨⟨nullable, optional, _, ⟨allowEmpty, min?, max?, length?, pattern?, _, _⟩, none⟩, statesNullable,
      statesOptional, rfl, statesEmpty, statesMin, statesMax, statesLength, statesPattern, rfl,
      ⟨allowed?, statesContains, rfl⟩, rfl⟩

theorem exists_statesType : (∃ type, StatesType fields type) ↔ WellTyped fields typeFields := by
  constructor
  · intro given
    obtain ⟨type, states⟩ := given
    simp only [WellTyped, typeFields, List.forall_mem_cons]
    refine ⟨exists_tag.1 ⟨_, states.tag⟩, fun d found => ?_, fun d found => ?_,
      exists_flag.1 ⟨_, states.keepOrder⟩, exists_flag.1 ⟨_, states.keepLength⟩, nofun⟩
    · obtain ⟨className, text⟩ := exists_rel.1 ⟨_, states.instance?⟩ d found
      exact ⟨className, Document.string?_eq_some_iff.1 text⟩
    · exact exists_classNames.1 (exists_rel.1 ⟨_, states.instances?⟩ d found)
  · intro forms
    obtain ⟨tag, statesTag⟩ := exists_tag.2 (forms "type" (by decide))
    have text (d) (found : fields.lookup "instance" = some d) : ∃ className, d.string? = some className := by
      obtain ⟨className, text⟩ := forms "instance" (by decide) d found
      exact ⟨className, Document.string?_eq_some_iff.2 text⟩
    obtain ⟨instance?, statesInstance⟩ := exists_rel.2 text
    obtain ⟨instances?, statesInstances⟩ := exists_rel.2 fun d found =>
      exists_classNames.2 (forms "instances" (by decide) d found)
    obtain ⟨keepOrder, statesOrder⟩ := exists_flag.2 (forms "keepOrder" (by decide))
    obtain ⟨keepLength, statesLength⟩ := exists_flag.2 (forms "keepLength" (by decide))
    exact ⟨⟨tag, instance?, instances?, keepOrder, keepLength⟩, statesTag, statesInstance, statesInstances,
      statesOrder, statesLength⟩

theorem WellTyped.sound {names : List String} (typed : WellTyped fields names)
    (leaves : ∀ name ∈ names, name ∈ typeFields ++ sharedFields) (inner : Document → Prop) :
    ∀ name ∈ names, Sound inner fields name := by
  intro name member d found
  rw [parts_eq_nil (leaves name member)]
  exact ⟨typed name member d found, nofun⟩

theorem WellTyped.of_sound {names : List String} {inner : Document → Prop}
    (sound : ∀ name ∈ names, Sound inner fields name) : WellTyped fields names :=
  fun name member d found => (sound name member d found).1

end States

section Parts

variable {ν : Type} {read : Document → Schema ν → Prop} {fields : List (String × Document)}

theorem exists_readsList {name : String} (listing : name = "types" ∨ name = "items") :
    (∃ schemas?, Option.Rel (ReadsList read) (fields.lookup name) schemas?) ↔
      Sound (fun part => ∃ s, read part s) fields name := by
  refine exists_rel.trans (forall₂_congr fun d _ => ?_)
  rcases listing with rfl | rfl <;> cases d <;> simp [ReadsList, HasForm, parts, exists_forall₂]

theorem exists_readsProperties :
    (∃ entries?, Option.Rel (ReadsProperties read) (fields.lookup "properties") entries?) ↔
      Sound (fun part => ∃ s, read part s) fields "properties" := by
  refine exists_rel.trans (forall₂_congr fun d _ => ?_)
  have one (field : String × Document) :
      (∃ entry : PropertyKey × Schema ν, PropertyKey.ofText field.1 = entry.1 ∧ read field.2 entry.2) ↔
        ∃ s, read field.2 s := by
    constructor
    · intro given
      obtain ⟨entry, _, loaded⟩ := given
      exact ⟨entry.2, loaded⟩
    · intro given
      obtain ⟨s, loaded⟩ := given
      exact ⟨(PropertyKey.ofText field.1, s), rfl, loaded⟩
  cases d with
  | object fields =>
    simp only [ReadsProperties, Document.object.injEq, exists_eq_left', exists_forall₂, one, HasForm, exists_eq',
      parts, List.forall_mem_map, true_and]
  | _ => simp [ReadsProperties, HasForm]

theorem exists_statesRules_iff_sound {inner : Document → Prop} :
    (∃ r : Rules ν, StatesRules fields r) ↔ ∀ name ∈ sharedFields, Sound inner fields name :=
  exists_statesRules.trans ⟨fun typed => typed.sound (fun _ => List.mem_append_right _) _, WellTyped.of_sound⟩

theorem exists_statesType_iff_sound {inner : Document → Prop} :
    (∃ type, StatesType fields type) ↔ ∀ name ∈ typeFields, Sound inner fields name :=
  exists_statesType.trans ⟨fun typed => typed.sound (fun _ => List.mem_append_left _) _, WellTyped.of_sound⟩

theorem Reads.sound {d : Document} {s : Schema ν} (reads : Reads read d s) :
    ∃ fields, d = .object fields ∧ ∀ name ∈ fieldsRead fields, Sound (fun part => ∃ s, read part s) fields name := by
  cases reads with
  | @alternation _ _ _ members types each states =>
    have list : Option.Rel (ReadsList read) _ (some members) := .some each
    rw [← types] at list
    refine ⟨_, rfl, ?_⟩
    rw [fieldsRead_alternation types]
    exact List.forall_mem_cons.2 ⟨(exists_readsList (.inl rfl)).1 ⟨_, list⟩,
      exists_statesRules_iff_sound.1 ⟨_, states⟩⟩
  | @shape _ _ _ entries single untyped found each states =>
    have properties : Option.Rel (ReadsProperties read) _ (some entries) := .some each
    rw [← found] at properties
    refine ⟨_, rfl, ?_⟩
    rw [fieldsRead_shape single untyped found]
    exact List.forall_mem_cons.2 ⟨exists_readsProperties.1 ⟨_, properties⟩, exists_statesRules_iff_sound.1 ⟨_, states⟩⟩
  | typed single tagged stated items nested states =>
    refine ⟨_, rfl, ?_⟩
    rw [fieldsRead_typed single tagged]
    refine List.forall_mem_append.2 ⟨List.forall_mem_append.2 ⟨exists_statesType_iff_sound.1 ⟨_, stated⟩, ?_⟩,
      exists_statesRules_iff_sound.1 ⟨_, states⟩⟩
    exact List.forall_mem_cons.2 ⟨(exists_readsList (.inr rfl)).1 ⟨_, items⟩,
      List.forall_mem_singleton.2 (exists_readsProperties.1 ⟨_, nested⟩)⟩

theorem exists_reads (sound : ∀ name ∈ fieldsRead fields, Sound (fun part => ∃ s, read part s) fields name) :
    ∃ s, Reads read (.object fields) s := by
  rcases kind_cases fields with ⟨d, types⟩ | ⟨single, untyped, d, found⟩ | ⟨single, tagged⟩
  · rw [fieldsRead_alternation types] at sound
    obtain ⟨list, rest⟩ := List.forall_mem_cons.1 sound
    obtain ⟨r, states⟩ := exists_statesRules_iff_sound.2 rest
    obtain ⟨_, each⟩ := (exists_readsList (.inl rfl)).2 list
    rw [types] at each
    cases each with
    | some each => exact ⟨_, .alternation types each states⟩
  · rw [fieldsRead_shape single untyped found] at sound
    obtain ⟨properties, rest⟩ := List.forall_mem_cons.1 sound
    obtain ⟨r, states⟩ := exists_statesRules_iff_sound.2 rest
    obtain ⟨_, each⟩ := exists_readsProperties.2 properties
    rw [found] at each
    cases each with
    | some each => exact ⟨_, .shape single untyped found each states⟩
  · rw [fieldsRead_typed single tagged] at sound
    obtain ⟨sound, rest⟩ := List.forall_mem_append.1 sound
    obtain ⟨own, sound⟩ := List.forall_mem_append.1 sound
    obtain ⟨list, sound⟩ := List.forall_mem_cons.1 sound
    obtain ⟨r, states⟩ := exists_statesRules_iff_sound.2 rest
    obtain ⟨_, stated⟩ := exists_statesType_iff_sound.2 own
    obtain ⟨_, items⟩ := (exists_readsList (.inr rfl)).2 list
    obtain ⟨_, nested⟩ := exists_readsProperties.2 (List.forall_mem_singleton.1 sound)
    exact ⟨_, .typed single tagged stated items nested states⟩

end Parts

end Descriptor

/-- The reader accepts exactly the documents whose fields have their forms, as far as they are read. -/
theorem Schema.exists_ofDocument [RegexEngine] {ν : Type} {d : Document} :
    (∃ s : Schema ν, Schema.ofDocument d = .ok s) ↔ Descriptor.WellFormed Descriptor.fieldsRead d := by
  constructor
  · intro given
    obtain ⟨s, loaded⟩ := given
    refine Descriptor.Loads.induct (motive := fun d _ => Descriptor.WellFormed Descriptor.fieldsRead d)
      (fun d s reads => ?_) loaded
    obtain ⟨fields, rfl, sound⟩ := reads.sound
    refine .object (.of_sound sound) fun name counts d found part inside => ?_
    obtain ⟨_, _, formed⟩ := (sound name counts d found).2 part inside
    exact formed
  · intro formed
    -- Every descriptor inside a field that is read has a schema, and these make up one for the object.
    induction formed with
    | object typed nested ih =>
      have sound : ∀ name ∈ _, Descriptor.Sound (fun part => ∃ s : Schema ν, Descriptor.Loads part s) _ name :=
        fun name counts d found => ⟨typed name counts d found, ih name counts d found⟩
      obtain ⟨s, reads⟩ := Descriptor.exists_reads sound
      exact ⟨s, Descriptor.loads_iff.2 reads⟩

/-- An alternation does not read the type that is stated beside it, not even one that is none. -/
theorem Schema.shadowed_type_accepted :
    (∃ s : Schema Empty, Schema.ofDocument (.object [("types", .array []), ("type", .bool true)]) = .ok s) ∧
      ¬Descriptor.WellFormed (fun _ => Descriptor.recognisedFields)
        (.object [("types", .array []), ("type", .bool true)]) := by
  refine ⟨⟨_, rfl⟩, fun formed => ?_⟩
  cases formed with
  | object typed _ =>
    obtain ⟨tag, same⟩ := typed "type" (by decide) (.bool true) rfl
    cases same

end Conform
