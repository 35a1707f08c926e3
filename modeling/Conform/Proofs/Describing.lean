import Conform.Proofs.JsonValues
import Conform.Proofs.Loading
import Conform.Proofs.Markers
import Conform.Regex.Engine
import Conform.Schema.TypeExpr

/-! Schemas written as documents: every field is stated, whether it is usual or not, and the reader
takes the document of a schema back to the schema. -/

namespace Conform

namespace Fields

variable {α : Type} {rows : List (String × Option α)}

def present (rows : List (String × Option α)) : List (String × α) :=
  rows.filterMap fun row => row.2.map (Prod.mk row.1)

theorem mem_present {field : String × α} : field ∈ present rows ↔ (field.1, some field.2) ∈ rows := by
  simp only [present, List.mem_filterMap, Option.map_eq_some_iff]
  constructor
  · intro given
    obtain ⟨row, member, a, found, rfl⟩ := given
    exact found ▸ member
  · intro member
    exact ⟨_, member, _, rfl, rfl⟩

theorem keys_present (rows : List (String × Option α)) : ((present rows).map Prod.fst).Sublist (rows.map Prod.fst) := by
  induction rows with
  | nil => exact .slnil
  | cons row rows ih =>
    obtain ⟨name, _ | a⟩ := row
    · exact .cons name ih
    · exact .cons_cons name ih

theorem lookup_present_of_not_mem {name : String} (absent : name ∉ rows.map Prod.fst) :
    (present rows).lookup name = none := by
  rw [List.lookup_eq_none_iff]
  intro field member
  have listed : field.1 ∈ rows.map Prod.fst := (keys_present rows).subset (List.mem_map_of_mem member)
  exact bne_iff_ne.2 fun same => absent (same ▸ listed)

theorem lookup_present_of_mem (distinct : (rows.map Prod.fst).Nodup) {row : String × Option α} (member : row ∈ rows) :
    (present rows).lookup row.1 = row.2 := by
  induction rows with
  | nil => cases member
  | cons first rows ih =>
    obtain ⟨fresh, others⟩ := List.nodup_cons.1 distinct
    rcases List.mem_cons.1 member with rfl | later
    · obtain ⟨name, _ | a⟩ := row
      · change (present rows).lookup name = none
        exact lookup_present_of_not_mem fresh
      · exact List.lookup_cons_self
    · have differ : (row.1 == first.1) = false :=
        beq_eq_false_iff_ne.2 fun same => fresh (same ▸ List.mem_map_of_mem later)
      obtain ⟨name, _ | a⟩ := first
      · exact ih others later
      · change ((name, a) :: present rows).lookup row.1 = row.2
        rw [List.lookup_cons, differ]
        exact ih others later

end Fields

def TypeRules.rows (type : TypeRules) : List (String × Option Document) :=
  [("type", some (.string type.tag.name)),
    ("instance", type.instance?.map .string),
    ("instances", type.instances?.map fun names => .array (names.map .string)),
    ("keepOrder", some (.bool type.keepOrder)),
    ("keepLength", some (.bool type.keepLength))]

/-- A value that the way to a document and back does not change. -/
def Value.Representable (v : Value) : Prop := Value.ofDocument (Document.ofValue v) = v

theorem rel_map {α : Type} {write : α → Document} {reads : Document → α → Prop} {a? : Option α}
    (back : ∀ a, a? = some a → reads (write a) a) : Option.Rel reads (a?.map write) a? := by
  cases a? with
  | none => exact .none
  | some a => exact .some (back a rfl)

theorem map_representable {v? : Option Value} (each : ∀ v, v? = some v → v.Representable) :
    (v?.map Document.ofValue).map Value.ofDocument = v? := by
  cases v? with
  | none => rfl
  | some v => exact congrArg some (each v rfl)

theorem Value.ofItems_ofValues {items : List Value} (each : ∀ v ∈ items, v.Representable) :
    Value.ofItems (Document.ofValues items) = items := by
  rw [Document.ofValues_eq, Value.ofItems_eq, List.map_map]
  exact (List.map_congr_left each).trans (List.map_id' _)

theorem Document.number?_ofValue {x : Double} (finite : x.isFinite = true) :
    (Document.ofValue (.float x)).number? = some x := by
  rw [Document.ofValue, dif_pos finite]
  rfl

theorem Document.count?_ofValue {n : Nat} (fits : n < Nat.pow 2 64) :
    (Document.ofValue (.bigInt n)).count? = some n := by
  have small : (n : Int) < Int.pow 2 64 := by
    have bound : Int.pow 2 64 = (Nat.pow 2 64 : Nat) := by rfl
    rw [bound]
    exact Int.ofNat_lt.2 fits
  have least : -Int.pow 2 63 ≤ (n : Int) := Int.le_trans (by decide) (Int.natCast_nonneg n)
  rw [Document.ofValue, JsonInteger.ofInt?, dif_pos ⟨least, small⟩]
  simp [count?]

theorem Descriptor.statesType_of_rows {fields : List (String × Document)} {type : TypeRules} (found : ∀ row ∈ type.rows, fields.lookup row.1 = row.2) :
    StatesType fields type := by
  simp only [TypeRules.rows, List.forall_mem_cons] at found
  obtain ⟨tag, instance?, instances?, keepOrder, keepLength, _⟩ := found
  refine ⟨?_, ?_, ?_, ?_, ?_⟩
  · rw [tag]
    rfl
  · rw [instance?]
    exact rel_map fun name _ => rfl
  · rw [instances?]
    exact rel_map fun names _ => classNames?_eq_some_iff.2 rfl
  · rw [keepOrder]
    rfl
  · rw [keepLength]
    rfl

theorem Document.uniqueKeys_ofValues (items : List Value) : (Document.array (Document.ofValues items)).UniqueKeys := by
  rw [Document.ofValues_eq]
  exact .array (List.forall_mem_map.2 fun v _ => Document.uniqueKeys_ofValue v)

theorem Document.uniqueKeys_present {rows : List (String × Option Document)} (distinct : (rows.map Prod.fst).Nodup)
    (each : ∀ row ∈ rows, ∀ d, row.2 = some d → d.UniqueKeys) : (Document.object (Fields.present rows)).UniqueKeys := by
  refine .object (distinct.sublist (Fields.keys_present rows)) fun field member => ?_
  exact each _ (Fields.mem_present.1 member) field.2 rfl

theorem Document.uniqueKeys_of_map {α : Type} {write : α → Document} {a? : Option α}
    (unique : ∀ a, a? = some a → (write a).UniqueKeys) : ∀ d, a?.map write = some d → d.UniqueKeys := by
  intro d found
  obtain ⟨a, stated, rfl⟩ := Option.map_eq_some_iff.1 found
  exact unique a stated

theorem TypeRules.uniqueKeys_rows (type : TypeRules) : ∀ row ∈ type.rows, ∀ d, row.2 = some d → d.UniqueKeys := by
  simp only [TypeRules.rows, List.forall_mem_cons, Option.some.injEq, forall_eq']
  refine ⟨.string _, Document.uniqueKeys_of_map fun _ _ => .string _, Document.uniqueKeys_of_map fun names _ => ?_,
    .bool _, .bool _, nofun⟩
  exact .array (List.forall_mem_map.2 fun name _ => .string name)

section

variable [RegexEngine] {ν : Type}

/-- The text that an expression is read off. It stands between slashes, so that an expression that
looks like a marker itself is not taken for one. -/
def Regex.written (r : Regex) : String := if r.source = "" then "" else "/" ++ r.source ++ "/"

theorem Descriptor.regex_written (r : Regex) : regex r.written = .ok r := by
  unfold Regex.written
  split
  · next empty =>
    have plain : KeyPattern.ofMarker? "" = none := by rfl
    simp only [regex, plain]
    rw [← empty, Regex.compile_source]
    rfl
  · next inhabited =>
    let p : KeyPattern := ⟨r.source, "", inhabited, rfl⟩
    have marker : KeyPattern.ofMarker? ("/" ++ r.source ++ "/") = some p := by
      rw [← KeyPattern.ofMarker?_marker p, KeyPattern.marker, String.append_empty]
    simp only [regex, marker, KeyPattern.compile]
    have expression : p.expression = r.source := rfl
    rw [expression, Regex.compile_source]
    rfl

def Rules.rows (r : Rules ν) : List (String × Option Document) :=
  [("nullable", some (.bool r.nullable)),
    ("optional", some (.bool r.optional)),
    ("defaultValue", r.default?.map .ofValue),
    ("empty", some (.bool r.constraints.allowEmpty)),
    ("min", r.constraints.min?.map fun x => .ofValue (.float x)),
    ("max", r.constraints.max?.map fun x => .ofValue (.float x)),
    ("length", r.constraints.length?.map fun n : Nat => .ofValue (.bigInt n)),
    ("match", r.constraints.pattern?.map fun regex => .string regex.written),
    ("equals", r.constraints.equals?.map .ofValue),
    ("contains", r.constraints.contains?.map fun allowed => .array (Document.ofValues allowed))]

mutual

def Document.ofSchema : Schema ν → Document
  | .shape rules properties =>
    .object (Fields.present ([("properties", some (.object (Document.ofProperties properties)))] ++ rules.rows))
  | .alternation rules members =>
    .object (Fields.present ([("types", some (.array (Document.ofSchemas members)))] ++ rules.rows))
  | .typed rules type items? nested? =>
    .object (Fields.present
      (type.rows ++
        [("items",
          match items? with
          | some items => some (.array (Document.ofSchemas items))
          | none => none),
        ("properties",
          match nested? with
          | some properties => some (.object (Document.ofProperties properties))
          | none => none)] ++ rules.rows))

def Document.ofSchemas : List (Schema ν) → List Document
  | [] => []
  | s :: rest => Document.ofSchema s :: Document.ofSchemas rest

def Document.ofProperties : List (PropertyKey × Schema ν) → List (String × Document)
  | [] => []
  | (key, s) :: rest => (key.written, Document.ofSchema s) :: Document.ofProperties rest

end

theorem Document.ofSchemas_eq (schemas : List (Schema ν)) :
    Document.ofSchemas schemas = schemas.map Document.ofSchema := by
  induction schemas with
  | nil => rfl
  | cons s rest ih => rw [ofSchemas, ih, List.map_cons]

theorem Document.ofProperties_eq (properties : List (PropertyKey × Schema ν)) :
    Document.ofProperties properties = properties.map fun entry => (entry.1.written, Document.ofSchema entry.2) := by
  induction properties with
  | nil => rfl
  | cons entry rest ih => rw [ofProperties, ih, List.map_cons]

theorem Document.ofSchema_typed (rules : Rules ν) (type : TypeRules) (items? : Option (List (Schema ν)))
    (nested? : Option (List (PropertyKey × Schema ν))) :
    Document.ofSchema (.typed rules type items? nested?) =
      .object (Fields.present (type.rows ++
        [("items", items?.map fun items => .array (Document.ofSchemas items)),
        ("properties", nested?.map fun properties => .object (Document.ofProperties properties))] ++ rules.rows)) := by
  cases items? <;> cases nested? <;> rfl

/-- Rules whose data documents can hold. -/
structure Rules.Writable (r : Rules ν) : Prop where
  default : ∀ v, r.default? = some v → v.Representable
  min : ∀ x, r.constraints.min? = some x → x.isFinite = true
  max : ∀ x, r.constraints.max? = some x → x.isFinite = true
  length : ∀ n, r.constraints.length? = some n → n < Nat.pow 2 64
  equals : ∀ v, r.constraints.equals? = some v → v.Representable
  contains : ∀ allowed, r.constraints.contains? = some allowed → ∀ v ∈ allowed, v.Representable
  uncustomized : r.custom? = none

def KeysFromTexts (properties : List (PropertyKey × Schema ν)) : Prop :=
  ∃ texts : List String, texts.Nodup ∧ properties.map Prod.fst = texts.map PropertyKey.ofText

structure Schema.Writable (node : Schema ν) : Prop where
  rules : node.rules.Writable
  keys : ∀ properties, node.properties? = some properties → KeysFromTexts properties

namespace Descriptor

variable {fields : List (String × Document)}

theorem statesRules_of_rows {r : Rules ν} (found : ∀ row ∈ r.rows, fields.lookup row.1 = row.2)
    (writable : r.Writable) : StatesRules fields r := by
  simp only [Rules.rows, List.forall_mem_cons] at found
  obtain ⟨nullable, optional, default, allowEmpty, min, max, length, pattern, equals, contains, _⟩ := found
  refine ⟨?_, ?_, ?_, ?_, ?_, ?_, ?_, ?_, ?_, ?_, writable.uncustomized⟩
  · rw [nullable]
    rfl
  · rw [optional]
    rfl
  · rw [default, map_representable writable.default]
  · rw [allowEmpty]
    rfl
  · rw [min]
    exact rel_map fun x stated => Document.number?_ofValue (writable.min x stated)
  · rw [max]
    exact rel_map fun x stated => Document.number?_ofValue (writable.max x stated)
  · rw [length]
    exact rel_map fun n stated => Document.count?_ofValue (writable.length n stated)
  · rw [pattern]
    exact rel_map fun r _ => ⟨r.written, rfl, regex_written r⟩
  · rw [equals, map_representable writable.equals]
  · rw [contains]
    refine ⟨r.constraints.contains?.map Document.ofValues, ?_, ?_⟩
    · cases r.constraints.contains? with
      | none => exact .none
      | some allowed => exact .some rfl
    · cases stated : r.constraints.contains? with
      | none => rfl
      | some allowed => exact congrArg some (Value.ofItems_ofValues (writable.contains allowed stated))

end Descriptor

theorem Rules.uniqueKeys_rows (r : Rules ν) : ∀ row ∈ r.rows, ∀ d, row.2 = some d → d.UniqueKeys := by
  have values {α : Type} {a? : Option α} (value : α → Value) :
      ∀ d, a?.map (fun a => Document.ofValue (value a)) = some d → d.UniqueKeys :=
    Document.uniqueKeys_of_map fun a _ => Document.uniqueKeys_ofValue (value a)
  simp only [Rules.rows, List.forall_mem_cons, Option.some.injEq, forall_eq']
  refine ⟨.bool _, .bool _, values id, .bool _, values .float, values .float, values fun n : Nat => .bigInt n,
    Document.uniqueKeys_of_map fun _ _ => .string _, values id,
    Document.uniqueKeys_of_map fun allowed _ => Document.uniqueKeys_ofValues allowed, nofun⟩

namespace KeysFromTexts

variable {properties : List (PropertyKey × Schema ν)}

theorem ofText_written (keys : KeysFromTexts properties) {entry : PropertyKey × Schema ν}
    (member : entry ∈ properties) : PropertyKey.ofText entry.1.written = entry.1 := by
  obtain ⟨texts, _, same⟩ := keys
  have listed : entry.1 ∈ texts.map PropertyKey.ofText := same ▸ List.mem_map_of_mem member
  obtain ⟨text, _, read⟩ := List.mem_map.1 listed
  rw [← read, PropertyKey.written_ofText]

theorem nodup_written (keys : KeysFromTexts properties) :
    ((Document.ofProperties properties).map Prod.fst).Nodup := by
  obtain ⟨texts, distinct, same⟩ := keys
  have written : (properties.map Prod.fst).map PropertyKey.written = texts := by
    rw [same, List.map_map]
    exact (List.map_congr_left fun text _ => PropertyKey.written_ofText text).trans (List.map_id' _)
  rw [Document.ofProperties_eq, List.map_map]
  rw [List.map_map] at written
  exact (congrArg List.Nodup written).mpr distinct

end KeysFromTexts

section Rows

variable (rules : Rules ν) (type : TypeRules) (d : Document) (items? nested? : Option Document)

theorem nodup_shapeRows : (([("properties", some d)] ++ rules.rows).map Prod.fst).Nodup := by
  simp [Rules.rows]

theorem nodup_alternationRows : (([("types", some d)] ++ rules.rows).map Prod.fst).Nodup := by
  simp [Rules.rows]

theorem nodup_typedRows :
    ((type.rows ++ [("items", items?), ("properties", nested?)] ++ rules.rows).map Prod.fst).Nodup := by
  simp [Rules.rows, TypeRules.rows]

end Rows

theorem Document.uniqueKeys_ofSchema {s : Schema ν} (writable : s.Everywhere Schema.Writable) :
    (Document.ofSchema s).UniqueKeys := by
  have list {schemas : List (Schema ν)} (each : ∀ s ∈ schemas, (Document.ofSchema s).UniqueKeys) :
      (Document.array (Document.ofSchemas schemas)).UniqueKeys := by
    rw [Document.ofSchemas_eq]
    exact .array (List.forall_mem_map.2 each)
  have keyed {properties : List (PropertyKey × Schema ν)} (keys : KeysFromTexts properties)
      (each : ∀ entry ∈ properties, (Document.ofSchema entry.2).UniqueKeys) :
      (Document.object (Document.ofProperties properties)).UniqueKeys := by
    refine .object keys.nodup_written ?_
    rw [Document.ofProperties_eq]
    exact List.forall_mem_map.2 each
  induction s using Schema.inductDeclared with
  | shape rules properties ih =>
    obtain ⟨own, below⟩ := Schema.everywhere_iff.1 writable
    rw [Schema.everywhereBelow_shape] at below
    refine Document.uniqueKeys_present (nodup_shapeRows rules _) (List.forall_mem_append.2 ⟨?_, rules.uniqueKeys_rows⟩)
    simpa using keyed (own.keys properties rfl) fun entry member => ih entry member (below entry member)
  | alternation rules members ih =>
    obtain ⟨own, below⟩ := Schema.everywhere_iff.1 writable
    rw [Schema.everywhereBelow_alternation] at below
    refine Document.uniqueKeys_present (nodup_alternationRows rules _)
      (List.forall_mem_append.2 ⟨?_, rules.uniqueKeys_rows⟩)
    simpa using list fun s member => ih s member (below s member)
  | typed rules type items? nested? itemsIh nestedIh =>
    obtain ⟨own, below⟩ := Schema.everywhere_iff.1 writable
    obtain ⟨items, nested⟩ := Schema.everywhereBelow_typed.1 below
    rw [Document.ofSchema_typed]
    refine Document.uniqueKeys_present (nodup_typedRows rules type _ _) (List.forall_mem_append.2
      ⟨List.forall_mem_append.2 ⟨type.uniqueKeys_rows, ?_⟩, rules.uniqueKeys_rows⟩)
    refine List.forall_mem_cons.2 ⟨Document.uniqueKeys_of_map fun schemas stated => ?_,
      List.forall_mem_singleton.2 (Document.uniqueKeys_of_map fun properties stated => ?_)⟩
    · subst stated
      exact list fun s member => itemsIh s member (items s member)
    · subst stated
      exact keyed (own.keys properties rfl) fun entry member => nestedIh entry member (nested entry member)

namespace Descriptor

theorem readsList_ofSchemas {schemas : List (Schema ν)} (each : ∀ s ∈ schemas, Loads (Document.ofSchema s) s) :
    ReadsList Loads (.array (Document.ofSchemas schemas)) schemas := by
  refine ⟨_, rfl, ?_⟩
  rw [Document.ofSchemas_eq, List.forall₂_map_left_iff, List.forall₂_same]
  exact each

theorem readsProperties_ofProperties {properties : List (PropertyKey × Schema ν)} (keys : KeysFromTexts properties)
    (each : ∀ entry ∈ properties, Loads (Document.ofSchema entry.2) entry.2) :
    ReadsProperties Loads (.object (Document.ofProperties properties)) properties := by
  refine ⟨_, rfl, ?_⟩
  rw [Document.ofProperties_eq, List.forall₂_map_left_iff, List.forall₂_same]
  exact fun entry member => ⟨keys.ofText_written member, each entry member⟩

theorem loads_ofSchema {s : Schema ν} (writable : s.Everywhere Schema.Writable) : Loads (Document.ofSchema s) s := by
  induction s using Schema.inductDeclared with
  | shape rules properties ih =>
    obtain ⟨own, below⟩ := Schema.everywhere_iff.1 writable
    rw [Schema.everywhereBelow_shape] at below
    have distinct := nodup_shapeRows rules (.object (Document.ofProperties properties))
    have reads := readsProperties_ofProperties (own.keys properties rfl) fun entry member =>
      ih entry member (below entry member)
    have states : StatesRules _ rules := statesRules_of_rows
      (fun row member => Fields.lookup_present_of_mem distinct (List.mem_append_right _ member)) own.rules
    refine loads_iff.2 (.shape ?_ ?_ (Fields.lookup_present_of_mem distinct List.mem_cons_self) reads states)
    · exact Fields.lookup_present_of_not_mem (by simp [Rules.rows])
    · exact Fields.lookup_present_of_not_mem (by simp [Rules.rows])
  | alternation rules members ih =>
    obtain ⟨own, below⟩ := Schema.everywhere_iff.1 writable
    rw [Schema.everywhereBelow_alternation] at below
    have distinct := nodup_alternationRows rules (.array (Document.ofSchemas members))
    have reads := readsList_ofSchemas fun s member => ih s member (below s member)
    have states : StatesRules _ rules := statesRules_of_rows
      (fun row member => Fields.lookup_present_of_mem distinct (List.mem_append_right _ member)) own.rules
    exact loads_iff.2 (.alternation (Fields.lookup_present_of_mem distinct List.mem_cons_self) reads states)
  | typed rules type items? nested? itemsIh nestedIh =>
    obtain ⟨own, below⟩ := Schema.everywhere_iff.1 writable
    obtain ⟨items, nested⟩ := Schema.everywhereBelow_typed.1 below
    rw [Document.ofSchema_typed]
    have distinct := nodup_typedRows rules type (items?.map fun items => .array (Document.ofSchemas items))
      (nested?.map fun properties => .object (Document.ofProperties properties))
    -- The type, the parts and the rules are stated under names of their own, so each is found.
    have found := @Fields.lookup_present_of_mem _ _ distinct
    simp only [List.forall_mem_append, List.forall_mem_cons] at found
    obtain ⟨⟨stated, listed, keyed, _⟩, states⟩ := found
    refine loads_iff.2 (.typed ?_ ?_ (statesType_of_rows stated) ?_ ?_ (statesRules_of_rows states own.rules))
    · exact Fields.lookup_present_of_not_mem (by simp [Rules.rows, TypeRules.rows])
    · intro untyped
      cases (stated _ List.mem_cons_self).symm.trans untyped
    · rw [listed]
      refine rel_map fun schemas same => readsList_ofSchemas fun s member => ?_
      subst same
      exact itemsIh s member (items s member)
    · rw [keyed]
      refine rel_map fun properties same => readsProperties_ofProperties (own.keys properties same) ?_
      subst same
      exact fun entry member => nestedIh entry member (nested entry member)

end Descriptor

/-- Every schema that states only what documents can hold is the schema of a document. -/
theorem Schema.ofDocument_ofSchema {s : Schema ν} (writable : s.Everywhere Schema.Writable) :
    (Document.ofSchema s).UniqueKeys ∧ Schema.ofDocument (Document.ofSchema s) = .ok s :=
  ⟨Document.uniqueKeys_ofSchema writable, Descriptor.loads_ofSchema writable⟩

end

/-- A node with an explicit null for its default, with an empty list of element schemas, with properties
although any type will do, and with an expression of the caller's choice. -/
def ornate (r : Regex) : Schema Empty :=
  .typed { default? := some .null, constraints := { pattern? := some r, min? := some ⟨0⟩, length? := some 3 } }
    { tag := .any } (some []) (some [(.ofText "/^x-/i", .any), (.ofText "x", .alternation {} [])])

theorem ornate_read : ∃ r : Regex, r.source = "/a/i" ∧ (ornate r).Everywhere Schema.Writable ∧
    (Document.ofSchema (ornate r)).UniqueKeys ∧ Schema.ofDocument (Document.ofSchema (ornate r)) = .ok (ornate r) := by
  obtain ⟨r, compiled⟩ : ∃ r, Regex.compile "/a/i" = .ok r := ⟨_, rfl⟩
  have plain : ({} : Rules Empty).Writable := by constructor <;> simp
  have own : (ornate r).Writable := by
    constructor
    · constructor <;> simp [ornate, Schema.rules, Value.Representable, Document.ofValue, Value.ofDocument]
      decide
    · intro properties stated
      cases stated
      exact ⟨["/^x-/i", "x"], by decide, rfl⟩
  have writable : (ornate r).Everywhere Schema.Writable := by
    have nodes : (ornate r).nodes = [ornate r, .any, .alternation {} []] := by rfl
    rw [Schema.Everywhere, nodes]
    simp only [List.forall_mem_cons]
    refine ⟨own, ⟨plain, ?_⟩, ⟨plain, ?_⟩, by simp⟩
    · simp [Schema.any, Schema.ofTag, Schema.properties?]
    · simp [Schema.properties?]
  exact ⟨r, Regex.source_of_compile compiled, writable, Schema.ofDocument_ofSchema writable⟩

end Conform
