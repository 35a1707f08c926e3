import Conform.Json.Value
import Conform.Proofs.Store
import Conform.Proofs.ValueTree

/-! The values that documents stand for: what they are built from, and that the way to a document
and back does not change them. -/

namespace Conform

section Parts

theorem Value.ofItems_eq (items : List Document) : Value.ofItems items = items.map Value.ofDocument := by
  induction items with
  | nil => rfl
  | cons d rest ih => rw [Value.ofItems, ih, List.map_cons]

theorem Value.ofMembers_eq (fields : List (String × Document)) :
    Value.ofMembers fields = fields.map fun field => (field.1, Value.ofDocument field.2) := by
  induction fields with
  | nil => rfl
  | cons field rest ih => rw [Value.ofMembers, ih, List.map_cons]

theorem Document.ofValues_eq (items : List Value) : Document.ofValues items = items.map Document.ofValue := by
  induction items with
  | nil => rfl
  | cons v rest ih => rw [Document.ofValues, ih, List.map_cons]

theorem Document.ofFields_eq (fields : List (String × Value)) :
    Document.ofFields fields = fields.map fun field => (field.1, Document.ofValue field.2) := by
  induction fields with
  | nil => rfl
  | cons field rest ih => rw [Document.ofFields, ih, List.map_cons]

end Parts

namespace Fields

variable {α : Type}

theorem ofPairs_append_singleton (pairs : List (String × α)) (pair : String × α) :
    ofPairs (pairs ++ [pair]) = put pair.1 pair.2 (ofPairs pairs) := by
  rw [ofPairs, List.foldl_append]
  rfl

theorem nodup_ofPairs (pairs : List (String × α)) : ((ofPairs pairs).map Prod.fst).Nodup := by
  induction pairs using List.reverseRecOn with
  | nil => exact List.nodup_nil
  | append_singleton pairs pair ih =>
    rw [ofPairs_append_singleton]
    exact nodup_put pair.1 pair.2 ih

theorem mem_of_mem_ofPairs {pairs : List (String × α)} {field : String × α} (member : field ∈ ofPairs pairs) :
    field ∈ pairs := by
  induction pairs using List.reverseRecOn with
  | nil => exact member
  | append_singleton pairs pair ih =>
    rw [ofPairs_append_singleton] at member
    rcases mem_put member with rfl | early
    · exact List.mem_append_right _ List.mem_cons_self
    · exact List.mem_append_left _ (ih early)

theorem ofPairs_of_nodup {pairs : List (String × α)} (distinct : (pairs.map Prod.fst).Nodup) :
    ofPairs pairs = pairs := by
  induction pairs using List.reverseRecOn with
  | nil => rfl
  | append_singleton pairs pair ih =>
    rw [List.map_append, List.map_singleton] at distinct
    have absent : pair.1 ∉ pairs.map Prod.fst := fun stored =>
      (List.nodup_append.1 distinct).2.2 _ stored _ List.mem_cons_self rfl
    have appended := put_append absent pair.2 []
    rw [List.append_nil] at appended
    rw [ofPairs_append_singleton, ih (List.nodup_append.1 distinct).1, appended, put]

end Fields

inductive Document.UniqueKeys : Document → Prop where
  | null : UniqueKeys .null
  | bool (b : Bool) : UniqueKeys (.bool b)
  | integer (i : JsonInteger) : UniqueKeys (.integer i)
  | float (x : FiniteDouble) : UniqueKeys (.float x)
  | string (s : String) : UniqueKeys (.string s)
  | array {items : List Document} (each : ∀ d ∈ items, UniqueKeys d) : UniqueKeys (.array items)
  | object {fields : List (String × Document)} (distinct : (fields.map Prod.fst).Nodup)
      (each : ∀ field ∈ fields, UniqueKeys field.2) : UniqueKeys (.object fields)

attribute [simp] Document.UniqueKeys.null Document.UniqueKeys.bool Document.UniqueKeys.integer
  Document.UniqueKeys.float Document.UniqueKeys.string

@[simp] theorem Document.uniqueKeys_array {items : List Document} :
    (Document.array items).UniqueKeys ↔ ∀ d ∈ items, d.UniqueKeys :=
  ⟨fun | .array each => each, .array⟩

@[simp] theorem Document.uniqueKeys_object {fields : List (String × Document)} :
    (Document.object fields).UniqueKeys ↔
      (fields.map Prod.fst).Nodup ∧ ∀ field ∈ fields, field.2.UniqueKeys :=
  ⟨fun | .object distinct each => ⟨distinct, each⟩, fun ⟨distinct, each⟩ => .object distinct each⟩

theorem Document.UniqueKeys.of_lookup {fields : List (String × Document)} {name : String} {d : Document}
    (unique : (Document.object fields).UniqueKeys) (found : fields.lookup name = some d) : d.UniqueKeys :=
  (Document.uniqueKeys_object.1 unique).2 _ (Fields.mem_of_lookup found)

/-- A value built only from what documents hold: nothing absent, no symbols, functions or instances,
only finite floats, wide integers only where they are needed, and no repeated keys. -/
inductive Value.IsJson : Value → Prop where
  | null : IsJson .null
  | bool (b : Bool) : IsJson (.bool b)
  | int (i : Int64) : IsJson (.int i)
  | float {x : Double} (finite : x.isFinite = true) : IsJson (.float x)
  | bigInt {i : Int} (wide : Int.pow 2 63 ≤ i) (fits : i < Int.pow 2 64) : IsJson (.bigInt i)
  | string (s : String) : IsJson (.string s)
  | list {items : List Value} (each : ∀ v ∈ items, IsJson v) : IsJson (.list items)
  | object {fields : List (String × Value)} (distinct : (fields.map Prod.fst).Nodup)
      (each : ∀ field ∈ fields, IsJson field.2) : IsJson (.object fields)

theorem Document.uniqueKeys_ofValue (v : Value) : (Document.ofValue v).UniqueKeys := by
  have keyed {fields : List (String × Value)} (each : ∀ field ∈ fields, (Document.ofValue field.2).UniqueKeys) :
      (Document.object (Fields.ofPairs (Document.ofFields fields))).UniqueKeys := by
    refine .object (Fields.nodup_ofPairs _) fun field member => ?_
    rw [Document.ofFields_eq] at member
    obtain ⟨source, inside, rfl⟩ := List.mem_map.1 (Fields.mem_of_mem_ofPairs member)
    exact each source inside
  induction v with
  | undefined | null | function => exact .null
  | bool b => exact .bool b
  | int i => exact .integer _
  | float x =>
    rw [Document.ofValue]
    split
    · exact .float _
    · exact .null
  | bigInt i =>
    rw [Document.ofValue]
    split
    · exact .integer _
    · exact .string _
  | string | symbol => exact .string _
  | list items ih =>
    rw [Document.ofValue, Document.ofValues_eq]
    exact .array (List.forall_mem_map.2 ih)
  | object fields ih => exact keyed ih
  | instanceOf className fields ih => exact keyed ih

theorem Value.isJson_ofDocument {d : Document} (unique : d.UniqueKeys) : (Value.ofDocument d).IsJson := by
  induction unique with
  | null => exact .null
  | bool b => exact .bool b
  | integer i =>
    rw [Value.ofDocument]
    split
    · exact .int _
    · next wide => exact .bigInt (Int.not_lt.1 wide) i.lt_limit
  | float x => exact .float x.2
  | string s => exact .string s
  | array each ih =>
    rw [Value.ofDocument, Value.ofItems_eq]
    exact .list (List.forall_mem_map.2 ih)
  | object distinct each ih =>
    rw [Value.ofDocument, Value.ofMembers_eq]
    refine .object ?_ (List.forall_mem_map.2 ih)
    simpa [List.map_map, Function.comp_def] using distinct

theorem Value.ofDocument_ofValue {v : Value} (json : v.IsJson) :
    Value.ofDocument (Document.ofValue v) = v := by
  induction json with
  | null | bool | string => rfl
  | int i =>
    have small : i.toInt < Int.pow 2 63 := Int64.toInt_lt i
    rw [Document.ofValue, Value.ofDocument, JsonInteger.ofInt64, if_pos small, Int64.ofInt_toInt]
  | float finite => rw [Document.ofValue, dif_pos finite, Value.ofDocument]
  | @bigInt i wide fits =>
    have least : -Int.pow 2 63 ≤ i := Int.le_trans (by decide) wide
    rw [Document.ofValue, JsonInteger.ofInt?, dif_pos ⟨least, fits⟩]
    exact if_neg (Int.not_lt.2 wide)
  | list each ih =>
    rw [Document.ofValue, Value.ofDocument, Document.ofValues_eq, Value.ofItems_eq, List.map_map]
    exact congrArg Value.list ((List.map_congr_left ih).trans (List.map_id' _))
  | @object fields distinct each ih =>
    have kept : ((Document.ofFields fields).map Prod.fst).Nodup := by
      rw [Document.ofFields_eq]
      simpa [List.map_map, Function.comp_def] using distinct
    rw [Document.ofValue, Value.ofDocument, Fields.ofPairs_of_nodup kept, Document.ofFields_eq,
      Value.ofMembers_eq, List.map_map]
    refine congrArg Value.object ((List.map_congr_left fun field member => ?_).trans (List.map_id' _))
    exact congrArg (Prod.mk field.1) (ih field member)

/-- A value comes back from its document as it was exactly if it is built only from what documents hold. -/
theorem Value.ofDocument_ofValue_eq_iff (v : Value) : Value.ofDocument (Document.ofValue v) = v ↔ v.IsJson := by
  constructor
  · intro same
    rw [← same]
    exact Value.isJson_ofDocument (Document.uniqueKeys_ofValue v)
  · exact Value.ofDocument_ofValue

theorem JsonInteger.ofInt64_ofInt {i : JsonInteger} (small : i.toInt < Int.pow 2 63) :
    JsonInteger.ofInt64 (Int64.ofInt i.toInt) = i := by
  obtain ⟨j, least, limit⟩ := i
  have exact : (Int64.ofInt j).toInt = j := Int64.toInt_ofInt_of_le least small
  simp only [JsonInteger.ofInt64, exact]

theorem Document.ofValue_ofDocument {d : Document} (unique : d.UniqueKeys) :
    Document.ofValue (Value.ofDocument d) = d := by
  induction unique with
  | null | bool | string => rfl
  | integer i =>
    rw [Value.ofDocument]
    split
    · next small => rw [Document.ofValue, JsonInteger.ofInt64_ofInt small]
    · have kept : JsonInteger.ofInt? i.toInt = some i := JsonInteger.ofInt?_eq_some_iff.2 rfl
      rw [Document.ofValue, kept]
  | float x => rw [Value.ofDocument, Document.ofValue, dif_pos x.2]
  | array each ih =>
    rw [Value.ofDocument, Document.ofValue, Value.ofItems_eq, Document.ofValues_eq, List.map_map]
    exact congrArg Document.array ((List.map_congr_left ih).trans (List.map_id' _))
  | @object fields distinct each ih =>
    have same : Document.ofFields (Value.ofMembers fields) = fields := by
      rw [Value.ofMembers_eq, Document.ofFields_eq, List.map_map]
      refine (List.map_congr_left fun field member => ?_).trans (List.map_id' _)
      exact congrArg (Prod.mk field.1) (ih field member)
    rw [Value.ofDocument, Document.ofValue, same, Fields.ofPairs_of_nodup distinct]

/-- A document comes back from its value as it was, integers as integers, floats with their bits and fields in
their order, exactly if its objects repeat no key. -/
theorem Document.ofValue_ofDocument_eq_iff (d : Document) :
    Document.ofValue (Value.ofDocument d) = d ↔ d.UniqueKeys := by
  constructor
  · intro same
    rw [← same]
    exact Document.uniqueKeys_ofValue _
  · exact Document.ofValue_ofDocument

end Conform
