import Conform.Proofs.JsonValues
import Conform.Proofs.Levels
import Conform.Proofs.Loading
import Conform.Proofs.Meaning

/-! Documents checked against schemas that are documents themselves: the outcome is the value of a
document again. What exists only inside a check, such as an absent value, does not get into it. -/

namespace Conform

def KeepsJson (check : Value → Outcome) : Prop :=
  ∀ v w, v = .undefined ∨ v.IsJson → check v = .ok w → w = v ∨ w.IsJson

namespace KeepsJson

variable {check : Value → Outcome} {v w : Value}

theorem json (keeps : KeepsJson check) (json : v.IsJson) (accepted : check v = .ok w) : w.IsJson := by
  rcases keeps v w (.inr json) accepted with rfl | other
  · exact json
  · exact other

theorem storable (keeps : KeepsJson check) (given : v = .undefined ∨ v.IsJson) (accepted : check v = .ok w) :
    w = .undefined ∨ w.IsJson := by
  rcases keeps v w given accepted with rfl | other
  · exact given
  · exact .inr other

end KeepsJson

section

variable [RegexEngine] {ν : Type} {config : Config} {custom : CustomRules ν}

/-- A node as documents describe it: its default is the value of a document, and no custom rule has
the last word. -/
structure JsonNode (node : Schema ν) : Prop where
  default : ∀ v, node.rules.default? = some v → v.IsJson
  uncustomized : node.rules.custom? = none

theorem jsonNode_any : JsonNode (.any : Schema ν) := ⟨nofun, rfl⟩

namespace JsonNode

variable {s : Schema ν} {v w : Value}

theorem exit (node : JsonNode s) (exit : s.rules.absentExit? v = some w) : w = v ∨ w.IsJson :=
  (Rules.absentExit?_cases exit).imp_right fun ⟨_, declared⟩ => node.default w declared

theorem valueRules (node : JsonNode s)
    (accepted : outcome ((Context.direct config custom).valueRules s v) = .ok w) : w = v := by
  rw [Context.valueRules_ok, node.uncustomized, Except.ok.injEq] at accepted
  exact accepted.2.symm

end JsonNode

section Parts

variable {fields : List (String × Value)} {entries : List (PropertyKey × Check Id)}
  {groups : List (List (String × Value))} {v w : Value}

theorem Adds.storable {key : PropertyKey} {check : Value → Outcome} {pairs : List (String × Value)}
    (adds : Adds fields key check pairs) (keeps : KeepsJson check) (each : ∀ field ∈ fields, field.2.IsJson) :
    ∀ pair ∈ pairs, pair.2 = .undefined ∨ pair.2.IsJson := by
  intro pair member
  cases adds with
  | @literal name _ y accepted =>
    obtain rfl := List.mem_singleton.1 member
    refine keeps.storable ?_ accepted
    cases found : fields.lookup name with
    | none => exact .inl rfl
    | some x => exact .inr (each _ (Fields.mem_of_lookup found))
  | pattern _ kept _ =>
    obtain ⟨field, inside, _, accepted⟩ := exists_of_mem_results kept member
    exact .inr (keeps.json (each field (List.mem_filter.1 inside).1) accepted)

theorem isJson_stored (each : ∀ field ∈ fields, field.2.IsJson)
    (keeps : ∀ entry ∈ entries, KeepsJson fun x => outcome (entry.2 x))
    (adds : List.Forall₂ (fun entry => Adds fields entry.1 fun x => outcome (entry.2 x)) entries groups) :
    (Value.object (storeAll [] groups.flatten)).IsJson := by
  have start : (([] : List (String × Value)).map Prod.fst).Nodup := List.nodup_nil
  refine .object (nodup_storeAll start _) fun field stored => ?_
  rcases mem_storeAll stored with none | ⟨added, present⟩
  · cases none
  · obtain ⟨pairs, member, inside⟩ := List.mem_flatten.1 added
    obtain ⟨entry, declared, adds⟩ := exists_of_mem_results adds member
    rcases adds.storable (keeps entry declared) each field inside with absent | json
    · simp [absent, Value.isUndefined] at present
    · exact json

theorem isJson_structure (given : v = .undefined ∨ v.IsJson) (keyed : v.fields? = some fields)
    (keeps : ∀ entry ∈ entries, KeepsJson fun x => outcome (entry.2 x))
    (adds : List.Forall₂ (fun entry => Adds fields entry.1 fun x => outcome (entry.2 x)) entries groups) :
    (v.withFields (storeAll [] groups.flatten)).IsJson := by
  rcases given with rfl | json
  · cases keyed
  · cases json with
    | object _ each =>
      cases keyed
      exact isJson_stored each keeps adds
    | _ => cases keyed

omit [RegexEngine] in
theorem isJson_elements {type : TypeRules} {items : List (Check Id)} {xs : List Value}
    (each : ∀ x ∈ xs, x.IsJson) (keeps : ∀ check ∈ items, KeepsJson fun x => outcome (check x))
    (accepted : outcome (Context.elements type items (.list xs)) = .ok w) : w.IsJson := by
  obtain ⟨_, ys, rfl, same, elements⟩ := Context.elements_ok.1 accepted
  refine .list fun y member => ?_
  obtain ⟨index, inside, rfl⟩ := List.mem_iff_getElem.1 member
  have asked : xs[index].IsJson := each _ (List.getElem_mem (same ▸ inside))
  have answered := elements index _ _ (List.getElem?_eq_getElem (same ▸ inside)) (List.getElem?_eq_getElem inside)
  rcases Context.element_ok.1 answered with ⟨_, ⟨_, kept⟩ | ⟨check, found, accepted⟩⟩ |
    ⟨_, before, check, after, rfl, _, accepted⟩
  · exact kept ▸ asked
  · exact (keeps check (List.mem_of_getElem? found)).json asked accepted
  · exact (keeps check (by simp)).json asked accepted

end Parts

section Nodes

variable {rules : Rules ν} {type : TypeRules} {items : List (Check Id)} {nested? : Option (Check Id)}

theorem keepsJson_shape {properties : List (PropertyKey × Schema ν)} {entries : List (PropertyKey × Check Id)}
    (node : JsonNode (.shape rules properties)) (keeps : ∀ entry ∈ entries, KeepsJson fun x => outcome (entry.2 x)) :
    KeepsJson fun v => outcome ((Context.direct config custom).shape (.shape rules properties) entries v) := by
  intro v w given accepted
  rcases Context.shape_ok.1 accepted with exit | ⟨_, fields, groups, keyed, adds, rest⟩
  · exact node.exit exit
  · exact .inr (node.valueRules rest ▸ isJson_structure given keyed keeps adds)

theorem keepsJson_alternation {members : List (Schema ν)} {checks : List (Check Id)}
    (node : JsonNode (.alternation rules members)) (keeps : ∀ check ∈ checks, KeepsJson fun x => outcome (check x)) :
    KeepsJson fun v =>
      outcome ((Context.direct config custom).alternation (.alternation rules members) checks v) := by
  intro v w given accepted
  rcases Context.alternation_ok.1 accepted with exit | ⟨_, before, check, after, x, rfl, _, answered, rest⟩
  · exact node.exit exit
  · exact node.valueRules rest ▸ keeps check (by simp) v x given answered

theorem keepsJson_nestedShape {declared : List (PropertyKey × Schema ν)} {entries : List (PropertyKey × Check Id)}
    (keeps : ∀ entry ∈ entries, KeepsJson fun x => outcome (entry.2 x)) :
    KeepsJson fun v => outcome ((Context.direct config custom).nestedShape declared entries v) := by
  intro v w given accepted
  obtain ⟨fields, groups, keyed, adds, rfl⟩ := Context.nestedShape_ok.1 accepted
  exact .inr (isJson_structure given keyed keeps adds)

theorem keepsJson_typed {items? : Option (List (Schema ν))} {declared? : Option (List (PropertyKey × Schema ν))}
    (node : JsonNode (.typed rules type items? declared?))
    (elements : type.tag = .array → ∀ check ∈ items, KeepsJson fun x => outcome (check x))
    (nested : ∀ check, nested? = some check → KeepsJson fun x => outcome (check x)) :
    KeepsJson fun v => outcome
      ((Context.direct config custom).typed (.typed rules type items? declared?) type items nested? v) := by
  intro v w given accepted
  rcases Context.typed_ok.1 accepted with ⟨_, exit⟩ | ⟨right, _, _, _, listed, shaped, list, shape, rest⟩
  · exact node.exit exit
  · obtain rfl := node.valueRules rest
    -- Only a list has elements to replace, and an absent value is none.
    have listed : listed = v ∨ listed.IsJson := by
      split at list
      · next array =>
        have elements := elements array
        rw [array] at right
        rcases given with rfl | json
        · cases right
        · cases json with
          | list each => exact .inr (isJson_elements each elements list)
          | _ => cases right
      · exact .inl list
    cases nested? with
    | none => exact shape ▸ listed
    | some check =>
      rcases listed with rfl | json
      · exact nested check rfl _ _ given shape
      · exact .inr ((nested check rfl).json json shape)

end Nodes

/-- At any depth, schemas as documents describe them keep to the values of documents. -/
theorem keepsJson_check {s : Schema ν} (described : s.Everywhere JsonNode) (depth : Nat) :
    KeepsJson fun v => outcome ((Context.direct config custom).check s depth v) := by
  have guarded {check : Check Id} (keeps : KeepsJson fun v => outcome (check v)) (depth : Nat) :
      KeepsJson fun v => outcome ((Context.direct config custom).guarded depth check v) :=
    fun v w given accepted => keeps v w given (Context.guarded_ok.1 accepted).2
  induction s generalizing depth with
  | shape rules properties ih =>
    obtain ⟨own, below⟩ := Schema.everywhere_iff.1 described
    rw [Schema.everywhereBelow_shape] at below
    rw [Context.check_shape]
    refine guarded (keepsJson_shape own (List.forall_mem_map.2 fun entry member => ?_)) depth
    exact ih entry member (below entry member) (depth + 1)
  | alternation rules members ih =>
    obtain ⟨own, below⟩ := Schema.everywhere_iff.1 described
    rw [Schema.everywhereBelow_alternation] at below
    rw [Context.check_alternation]
    refine guarded (keepsJson_alternation own (List.forall_mem_map.2 fun s member => ?_)) depth
    exact ih s member (below s member) (depth + 1)
  | typed rules type items? nested? itemsIh nestedIh =>
    obtain ⟨own, below⟩ := Schema.everywhere_iff.1 described
    rw [Context.check_typed]
    refine guarded (keepsJson_typed own (fun array => List.forall_mem_map.2 fun s member => ?_) ?_) depth
    · exact itemsIh array s member (Schema.everywhere_elementSchema jsonNode_any below member) (depth + 1)
    · intro check found
      obtain ⟨properties, rfl, rfl⟩ := Option.map_eq_some_iff.1 found
      refine keepsJson_nestedShape (List.forall_mem_map.2 fun entry member => ?_)
      exact nestedIh properties rfl entry member ((Schema.everywhereBelow_typed.1 below).2 entry member) (depth + 2)

namespace Descriptor

theorem StatesRules.jsonNode {fields : List (String × Document)} {node : Schema ν}
    (unique : (Document.object fields).UniqueKeys) (states : StatesRules fields node.rules) : JsonNode node := by
  refine ⟨fun v declared => ?_, states.uncustomized⟩
  rw [← states.default?] at declared
  obtain ⟨d, found, rfl⟩ := Option.map_eq_some_iff.1 declared
  exact Value.isJson_ofDocument (unique.of_lookup found)

theorem Loads.everywhere_jsonNode {d : Document} {s : Schema ν} (loaded : Loads d s) :
    d.UniqueKeys → s.Everywhere JsonNode := by
  have list {d : Document} {schemas : List (Schema ν)} (unique : d.UniqueKeys)
      (reads : ReadsList (fun d s => Loads d s ∧ (d.UniqueKeys → s.Everywhere JsonNode)) d schemas) :
      ∀ s ∈ schemas, s.Everywhere JsonNode := by
    obtain ⟨items, rfl, each⟩ := reads
    intro s member
    obtain ⟨inner, inside, _, described⟩ := exists_of_mem_results each member
    exact described (Document.uniqueKeys_array.1 unique inner inside)
  have keyed {d : Document} {entries : List (PropertyKey × Schema ν)} (unique : d.UniqueKeys)
      (reads : ReadsProperties (fun d s => Loads d s ∧ (d.UniqueKeys → s.Everywhere JsonNode)) d entries) :
      ∀ entry ∈ entries, entry.2.Everywhere JsonNode := by
    obtain ⟨fields, rfl, each⟩ := reads
    intro entry member
    obtain ⟨field, inside, _, _, described⟩ := exists_of_mem_results each member
    exact described ((Document.uniqueKeys_object.1 unique).2 field inside)
  refine Loads.induct (motive := fun d s => d.UniqueKeys → s.Everywhere JsonNode) (fun d s reads unique => ?_) loaded
  cases reads with
  | alternation types each states =>
    refine Schema.everywhere_iff.2 ⟨states.jsonNode unique, Schema.everywhereBelow_alternation.2 ?_⟩
    exact list (unique.of_lookup types) each
  | shape _ _ found each states =>
    refine Schema.everywhere_iff.2 ⟨states.jsonNode unique, Schema.everywhereBelow_shape.2 ?_⟩
    exact keyed (unique.of_lookup found) each
  | @typed fields _ _ _ _ _ _ _ items nested states =>
    refine Schema.everywhere_iff.2 ⟨states.jsonNode unique, Schema.everywhereBelow_typed.2 ⟨?_, ?_⟩⟩
    · generalize found : fields.lookup "items" = d? at items
      cases items with
      | none => nofun
      | some each => exact list (unique.of_lookup found) each
    · generalize found : fields.lookup "properties" = d? at nested
      cases nested with
      | none => nofun
      | some each => exact keyed (unique.of_lookup found) each

end Descriptor

/-- The value of a document, accepted by a schema that is a document, becomes the value of a document,
and the way to a document and back does not change it. -/
theorem validateWith_json {j d : Document} {s : Schema ν} {w : Value} (data : j.UniqueKeys)
    (descriptor : d.UniqueKeys) (loaded : Schema.ofDocument d = .ok s)
    (accepted : validateWith config custom (Value.ofDocument j) s = .ok w) :
    w.IsJson ∧ Value.ofDocument (Document.ofValue w) = w := by
  have described : s.Everywhere JsonNode := Descriptor.Loads.everywhere_jsonNode loaded descriptor
  have json : w.IsJson := (keepsJson_check described 0).json (Value.isJson_ofDocument data) accepted
  exact ⟨json, Value.ofDocument_ofValue json⟩

end

def tally : Document :=
  .object [("properties", .object [
    ("/^x/", .object [("type", .string "any"), ("optional", .bool true)]),
    ("tags", .object [("type", .string "array"), ("items", .array [.object [("type", .string "string")]])]),
    ("extra", .object [("optional", .bool true), ("defaultValue", .object [("deep", .array [.null])])])])]

def tallySchema : Schema Empty :=
  .shape {} [
    (.pattern extension, .typed { optional := true } { tag := .any } none none),
    (.literal "tags", .typed {} { tag := .array } (some [.ofTag .string]) none),
    (.literal "extra",
      .typed { optional := true, default? := some (.object [("deep", .list [.null])]) } { tag := .any } none none)]

def tallied : Document :=
  .object [("x-b", .bool true), ("other", .null), ("tags", .array [.string "a", .string "a"])]

def talliedMatch : Value :=
  .object [("x-b", .bool true), ("tags", .list [.string "a", .string "a"]),
    ("extra", .object [("deep", .list [.null])])]

theorem tally_json : tallied.UniqueKeys ∧ tally.UniqueKeys ∧ Schema.ofDocument tally = .ok tallySchema ∧
    validateWith {} noRules (Value.ofDocument tallied) tallySchema = .ok talliedMatch ∧
    talliedMatch.IsJson ∧ Value.ofDocument (Document.ofValue talliedMatch) = talliedMatch := by
  have data : tallied.UniqueKeys := by simp [tallied]
  have descriptor : tally.UniqueKeys := by simp [tally]
  have loaded : Schema.ofDocument tally = .ok tallySchema := by rfl
  have accepted : validateWith {} noRules (Value.ofDocument tallied) tallySchema = .ok talliedMatch := by rfl
  exact ⟨data, descriptor, loaded, accepted, validateWith_json data descriptor loaded accepted⟩

end Conform
