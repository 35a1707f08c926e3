import Conform.Proofs.Meaning
import Conform.Value.Entries

/-! A shape is the ordered conjunction of its properties. It accepts a structure if each property
alone does, and otherwise fails as the first property that does not. What the properties store, one
after the other, makes up the matched structure. -/

namespace Conform

/-- What pairs leave behind that are stored one after the other: every key once and in the order in
which it is stored first, with the value that is stored last. -/
structure Collects (pairs stored : List (String × Value)) : Prop where
  nodup : (stored.map Prod.fst).Nodup
  present : ∀ field ∈ stored, field.2.isUndefined = false
  keys : ∀ name, name ∈ stored.map Prod.fst ↔ ∃ pair ∈ pairs, pair.1 = name ∧ pair.2.isUndefined = false
  order : stored.map Prod.fst = distinct ((presentPairs pairs).map Prod.fst)
  last : ∀ name, stored.lookup name = (presentPairs pairs).reverse.lookup name

theorem collects_storeAll (pairs : List (String × Value)) : Collects pairs (storeAll [] pairs) where
  nodup := by
    have none : (([] : List (String × Value)).map Prod.fst).Nodup := List.nodup_nil
    exact nodup_storeAll none pairs
  present field member := (mem_storeAll member).elim (fun none => by cases none) And.right
  keys name := by
    rw [keys_storeAll, List.mem_eraseDups]
    simp [presentPairs, and_comm]
  order := keys_storeAll pairs
  last := lookup_storeAll pairs

section

variable [RegexEngine] {ν : Type} {config : Config} {custom : CustomRules ν}

namespace Context

theorem patternFields_error_iff {p : KeyPattern} {check : Check Id} {fields matched : List (String × Value)}
    {f : Failure} :
    outcome ((direct config custom).patternFields p check fields matched) = .error f ↔
      outcome ((direct config custom).patternFields p check fields []) = .error f := by
  simp only [patternFields, outcome_bind_error, outcome_liftId, reduceCtorEq, false_or, Except.ok.injEq,
    exists_eq_left', direct, Id.run]
  cases p.compile with
  | error e => exact Iff.rfl
  | ok regex =>
    cases selected : fields.filter (regex.isMatch ·.1) with
    | nil =>
      simp only [selected, outcome_bind_error, outcome_pure, reduceCtorEq, and_false, exists_false, or_false]
    | cons field rest =>
      simp only [selected]
      rw [foldlM_error_iff fun _ _ _ => Check.field_error, foldlM_error_iff fun _ _ _ => Check.field_error]

theorem properties_error_iff {entries : List (PropertyKey × Check Id)} {fields : List (String × Value)}
    {f : Failure} :
    outcome ((direct config custom).properties entries fields) = .error f ↔
      ∃ before entry after, entries = before ++ entry :: after ∧
        (∀ earlier ∈ before, ∀ g, outcome ((direct config custom).properties [earlier] fields) ≠ .error g) ∧
        outcome ((direct config custom).properties [entry] fields) = .error f := by
  refine foldlM_error_iff fun matched entry g => ?_
  obtain ⟨key, check⟩ := entry
  simp only [properties, List.foldlM_cons, List.foldlM_nil, bind_pure]
  cases key with
  | literal name => simp only [Check.field_error]
  | pattern p => exact patternFields_error_iff

end Context

theorem validateWith_plainShape {v : Value} {fields : List (String × Value)} (keyed : v.fields? = some fields)
    (properties : List (PropertyKey × Schema ν)) :
    validateWith config custom v (.shape {} properties) =
      (outcome ((Context.direct config custom).properties
        (properties.map fun entry => (entry.1, (Context.direct config custom).check entry.2 1)) fields)).map
        (v.withFields ·) := by
  change outcome ((Context.direct config custom).check _ 0 v) = _
  rw [Context.check_shape, Context.guarded_of_le _ (Nat.zero_le _), Context.shape]
  simp only [Schema.rules, Rules.absentExit?_of_keyed _ keyed, keyed, outcome_bind]
  cases outcome ((Context.direct config custom).properties _ fields) <;> rfl

/-- What one property stores for the fields of a structure: what its schema matches one level down,
for each of the fields that its key selects. -/
def Stores (config : Config) (custom : CustomRules ν) (fields : List (String × Value))
    (entry : PropertyKey × Schema ν) (pairs : List (String × Value)) : Prop :=
  Adds fields entry.1 (fun x => outcome ((Context.direct config custom).check entry.2 1 x)) pairs

theorem plainShape_ok {v w : Value} {fields : List (String × Value)} (keyed : v.fields? = some fields)
    {properties : List (PropertyKey × Schema ν)} :
    validateWith config custom v (.shape {} properties) = .ok w ↔
      ∃ groups, List.Forall₂ (Stores config custom fields) properties groups ∧
        v.withFields (storeAll [] groups.flatten) = w := by
  rw [validateWith_plainShape keyed, map_ok]
  simp only [Context.properties_ok, List.forall₂_map_left_iff]
  constructor
  · intro given
    obtain ⟨_, ⟨groups, each, rfl⟩, same⟩ := given
    exact ⟨groups, each, same⟩
  · intro given
    obtain ⟨groups, each, same⟩ := given
    exact ⟨_, ⟨groups, each, rfl⟩, same⟩

theorem exists_plainShape_ok {v : Value} {fields : List (String × Value)} (keyed : v.fields? = some fields)
    {properties : List (PropertyKey × Schema ν)} :
    (∃ w, validateWith config custom v (.shape {} properties) = .ok w) ↔
      ∀ entry ∈ properties, ∃ pairs, Stores config custom fields entry pairs := by
  simp only [plainShape_ok keyed]
  rw [exists_comm, ← exists_forall₂]
  simp only [exists_and_left, exists_eq', and_true]

theorem plainShape_error {v : Value} {fields : List (String × Value)} (keyed : v.fields? = some fields)
    {properties : List (PropertyKey × Schema ν)} {f : Failure} :
    validateWith config custom v (.shape {} properties) = .error f ↔
      ∃ before entry after, properties = before ++ entry :: after ∧
        (∀ earlier ∈ before, ∃ w, validateWith config custom v (.shape {} [earlier]) = .ok w) ∧
        validateWith config custom v (.shape {} [entry]) = .error f := by
  have alone (entry : PropertyKey × Schema ν) (g : Failure) :
      validateWith config custom v (.shape {} [entry]) = .error g ↔
        outcome ((Context.direct config custom).properties
          [(entry.1, (Context.direct config custom).check entry.2 1)] fields) = .error g := by
    rw [validateWith_plainShape keyed, map_error]
    exact Iff.rfl
  have accepted (entry : PropertyKey × Schema ν) :
      (∃ w, validateWith config custom v (.shape {} [entry]) = .ok w) ↔
        ∀ g, ¬validateWith config custom v (.shape {} [entry]) = .error g := by
    cases validateWith config custom v (.shape {} [entry]) <;> simp
  simp only [accepted, alone]
  rw [validateWith_plainShape keyed, map_error, Context.properties_error_iff]
  constructor
  · intro given
    obtain ⟨_, _, _, split, fine, failed⟩ := given
    obtain ⟨before, entry, after, rfl, rfl, rfl, rfl⟩ := split_of_map split
    exact ⟨before, entry, after, rfl, fun earlier member => fine _ (List.mem_map_of_mem member), failed⟩
  · intro given
    obtain ⟨before, entry, after, rfl, fine, failed⟩ := given
    exact ⟨_, _, _, by rw [List.map_append, List.map_cons], List.forall_mem_map.2 fine, failed⟩

/-- A shape without rules of its own is the conjunction of its properties. -/
theorem validateWith_conjunction {v : Value} {fields : List (String × Value)} (keyed : v.fields? = some fields)
    (properties : List (PropertyKey × Schema ν)) :
    ((∃ w, validateWith config custom v (.shape {} properties) = .ok w) ↔
      ∀ entry ∈ properties, ∃ w, validateWith config custom v (.shape {} [entry]) = .ok w) ∧
    (∀ w, validateWith config custom v (.shape {} properties) = .ok w →
      ∃ groups stored, List.Forall₂ (Stores config custom fields) properties groups ∧
        Collects groups.flatten stored ∧ w = v.withFields stored) ∧
    (∀ f, validateWith config custom v (.shape {} properties) = .error f ↔
      ∃ before entry after, properties = before ++ entry :: after ∧
        (∀ earlier ∈ before, ∃ w, validateWith config custom v (.shape {} [earlier]) = .ok w) ∧
        validateWith config custom v (.shape {} [entry]) = .error f) := by
  refine ⟨?_, fun w matched => ?_, fun f => plainShape_error keyed⟩
  · simp only [exists_plainShape_ok keyed, List.forall_mem_singleton]
  · obtain ⟨groups, each, same⟩ := (plainShape_ok keyed).1 matched
    exact ⟨groups, _, each, collects_storeAll _, same.symm⟩

end

def box : Value := .instanceOf "Box" [("x-b", .int 1), ("x-a", .int 2), ("x-b", .int 3), ("y", .null)]

def boxEntries : List (PropertyKey × Schema Empty) := [(.literal "x-a", .any), (.pattern extension, .any)]

theorem boxEntries_conjunction :
    box.fields? = some [("x-b", .int 1), ("x-a", .int 2), ("x-b", .int 3), ("y", .null)] ∧
    validateWith {} noRules box (.shape {} boxEntries) = .ok (.instanceOf "Box" [("x-a", .int 2), ("x-b", .int 3)]) ∧
    ∃ groups stored,
      List.Forall₂ (Stores {} noRules [("x-b", .int 1), ("x-a", .int 2), ("x-b", .int 3), ("y", .null)])
        boxEntries groups ∧
      Collects groups.flatten stored ∧
      Value.instanceOf "Box" [("x-a", .int 2), ("x-b", .int 3)] = box.withFields stored := by
  have matched : validateWith {} noRules box (.shape {} boxEntries) =
      .ok (.instanceOf "Box" [("x-a", .int 2), ("x-b", .int 3)]) := by rfl
  exact ⟨rfl, matched, (validateWith_conjunction rfl boxEntries).2.1 _ matched⟩

end Conform
