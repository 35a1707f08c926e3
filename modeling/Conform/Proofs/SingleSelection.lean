import Conform.Proofs.LastRules
import Conform.Proofs.Reordering
import Mathlib.Data.List.Nodup

/-! Keys that select one field. A name looks its field up and a marker searches all fields, but where a marker selects
the field of that name alone, the two treat a structure alike, whatever properties stand before and after. -/

namespace Conform

theorem Fields.exists_lookup {α : Type} {fields : List (String × α)} {name : String}
    (present : name ∈ fields.map Prod.fst) : ∃ value, fields.lookup name = some value := by
  obtain ⟨field, member, same⟩ := List.mem_map.1 present
  apply Option.isSome_iff_exists.1
  rw [Option.isSome_iff_ne_none]
  intro missing
  have differs := List.lookup_eq_none_iff.1 missing field member
  exact absurd same.symm (by simpa using differs)

theorem Fields.filter_of_alone {α : Type} {fields : List (String × α)} (distinct : (fields.map Prod.fst).Nodup)
    {name : String} {value : α} (found : fields.lookup name = some value) {select : String → Bool}
    (alone : ∀ key ∈ fields.map Prod.fst, select key = true ↔ key = name) :
    fields.filter (select ·.1) = [(name, value)] := by
  obtain ⟨before, after, rfl, _⟩ := List.lookup_eq_some_iff.1 found
  simp only [List.map_append, List.map_cons, List.nodup_middle, List.nodup_cons, List.mem_append, not_or] at distinct
  have only : select name = true := (alone name (by simp)).2 rfl
  have passed {others : List (String × α)} (absent : name ∉ others.map Prod.fst)
      (inside : ∀ field ∈ others, field ∈ before ++ (name, value) :: after) : others.filter (select ·.1) = [] := by
    apply List.filter_eq_nil_iff.2
    intro field member selected
    have same := (alone field.1 (List.mem_map_of_mem (inside field member))).1 selected
    exact absent (same ▸ List.mem_map_of_mem member)
  rw [List.filter_append, passed distinct.1.1 fun field member => List.mem_append_left _ member, List.nil_append,
    List.filter_cons_of_pos (by exact only),
    passed distinct.1.2 fun field member => List.mem_append_right _ (List.mem_cons_of_mem _ member)]

section

variable [RegexEngine] {ν : Type} {config : Config} {custom : CustomRules ν}

namespace Context

section Alone

variable {p : KeyPattern} {regex : Regex} (compiled : p.compile = .ok regex) {fields : List (String × Value)}
  (distinct : (fields.map Prod.fst).Nodup) {name : String} (present : name ∈ fields.map Prod.fst)
  (alone : ∀ key ∈ fields.map Prod.fst, regex.isMatch key = true ↔ key = name)
include compiled distinct present alone

theorem patternFields_of_alone (check : Check Id) (matched : List (String × Value)) :
    (direct config custom).patternFields p check fields matched =
      check.field matched (name, (fields.lookup name).getD .undefined) := by
  obtain ⟨x, found⟩ := Fields.exists_lookup present
  simp only [patternFields, direct, liftId_bind, Id.run, compiled, Fields.filter_of_alone distinct found alone,
    List.foldlM_cons, List.foldlM_nil, bind_pure, found, Option.getD_some]

theorem properties_of_alone (before after : List (PropertyKey × Check Id)) (check : Check Id) :
    (direct config custom).properties (before ++ (.pattern p, check) :: after) fields =
      (direct config custom).properties (before ++ (.literal name, check) :: after) fields := by
  unfold properties
  rw [List.foldlM_append, List.foldlM_append]
  apply bind_congr
  intro matched
  rw [List.foldlM_cons, List.foldlM_cons]
  simp only [patternFields_of_alone compiled distinct present alone]

end Alone

end Context

/-- In a shape without a custom rule, a marker that selects one field alone can stand for the name of the field. -/
theorem validateWith_alone (config : Config) (custom : CustomRules ν) {rules : Rules ν}
    (uncustomized : rules.custom? = none) {p : KeyPattern} {regex : Regex} (compiled : p.compile = .ok regex)
    {v : Value} {fields : List (String × Value)} (keyed : v.fields? = some fields) (distinct : (fields.map Prod.fst).Nodup)
    {name : String} (present : name ∈ fields.map Prod.fst)
    (alone : ∀ key ∈ fields.map Prod.fst, regex.isMatch key = true ↔ key = name)
    (before after : List (PropertyKey × Schema ν)) (s : Schema ν) :
    validateWith config custom v (.shape rules (before ++ (.pattern p, s) :: after)) =
      validateWith config custom v (.shape rules (before ++ (.literal name, s) :: after)) := by
  have last : (Context.direct config custom).valueRules (.shape rules (before ++ (.pattern p, s) :: after)) =
      (Context.direct config custom).valueRules (.shape rules (before ++ (.literal name, s) :: after)) :=
    Context.valueRules_congr _ rfl uncustomized
  have plain : validateWith config custom v (.shape {} (before ++ (.pattern p, s) :: after)) =
      validateWith config custom v (.shape {} (before ++ (.literal name, s) :: after)) := by
    rw [validateWith_plainShape keyed, validateWith_plainShape keyed]
    simp only [List.map_append, List.map_cons, Context.properties_of_alone compiled distinct present alone]
  rw [validateWith_shape_of_keyed keyed, plain, last, ← validateWith_shape_of_keyed keyed]

end

def versionAndId : List (String × Value) := [("version", .int 1), ("x-id", .string "7")]

theorem listedBox_alone :
    ∃ regex, extension.compile = .ok regex ∧ listedBox.custom? = none ∧
      (Value.instanceOf "Box" versionAndId).fields? = some versionAndId ∧ (versionAndId.map Prod.fst).Nodup ∧
      "x-id" ∈ versionAndId.map Prod.fst ∧
      (∀ key ∈ versionAndId.map Prod.fst, regex.isMatch key = true ↔ key = "x-id") ∧
      validateWith {} noRules (.instanceOf "Box" versionAndId)
          (.shape listedBox ([(.literal "version", versionNumber)] ++ (.pattern extension, optionalText) ::
            [(.literal "x-id", .any)])) =
        validateWith {} noRules (.instanceOf "Box" versionAndId)
          (.shape listedBox ([(.literal "version", versionNumber)] ++ (.literal "x-id", optionalText) ::
            [(.literal "x-id", .any)])) := by
  obtain ⟨regex, compiled⟩ : ∃ regex, extension.compile = .ok regex := ⟨_, rfl⟩
  have alone : ∀ key ∈ versionAndId.map Prod.fst, regex.isMatch key = true ↔ key = "x-id" := by
    cases compiled
    decide
  exact ⟨regex, compiled, rfl, rfl, by decide, by decide, alone,
    validateWith_alone {} noRules rfl compiled rfl (by decide) (by decide) alone _ _ _⟩

end Conform
