import Conform.Proofs.Conjunction
import Conform.Proofs.Stability
import Mathlib.Data.List.Perm.Basic

/-! The order of declaration. Properties that select different names put together the same fields in any order, so that
reordering them changes the verdict on a value only where equality or enumeration tell the orders of the fields apart. -/

namespace Conform

section

variable [RegexEngine] {ν : Type} {config : Config} {custom : CustomRules ν}

theorem exists_stores_reordered {properties properties' : List (PropertyKey × Schema ν)}
    (disjoint : properties.Pairwise fun a b => ∀ name, ¬(a.1.Selects name ∧ b.1.Selects name))
    (reordered : properties.Perm properties') {fields : List (String × Value)} {groups : List (List (String × Value))}
    (each : List.Forall₂ (Stores config custom fields) properties groups) :
    ∃ groups', List.Forall₂ (Stores config custom fields) properties' groups' ∧
      (storeAll [] groups.flatten).Perm (storeAll [] groups'.flatten) := by
  obtain ⟨rows, rfl, rfl, separated, stores⟩ :=
    exists_rows (fun s x => outcome ((Context.direct config custom).check s 1 x)) disjoint each
  -- The rows of the table can be put into the new order, too.
  obtain ⟨rows', rfl, perm⟩ : Relation.Comp (· = List.map Prod.fst ·) List.Perm properties' rows := by
    rw [List.eq_map_comp_perm]
    exact reordered.symm
  refine ⟨rows'.map Prod.snd, ?_, ?_⟩
  · rw [List.forall₂_map_left_iff, List.forall₂_map_right_iff, List.forall₂_same]
    exact fun row member => stores row (perm.mem_iff.1 member)
  · rw [← List.flatMap_def, ← List.flatMap_def]
    exact perm_storeAll_rows separated perm.symm

theorem plainShape_reordered {properties properties' : List (PropertyKey × Schema ν)}
    (disjoint : properties.Pairwise fun a b => ∀ name, ¬(a.1.Selects name ∧ b.1.Selects name))
    (reordered : properties.Perm properties') {v w : Value} {fields : List (String × Value)}
    (keyed : v.fields? = some fields) (matched : validateWith config custom v (.shape {} properties) = .ok w) :
    ∃ stored stored', w = v.withFields stored ∧ stored.Perm stored' ∧
      validateWith config custom v (.shape {} properties') = .ok (v.withFields stored') := by
  obtain ⟨groups, each, rfl⟩ := (plainShape_ok keyed).1 matched
  obtain ⟨groups', each', perm⟩ := exists_stores_reordered disjoint reordered each
  exact ⟨_, _, rfl, perm, (plainShape_ok keyed).2 ⟨groups', each', rfl⟩⟩

theorem exists_shape_ok_of_bare {rules : Rules ν} {properties : List (PropertyKey × Schema ν)} {v : Value}
    (bare : v.fields? = none) :
    (∃ w, validateWith config custom v (.shape rules properties) = .ok w) ↔ rules.Spares v := by
  rw [← Rules.exists_absentExit?]
  refine exists_congr fun w => ?_
  change outcome ((Context.direct config custom).check _ 0 v) = .ok w ↔ _
  rw [Context.check_shape, Context.guarded_of_le _ (Nat.zero_le _), Context.shape_ok]
  simp [bare, Schema.rules]

/-- A shape asks the rules about the value of what its properties alone put together. -/
theorem validateWith_shape_of_keyed {rules : Rules ν} {properties : List (PropertyKey × Schema ν)} {v : Value}
    {fields : List (String × Value)} (keyed : v.fields? = some fields) :
    validateWith config custom v (.shape rules properties) =
      validateWith config custom v (.shape {} properties) >>= fun w =>
        outcome ((Context.direct config custom).valueRules (.shape rules properties) w) := by
  change outcome ((Context.direct config custom).check _ 0 v) = _
  rw [validateWith_plainShape keyed, Context.check_shape, Context.guarded_of_le _ (Nat.zero_le _), Context.shape]
  simp only [Schema.rules, Rules.absentExit?_of_keyed _ keyed, keyed, outcome_bind]
  cases outcome ((Context.direct config custom).properties _ fields) <;> rfl

theorem exists_shape_ok_of_keyed {rules : Rules ν} (uncustomized : rules.custom? = none)
    {properties : List (PropertyKey × Schema ν)} {v : Value} {fields : List (String × Value)}
    (keyed : v.fields? = some fields) :
    (∃ w, validateWith config custom v (.shape rules properties) = .ok w) ↔
      ∃ w, validateWith config custom v (.shape {} properties) = .ok w ∧ rules.constraints.Wants w := by
  rw [validateWith_shape_of_keyed keyed]
  cases validateWith config custom v (.shape {} properties) with
  | error f => simp [bind, Except.bind]
  | ok w =>
    simp [bind, Except.bind, Context.valueRules_ok, Schema.rules, uncustomized]

/-- Reordering properties that select different names changes the verdict of a shape exactly where its properties alone
match a structure in both orders and its rules want the fields in one of the two orders only. -/
theorem validateWith_reordered {rules : Rules ν} {properties properties' : List (PropertyKey × Schema ν)}
    (uncustomized : rules.custom? = none) (once : SelectsOnce (.shape rules properties))
    (reordered : properties.Perm properties') (v : Value) :
    ¬((∃ w, validateWith config custom v (.shape rules properties) = .ok w) ↔
        ∃ w, validateWith config custom v (.shape rules properties') = .ok w) ↔
      ∃ stored stored', stored.Perm stored' ∧
        validateWith config custom v (.shape {} properties) = .ok (v.withFields stored) ∧
        validateWith config custom v (.shape {} properties') = .ok (v.withFields stored') ∧
        ¬(rules.constraints.Wants (v.withFields stored) ↔ rules.constraints.Wants (v.withFields stored')) := by
  have disjoint := once properties rfl
  cases keyed : v.fields? with
  | none =>
    -- Without fields, no shape looks at its properties.
    rw [exists_shape_ok_of_bare keyed, exists_shape_ok_of_bare keyed]
    refine iff_of_false (not_not_intro Iff.rfl) fun given => ?_
    obtain ⟨stored, _, _, matched, _⟩ := given
    obtain ⟨_, ⟨⟩⟩ | ⟨_, ⟨⟩⟩ := (exists_shape_ok_of_bare keyed).1 ⟨_, matched⟩
  | some fields =>
    rw [exists_shape_ok_of_keyed uncustomized keyed, exists_shape_ok_of_keyed uncustomized keyed]
    have disjoint' := disjoint.perm reordered fun apart name both => apart name both.symm
    cases matched : validateWith config custom v (.shape {} properties) with
    | error f =>
      have failed' (w : Value) : validateWith config custom v (.shape {} properties') ≠ .ok w := by
        intro matched'
        obtain ⟨_, stored, _, _, again⟩ := plainShape_reordered disjoint' reordered.symm keyed matched'
        cases matched.symm.trans again
      simp [failed']
    | ok w =>
      obtain ⟨stored, stored', rfl, perm, matched'⟩ := plainShape_reordered disjoint reordered keyed matched
      simp only [Except.ok.injEq, exists_eq_left', matched']
      constructor
      · exact fun differ => ⟨stored, stored', perm, rfl, rfl, differ⟩
      · intro given
        obtain ⟨_, _, _, same, same', differ⟩ := given
        rw [same, same']
        exact differ

end

def listedBox : Rules Empty :=
  { constraints := { contains? := some [.instanceOf "Box" [("version", .int 1), ("x-id", .string "7")]] } }

def versionFirst : List (PropertyKey × Schema Empty) :=
  [(.literal "version", versionNumber), (.pattern extension, optionalText)]

theorem listedBox_reordered :
    listedBox.custom? = none ∧ SelectsOnce (.shape listedBox versionFirst) ∧
      versionFirst.Perm versionFirst.reverse ∧
      ¬((∃ w, validateWith {} noRules (.instanceOf "Box" [("x-id", .string "7")])
          (.shape listedBox versionFirst) = .ok w) ↔
        ∃ w, validateWith {} noRules (.instanceOf "Box" [("x-id", .string "7")])
          (.shape listedBox versionFirst.reverse) = .ok w) := by
  have once : SelectsOnce (.shape listedBox versionFirst) := (Schema.everywhere_iff.1 versioned_once).1
  have reordered : versionFirst.Perm versionFirst.reverse := (List.reverse_perm _).symm
  refine ⟨rfl, once, reordered, (validateWith_reordered rfl once reordered _).2
    ⟨[("version", .int 1), ("x-id", .string "7")], _, (List.reverse_perm _).symm, rfl, rfl, fun same => ?_⟩⟩
  -- The rules list the fields in the order of the first declaration only.
  have first : listedBox.constraints.Wants (.instanceOf "Box" [("version", .int 1), ("x-id", .string "7")]) := by
    refine ⟨nofun, fun allowed declared => ?_⟩
    cases declared
    exact ⟨_, List.mem_singleton_self _, by decide⟩
  have wanted := same.1 first
  obtain ⟨candidate, member, equal⟩ := wanted.2 _ rfl
  cases List.mem_singleton.1 member
  exact absurd equal (by decide)

def ordered : Rules Empty :=
  { constraints := { equals? := some (.object [("a", .int 1), ("b", .int 2)]) } }

def letters : List (PropertyKey × Schema Empty) := [(.literal "a", .any), (.literal "b", .any)]

/-- A shape may accept a structure and reject it when its properties change places. -/
theorem letters_told_apart :
    ordered.custom? = none ∧ SelectsOnce (.shape ordered letters) ∧ letters.Perm letters.reverse ∧
      (validateWith {} noRules (.object [("a", .int 1), ("b", .int 2)]) (.shape ordered letters)).isOk = true ∧
      (validateWith {} noRules (.object [("a", .int 1), ("b", .int 2)])
        (.shape ordered letters.reverse)).isOk = false := by
  refine ⟨rfl, fun properties declared => ?_, (List.reverse_perm _).symm, by decide, by decide⟩
  cases declared
  refine .cons (List.forall_mem_singleton.2 fun name both => ?_) (List.pairwise_singleton _ _)
  have same : "a" = "b" := both.1.symm.trans both.2
  exact absurd same (by decide)

end Conform
