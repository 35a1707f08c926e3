import Conform.Proofs.Conjunction
import Conform.Proofs.LastRules

/-! Properties that may be left out. A structure without the field of an optional property is matched with what stands
for the missing value, whatever else the property asks for, unless it asks for the type of missing values itself. -/

namespace Conform

theorem TypeTag.accepts_undefined {tag : TypeTag} : tag.accepts .undefined = true ↔ tag = .undefined := by
  cases tag <;> simp [accepts, Value.isUndefined, Value.isNull, Value.isWhole, Value.number?]

section

variable [RegexEngine] {ν : Type} {config : Config} {custom : CustomRules ν}

/-- The field that stands for one that is left out. It holds the default, unless that is a missing value itself. -/
def Rules.standIn (rules : Rules ν) (name : String) : List (String × Value) :=
  (rules.default?.filter (!·.isUndefined)).toList.map (name, ·)

theorem Rules.store_default (rules : Rules ν) (name : String) :
    store [] name (rules.default?.getD .undefined) = rules.standIn name := by
  unfold store standIn
  cases rules.default? with
  | none => rfl
  | some d => cases absent : d.isUndefined <;> simp [absent, Option.filter, Fields.put]

theorem validateWith_left_out_ok {v w : Value} {fields : List (String × Value)} (keyed : v.fields? = some fields)
    {name : String} (missing : fields.lookup name = none) {s : Schema ν} :
    validateWith config custom v (.shape {} [(.literal name, s)]) = .ok w ↔
      ∃ y, outcome ((Context.direct config custom).check s 1 .undefined) = .ok y ∧
        v.withFields (store [] name y) = w := by
  simp only [plainShape_ok keyed, List.forall₂_cons_left_iff, List.forall₂_nil_left_iff]
  constructor
  · intro given
    obtain ⟨_, ⟨pairs, _, stores, rfl, rfl⟩, rfl⟩ := given
    cases stores with
    | literal accepted =>
      rw [missing] at accepted
      exact ⟨_, accepted, rfl⟩
  · intro given
    obtain ⟨y, accepted, rfl⟩ := given
    refine ⟨_, ⟨_, [], .literal ?_, rfl, rfl⟩, rfl⟩
    rw [missing]
    exact accepted

theorem check_undefined_ok {rules : Rules ν} {type : TypeRules} (tagged : type.tag = .undefined)
    {items? : Option (List (Schema ν))} {nested? : Option (List (PropertyKey × Schema ν))} {depth : Nat}
    (shallow : depth ≤ config.maxDepth) {y : Value} :
    outcome ((Context.direct config custom).check (.typed rules type items? nested?) depth .undefined) = .ok y ↔
      type.classes = [] ∧ nested? = none ∧ rules.constraints.Wants .undefined ∧
        (match rules.custom? with
          | some rule => custom rule .undefined (.typed rules type items? nested?)
          | none => .ok .undefined) = .ok y := by
  have accepted : type.tag.accepts .undefined = true := TypeTag.accepts_undefined.2 tagged
  have bounds : rules.constraints.Bounds type.tag .undefined := ⟨fun _ => nofun, fun _ => nofun⟩
  have matches' : rules.constraints.Matches type.tag .undefined := fun _ _ _ _ => nofun
  have classifies : type.Classifies .undefined ↔ type.classes = [] := by
    simp [TypeRules.Classifies, Value.className?]
  have other : type.tag ≠ .array := by simp [tagged]
  rw [Context.check_typed, Context.guarded_of_le _ shallow, Context.typed_ok]
  simp only [Schema.rules, accepted, bounds, matches', classifies, if_neg other, Context.valueRules_ok, reduceCtorEq,
    false_and, false_or, true_and]
  refine and_congr_right fun _ => ?_
  cases nested? with
  | none =>
    simp only [Option.map_none, Option.elim_none, exists_and_left, exists_eq_left, true_and]
    exact Iff.rfl
  | some properties => simp [Context.nestedShape_ok, Value.fields?]

/-- A missing field of an optional property is no failure, and its default takes its place. The one exception is a node
of the type of missing values: it has no use for a default, and accepts a missing value where its other rules do. -/
theorem validateWith_left_out (deep : 1 ≤ config.maxDepth) {s : Schema ν} (optional : s.rules.optional = true)
    {v : Value} {fields : List (String × Value)} (keyed : v.fields? = some fields) {name : String}
    (missing : fields.lookup name = none) :
    (s.tag? ≠ some .undefined →
      validateWith config custom v (.shape {} [(.literal name, s)]) = .ok (v.withFields (s.rules.standIn name))) ∧
    ∀ rules type items? nested?, s = .typed rules type items? nested? → type.tag = .undefined → ∀ w,
      validateWith config custom v (.shape {} [(.literal name, s)]) = .ok w ↔
        type.classes = [] ∧ nested? = none ∧ rules.constraints.Wants .undefined ∧
          ∃ y, (match rules.custom? with
            | some rule => custom rule .undefined s
            | none => .ok .undefined) = .ok y ∧ v.withFields (store [] name y) = w := by
  constructor
  · intro untagged
    have excused : s.Excuses .undefined := by
      refine ⟨.inl ⟨rfl, optional⟩, fun tag asked => ?_⟩
      rw [← Bool.not_eq_true, TypeTag.accepts_undefined]
      rintro rfl
      exact untagged asked
    have exit : s.rules.absentExit? .undefined = some (s.rules.default?.getD .undefined) := if_pos optional
    rw [validateWith_left_out_ok keyed missing, Context.check_of_excuses _ excused exit, Context.guarded_of_le _ deep]
    exact ⟨_, rfl, by rw [Rules.store_default]⟩
  · intro rules type items? nested? same tagged w
    subst same
    simp only [validateWith_left_out_ok keyed missing, check_undefined_ok tagged deep, and_assoc, exists_and_left]

end

def sealedNote : Schema Unit :=
  .shape
    { optional := true
      default? := some (.string "none")
      constraints := { equals? := some .null }
      custom? := some () }
    [(.literal "text", .any)]

theorem sealedNote_left_out :
    1 ≤ ({} : Config).maxDepth ∧ sealedNote.rules.optional = true ∧ sealedNote.tag? ≠ some .undefined ∧
      (Value.instanceOf "Box" [("y", .null)]).fields? = some [("y", .null)] ∧
      [("y", Value.null)].lookup "note" = none ∧
      validateWith {} rejecting (.instanceOf "Box" [("y", .null)]) (.shape {} [(.literal "note", sealedNote)]) =
        .ok (.instanceOf "Box" [("note", .string "none")]) := by
  have deep : 1 ≤ ({} : Config).maxDepth := by decide
  exact ⟨deep, rfl, nofun, rfl, rfl, (validateWith_left_out deep rfl rfl rfl).1 nofun⟩

def replacedAbsence : Schema Empty :=
  .typed { optional := true, default? := some (.int 5) } { tag := .undefined } none none

def classedAbsence : Schema Empty := .typed { optional := true } { tag := .undefined, instance? := some "X" } none none

/-- A default that is not used, and an optional property that may not be left out. -/
theorem absence_taken_for_present :
    (replacedAbsence.rules.optional = true ∧ replacedAbsence.rules.default? = some (.int 5) ∧
      validateWith {} noRules (.object []) (.shape {} [(.literal "k", replacedAbsence)]) = .ok (.object [])) ∧
    classedAbsence.rules.optional = true ∧
      (validateWith {} noRules (.object []) (.shape {} [(.literal "k", classedAbsence)])).isOk = false :=
  ⟨⟨rfl, rfl, rfl⟩, rfl, by decide⟩

end Conform
