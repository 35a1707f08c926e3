import Conform.Proofs.Doubles
import Conform.Proofs.Simulation
import Conform.Proofs.ValueTree
import Conform.Regex.Engine

/-! Numbers in two spellings. An integer below `2 ^ 53` and the float that is exactly it are one number to
every rule, so that values which differ only in such spellings are checked with the same result. -/

namespace Conform

/-- The same value up to the spelling of numbers: at any place, an integer below `2 ^ 53` may face the float that is
exactly it, which is never the negative zero. -/
inductive Value.Alike : Value → Value → Prop where
  | same (v : Value) : Alike v v
  | intFloat {i : Int64} {x : Double} (small : i.toInt.natAbs < 2 ^ 53) (represents : x.Represents i.toInt) :
      Alike (.int i) (.float x)
  | floatInt {i : Int64} {x : Double} (small : i.toInt.natAbs < 2 ^ 53) (represents : x.Represents i.toInt) :
      Alike (.float x) (.int i)
  | list {xs ys : List Value} (each : List.Forall₂ Alike xs ys) : Alike (.list xs) (.list ys)
  | object {fields fields' : List (String × Value)} (each : List.Forall₂ (FieldsRelate Alike) fields fields') :
      Alike (.object fields) (.object fields')
  | instanceOf (className : String) {fields fields' : List (String × Value)}
      (each : List.Forall₂ (FieldsRelate Alike) fields fields') :
      Alike (.instanceOf className fields) (.instanceOf className fields')

def SamePlace (f g : Failure) : Prop := f.kind = g.kind ∧ f.path = g.path

theorem failureMatch_samePlace : FailureMatch SamePlace where
  refl _ := ⟨rfl, rfl⟩
  isFatal same := congrArg (· == FailureKind.depthExceeded) same.1
  within token same := ⟨same.1, congrArg (token :: ·) same.2⟩
  relabelled {f g} kind heading same := by
    have fatal : f.isFatal = g.isFatal := congrArg (· == FailureKind.depthExceeded) same.1
    refine ⟨?_, by simpa using same.2⟩
    unfold Failure.relabelled
    rw [fatal]
    split
    · exact same.1
    · rfl

theorem corresponds_rule {rule rule' : Except Failure Unit} {kind : FailureKind} (same : rule = .ok () ↔ rule' = .ok ())
    (fails : ∀ f, rule = .error f → ∃ message, f = .here kind message)
    (fails' : ∀ f, rule' = .error f → ∃ message, f = .here kind message) : Corresponds SamePlace Eq rule rule' := by
  cases rule with
  | ok _ =>
    rw [same.1 rfl]
    exact .ok rfl
  | error f =>
    cases rule' with
    | ok _ => cases same.2 rfl
    | error g =>
      obtain ⟨message, rfl⟩ := fails f rfl
      obtain ⟨message', rfl⟩ := fails' g rfl
      exact .error ⟨rfl, rfl⟩

namespace Value

@[elab_as_elim]
theorem Alike.induct {motive : Value → Value → Prop} (same : ∀ v, motive v v)
    (intFloat : ∀ (i : Int64) (x : Double), i.toInt.natAbs < 2 ^ 53 → x.Represents i.toInt → motive (.int i) (.float x))
    (floatInt : ∀ (i : Int64) (x : Double), i.toInt.natAbs < 2 ^ 53 → x.Represents i.toInt → motive (.float x) (.int i))
    (list : ∀ xs ys, List.Forall₂ motive xs ys → motive (.list xs) (.list ys))
    (object : ∀ fields fields', List.Forall₂ (FieldsRelate motive) fields fields' →
      motive (.object fields) (.object fields'))
    (instanceOf : ∀ className fields fields', List.Forall₂ (FieldsRelate motive) fields fields' →
      motive (.instanceOf className fields) (.instanceOf className fields')) {v w : Value} (alike : v.Alike w) :
    motive v w := by
  have below {fields fields' : List (String × Value)} (each : List.Forall₂ (FieldsRelate Alike) fields fields')
      (ih : ∀ field ∈ fields', ∀ v, v.Alike field.2 → motive v field.2) :
      List.Forall₂ (FieldsRelate motive) fields fields' := by
    refine forall₂_imp_of_mem each fun a b member related => ?_
    obtain ⟨key, values⟩ := related
    exact .mk key (ih _ member _ values)
  induction w generalizing v with
  | int i =>
    cases alike with
    | same => exact same _
    | floatInt small represents => exact floatInt i _ small represents
  | float x =>
    cases alike with
    | same => exact same _
    | intFloat small represents => exact intFloat _ x small represents
  | list ys ih =>
    cases alike with
    | same => exact same _
    | list each => exact list _ _ (forall₂_imp_of_mem each fun v w member values => ih w member values)
  | object fields' ih =>
    cases alike with
    | same => exact same _
    | object each => exact object _ _ (below each fun field member v values => ih field member values)
  | instanceOf className fields' ih =>
    cases alike with
    | same => exact same _
    | instanceOf _ each => exact instanceOf _ _ _ (below each fun field member v values => ih field member values)
  | _ =>
    cases alike
    exact same _

section Equality

variable {mixed : Int64 → Double → Bool}

theorem agreeItems_congr {xs ys : List Value} (each : List.Forall₂ (fun v w => ∀ u, agree mixed v u = agree mixed w u) xs ys)
    (us : List Value) : agreeItems mixed xs us = agreeItems mixed ys us := by
  induction each generalizing us with
  | nil => rfl
  | cons first _ ih =>
    cases us with
    | nil => rfl
    | cons u us => rw [agreeItems, agreeItems, first, ih]

theorem agreeFields_congr {fields fields' : List (String × Value)}
    (each : List.Forall₂ (FieldsRelate fun v w => ∀ u, agree mixed v u = agree mixed w u) fields fields')
    (us : List (String × Value)) : agreeFields mixed fields us = agreeFields mixed fields' us := by
  induction each generalizing us with
  | nil => rfl
  | cons first _ ih =>
    obtain ⟨key, values⟩ := first
    cases us with
    | nil => rfl
    | cons u us =>
      obtain ⟨other, u⟩ := u
      rw [agreeFields, agreeFields, ih]
      exact congrArg (key == other && · && _) (values u)

theorem strictEq_spellings {i : Int64} {x : Double} (small : i.toInt.natAbs < 2 ^ 53) (represents : x.Represents i.toInt)
    (u : Value) : strictEq (.int i) u = strictEq (.float x) u := by
  rw [represents.eq_ofInt small]
  cases u with
  | int k =>
    refine Bool.eq_iff_iff.2 ?_
    change (i == k) = true ↔ (Double.ofInt k.toInt == Double.ofInt i.toInt) = true
    rw [Double.ofInt_beq_ofInt small, beq_iff_eq, Int64.toInt_inj, eq_comm]
  | _ => rfl

theorem Alike.strictEq_eq {v w : Value} (alike : v.Alike w) (u : Value) : v.strictEq u = w.strictEq u := by
  refine Alike.induct (motive := fun v w => ∀ u, v.strictEq u = w.strictEq u) ?same ?intFloat ?floatInt ?list ?object
    ?instanceOf alike u
  case same => exact fun _ _ => rfl
  case intFloat => exact fun _ _ small represents u => strictEq_spellings small represents u
  case floatInt => exact fun _ _ small represents u => (strictEq_spellings small represents u).symm
  case list =>
    intro xs ys each u
    cases u with
    | list us => exact agreeItems_congr each us
    | _ => rfl
  case object =>
    intro fields fields' each u
    cases u with
    | object us => exact agreeFields_congr each us
    | _ => rfl
  case instanceOf =>
    intro className fields fields' each u
    cases u with
    | instanceOf other us => exact congrArg (className == other && ·) (agreeFields_congr each us)
    | _ => rfl

end Equality

namespace Alike

variable {v w : Value}

theorem shape_eq (alike : v.Alike w) : v.shape = w.shape := by
  refine Alike.induct (motive := fun v w => v.shape = w.shape) ?same ?intFloat ?floatInt ?list ?object ?instanceOf alike
  case same => exact fun _ => rfl
  case intFloat | floatInt => exact fun _ _ _ _ => rfl
  case list =>
    intro xs ys each
    have parts : xs.map shape = ys.map shape := by
      rwa [← List.forall₂_eq_eq_eq, List.forall₂_map_left_iff, List.forall₂_map_right_iff]
    rw [shape, shape, shapes_eq, shapes_eq, parts]
  case object =>
    intro fields fields' each
    have parts : (fields.map fun field => field.1 ++ ": " ++ field.2.shape) =
        fields'.map fun field => field.1 ++ ": " ++ field.2.shape := by
      rw [← List.forall₂_eq_eq_eq, List.forall₂_map_left_iff, List.forall₂_map_right_iff]
      exact each.imp fun _ _ related => by rw [related.key, related.value]
    rw [shape, shape, fieldShapes_eq, fieldShapes_eq, parts]
  case instanceOf => exact fun _ _ _ _ => rfl

theorem isWhole_eq (alike : v.Alike w) : v.isWhole = w.isWhole := by
  cases alike with
  | intFloat small represents => exact represents.isWhole.symm
  | floatInt small represents => exact represents.isWhole
  | _ => rfl

theorem number?_eq (alike : v.Alike w) : v.number? = w.number? := by
  cases alike with
  | intFloat small represents => exact congrArg some (represents.eq_ofInt small).symm
  | floatInt small represents => exact congrArg some (represents.eq_ofInt small)
  | _ => rfl

theorem length?_eq (alike : v.Alike w) : v.length? = w.length? := by
  cases alike with
  | list each => exact congrArg some each.length_eq
  | _ => rfl

theorem className?_eq (alike : v.Alike w) : v.className? = w.className? := by
  cases alike <;> rfl

theorem accepts_eq (alike : v.Alike w) (tag : TypeTag) : tag.accepts v = tag.accepts w := by
  cases tag with
  | integer => exact alike.isWhole_eq
  | float | number => exact congrArg Option.isSome alike.number?_eq
  | _ => cases alike <;> rfl

theorem typeMismatch_eq (alike : v.Alike w) (tag : TypeTag) : typeMismatch tag v = typeMismatch tag w := by
  have shape := alike.shape_eq
  cases alike with
  | same => rfl
  | _ => simp only [typeMismatch, shape]

theorem bounds_iff [RegexEngine] (alike : v.Alike w) (c : Constraints) (tag : TypeTag) : c.Bounds tag v ↔ c.Bounds tag w := by
  unfold Constraints.Bounds
  rw [alike.number?_eq, alike.length?_eq]

theorem fields?_related (alike : v.Alike w) :
    Option.Rel (List.Forall₂ (FieldsRelate Alike)) v.fields? w.fields? := by
  cases alike with
  | same =>
    cases v.fields? with
    | none => exact .none
    | some fields => exact .some (List.forall₂_same.2 fun field _ => .mk field.1 (.same field.2))
  | object each | instanceOf _ each => exact .some each
  | _ => exact .none

theorem withFields_related (alike : v.Alike w) {fields fields' : List (String × Value)}
    (each : List.Forall₂ (FieldsRelate Alike) fields fields') : (v.withFields fields).Alike (w.withFields fields') := by
  cases alike with
  | same =>
    cases v with
    | instanceOf className _ => exact .instanceOf className each
    | _ => exact .object each
  | instanceOf className _ => exact .instanceOf className each
  | _ => exact .object each

end Alike

/-- No rule sees how a number is spelled. -/
theorem unseen_alike [RegexEngine] : Unseen SamePlace Alike where
  refl := .same
  absentExit rules alike := by cases alike <;> rfl
  isUndefined alike := by cases alike <;> rfl
  shape := Alike.shape_eq
  accepts tag alike := alike.accepts_eq tag
  typeMismatch tag alike := alike.typeMismatch_eq tag
  bounds c tag alike := by
    refine corresponds_rule ?_ (fun _ => Constraints.checkBounds_error) fun _ => Constraints.checkBounds_error
    rw [Constraints.checkBounds_ok, Constraints.checkBounds_ok, alike.bounds_iff]
  pattern c tag alike := by
    cases alike with
    | same => rfl
    | _ =>
      unfold Constraints.checkPattern
      cases tag <;> cases c.pattern? <;> rfl
  className type alike := by
    unfold TypeRules.checkClass
    rw [alike.className?_eq]
  equality c alike := by
    refine corresponds_rule ?_ (fun _ => Constraints.checkEquality_error) fun _ => Constraints.checkEquality_error
    simp only [Constraints.checkEquality_ok, alike.strictEq_eq]
  fields := Alike.fields?_related
  withFields alike each := alike.withFields_related each
  items alike := by
    cases alike with
    | same => exact List.forall₂_same.2 fun v _ => .same v
    | list each => exact each
  list := .list

end Value

/-- Without custom rules, values that differ only in spellings of numbers are matched to values that differ only in
those, or fail with one kind of failure at one place. -/
theorem validateWith_alike [RegexEngine] {ν : Type} (config : Config) (custom : CustomRules ν) {s : Schema ν}
    (uncustomized : s.Everywhere fun node => node.rules.custom? = none) {v w : Value} (alike : v.Alike w) :
    (∃ a b, validateWith config custom v s = .ok a ∧ validateWith config custom w s = .ok b ∧ a.Alike b) ∨
      ∃ f g, validateWith config custom v s = .error f ∧ validateWith config custom w s = .error g ∧
        f.kind = g.kind ∧ f.path = g.path := by
  let S := Simulation.ofAnswers failureMatch_samePlace
  let ctx := Context.direct config custom
  have settings : S.Settings Value.Alike ctx ctx := by
    refine ⟨Value.unseen_alike, fun c alike => ?_⟩
    refine corresponds_rule ?_ (fun _ => Constraints.checkEnumeration_error) fun _ => Constraints.checkEnumeration_error
    simp only [Constraints.checkEnumeration_ok, alike.strictEq_eq]
  have treats : s.Everywhere (S.Treats Value.Alike ctx ctx) := by
    refine fun node inside => ⟨fun entry _ p _ => S.rel_pure rfl, fun rule found => ?_⟩
    cases (uncustomized node inside).symm.trans found
  have related : Corresponds SamePlace Value.Alike (validateWith config custom v s) (validateWith config custom w s) :=
    Simulation.rel_check settings rfl treats 0 alike
  exact related.ok_or_error

def counted : Schema Empty :=
  .typed {} { tag := .array }
    (some [.typed { constraints := { equals? := some (.float (.ofInt 2)) } } { tag := .float } none none,
      .typed { constraints := { contains? := some [.int 3, .float (.ofInt 4)] } } { tag := .integer } none none]) none

theorem counted_alike :
    (counted.Everywhere fun node => node.rules.custom? = none) ∧
      (Value.list [.int 2, .int 4]).Alike (.list [.float (.ofInt 2), .float (.ofInt 4)]) ∧
      (validateWith {} nofun (.list [.int 2, .int 4]) counted).isOk = true ∧
      ((∃ a b, validateWith {} nofun (.list [.int 2, .int 4]) counted = .ok a ∧
          validateWith {} nofun (.list [.float (.ofInt 2), .float (.ofInt 4)]) counted = .ok b ∧ a.Alike b) ∨
        ∃ f g, validateWith {} nofun (.list [.int 2, .int 4]) counted = .error f ∧
          validateWith {} nofun (.list [.float (.ofInt 2), .float (.ofInt 4)]) counted = .error g ∧
          f.kind = g.kind ∧ f.path = g.path) := by
  have uncustomized : counted.Everywhere fun node => node.rules.custom? = none := by
    refine List.forall_mem_cons.2 ⟨rfl, List.forall_mem_cons.2 ⟨rfl, List.forall_mem_singleton.2 rfl⟩⟩
  have alike : (Value.list [.int 2, .int 4]).Alike (.list [.float (.ofInt 2), .float (.ofInt 4)]) := by
    have two : (Value.int 2).Alike (.float (.ofInt 2)) := .intFloat (by decide) (Double.represents_ofInt (by decide))
    have four : (Value.int 4).Alike (.float (.ofInt 4)) := .intFloat (by decide) (Double.represents_ofInt (by decide))
    exact .list (.cons two (.cons four .nil))
  exact ⟨uncustomized, alike, by decide, validateWith_alike {} nofun uncustomized alike⟩

end Conform

