import Conform.Proofs.LastRules
import Conform.Proofs.Meaning
import Mathlib.Logic.Relation

/-! Adding rules. A node with more rules accepts less, but what it accepts it still matches with the same value, and
what it rejected it still rejects in the same way or by one of the rules that were added. -/

namespace Conform

def Failure.OfAddedRule (f : Failure) : Prop :=
  f.kind ∈ [.range, .pattern, .equality, .enumeration, .arrayLength]

namespace AgreesUnless

theorem of_stricter (kind : FailureKind) {rule rule' : Except Failure Unit}
    (added : kind ∈ [.range, .pattern, .equality, .enumeration, .arrayLength])
    (stricter : rule' = .ok () → rule = .ok ())
    (fails : ∀ f, rule' = .error f → ∃ message, f = .here kind message) :
    AgreesUnless Failure.OfAddedRule rule' rule := by
  cases answer : rule' with
  | ok _ =>
    rw [stricter answer]
    exact refl _
  | error f =>
    obtain ⟨message, rfl⟩ := fails f answer
    exact .inr ⟨_, rfl, added⟩

theorem rule_bind {β : Type} {Excused : Failure → Prop} {rule rule' : Except Failure Unit}
    {next next' : Unit → ExceptT Failure Id β}
    (first : AgreesUnless Excused rule' rule) (later : AgreesUnless Excused (outcome (next' ())) (outcome (next ()))) :
    AgreesUnless Excused (outcome (liftM rule' >>= next')) (outcome (liftM rule >>= next)) := by
  apply bind
  · rw [outcome_liftExcept, outcome_liftExcept]
    exact first
  · exact fun _ => later

end AgreesUnless

theorem Context.elements_extended {type : TypeRules} {keepLength : Bool} (fixed : type.keepLength = true → keepLength = true)
    (items : List (Check Id)) (v : Value) :
    AgreesUnless Failure.OfAddedRule (outcome (elements { type with keepLength := keepLength } items v))
      (outcome (elements type items v)) := by
  cases v with
  | list xs =>
    simp only [elements]
    by_cases wrong : (keepLength && xs.length != items.length) = true
    · rw [if_pos wrong]
      exact .inr ⟨_, rfl, by simp [Failure.OfAddedRule, Failure.here]⟩
    · have right : ¬(type.keepLength && xs.length != items.length) = true := by
        intro failed
        rw [Bool.and_eq_true] at failed wrong
        exact wrong ⟨fixed failed.1, failed.2⟩
      rw [if_neg wrong, if_neg right]
      exact .refl _
  | _ => exact .refl _

section

variable [RegexEngine] {ν : Type}

namespace Constraints

structure Extends (c c' : Constraints) : Prop where
  allowEmpty : c.allowEmpty = false → c'.allowEmpty = false
  min? {limit : Double} : c.min? = some limit → c'.min? = some limit
  max? {limit : Double} : c.max? = some limit → c'.max? = some limit
  length? {size : Nat} : c.length? = some size → c'.length? = some size
  pattern? {pattern : Regex} : c.pattern? = some pattern → c'.pattern? = some pattern
  equals? {wanted : Value} : c.equals? = some wanted → c'.equals? = some wanted
  contains? {allowed : List Value} : c.contains? = some allowed → c'.contains? = some allowed

namespace Extends

variable {c c' : Constraints}

theorem refl (c : Constraints) : c.Extends c := ⟨id, id, id, id, id, id, id⟩

theorem boundsNumber (more : c.Extends c') {x : Double} (bounds : c'.BoundsNumber x) : c.BoundsNumber x := by
  constructor
  · exact fun limit declared => bounds.1 limit (more.min? declared)
  · exact fun limit declared => bounds.2 limit (more.max? declared)

theorem boundsLength (more : c.Extends c') {size : Nat} (bounds : c'.BoundsLength size) : c.BoundsLength size := by
  obtain ⟨sized, filled, lower, upper⟩ := bounds
  refine ⟨?_, ?_, ?_, ?_⟩
  · exact fun wanted declared => sized wanted (more.length? declared)
  · exact fun declared => filled (more.allowEmpty declared)
  · exact fun limit declared => lower limit (more.min? declared)
  · exact fun limit declared => upper limit (more.max? declared)

theorem checkBounds (more : c.Extends c') (tag : TypeTag) (v : Value) :
    AgreesUnless Failure.OfAddedRule (c'.checkBounds tag v) (c.checkBounds tag v) := by
  apply AgreesUnless.of_stricter .range (by decide)
  · rw [checkBounds_ok, checkBounds_ok]
    intro bounds
    constructor
    · exact fun numeric x number => more.boundsNumber (bounds.1 numeric x number)
    · exact fun sized size length => more.boundsLength (bounds.2 sized size length)
  · exact fun f => checkBounds_error

theorem checkPattern (more : c.Extends c') (tag : TypeTag) (v : Value) :
    AgreesUnless Failure.OfAddedRule (c'.checkPattern tag v) (c.checkPattern tag v) := by
  apply AgreesUnless.of_stricter .pattern (by decide)
  · rw [checkPattern_ok, checkPattern_ok]
    exact fun matched tagged pattern text declared => matched tagged pattern text (more.pattern? declared)
  · exact fun f => checkPattern_error

theorem checkEquality (more : c.Extends c') (v : Value) :
    AgreesUnless Failure.OfAddedRule (c'.checkEquality v) (c.checkEquality v) := by
  apply AgreesUnless.of_stricter .equality (by decide)
  · rw [checkEquality_ok, checkEquality_ok]
    exact fun equal wanted declared => equal wanted (more.equals? declared)
  · exact fun f => checkEquality_error

theorem checkEnumeration (more : c.Extends c') (previewLimit : Nat) (v : Value) :
    AgreesUnless Failure.OfAddedRule (c'.checkEnumeration previewLimit v) (c.checkEnumeration previewLimit v) := by
  apply AgreesUnless.of_stricter .enumeration (by decide)
  · rw [checkEnumeration_ok, checkEnumeration_ok]
    exact fun listed allowed declared => listed allowed (more.contains? declared)
  · exact fun f => checkEnumeration_error

end Extends

end Constraints

namespace Schema

/-- The second node asks for what the first one asks for, and its rules possibly say more. -/
inductive Extends : Schema ν → Schema ν → Prop where
  | shape {rules : Rules ν} {c : Constraints} (properties : List (PropertyKey × Schema ν))
      (more : rules.constraints.Extends c) :
      Extends (.shape rules properties) (.shape { rules with constraints := c } properties)
  | alternation {rules : Rules ν} {c : Constraints} (members : List (Schema ν)) (more : rules.constraints.Extends c) :
      Extends (.alternation rules members) (.alternation { rules with constraints := c } members)
  | typed {rules : Rules ν} {c : Constraints} {type : TypeRules} {keepLength : Bool} (items? : Option (List (Schema ν)))
      (nested? : Option (List (PropertyKey × Schema ν))) (more : rules.constraints.Extends c)
      (fixed : type.keepLength = true → keepLength = true) :
      Extends (.typed rules type items? nested?)
        (.typed { rules with constraints := c } { type with keepLength := keepLength } items? nested?)

/-- One step of building that adds a rule: a limit, a length, a pattern or wanted values where a node has none yet, or
the demand that a list is not empty or keeps the length of its schemas. -/
inductive Gains : Schema ν → Schema ν → Prop where
  | min {s : Schema ν} (new : s.rules.constraints.min? = none) (limit : Double) : Gains s (s.min limit)
  | max {s : Schema ν} (new : s.rules.constraints.max? = none) (limit : Double) : Gains s (s.max limit)
  | length {s : Schema ν} (new : s.rules.constraints.length? = none) (size : Nat) : Gains s (s.length size)
  | matching {s : Schema ν} (new : s.rules.constraints.pattern? = none) (pattern : Regex) : Gains s (s.matching pattern)
  | equals {s : Schema ν} (new : s.rules.constraints.equals? = none) (value : Value) : Gains s (s.equals value)
  | contains {s : Schema ν} (new : s.rules.constraints.contains? = none) (values : List Value) :
      Gains s (s.contains values)
  | nonEmpty (s : Schema ν) : Gains s s.nonEmpty
  | keepLength (s : Schema ν) : Gains s s.keepLength

theorem extends_refl (s : Schema ν) : s.Extends s := by
  cases s with
  | shape rules properties => exact .shape properties (.refl _)
  | alternation rules members => exact .alternation members (.refl _)
  | typed rules type items? nested? => exact .typed items? nested? (.refl _) id

theorem extends_mapConstraints {change : Constraints → Constraints} {s : Schema ν}
    (more : s.rules.constraints.Extends (change s.rules.constraints)) : s.Extends (s.mapConstraints change) := by
  cases s with
  | shape rules properties => exact .shape properties more
  | alternation rules members => exact .alternation members more
  | typed rules type items? nested? => exact .typed items? nested? more id

theorem extends_of_gains {s s' : Schema ν} (gains : s.Gains s') : s.Extends s' := by
  cases gains with
  | keepLength =>
    cases s with
    | typed rules type items? nested? => exact .typed items? nested? (.refl _) fun _ => rfl
    | _ => exact extends_refl _
  | _ =>
    apply extends_mapConstraints
    constructor <;> simp_all

theorem Extends.constraints {s s' : Schema ν} (extended : s.Extends s') :
    s.rules.constraints.Extends s'.rules.constraints := by
  cases extended <;> assumption

theorem Extends.absentExit?_eq {s s' : Schema ν} (extended : s.Extends s') (v : Value) :
    s'.rules.absentExit? v = s.rules.absentExit? v := by
  cases extended <;> rfl

theorem Extends.custom?_eq {s s' : Schema ν} (extended : s.Extends s') : s'.rules.custom? = s.rules.custom? := by
  cases extended <;> rfl

end Schema

namespace Context

variable {ctx : Context Id ν}

theorem valueRules_extended {s s' : Schema ν} (more : s.rules.constraints.Extends s'.rules.constraints)
    (uncustomized : s.rules.custom? = none) (uncustomized' : s'.rules.custom? = none) (v : Value) :
    AgreesUnless Failure.OfAddedRule (outcome (ctx.valueRules s' v)) (outcome (ctx.valueRules s v)) := by
  simp only [valueRules, uncustomized, uncustomized']
  apply AgreesUnless.rule_bind (more.checkEquality v)
  apply AgreesUnless.rule_bind (more.checkEnumeration _ v)
  exact .refl _

theorem guarded_agrees {Excused : Failure → Prop} {check check' : Check Id} {v : Value}
    (agrees : AgreesUnless Excused (outcome (check' v)) (outcome (check v))) (depth : Nat) :
    AgreesUnless Excused (outcome (ctx.guarded depth check' v)) (outcome (ctx.guarded depth check v)) := by
  unfold guarded
  split
  · exact .refl _
  · exact agrees

section Nodes

variable {s s' : Schema ν} {v : Value} (exit : s'.rules.absentExit? v = s.rules.absentExit? v)
  (last : ∀ w, AgreesUnless Failure.OfAddedRule (outcome (ctx.valueRules s' w)) (outcome (ctx.valueRules s w)))
include exit last

theorem shape_extended (type : s'.typeExpr = s.typeExpr) (entries : List (PropertyKey × Check Id)) :
    AgreesUnless Failure.OfAddedRule (outcome (ctx.shape s' entries v)) (outcome (ctx.shape s entries v)) := by
  unfold shape
  rw [exit, type]
  split
  · exact .refl _
  · split
    · exact .refl _
    · exact .bind (.refl _) fun matched => last _

theorem alternation_extended (type : s'.typeExpr = s.typeExpr) (members : List (Check Id)) :
    AgreesUnless Failure.OfAddedRule (outcome (ctx.alternation s' members v))
      (outcome (ctx.alternation s members v)) := by
  unfold alternation
  rw [exit, type]
  split
  · exact .refl _
  · exact .bind (.refl _) last

theorem typed_extended (more : s.rules.constraints.Extends s'.rules.constraints) {type : TypeRules} {keepLength : Bool}
    (fixed : type.keepLength = true → keepLength = true) (items : List (Check Id)) (nested? : Option (Check Id)) :
    AgreesUnless Failure.OfAddedRule (outcome (ctx.typed s' { type with keepLength := keepLength } items nested? v))
      (outcome (ctx.typed s type items nested? v)) := by
  have rest (x : Value) : AgreesUnless Failure.OfAddedRule
      (outcome (nested?.elim (pure x) (· x) >>= ctx.valueRules s'))
      (outcome (nested?.elim (pure x) (· x) >>= ctx.valueRules s)) :=
    .bind (.refl _) last
  unfold typed
  rw [exit]
  split
  · apply AgreesUnless.rule_bind (more.checkBounds type.tag v)
    apply AgreesUnless.rule_bind (more.checkPattern type.tag v)
    apply AgreesUnless.rule_bind (.refl _)
    dsimp only
    split
    · exact .bind (elements_extended fixed items v) rest
    · exact .bind (.refl _) rest
  · exact .refl _

end Nodes

theorem check_extended {s s' : Schema ν} (extended : s.Extends s') (uncustomized : s.rules.custom? = none) (depth : Nat)
    (v : Value) :
    AgreesUnless Failure.OfAddedRule (outcome (ctx.check s' depth v)) (outcome (ctx.check s depth v)) := by
  have last (w : Value) :
      AgreesUnless Failure.OfAddedRule (outcome (ctx.valueRules s' w)) (outcome (ctx.valueRules s w)) :=
    valueRules_extended extended.constraints uncustomized (extended.custom?_eq.trans uncustomized) w
  have exit := extended.absentExit?_eq v
  cases extended with
  | shape properties more =>
    rw [check_shape, check_shape]
    exact guarded_agrees (shape_extended exit last rfl _) depth
  | alternation members more =>
    rw [check_alternation, check_alternation]
    exact guarded_agrees (alternation_extended exit last rfl _) depth
  | typed items? nested? more fixed =>
    rw [check_typed, check_typed]
    exact guarded_agrees (typed_extended exit last more fixed _ _) depth

end Context

/-- Adding rules to a node without a custom rule changes no answer, except that a rule of the sort that can be added
may fail. -/
theorem validateWith_gains (config : Config) (custom : CustomRules ν) {s s' : Schema ν}
    (uncustomized : s.rules.custom? = none) (gains : Relation.ReflTransGen Schema.Gains s s') (v : Value) :
    validateWith config custom v s' = validateWith config custom v s ∨
      ∃ f, validateWith config custom v s' = .error f ∧
        f.kind ∈ [.range, .pattern, .equality, .enumeration, .arrayLength] := by
  have run : s'.rules.custom? = none ∧
      AgreesUnless Failure.OfAddedRule (validateWith config custom v s') (validateWith config custom v s) := by
    induction gains with
    | refl => exact ⟨uncustomized, .refl _⟩
    | tail _ step ih =>
      have extended := Schema.extends_of_gains step
      refine ⟨extended.custom?_eq.trans ih.1, .trans ?_ ih.2⟩
      exact Context.check_extended extended ih.1 0 v
  exact run.2

end

def labels : Schema Empty := .array [.string, .integer]

def pairOfLabels : Schema Empty := ((labels.min (.ofNat 2)).keepLength.nonEmpty).equals (.list [.string "a", .int 1])

theorem pairOfLabels_gains :
    labels.rules.custom? = none ∧ Relation.ReflTransGen Schema.Gains labels pairOfLabels ∧
      validateWith {} noRules (.list [.string "a"]) labels = .ok (.list [.string "a"]) ∧
      ∃ f, validateWith {} noRules (.list [.string "a"]) pairOfLabels = .error f ∧
        f.kind ∈ [.range, .pattern, .equality, .enumeration, .arrayLength] := by
  have gains : Relation.ReflTransGen Schema.Gains labels pairOfLabels :=
    .tail (.tail (.tail (.single (.min rfl _)) (.keepLength _)) (.nonEmpty _)) (.equals rfl _)
  have differ : ¬validateWith {} noRules (.list [.string "a"]) pairOfLabels =
      validateWith {} noRules (.list [.string "a"]) labels := by
    intro same
    have verdicts := congrArg Except.isOk same
    revert verdicts
    decide
  exact ⟨rfl, gains, rfl, (validateWith_gains {} noRules rfl gains _).resolve_left differ⟩

end Conform
