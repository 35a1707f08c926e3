import Conform.Proofs.Levels
import Conform.Schema.Builder

/-! The last rules of a node: equality, enumeration and the custom rule. Whatever kind a node is of, they come after
everything else, they see what the rest of the node has made of a value, and the custom rule has the last word. Where a
missing value is excused, they are not asked at all. -/

namespace Conform

variable [RegexEngine] {ν : Type}

def Rules.withoutLast (rules : Rules ν) : Rules ν :=
  { rules with
    constraints := { rules.constraints with equals? := none, contains? := none }
    custom? := none }

namespace Schema

def withoutLast : Schema ν → Schema ν := mapRules Rules.withoutLast

def tag? : Schema ν → Option TypeTag
  | typed _ type _ _ => some type.tag
  | shape _ _ | alternation _ _ => none

/-- A missing value is excused where the node spares it, unless it has the very type that the node asks for. -/
def Excuses (s : Schema ν) (v : Value) : Prop :=
  s.rules.Spares v ∧ ∀ tag, s.tag? = some tag → tag.accepts v = false

end Schema

section WithoutLast

variable (s : Schema ν)

theorem Schema.rules_withoutLast : s.withoutLast.rules = s.rules.withoutLast := by
  cases s <;> rfl

theorem Schema.excuses_withoutLast {v : Value} : s.withoutLast.Excuses v ↔ s.Excuses v := by
  cases s <;> exact Iff.rfl

theorem Schema.typeExpr_withoutLast : s.withoutLast.typeExpr = s.typeExpr := by
  cases s <;> rfl

theorem Rules.absentExit?_withoutLast (rules : Rules ν) (v : Value) :
    rules.withoutLast.absentExit? v = rules.absentExit? v := rfl

theorem Rules.checkBounds_withoutLast (rules : Rules ν) (tag : TypeTag) (v : Value) :
    rules.withoutLast.constraints.checkBounds tag v = rules.constraints.checkBounds tag v := rfl

theorem Rules.checkPattern_withoutLast (rules : Rules ν) (tag : TypeTag) (v : Value) :
    rules.withoutLast.constraints.checkPattern tag v = rules.constraints.checkPattern tag v := rfl

end WithoutLast

namespace Context

variable (ctx : Context Id ν)

theorem guarded_rest {check rest next : Check Id} {v : Value} (same : check v = rest v >>= next) (depth : Nat) :
    ctx.guarded depth check v = ctx.guarded depth rest v >>= next := by
  unfold guarded
  split
  · rfl
  · exact same

theorem valueRules_of_undeclared {s : Schema ν} (free : s.rules.constraints.equals? = none)
    (unlisted : s.rules.constraints.contains? = none) (uncustomized : s.rules.custom? = none) :
    ctx.valueRules s = pure := by
  funext v
  simp only [valueRules, Constraints.checkEquality, free, Constraints.checkEnumeration, unlisted, uncustomized]
  rfl

theorem valueRules_congr {s s' : Schema ν} (same : s.rules = s'.rules) (uncustomized : s.rules.custom? = none) :
    ctx.valueRules s = ctx.valueRules s' := by
  funext v
  simp only [valueRules, ← same, uncustomized]

theorem valueRules_withoutLast (s : Schema ν) : ctx.valueRules s.withoutLast = pure := by
  apply valueRules_of_undeclared <;> rw [Schema.rules_withoutLast, Rules.withoutLast]

theorem check_of_excuses {s : Schema ν} {v w : Value} (excused : s.Excuses v)
    (exit : s.rules.absentExit? v = some w) (depth : Nat) :
    ctx.check s depth v = ctx.guarded depth (fun _ => pure w) v := by
  cases s with
  | shape rules properties =>
    rw [check_shape]
    unfold guarded shape
    simp only [exit]
  | alternation rules members =>
    rw [check_alternation]
    unfold guarded alternation
    simp only [exit]
  | typed rules type items? nested? =>
    rw [check_typed]
    unfold guarded typed
    simp only [exit, excused.2 type.tag rfl, Bool.false_eq_true, if_false]

section Rest

variable {s : Schema ν} {v : Value}

theorem shape_rest (entries : List (PropertyKey × Check Id)) (present : s.rules.absentExit? v = none) :
    ctx.shape s entries v = ctx.shape s.withoutLast entries v >>= ctx.valueRules s := by
  unfold shape
  simp only [Schema.rules_withoutLast, Rules.absentExit?_withoutLast, present, Schema.typeExpr_withoutLast,
    valueRules_withoutLast]
  cases v.fields? with
  | none => rfl
  | some fields => simp only [bind_assoc, pure_bind]

theorem alternation_rest (members : List (Check Id)) (present : s.rules.absentExit? v = none) :
    ctx.alternation s members v = ctx.alternation s.withoutLast members v >>= ctx.valueRules s := by
  unfold alternation
  simp only [Schema.rules_withoutLast, Rules.absentExit?_withoutLast, present, Schema.typeExpr_withoutLast,
    valueRules_withoutLast, bind_pure]

theorem typed_rest (type : TypeRules) (items : List (Check Id)) (nested? : Option (Check Id))
    (present : type.tag.accepts v = false → s.rules.absentExit? v = none) :
    ctx.typed s type items nested? v = ctx.typed s.withoutLast type items nested? v >>= ctx.valueRules s := by
  unfold typed
  simp only [Schema.rules_withoutLast, Rules.absentExit?_withoutLast, Rules.checkBounds_withoutLast,
    Rules.checkPattern_withoutLast, valueRules_withoutLast, bind_pure]
  cases accepted : type.tag.accepts v with
  | true => by_cases array : type.tag = .array <;> simp only [array, if_true, if_false, bind_assoc, pure_bind]
  | false =>
    simp only [present accepted, Bool.false_eq_true, if_false]
    rfl

end Rest

theorem check_rest {s : Schema ν} {v : Value} (present : ¬s.Excuses v) (depth : Nat) :
    ctx.check s depth v = ctx.check s.withoutLast depth v >>= ctx.valueRules s := by
  have unspared (mistyped : ∀ tag, s.tag? = some tag → tag.accepts v = false) : s.rules.absentExit? v = none := by
    rw [Option.eq_none_iff_forall_ne_some]
    intro w exit
    exact present ⟨Rules.exists_absentExit?.1 ⟨w, exit⟩, mistyped⟩
  cases s with
  | shape rules properties =>
    rw [Schema.withoutLast, Schema.mapRules, check_shape, check_shape]
    exact ctx.guarded_rest (ctx.shape_rest _ (unspared nofun)) depth
  | alternation rules members =>
    rw [Schema.withoutLast, Schema.mapRules, check_alternation, check_alternation]
    exact ctx.guarded_rest (ctx.alternation_rest _ (unspared nofun)) depth
  | typed rules type items? nested? =>
    rw [Schema.withoutLast, Schema.mapRules, check_typed, check_typed]
    refine ctx.guarded_rest (ctx.typed_rest type _ _ fun mistyped => unspared fun tag asked => ?_) depth
    cases asked
    exact mistyped

end Context

/-- What the last rules of a node answer to what the rest of the node has made of a value: a failure of the first
that the value does not satisfy, or else the answer of the custom rule, as it is. -/
inductive LastAnswer (custom : CustomRules ν) (s : Schema ν) (w : Value) : Outcome → Prop where
  | unequal {wanted : Value} (declared : s.rules.constraints.equals? = some wanted)
      (differs : w.strictEq wanted = false) (message : String) :
      LastAnswer custom s w (.error (.here .equality message))
  | unlisted {allowed : List Value}
      (equal : ∀ wanted, s.rules.constraints.equals? = some wanted → w.strictEq wanted = true)
      (declared : s.rules.constraints.contains? = some allowed)
      (differs : ∀ candidate ∈ allowed, w.strictEq candidate = false) (message : String) :
      LastAnswer custom s w (.error (.here .enumeration message))
  | custom {rule : ν} (wants : s.rules.constraints.Wants w) (declared : s.rules.custom? = some rule) :
      LastAnswer custom s w (custom rule w s)
  | matched (wants : s.rules.constraints.Wants w) (undeclared : s.rules.custom? = none) :
      LastAnswer custom s w (.ok w)

theorem Constraints.differs_of_checkEquality {c : Constraints} {v : Value} {f : Failure}
    (failed : c.checkEquality v = .error f) :
    ∃ wanted, c.equals? = some wanted ∧ v.strictEq wanted = false := by
  unfold checkEquality at failed
  grind

theorem Constraints.differs_of_checkEnumeration {c : Constraints} {previewLimit : Nat} {v : Value} {f : Failure}
    (failed : c.checkEnumeration previewLimit v = .error f) :
    ∃ allowed, c.contains? = some allowed ∧ ∀ candidate ∈ allowed, v.strictEq candidate = false := by
  unfold checkEnumeration at failed
  grind

theorem lastAnswer_valueRules (ctx : Context Id ν) (s : Schema ν) (w : Value) :
    LastAnswer ctx.custom s w (outcome (ctx.valueRules s w)) := by
  cases answer : outcome (ctx.valueRules s w) with
  | ok y =>
    obtain ⟨wants, answered⟩ := Context.valueRules_ok.1 answer
    rw [← answered]
    cases declared : s.rules.custom? with
    | some rule => exact .custom wants declared
    | none => exact .matched wants declared
  | error f =>
    rcases Context.valueRules_error.1 answer with failed | ⟨equal, failed | ⟨listed, rule, declared, rejected⟩⟩
    · obtain ⟨message, rfl⟩ := Constraints.checkEquality_error failed
      obtain ⟨wanted, declared, differs⟩ := Constraints.differs_of_checkEquality failed
      exact .unequal declared differs message
    · obtain ⟨message, rfl⟩ := Constraints.checkEnumeration_error failed
      obtain ⟨allowed, declared, differs⟩ := Constraints.differs_of_checkEnumeration failed
      exact .unlisted (Constraints.checkEquality_ok.1 equal) declared differs message
    · rw [← rejected]
      exact .custom ⟨Constraints.checkEquality_ok.1 equal, Constraints.checkEnumeration_ok.1 listed⟩ declared

theorem validateWith_of_excuses (config : Config) (custom : CustomRules ν) {s : Schema ν} {v w : Value}
    (excused : s.Excuses v) (exit : s.rules.absentExit? v = some w) : validateWith config custom v s = .ok w := by
  change outcome ((Context.direct config custom).check s 0 v) = .ok w
  rw [Context.check_of_excuses _ excused exit, Context.guarded_of_le _ (Nat.zero_le _)]
  rfl

theorem validateWith_rest (config : Config) (custom : CustomRules ν) {s : Schema ν} {v : Value}
    (present : ¬s.Excuses v) :
    validateWith config custom v s = validateWith config custom v s.withoutLast >>= fun w =>
      outcome ((Context.direct config custom).valueRules s w) := by
  change outcome ((Context.direct config custom).check s 0 v) = _
  rw [Context.check_rest _ present, outcome_bind]
  rfl

/-- Equality, enumeration and the custom rule of a node come last. A missing value that is excused has the answer of the
node without them, whatever custom rules mean; a failure of the rest of the node stands; and otherwise they are asked of
what the rest of the node has made of the value. -/
theorem validateWith_last_rules (config : Config) (custom : CustomRules ν) (s : Schema ν) (v : Value) :
    (s.Excuses v → ∀ custom', validateWith config custom' v s = validateWith config custom v s.withoutLast) ∧
    (∀ f, validateWith config custom v s.withoutLast = .error f → validateWith config custom v s = .error f) ∧
    (¬s.Excuses v → ∀ w, validateWith config custom v s.withoutLast = .ok w →
      LastAnswer custom s w (validateWith config custom v s)) := by
  have excusedRest (excused : s.Excuses v) :
      ∃ w, s.rules.absentExit? v = some w ∧ validateWith config custom v s.withoutLast = .ok w := by
    obtain ⟨w, exit⟩ := Rules.exists_absentExit?.2 excused.1
    have exit' : s.withoutLast.rules.absentExit? v = some w := by
      rw [Schema.rules_withoutLast, Rules.absentExit?_withoutLast, exit]
    exact ⟨w, exit, validateWith_of_excuses config custom (s.excuses_withoutLast.2 excused) exit'⟩
  refine ⟨fun excused custom' => ?_, fun f failed => ?_, fun present w matched => ?_⟩
  · obtain ⟨w, exit, matched⟩ := excusedRest excused
    rw [matched, validateWith_of_excuses config custom' excused exit]
  · by_cases excused : s.Excuses v
    · obtain ⟨w, _, matched⟩ := excusedRest excused
      cases matched.symm.trans failed
    · rw [validateWith_rest config custom excused, failed]
      rfl
  · rw [validateWith_rest config custom present, matched]
    exact lastAnswer_valueRules (Context.direct config custom) s w

end Conform
