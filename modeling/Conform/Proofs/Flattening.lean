import Conform.Proofs.LastRules
import Conform.Proofs.Spellings
import Conform.Proofs.Takeover
import Mathlib.Logic.Relation

/-! Simplifying alternations. A member that is an alternation without rules of its own can be replaced by what it
consists of, and a member that has come before can be left out. The first member to settle the matter for a value stays
the same, and so does the answer, except for the message of a failure, which shows the type. -/

namespace Conform

abbrev SameAnswer : Outcome → Outcome → Prop := Corresponds SamePlace Eq

namespace SameAnswer

variable {x y z : Outcome}

theorem refl (x : Outcome) : SameAnswer x x := failureMatch_samePlace.corresponds_refl x

theorem trans (first : SameAnswer x y) (second : SameAnswer y z) : SameAnswer x z := by
  cases first with
  | ok same =>
    rw [same]
    exact second
  | error matched =>
    cases second with
    | error matched' => exact .error ⟨matched.1.trans matched'.1, matched.2.trans matched'.2⟩

theorem settles_eq (same : SameAnswer x y) : settles x = settles y := by
  cases same with
  | ok => rfl
  | error matched => exact failureMatch_samePlace.isFatal matched

theorem bind (same : SameAnswer x y) (next : Value → Outcome) : SameAnswer (x >>= next) (y >>= next) := by
  cases same with
  | ok same =>
    rw [same]
    exact refl _
  | error matched => exact .error matched

end SameAnswer

/-- The first answers of two lists to settle the matter are the same, or neither list has one. -/
def SettleAlike (answers answers' : List Outcome) : Prop :=
  Option.Rel SameAnswer (answers.find? settles) (answers'.find? settles)

namespace SettleAlike

theorem of_find?_eq {answers answers' : List Outcome} (same : answers.find? settles = answers'.find? settles) :
    SettleAlike answers answers' := by
  unfold SettleAlike
  rw [same]
  cases answers'.find? settles with
  | none => exact .none
  | some answer => exact .some (.refl answer)

theorem refl (answers : List Outcome) : SettleAlike answers answers := of_find?_eq rfl

theorem singleton {answer answer' : Outcome} (same : SameAnswer answer answer') :
    SettleAlike [answer] [answer'] := by
  unfold SettleAlike
  rw [List.find?_singleton, List.find?_singleton, same.settles_eq]
  split
  · exact .some same
  · exact .none

theorem append {first first' second second' : List Outcome} (ahead : SettleAlike first first')
    (rest : SettleAlike second second') : SettleAlike (first ++ second) (first' ++ second') := by
  unfold SettleAlike at ahead rest ⊢
  rw [List.find?_append, List.find?_append]
  generalize first.find? settles = found, first'.find? settles = found' at ahead ⊢
  cases ahead with
  | none => exact rest
  | some same => exact .some same

theorem getD {answers answers' : List Outcome} (alike : SettleAlike answers answers') {none none' : Outcome}
    (same : SameAnswer none none') :
    SameAnswer ((answers.find? settles).getD none) ((answers'.find? settles).getD none') := by
  unfold SettleAlike at alike
  generalize answers.find? settles = found, answers'.find? settles = found' at alike ⊢
  cases alike with
  | none => exact same
  | some settled => exact settled

theorem replaced (before after : List Outcome) {answer : Outcome} {answers : List Outcome}
    (alike : SettleAlike [answer] answers) :
    SettleAlike (before ++ answer :: after) (before ++ answers ++ after) := by
  rw [List.append_assoc]
  apply append (refl before)
  exact append alike (refl after)

theorem repeated {before : List Outcome} {answer : Outcome} (earlier : answer ∈ before) (after : List Outcome) :
    SettleAlike (before ++ answer :: after) (before ++ after) := by
  apply of_find?_eq
  rw [List.find?_append, List.find?_append]
  cases found : before.find? settles with
  | some first => rfl
  | none => rw [List.find?_cons_of_neg (List.find?_eq_none.1 found answer earlier)]

end SettleAlike

theorem mapError_firstAnswer {last : Failure} (mild : last.isFatal = false) (mismatch : Failure)
    (answers : List Outcome) :
    (firstAnswer last answers).mapError (fun f => if f.isFatal then f else mismatch) =
      (answers.find? settles).getD (.error mismatch) := by
  induction answers generalizing last with
  | nil => simp [firstAnswer, Except.mapError, mild]
  | cons first rest ih =>
    cases first with
    | ok w => rfl
    | error f =>
      cases fatal : f.isFatal with
      | true =>
        rw [firstAnswer_fatal fatal, List.find?_cons_of_pos (by exact fatal)]
        simp [Except.mapError, fatal]
      | false => rw [firstAnswer_mild fatal, ih fatal, List.find?_cons_of_neg (by simp [settles, fatal])]

section

variable [RegexEngine] {ν : Type}

/-- Rules that excuse no missing value and are not asked at the end. -/
structure Rules.Transparent (rules : Rules ν) : Prop where
  present : rules.nullable = false
  required : rules.optional = false
  free : rules.constraints.equals? = none
  unlisted : rules.constraints.contains? = none
  uncustomized : rules.custom? = none

theorem Rules.Transparent.absentExit?_eq {rules : Rules ν} (transparent : rules.Transparent) (v : Value) :
    rules.absentExit? v = none := by
  cases v <;> simp [absentExit?, transparent.present, transparent.required]

namespace Schema

inductive Simplifies : List (Schema ν) → List (Schema ν) → Prop where
  | splice (before after : List (Schema ν)) {rules : Rules ν} (members : List (Schema ν))
      (transparent : rules.Transparent) :
      Simplifies (before ++ .alternation rules members :: after) (before ++ members ++ after)
  | drop (before after : List (Schema ν)) {s : Schema ν} (earlier : s ∈ before) :
      Simplifies (before ++ s :: after) (before ++ after)
  | within (before after : List (Schema ν)) {rules : Rules ν} {members members' : List (Schema ν)}
      (uncustomized : rules.custom? = none) (step : Simplifies members members') :
      Simplifies (before ++ .alternation rules members :: after) (before ++ .alternation rules members' :: after)

theorem Simplifies.height_lt {members members' : List (Schema ν)} (step : Simplifies members members') {limit : Nat}
    (fits : ∀ s ∈ members, s.height < limit) : ∀ s ∈ members', s.height < limit := by
  induction step generalizing limit with
  | splice before after members transparent =>
    simp only [List.forall_mem_append, List.forall_mem_cons] at fits ⊢
    obtain ⟨first, here, last⟩ := fits
    refine ⟨⟨first, fun s member => ?_⟩, last⟩
    exact (height_lt_heightOfAll member).trans here
  | drop before after earlier =>
    simp only [List.forall_mem_append, List.forall_mem_cons] at fits ⊢
    exact ⟨fits.1, fits.2.2⟩
  | @within before after rules members members' uncustomized step ih =>
    simp only [List.forall_mem_append, List.forall_mem_cons] at fits ⊢
    have lower : heightOfAll members' ≤ heightOfAll members :=
      heightOfAll_le_iff.2 (ih fun s member => height_lt_heightOfAll member)
    exact ⟨fits.1, lower.trans_lt fits.2.1, fits.2.2⟩

end Schema

namespace Context

variable (ctx : Context Id ν)

theorem outcome_alternation {s : Schema ν} {v : Value} (present : s.rules.absentExit? v = none)
    (checks : List (Check Id)) :
    ∃ message, outcome (ctx.alternation s checks v) =
      ((checks.map fun check => outcome (check v)).find? settles).getD (.error (.here .typeMismatch message)) >>=
        fun w => outcome (ctx.valueRules s w) := by
  have mild : (Failure.here .typeMismatch "").isFatal = false := rfl
  unfold alternation
  simp only [present, outcome_bind, outcome_adapt, Check.firstOf_eq, mapError_firstAnswer mild]
  exact ⟨_, rfl⟩

variable {v : Value}

theorem alternation_alike {rules : Rules ν} (uncustomized : rules.custom? = none) (members members' : List (Schema ν))
    {checks checks' : List (Check Id)}
    (alike : SettleAlike (checks.map fun check => outcome (check v)) (checks'.map fun check => outcome (check v))) :
    SameAnswer (outcome (ctx.alternation (.alternation rules members) checks v))
      (outcome (ctx.alternation (.alternation rules members') checks' v)) := by
  cases exit : rules.absentExit? v with
  | some w =>
    unfold alternation
    simp only [Schema.rules, exit]
    exact .refl _
  | none =>
    obtain ⟨message, answered⟩ := ctx.outcome_alternation (s := .alternation rules members) exit checks
    obtain ⟨message', answered'⟩ := ctx.outcome_alternation (s := .alternation rules members') exit checks'
    have last : ctx.valueRules (.alternation rules members) = ctx.valueRules (.alternation rules members') :=
      ctx.valueRules_congr rfl uncustomized
    rw [answered, answered', last]
    apply SameAnswer.bind
    apply alike.getD
    exact .error ⟨rfl, rfl⟩

theorem alternation_settles {rules : Rules ν} (transparent : rules.Transparent) (members : List (Schema ν))
    (checks : List (Check Id)) :
    SettleAlike [outcome (ctx.alternation (.alternation rules members) checks v)]
      (checks.map fun check => outcome (check v)) := by
  apply SettleAlike.of_find?_eq
  obtain ⟨message, answered⟩ :=
    ctx.outcome_alternation (s := .alternation rules members) (transparent.absentExit?_eq v) checks
  have last : ctx.valueRules (.alternation rules members) = pure :=
    ctx.valueRules_of_undeclared transparent.free transparent.unlisted transparent.uncustomized
  rw [answered, last]
  cases found : (checks.map fun check => outcome (check v)).find? settles with
  | none => rfl
  | some answer =>
    have settled := List.find?_some found
    cases answer with
    | ok w => rfl
    | error f => exact List.find?_cons_of_pos settled

theorem check_alternation_alike {rules : Rules ν} (uncustomized : rules.custom? = none)
    {members members' : List (Schema ν)} (fits : ∀ s ∈ members, s.height < ctx.config.maxDepth)
    (fits' : ∀ s ∈ members', s.height < ctx.config.maxDepth)
    (alike : SettleAlike (members.map fun s => outcome (ctx.check s 0 v))
      (members'.map fun s => outcome (ctx.check s 0 v))) :
    SameAnswer (outcome (ctx.check (.alternation rules members) 0 v))
      (outcome (ctx.check (.alternation rules members') 0 v)) := by
  rw [ctx.check_alternation_of_fits (Schema.heightOfAll_le_iff.2 fits),
    ctx.check_alternation_of_fits (Schema.heightOfAll_le_iff.2 fits')]
  apply ctx.alternation_alike uncustomized
  rw [List.map_map, List.map_map]
  exact alike

theorem simplifies_alike {members members' : List (Schema ν)} (step : Schema.Simplifies members members')
    (fits : ∀ s ∈ members, s.height < ctx.config.maxDepth) (v : Value) :
    SettleAlike (members.map fun s => outcome (ctx.check s 0 v)) (members'.map fun s => outcome (ctx.check s 0 v)) := by
  induction step with
  | splice before after members transparent =>
    have here := (fits _ (List.mem_append_right _ List.mem_cons_self)).le
    simp only [List.map_append, List.map_cons]
    apply SettleAlike.replaced
    rw [ctx.check_alternation_of_fits here]
    have settled := ctx.alternation_settles (v := v) transparent members (members.map (ctx.check · 0))
    rwa [List.map_map] at settled
  | drop before after earlier =>
    simp only [List.map_append, List.map_cons]
    apply SettleAlike.repeated
    exact List.mem_map_of_mem earlier
  | @within before after rules members members' uncustomized step ih =>
    have here := fits _ (List.mem_append_right _ List.mem_cons_self)
    have inside : ∀ s ∈ members, s.height < ctx.config.maxDepth :=
      fun s member => (Schema.height_lt_heightOfAll member).trans here
    -- The step leaves the member its answer, and so leaves the answers around it what they settle.
    have same := ctx.check_alternation_alike uncustomized inside (step.height_lt inside) (ih inside)
    have alike := SettleAlike.replaced (before.map fun s => outcome (ctx.check s 0 v))
      (after.map fun s => outcome (ctx.check s 0 v)) (.singleton same)
    simpa only [List.map_append, List.map_cons, List.append_assoc, List.singleton_append] using alike

end Context

/-- Without a custom rule on it, an alternation and any simplification of it match a value with the same value, or fail
with one kind of failure at one place. -/
theorem validateWith_simplifies (config : Config) (custom : CustomRules ν) {rules : Rules ν}
    (uncustomized : rules.custom? = none) {members members' : List (Schema ν)}
    (simplifies : Relation.ReflTransGen Schema.Simplifies members members')
    (fits : (Schema.alternation rules members).height ≤ config.maxDepth) (v : Value) :
    (∃ w, validateWith config custom v (.alternation rules members) = .ok w ∧
        validateWith config custom v (.alternation rules members') = .ok w) ∨
      ∃ f g, validateWith config custom v (.alternation rules members) = .error f ∧
        validateWith config custom v (.alternation rules members') = .error g ∧ f.kind = g.kind ∧ f.path = g.path := by
  -- A step needs members that fit, and leaves members that fit to the next one.
  have run : (∀ s ∈ members', s.height < config.maxDepth) ∧
      SameAnswer (validateWith config custom v (.alternation rules members))
        (validateWith config custom v (.alternation rules members')) := by
    induction simplifies with
    | refl => exact ⟨Schema.heightOfAll_le_iff.1 fits, .refl _⟩
    | tail _ step ih =>
      obtain ⟨fits, same⟩ := ih
      have alike := (Context.direct config custom).simplifies_alike step fits v
      refine ⟨step.height_lt fits, same.trans ?_⟩
      exact Context.check_alternation_alike _ uncustomized fits (step.height_lt fits) alike
  refine run.2.ok_or_error.imp_left fun matched => ?_
  obtain ⟨w, _, first, second, rfl⟩ := matched
  exact ⟨w, first, second⟩

end

def numberedTwo : Rules Empty :=
  { nullable := true, constraints := { contains? := some [.object [("id", .int 2)]] } }

def nestedSorts : List (Schema Empty) := [enrolled, .oneOf [signed, .oneOf [enrolled, numbered]], numbered]

theorem numberedTwo_simplifies :
    numberedTwo.custom? = none ∧
    Relation.ReflTransGen Schema.Simplifies nestedSorts [enrolled, signed, numbered] ∧
    (Schema.alternation numberedTwo nestedSorts).height ≤ ({} : Config).maxDepth ∧
    validateWith {} noRules (.object [("name", .int 1), ("id", .int 2)]) (.alternation numberedTwo nestedSorts) =
      .ok (.object [("id", .int 2)]) ∧
    validateWith {} noRules (.object [("name", .int 1), ("id", .int 2)])
      (.alternation numberedTwo [enrolled, signed, numbered]) = .ok (.object [("id", .int 2)]) := by
  have plain : ({} : Rules Empty).Transparent := ⟨rfl, rfl, rfl, rfl, rfl⟩
  have simplifies : Relation.ReflTransGen Schema.Simplifies nestedSorts [enrolled, signed, numbered] := by
    apply Relation.ReflTransGen.head (.splice [enrolled] [numbered] [signed, .oneOf [enrolled, numbered]] plain)
    apply Relation.ReflTransGen.head (.splice [enrolled, signed] [numbered] [enrolled, numbered] plain)
    apply Relation.ReflTransGen.head (.drop [enrolled, signed] [numbered, numbered] List.mem_cons_self)
    exact .single (.drop [enrolled, signed, numbered] [] (by simp))
  have fits : (Schema.alternation numberedTwo nestedSorts).height ≤ ({} : Config).maxDepth := by decide
  have nested : validateWith {} noRules (.object [("name", .int 1), ("id", .int 2)])
      (.alternation numberedTwo nestedSorts) = .ok (.object [("id", .int 2)]) := by rfl
  refine ⟨rfl, simplifies, fits, nested, ?_⟩
  rcases validateWith_simplifies {} noRules rfl simplifies fits _ with ⟨w, matched, simplified⟩ | ⟨f, _, failed, -⟩
  · rw [simplified, ← matched, nested]
  · cases nested.symm.trans failed

end Conform
