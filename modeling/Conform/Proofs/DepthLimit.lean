import Conform.Proofs.Relating
import Conform.Regex.Engine

/-! Two depth limits. The lower one either changes nothing, or its guard trips: every part of a check
hands the failure of the guard on as it is, up to the path, and none takes it for a rejection. -/

namespace Conform

def Trips (limit : Nat) (f : Failure) : Prop :=
  f.kind = .depthExceeded ∧ f.message = "Maximum schema depth of '" ++ toString limit ++ "' exceeded!"

namespace Trips

variable {limit : Nat} {f : Failure}

theorem isFatal (trips : Trips limit f) : f.isFatal = true := beq_iff_eq.2 trips.1

theorem within (trips : Trips limit f) (token : String) : Trips limit (f.within token) := trips

end Trips

/-- Two computations answer the same, unless the guard of a limit trips in the first. -/
def AgreesUnlessTripped {α : Type} (limit : Nat) (low high : ExceptT Failure Id α) : Prop :=
  outcome low = outcome high ∨ ∃ f, outcome low = .error f ∧ Trips limit f

namespace Context

variable [RegexEngine] {m : Type → Type} [Monad m] {ν : Type}

def limited (ctx : Context m ν) (limit : Nat) : Context m ν :=
  { ctx with config := { ctx.config with maxDepth := limit } }

end Context

namespace AgreesUnlessTripped

variable {α β : Type} {limit : Nat}

theorem refl (x : ExceptT Failure Id α) : AgreesUnlessTripped limit x x := .inl rfl

theorem bind {low high : ExceptT Failure Id α} {next next' : α → ExceptT Failure Id β}
    (first : AgreesUnlessTripped limit low high)
    (later : ∀ a, AgreesUnlessTripped limit (next a) (next' a)) :
    AgreesUnlessTripped limit (low >>= next) (high >>= next') :=
  AgreesUnless.bind first later

theorem adapt {low high : ExceptT Failure Id α} {relabel : Failure → Failure}
    (agrees : AgreesUnlessTripped limit low high) (hands : HandsOn relabel) :
    AgreesUnlessTripped limit (ExceptT.adapt relabel low) (ExceptT.adapt relabel high) := by
  simp only [AgreesUnlessTripped, outcome_adapt]
  rcases agrees with same | ⟨f, tripped, trips⟩
  · exact .inl (congrArg _ same)
  · rw [tripped]
    refine .inr ⟨relabel f, rfl, ?_⟩
    rcases hands f trips.isFatal with kept | ⟨token, framed⟩
    · rw [kept]
      exact trips
    · rw [framed]
      exact trips.within token

theorem retry {low high : ExceptT Failure Id α} {handler handler' : Failure → ExceptT Failure Id α}
    (first : AgreesUnlessTripped limit low high)
    (later : ∀ f, AgreesUnlessTripped limit (handler f) (handler' f)) :
    AgreesUnlessTripped limit (tryCatch low fun f => if f.isFatal then throw f else handler f)
      (tryCatch high fun f => if f.isFatal then throw f else handler' f) := by
  simp only [AgreesUnlessTripped, outcome_tryCatch]
  rcases first with same | ⟨f, tripped, trips⟩
  · rw [← same]
    cases outcome low with
    | ok a => exact .inl rfl
    | error f =>
      dsimp only
      split
      · exact .inl rfl
      · exact later f
  · rw [tripped]
    refine .inr ⟨f, ?_, trips⟩
    dsimp only
    rw [if_pos trips.isFatal, outcome_throw]

def relation (limit : Nat) : CheckRelation Id Id where
  Rel := AgreesUnlessTripped limit
  rel_pure a := refl (pure a)
  rel_throw f := refl (throw f)
  rel_bind := bind
  rel_adapt := adapt
  rel_retry := retry

theorem settings [RegexEngine] {ν : Type} {ctx : Context Id ν} {high : Nat} (le : ctx.config.maxDepth ≤ high) :
    (relation ctx.config.maxDepth).Settings ctx (ctx.limited high) where
  custom := rfl
  preview := rfl
  guarded agrees depth := by
    unfold Context.guarded
    by_cases deep : ctx.config.maxDepth < depth
    · rw [if_pos deep]
      exact .inr ⟨_, rfl, rfl, rfl⟩
    · have shallow : ¬(ctx.limited high).config.maxDepth < depth := by
        simp only [Context.limited]
        omega
      rw [if_neg deep, if_neg shallow]
      exact agrees

end AgreesUnlessTripped

section

variable [RegexEngine] {ν : Type}

theorem check_agreesUnlessTripped {ctx : Context Id ν} {high : Nat} (le : ctx.config.maxDepth ≤ high)
    (s : Schema ν) (depth : Nat) (v : Value) :
    AgreesUnlessTripped ctx.config.maxDepth (ctx.check s depth v) ((ctx.limited high).check s depth v) := by
  have compiles : s.Everywhere fun node => ∀ entry ∈ node.properties?.getD [],
      (AgreesUnlessTripped.relation ctx.config.maxDepth).Compiles ctx (ctx.limited high) entry.1 :=
    fun _ _ _ _ _ _ => .refl _
  exact (AgreesUnlessTripped.relation _).rel_check (AgreesUnlessTripped.settings le) compiles depth v

/-- Lowering the depth limit changes nothing, or the answer is the failure of the depth guard. -/
theorem validateWith_limit {low high : Nat} (le : low ≤ high) (preview : Nat) (custom : CustomRules ν)
    (v : Value) (s : Schema ν) :
    validateWith ⟨low, preview⟩ custom v s = validateWith ⟨high, preview⟩ custom v s ∨
      ∃ f, validateWith ⟨low, preview⟩ custom v s = .error f ∧ f.kind = .depthExceeded ∧
        f.message = "Maximum schema depth of '" ++ toString low ++ "' exceeded!" := by
  have bound : (Context.direct ⟨low, preview⟩ custom).config.maxDepth ≤ high := le
  exact check_agreesUnlessTripped bound s 0 v

end

def wrapping : CustomRules Unit := fun _ v _ => .ok (.list [v])

def partedOrWrapped : Schema Unit :=
  .alternation {} [.shape {} [(.literal "part", .shape {} [(.literal "label", .any)])],
    .typed { custom? := some () } { tag := .any } none none]

/-- The lower limit trips in the first member, and the second one does not make up for it. -/
theorem partedOrWrapped_limited :
    1 ≤ 2 ∧
    validateWith ⟨2, 5⟩ wrapping (.object [("part", .int 7)]) partedOrWrapped =
      .ok (.list [.object [("part", .int 7)]]) ∧
    validateWith ⟨1, 5⟩ wrapping (.object [("part", .int 7)]) partedOrWrapped =
      .error ⟨.depthExceeded, "Maximum schema depth of '1' exceeded!", ["part"]⟩ ∧
    (validateWith ⟨1, 5⟩ wrapping (.object [("part", .int 7)]) partedOrWrapped =
        validateWith ⟨2, 5⟩ wrapping (.object [("part", .int 7)]) partedOrWrapped ∨
      ∃ f, validateWith ⟨1, 5⟩ wrapping (.object [("part", .int 7)]) partedOrWrapped = .error f ∧
        f.kind = .depthExceeded ∧ f.message = "Maximum schema depth of '" ++ toString 1 ++ "' exceeded!") :=
  ⟨by decide, by rfl, by rfl, validateWith_limit (by decide) 5 wrapping _ partedOrWrapped⟩

end Conform
