import Conform.Proofs.Simulation

/-! Checks of one value in two settings. A relation between computations that respects the ways in which
checks are put together holds between the checks of a schema in both settings, whatever the schema is. -/

namespace Conform

/-- A relation between computations that respects how checks are put together: one after another, under
another failure, and with another attempt after a failure that is not fatal. -/
structure CheckRelation (m n : Type → Type) [Monad m] [Monad n] where
  Rel {α : Type} : ExceptT Failure m α → ExceptT Failure n α → Prop
  rel_pure {α : Type} (a : α) : Rel (pure a) (pure a)
  rel_throw {α : Type} (f : Failure) : Rel (throw f : ExceptT Failure m α) (throw f)
  rel_bind {α β : Type} {x : ExceptT Failure m α} {y : ExceptT Failure n α} {next : α → ExceptT Failure m β}
    {next' : α → ExceptT Failure n β} : Rel x y → (∀ a, Rel (next a) (next' a)) → Rel (x >>= next) (y >>= next')
  rel_adapt {α : Type} {x : ExceptT Failure m α} {y : ExceptT Failure n α} {relabel : Failure → Failure} :
    Rel x y → HandsOn relabel → Rel (ExceptT.adapt relabel x) (ExceptT.adapt relabel y)
  rel_retry {α : Type} {x : ExceptT Failure m α} {y : ExceptT Failure n α} {handler : Failure → ExceptT Failure m α}
    {handler' : Failure → ExceptT Failure n α} : Rel x y → (∀ f, Rel (handler f) (handler' f)) →
    Rel (tryCatch x fun f => if f.isFatal then throw f else handler f)
      (tryCatch y fun f => if f.isFatal then throw f else handler' f)

theorem failureMatch_eq : FailureMatch Eq where
  refl _ := rfl
  isFatal same := congrArg Failure.isFatal same
  within token same := congrArg (Failure.within token) same
  relabelled kind heading same := congrArg (Failure.relabelled kind heading) same

theorem unseen_eq [RegexEngine] : Unseen Eq Eq where
  refl _ := rfl
  absentExit rules same := congrArg rules.absentExit? same
  isUndefined same := congrArg Value.isUndefined same
  shape same := congrArg Value.shape same
  accepts tag same := congrArg tag.accepts same
  typeMismatch tag same := congrArg (Conform.typeMismatch tag) same
  bounds c tag same := same ▸ failureMatch_eq.corresponds_refl _
  pattern c tag same := congrArg (c.checkPattern tag) same
  className type same := congrArg type.checkClass same
  equality c same := same ▸ failureMatch_eq.corresponds_refl _
  fields {v w} same := by
    subst same
    cases v.fields? with
    | none => exact .none
    | some fields => exact .some (List.forall₂_same.2 fun field _ => .mk field.1 rfl)
  withFields {v w fields fields'} same related := by
    subst same
    rw [fieldsRelate_eq, List.forall₂_eq_eq_eq] at related
    rw [related]
  items {xs ys} same := by
    cases same
    exact List.forall₂_same.2 fun _ _ => rfl
  list related := by
    rw [List.forall₂_eq_eq_eq] at related
    rw [related]

namespace CheckRelation

variable {m n : Type → Type} [Monad m] [Monad n] (R : CheckRelation m n) {ν α β : Type}

section Pairs

variable [LawfulMonad m] [LawfulMonad n]

def RelPairs (V : α → β → Prop) (x : ExceptT Failure m α) (y : ExceptT Failure n β) : Prop :=
  ∃ (pairs : ExceptT Failure m { p : α × β // V p.1 p.2 }) (pairs' : ExceptT Failure n { p : α × β // V p.1 p.2 }),
    R.Rel pairs pairs' ∧ (·.1.1) <$> pairs = x ∧ (·.1.2) <$> pairs' = y

omit [Monad n] [LawfulMonad n] in
theorem adapt_map (g : α → β) (relabel : Failure → Failure) (x : ExceptT Failure m α) :
    ExceptT.adapt relabel (g <$> x) = g <$> ExceptT.adapt relabel x := by
  apply ExceptT.ext
  change Except.mapError relabel <$> (g <$> x).run = (g <$> ExceptT.adapt relabel x).run
  rw [ExceptT.run_map, ExceptT.run_map]
  change _ = Except.map g <$> Except.mapError relabel <$> x.run
  rw [Functor.map_map, Functor.map_map]
  congr
  funext answer
  cases answer <;> rfl

omit [Monad n] [LawfulMonad n] in
theorem tryCatch_map (g : α → β) (x : ExceptT Failure m α) (handler : Failure → ExceptT Failure m α) :
    (tryCatch (g <$> x) fun f => g <$> handler f) = g <$> tryCatch x handler := by
  apply ExceptT.ext
  rw [ExceptT.run_map, ExceptT.run_tryCatch, ExceptT.run_tryCatch, ExceptT.run_map, bind_map_left, map_bind]
  congr
  funext answer
  cases answer with
  | ok a => exact (map_pure (Except.map g) (Except.ok a)).symm
  | error f => exact ExceptT.run_map g (handler f)

theorem rel_of_relPairs {x : ExceptT Failure m α} {y : ExceptT Failure n α} (related : R.RelPairs Eq x y) : R.Rel x y := by
  obtain ⟨pairs, pairs', related, rfl, rfl⟩ := related
  have sides : (fun p : { p : α × α // p.1 = p.2 } => p.1.2) = fun p => p.1.1 := funext fun p => p.2.symm
  rw [sides, map_eq_pure_bind, map_eq_pure_bind]
  exact R.rel_bind related fun p => R.rel_pure _

theorem relPairs_of_rel {x : ExceptT Failure m α} {y : ExceptT Failure n α} (related : R.Rel x y) :
    R.RelPairs Eq x y := by
  refine ⟨(fun a => ⟨(a, a), rfl⟩) <$> x, (fun a => ⟨(a, a), rfl⟩) <$> y, ?_, by simp, by simp⟩
  rw [map_eq_pure_bind, map_eq_pure_bind]
  exact R.rel_bind related fun a => R.rel_pure _

def simulation : Simulation m n where
  Fails := Eq
  failures := failureMatch_eq
  Rel := R.RelPairs
  rel_pure {_ _ _ a b} related := ⟨pure ⟨(a, b), related⟩, pure ⟨(a, b), related⟩, R.rel_pure _, by simp, by simp⟩
  rel_throw {_ _ _ f _} same := by
    subst same
    exact ⟨throw f, throw f, R.rel_throw f, by simp, by simp⟩
  rel_bind {α β _ _ V _ _ _ _ _} first later := by
    obtain ⟨pairs, pairs', related, rfl, rfl⟩ := first
    choose rest rest' relatedRest left right using fun p : { p : α × β // V p.1 p.2 } => later p.1.1 p.1.2 p.2
    refine ⟨pairs >>= rest, pairs' >>= rest', R.rel_bind related relatedRest, ?_, ?_⟩
    · simp only [map_bind, left, bind_map_left]
    · simp only [map_bind, right, bind_map_left]
  rel_adapt {_ _ _ _ _ relabel} first hands _ := by
    obtain ⟨pairs, pairs', related, rfl, rfl⟩ := first
    exact ⟨_, _, R.rel_adapt related hands, (adapt_map _ relabel pairs).symm, (adapt_map _ relabel pairs').symm⟩
  rel_retry {_ _ _ _ _ handler handler'} first later := by
    obtain ⟨pairs, pairs', related, rfl, rfl⟩ := first
    choose rest rest' relatedRest left right using fun f => later f f rfl
    refine ⟨_, _, R.rel_retry related relatedRest, ?_, ?_⟩
    · rw [← tryCatch_map]
      congr
      funext f
      split <;> simp [left]
    · rw [← tryCatch_map]
      congr
      funext f
      split <;> simp [right]

end Pairs

variable [RegexEngine]

/-- Two settings that share the custom rules and the texts of messages, and whose guards are related. -/
structure Settings (ctx : Context m ν) (ctx' : Context n ν) : Prop where
  custom : ctx.custom = ctx'.custom
  preview : ctx.config.enumPreview = ctx'.config.enumPreview
  guarded : ∀ {check : Check m} {check' : Check n} {v : Value}, R.Rel (check v) (check' v) →
    ∀ depth, R.Rel (ctx.guarded depth check v) (ctx'.guarded depth check' v)

def Compiles (ctx : Context m ν) (ctx' : Context n ν) (key : PropertyKey) : Prop :=
  ∀ p, key = .pattern p → R.Rel (liftM (ctx.compile p)) (liftM (ctx'.compile p))

variable {R}

theorem rel_guarded {ctx : Context m ν} {ctx' : Context n ν} (limit : ctx.config.maxDepth = ctx'.config.maxDepth)
    {check : Check m} {check' : Check n} {v : Value} (related : R.Rel (check v) (check' v)) (depth : Nat) :
    R.Rel (ctx.guarded depth check v) (ctx'.guarded depth check' v) := by
  unfold Context.guarded
  rw [limit]
  split
  · exact R.rel_throw _
  · exact related

section Checks

variable [LawfulMonad m] [LawfulMonad n] {ctx : Context m ν} {ctx' : Context n ν}

/-- Down to a limit that a schema does not exceed, its checks are related if its markers are compiled alike and
entering a node keeps checks related. -/
theorem rel_checkVia (settings : R.Settings ctx ctx') {enter : Nat → Check m → Check m}
    {enter' : Nat → Check n → Check n} {limit : Nat}
    (enters : ∀ depth ≤ limit, ∀ (check : Check m) (check' : Check n) (v : Value), R.Rel (check v) (check' v) →
      R.Rel (enter depth check v) (enter' depth check' v)) {s : Schema ν}
    (compiles : s.Everywhere fun node => ∀ entry ∈ node.properties?.getD [], R.Compiles ctx ctx' entry.1)
    {depth : Nat} (fits : depth + s.height ≤ limit) (v : Value) :
    R.Rel (ctx.checkVia enter (· + 1) s depth v) (ctx'.checkVia enter' (· + 1) s depth v) := by
  have simulates : R.simulation.Settings Eq ctx ctx' := by
    refine ⟨unseen_eq, ?_⟩
    rintro v _ c rfl
    rw [settings.preview]
    exact failureMatch_eq.corresponds_refl _
  have treats : s.Everywhere (R.simulation.Treats Eq ctx ctx') := by
    refine fun node inside => ⟨fun entry member p marker => ?_, ?_⟩
    · exact R.relPairs_of_rel (compiles node inside entry member p marker)
    · rintro rule _ v _ rfl
      rw [settings.custom]
      exact failureMatch_eq.corresponds_refl _
  refine R.rel_of_relPairs (Simulation.rel_checkVia simulates ?_ treats fits rfl)
  rintro depth shallow check check' v _ rfl related
  exact R.relPairs_of_rel (enters depth shallow check check' v (R.rel_of_relPairs related))

theorem rel_check (settings : R.Settings ctx ctx') {s : Schema ν}
    (compiles : s.Everywhere fun node => ∀ entry ∈ node.properties?.getD [], R.Compiles ctx ctx' entry.1)
    (depth : Nat) (v : Value) : R.Rel (ctx.check s depth v) (ctx'.check s depth v) := by
  rw [← ctx.checkVia_guarded, ← ctx'.checkVia_guarded]
  exact rel_checkVia settings (fun depth _ _ _ _ related => settings.guarded related depth) compiles (Nat.le_refl _) v

end Checks

end CheckRelation

end Conform
