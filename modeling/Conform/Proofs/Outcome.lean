import Conform.Proofs.Store
import Mathlib.Data.List.Forall2

/-! Checks without effects: what such a check answers, and when it succeeds or fails with
which failure, for each way of building one check from others. -/

namespace Conform

variable {ν α β : Type}

def outcome (x : ExceptT Failure Id α) : Except Failure α := x.run.run

@[simp] theorem outcome_pure (a : α) : outcome (pure a) = .ok a := rfl

@[simp] theorem outcome_throw (f : Failure) :
    outcome (throw f : ExceptT Failure Id α) = .error f := rfl

@[simp] theorem outcome_liftExcept (x : Except Failure α) :
    outcome (liftM x : ExceptT Failure Id α) = x := by
  cases x <;> rfl

-- Here and below, the instances are those of a caller with any effects, which differ from the shortest ones.
@[simp] theorem outcome_liftId (a : Id α) :
    outcome (@liftM Id (ExceptT Failure Id)
      (@instMonadLiftTOfMonadLift Id Id (ExceptT Failure Id) _ (instMonadLiftT Id)) α a) = .ok a.run :=
  rfl

theorem liftId_bind (a : Id α) (next : α → ExceptT Failure Id β) :
    (@liftM Id (ExceptT Failure Id)
      (@instMonadLiftTOfMonadLift Id Id (ExceptT Failure Id) _ (instMonadLiftT Id)) α a >>= next) = next a.run :=
  rfl

@[simp] theorem outcome_adapt (relabel : Failure → Failure) (x : ExceptT Failure Id α) :
    outcome (ExceptT.adapt relabel x) = (outcome x).mapError relabel := by
  cases x <;> rfl

theorem outcome_bind (x : ExceptT Failure Id α) (next : α → ExceptT Failure Id β) :
    outcome (x >>= next) = outcome x >>= fun a => outcome (next a) := by
  cases x <;> rfl

theorem outcome_bind_ok {x : ExceptT Failure Id α} {next : α → ExceptT Failure Id β} {b : β} :
    outcome (x >>= next) = .ok b ↔ ∃ a, outcome x = .ok a ∧ outcome (next a) = .ok b := by
  rw [outcome_bind]
  cases outcome x <;> simp [bind, Except.bind]

theorem outcome_bind_error {x : ExceptT Failure Id α} {next : α → ExceptT Failure Id β}
    {f : Failure} :
    outcome (x >>= next) = .error f ↔
      outcome x = .error f ∨ ∃ a, outcome x = .ok a ∧ outcome (next a) = .error f := by
  rw [outcome_bind]
  cases outcome x <;> simp [bind, Except.bind]

/-- Two answers agree, unless the first is a failure of a sort that is excused. -/
def AgreesUnless (Excused : Failure → Prop) (x y : Except Failure α) : Prop :=
  x = y ∨ ∃ f, x = .error f ∧ Excused f

namespace AgreesUnless

variable {Excused : Failure → Prop}

theorem refl (x : Except Failure α) : AgreesUnless Excused x x := .inl rfl

theorem trans {x y z : Except Failure α} (first : AgreesUnless Excused x y) (second : AgreesUnless Excused y z) :
    AgreesUnless Excused x z := by
  rcases first with same | failed
  · rw [same]
    exact second
  · exact .inr failed

theorem bind {x y : ExceptT Failure Id α} {next next' : α → ExceptT Failure Id β}
    (first : AgreesUnless Excused (outcome x) (outcome y))
    (later : ∀ a, AgreesUnless Excused (outcome (next a)) (outcome (next' a))) :
    AgreesUnless Excused (outcome (x >>= next)) (outcome (y >>= next')) := by
  rw [outcome_bind, outcome_bind]
  rcases first with same | ⟨f, failed, excused⟩
  · rw [same]
    cases outcome y with
    | ok a => exact later a
    | error f => exact refl _
  · rw [failed]
    exact .inr ⟨f, rfl, excused⟩

end AgreesUnless

theorem outcome_rule_ok {rule : Except Failure Unit} {next : Unit → ExceptT Failure Id β} {b : β} :
    outcome (liftM rule >>= next) = .ok b ↔ rule = .ok () ∧ outcome (next ()) = .ok b := by
  rw [outcome_bind_ok, outcome_liftExcept]
  exact ⟨fun ⟨_, holds, rest⟩ => ⟨holds, rest⟩, fun ⟨holds, rest⟩ => ⟨(), holds, rest⟩⟩

theorem outcome_rule_error {rule : Except Failure Unit} {next : Unit → ExceptT Failure Id β}
    {f : Failure} :
    outcome (liftM rule >>= next) = .error f ↔
      rule = .error f ∨ rule = .ok () ∧ outcome (next ()) = .error f := by
  rw [outcome_bind_error, outcome_liftExcept]
  exact or_congr_right
    ⟨fun ⟨_, holds, rest⟩ => ⟨holds, rest⟩, fun ⟨holds, rest⟩ => ⟨(), holds, rest⟩⟩

theorem outcome_tryCatch (x : ExceptT Failure Id α) (handler : Failure → ExceptT Failure Id α) :
    outcome (tryCatch x handler) =
      match outcome x with
      | .ok a => .ok a
      | .error f => outcome (handler f) := by
  cases x <;> rfl

theorem mapError_ok {x : Except Failure α} {relabel : Failure → Failure} {a : α} :
    x.mapError relabel = .ok a ↔ x = .ok a := by
  cases x <;> simp [Except.mapError]

theorem mapError_error {x : Except Failure α} {relabel : Failure → Failure} {f : Failure} :
    x.mapError relabel = .error f ↔ ∃ inner, x = .error inner ∧ relabel inner = f := by
  cases x <;> simp [Except.mapError]

theorem map_ok {x : Except Failure α} {g : α → β} {b : β} : x.map g = .ok b ↔ ∃ a, x = .ok a ∧ g a = b := by
  cases x <;> simp [Except.map]

theorem map_error {x : Except Failure α} {g : α → β} {f : Failure} : x.map g = .error f ↔ x = .error f := by
  cases x <;> simp [Except.map]

theorem foldlM_congr {step step' : β → α → ExceptT Failure Id β} {items : List α}
    (same : ∀ a ∈ items, ∀ state, step state a = step' state a) (start : β) :
    items.foldlM step start = items.foldlM step' start := by
  induction items generalizing start with
  | nil => rfl
  | cons a items ih =>
    obtain ⟨first, rest⟩ := List.forall_mem_cons.1 same
    rw [List.foldlM_cons, List.foldlM_cons, first, funext (ih rest)]

/-- Steps that each store pairs of their own store all of their pairs in order. -/
theorem foldlM_store_ok {step : List (String × Value) → α → ExceptT Failure Id (List (String × Value))}
    {Stores : α → List (String × Value) → Prop}
    (one : ∀ matched a next, outcome (step matched a) = .ok next ↔
      ∃ pairs, Stores a pairs ∧ storeAll matched pairs = next)
    {items : List α} {matched out : List (String × Value)} :
    outcome (items.foldlM step matched) = .ok out ↔
      ∃ groups, List.Forall₂ Stores items groups ∧ storeAll matched groups.flatten = out := by
  induction items generalizing matched with
  | nil => simp
  | cons a items ih =>
    simp only [List.foldlM_cons, outcome_bind_ok, one, ih]
    constructor
    · intro given
      obtain ⟨_, ⟨pairs, stores, rfl⟩, groups, each, rfl⟩ := given
      exact ⟨pairs :: groups, .cons stores each, by rw [List.flatten_cons, storeAll_append]⟩
    · intro given
      obtain ⟨_, _ | @⟨_, pairs, _, groups, stores, each⟩, rfl⟩ := given
      exact ⟨_, ⟨pairs, stores, rfl⟩, groups, each, by rw [List.flatten_cons, storeAll_append]⟩

theorem foldlM_error {step : β → α → ExceptT Failure Id β} {items : List α} {start : β} {f : Failure}
    (failed : outcome (items.foldlM step start) = .error f) :
    ∃ a ∈ items, ∃ state, outcome (step state a) = .error f := by
  induction items generalizing start with
  | nil => cases failed
  | cons a items ih =>
    rw [List.foldlM_cons, outcome_bind_error] at failed
    rcases failed with first | ⟨_, _, later⟩
    · exact ⟨a, List.mem_cons_self, start, first⟩
    · obtain ⟨other, member, found⟩ := ih later
      exact ⟨other, List.mem_cons_of_mem _ member, found⟩

/-- Steps that fail in the same way whatever came before them: their run fails as the first of them
that fails. -/
theorem foldlM_error_iff {step : β → α → ExceptT Failure Id β} {Fails : α → Failure → Prop}
    (fails : ∀ state a f, outcome (step state a) = .error f ↔ Fails a f) {items : List α} {start : β}
    {f : Failure} :
    outcome (items.foldlM step start) = .error f ↔
      ∃ before a after, items = before ++ a :: after ∧ (∀ earlier ∈ before, ∀ g, ¬Fails earlier g) ∧
        Fails a f := by
  induction items generalizing start with
  | nil => simp
  | cons a items ih =>
    rw [List.foldlM_cons, outcome_bind_error, fails]
    simp only [ih]
    constructor
    · intro given
      rcases given with first | ⟨state, reached, before, b, after, rfl, none, later⟩
      · exact ⟨[], a, items, rfl, by simp, first⟩
      · refine ⟨a :: before, b, after, rfl, List.forall_mem_cons.2 ⟨fun g failed => ?_, none⟩, later⟩
        cases reached.symm.trans ((fails start a g).2 failed)
    · intro given
      obtain ⟨_ | ⟨first, before⟩, b, after, split, none, failed⟩ := given
      · cases split
        exact .inl failed
      · cases split
        obtain ⟨fine, none⟩ := List.forall_mem_cons.1 none
        cases reached : outcome (step start a) with
        | error g => exact absurd ((fails start a g).1 reached) (fine g)
        | ok state => exact .inr ⟨state, rfl, before, b, after, rfl, none, failed⟩

theorem split_of_map {f : α → β} {items : List α} {before after : List β} {b : β}
    (split : items.map f = before ++ b :: after) :
    ∃ earlier a later, items = earlier ++ a :: later ∧ earlier.map f = before ∧ f a = b ∧
      later.map f = after := by
  obtain ⟨earlier, rest, rfl, first, split⟩ := List.map_eq_append_iff.1 split
  obtain ⟨a, later, rfl, same, last⟩ := List.map_eq_cons_iff.1 split
  exact ⟨earlier, a, later, rfl, first, same, last⟩

theorem exists_forall₂ {R : α → β → Prop} {as : List α} :
    (∃ bs, List.Forall₂ R as bs) ↔ ∀ a ∈ as, ∃ b, R a b := by
  induction as with
  | nil => simp
  | cons a as ih =>
    rw [List.forall_mem_cons, ← ih]
    constructor
    · intro given
      obtain ⟨_, _ | ⟨first, rest⟩⟩ := given
      exact ⟨⟨_, first⟩, _, rest⟩
    · intro given
      obtain ⟨⟨b, first⟩, bs, rest⟩ := given
      exact ⟨b :: bs, .cons first rest⟩

theorem exists_results {R : Nat → α → β → Prop} {as : List α} :
    (∃ bs : List β, bs.length = as.length ∧
        ∀ (index : Nat) (a : α) (b : β), as[index]? = some a → bs[index]? = some b → R index a b) ↔
      ∀ (index : Nat) (a : α), as[index]? = some a → ∃ b, R index a b := by
  have each : (∃ bs, List.Forall₂ (fun pair b => R pair.2 pair.1 b) as.zipIdx bs) ↔ _ := exists_forall₂
  simp only [List.forall₂_iff_get, List.length_zipIdx, List.get_eq_getElem, List.getElem_zipIdx,
    Nat.zero_add, Prod.forall, List.mem_zipIdx_iff_getElem?] at each
  refine Iff.trans (exists_congr fun bs => ?_) (each.trans forall_comm)
  constructor
  · intro given
    obtain ⟨same, results⟩ := given
    refine ⟨same.symm, fun index inAs inBs => ?_⟩
    exact results index _ _ (List.getElem?_eq_getElem inAs) (List.getElem?_eq_getElem inBs)
  · intro given
    obtain ⟨same, results⟩ := given
    refine ⟨same.symm, fun index a b atA atB => ?_⟩
    obtain ⟨inAs, rfl⟩ := List.getElem?_eq_some_iff.1 atA
    obtain ⟨inBs, rfl⟩ := List.getElem?_eq_some_iff.1 atB
    exact results index inAs inBs

theorem exists_of_mem_results {R : α → β → Prop} {as : List α} {bs : List β} (each : List.Forall₂ R as bs)
    {b : β} (member : b ∈ bs) : ∃ a ∈ as, R a b := by
  induction each with
  | nil => cases member
  | cons first _ ih =>
    rcases List.mem_cons.1 member with rfl | later
    · exact ⟨_, List.mem_cons_self, first⟩
    · obtain ⟨a, inside, found⟩ := ih later
      exact ⟨a, List.mem_cons_of_mem _ inside, found⟩

theorem forall₂_imp_of_mem {R S : α → β → Prop} {as : List α} {bs : List β} (each : List.Forall₂ R as bs)
    (imp : ∀ a, ∀ b ∈ bs, R a b → S a b) : List.Forall₂ S as bs := by
  induction each with
  | nil => exact .nil
  | cons first _ ih =>
    exact .cons (imp _ _ List.mem_cons_self first) (ih fun a b member => imp a b (List.mem_cons_of_mem _ member))

/-- Relations along two lists compose, where they do at the places of the outer lists. -/
theorem forall₂_compose {R S T : α → α → Prop} {as bs cs : List α} (first : List.Forall₂ R as bs)
    (second : List.Forall₂ S bs cs) (chain : ∀ a ∈ as, ∀ b c, (a, c) ∈ as.zip cs → R a b → S b c → T a c) :
    List.Forall₂ T as cs := by
  induction first generalizing cs with
  | nil =>
    cases second
    exact .nil
  | cons head _ ih =>
    cases second with
    | cons head' tail' =>
      refine .cons (chain _ List.mem_cons_self _ _ List.mem_cons_self head head') (ih tail' ?_)
      intro a member b c place
      exact chain a (List.mem_cons_of_mem _ member) b c (List.mem_cons_of_mem _ place)

theorem split_of_forall₂ {R : α → β → Prop} {before after : List α} {a : α} {results : List β}
    (each : List.Forall₂ R (before ++ a :: after) results) :
    ∃ earlier b later, results = earlier ++ b :: later ∧ List.Forall₂ R before earlier ∧ R a b ∧
      List.Forall₂ R after later := by
  induction before generalizing results with
  | nil =>
    obtain _ | ⟨own, rest⟩ := each
    exact ⟨[], _, _, rfl, .nil, own, rest⟩
  | cons first before ih =>
    obtain _ | ⟨head, each⟩ := each
    obtain ⟨earlier, b, later, rfl, ahead, own, rest⟩ := ih each
    exact ⟨_ :: earlier, b, later, rfl, .cons head ahead, own, rest⟩

theorem mapM_ok {step : α → ExceptT Failure Id β} {items : List α} {results : List β} :
    outcome (items.mapM step) = .ok results ↔
      List.Forall₂ (fun a b => outcome (step a) = .ok b) items results := by
  induction items generalizing results with
  | nil => simp [eq_comm]
  | cons a items ih =>
    simp only [List.mapM_cons, outcome_bind_ok, ih, outcome_pure, Except.ok.injEq, List.forall₂_cons_left_iff]
    constructor
    · intro given
      obtain ⟨b, first, rest, later, rfl⟩ := given
      exact ⟨b, rest, first, later, rfl⟩
    · intro given
      obtain ⟨b, rest, first, later, rfl⟩ := given
      exact ⟨b, first, rest, later, rfl⟩

theorem mapM_error_iff {step : α → ExceptT Failure Id β} {items : List α} {f : Failure} :
    outcome (items.mapM step) = .error f ↔
      ∃ (index : Nat) (a : α), items[index]? = some a ∧
        (∀ earlier < index, ∀ b, items[earlier]? = some b → ∃ c, outcome (step b) = .ok c) ∧
        outcome (step a) = .error f := by
  induction items with
  | nil => simp
  | cons first items ih =>
    simp only [List.mapM_cons, outcome_bind_error, outcome_pure, reduceCtorEq, and_false, exists_false, or_false, ih]
    constructor
    · intro given
      rcases given with failed | ⟨c, accepted, index, a, found, fine, failed⟩
      · exact ⟨0, first, rfl, nofun, failed⟩
      · refine ⟨index + 1, a, found, fun earlier before b atEarlier => ?_, failed⟩
        cases earlier with
        | zero =>
          cases atEarlier
          exact ⟨c, accepted⟩
        | succ earlier => exact fine earlier (by omega) b atEarlier
    · intro given
      obtain ⟨index, a, found, fine, failed⟩ := given
      cases index with
      | zero =>
        cases found
        exact .inl failed
      | succ index =>
        obtain ⟨c, accepted⟩ := fine 0 (by omega) first rfl
        exact .inr ⟨c, accepted, index, a, found, fun earlier before => fine (earlier + 1) (by omega), failed⟩

theorem mapM_error {step : α → ExceptT Failure Id β} {items : List α} {f : Failure}
    (failed : outcome (items.mapM step) = .error f) : ∃ a ∈ items, outcome (step a) = .error f := by
  obtain ⟨_, a, found, _, failed⟩ := mapM_error_iff.1 failed
  exact ⟨a, List.mem_of_getElem? found, failed⟩

def settles : Outcome → Bool
  | .ok _ => true
  | .error f => f.isFatal

/-- Of the answers of several checks, the first that settles the matter, or else the last. -/
def firstAnswer (none : Failure) (answers : List Outcome) : Outcome :=
  ((answers.find? settles).or answers.getLast?).getD (.error none)

section FirstAnswer

variable {last f : Failure} {answers : List Outcome}

theorem firstAnswer_accepted (w : Value) : firstAnswer last (.ok w :: answers) = .ok w := rfl

theorem firstAnswer_fatal (fatal : f.isFatal = true) : firstAnswer last (.error f :: answers) = .error f := by
  rw [firstAnswer, List.find?_cons_of_pos (by exact fatal)]
  rfl

/-- A failure that is not fatal counts only where no other check is left to answer. -/
theorem firstAnswer_mild (mild : f.isFatal = false) :
    firstAnswer last (.error f :: answers) = firstAnswer f answers := by
  have unsettled : ¬settles (.error f) = true := by simp [settles, mild]
  rw [firstAnswer, firstAnswer, List.find?_cons_of_neg unsettled, List.getLast?_cons]
  cases answers.find? settles <;> rfl

end FirstAnswer

namespace Check

def Rejects (check : Check Id) (v : Value) (fatal : Bool) : Prop :=
  ∃ f, outcome (check v) = .error f ∧ f.isFatal = fatal

theorem settles_eq_false_iff {check : Check Id} {v : Value} :
    settles (outcome (check v)) = false ↔ check.Rejects v false := by
  unfold Rejects
  cases outcome (check v) <;> simp [settles]

theorem firstOf_eq (last : Failure) (checks : List (Check Id)) (v : Value) :
    outcome (firstOf last checks v) = firstAnswer last (checks.map fun check => outcome (check v)) := by
  induction checks generalizing last with
  | nil => rfl
  | cons first rest ih =>
    rw [firstOf, outcome_tryCatch, List.map_cons]
    cases outcome (first v) with
    | ok w => exact (firstAnswer_accepted w).symm
    | error f =>
      cases fatal : f.isFatal with
      | true =>
        rw [firstAnswer_fatal fatal]
        simp [fatal]
      | false =>
        rw [firstAnswer_mild fatal, ← ih]
        simp [fatal]

section FirstOf

variable {last : Failure} {checks : List (Check Id)} {v : Value}

/-- The first check to settle the matter comes after some that reject the value. -/
theorem find?_settles_iff {check : Check Id} :
    checks.find? (fun check => settles (outcome (check v))) = some check ↔
      settles (outcome (check v)) = true ∧ ∃ before after, checks = before ++ check :: after ∧
        ∀ earlier ∈ before, earlier.Rejects v false := by
  simp only [List.find?_eq_some_iff_append, Bool.not_eq_true', settles_eq_false_iff]

theorem firstOf_of_settled {check : Check Id}
    (found : checks.find? (fun check => settles (outcome (check v))) = some check) :
    outcome (firstOf last checks v) = outcome (check v) := by
  rw [firstOf_eq, firstAnswer, List.find?_map]
  simp only [Function.comp_def, found, Option.map_some, Option.some_or, Option.getD_some]

theorem firstOf_of_unsettled (last : Failure)
    (none : checks.find? (fun check => settles (outcome (check v))) = none) :
    (∀ check ∈ checks, check.Rejects v false) ∧
      (checks = [] ∧ outcome (firstOf last checks v) = .error last ∨
        ∃ before check, checks = before ++ [check] ∧ outcome (firstOf last checks v) = outcome (check v)) := by
  have rejected : ∀ check ∈ checks, check.Rejects v false := by
    simpa only [List.find?_eq_none, Bool.not_eq_true, settles_eq_false_iff] using none
  refine ⟨rejected, ?_⟩
  rw [firstOf_eq, firstAnswer, List.find?_map, List.getLast?_map]
  simp only [Function.comp_def, none, Option.map_none, Option.none_or]
  cases final : checks.getLast? with
  | none => exact .inl ⟨List.getLast?_eq_none_iff.1 final, rfl⟩
  | some check =>
    obtain ⟨before, rfl⟩ := List.getLast?_eq_some_iff.1 final
    exact .inr ⟨before, check, rfl, rfl⟩

theorem firstOf_ok {w : Value} :
    outcome (firstOf last checks v) = .ok w ↔
      ∃ before check after, checks = before ++ check :: after ∧
        (∀ earlier ∈ before, earlier.Rejects v false) ∧ outcome (check v) = .ok w := by
  constructor
  · intro accepted
    cases found : checks.find? (fun check => settles (outcome (check v))) with
    | some check =>
      obtain ⟨_, before, after, split, rejected⟩ := find?_settles_iff.1 found
      exact ⟨before, check, after, split, rejected, (firstOf_of_settled found).symm.trans accepted⟩
    | none =>
      obtain ⟨rejected, ⟨_, failed⟩ | ⟨before, check, rfl, same⟩⟩ := firstOf_of_unsettled last found
      · cases failed.symm.trans accepted
      · obtain ⟨f, failed, _⟩ := rejected check (by simp)
        cases (same.trans failed).symm.trans accepted
  · intro given
    obtain ⟨before, check, after, split, rejected, accepted⟩ := given
    have found := find?_settles_iff.2 ⟨by rw [accepted]; rfl, before, after, split, rejected⟩
    exact (firstOf_of_settled found).trans accepted

theorem firstOf_error {f : Failure} (failed : outcome (firstOf last checks v) = .error f) :
    (∃ before check after, checks = before ++ check :: after ∧
      (∀ earlier ∈ before, earlier.Rejects v false) ∧ outcome (check v) = .error f ∧
      f.isFatal = true) ∨
    (∀ check ∈ checks, check.Rejects v false) ∧
      (checks = [] ∧ f = last ∨
        ∃ before check, checks = before ++ [check] ∧ outcome (check v) = .error f) := by
  cases found : checks.find? (fun check => settles (outcome (check v))) with
  | some check =>
    obtain ⟨settled, before, after, split, rejected⟩ := find?_settles_iff.1 found
    have same := (firstOf_of_settled found).symm.trans failed
    rw [same] at settled
    exact .inl ⟨before, check, after, split, rejected, same, settled⟩
  | none =>
    obtain ⟨rejected, ⟨empty, same⟩ | ⟨before, check, split, same⟩⟩ := firstOf_of_unsettled last found
    · exact .inr ⟨rejected, .inl ⟨empty, Except.error.inj (failed.symm.trans same)⟩⟩
    · exact .inr ⟨rejected, .inr ⟨before, check, split, same.symm.trans failed⟩⟩

end FirstOf

def Keeps (check : Value → Outcome) (field pair : String × Value) : Prop :=
  pair.1 = field.1 ∧ check field.2 = .ok pair.2

theorem field_ok {check : Check Id} {matched out : List (String × Value)} {entry : String × Value} :
    outcome (check.field matched entry) = .ok out ↔
      ∃ y, outcome (check entry.2) = .ok y ∧ store matched entry.1 y = out := by
  simp only [field, outcome_bind_ok, outcome_adapt, mapError_ok, outcome_pure, Except.ok.injEq]

theorem field_error {check : Check Id} {matched : List (String × Value)} {entry : String × Value}
    {f : Failure} :
    outcome (check.field matched entry) = .error f ↔
      ∃ inner, outcome (check entry.2) = .error inner ∧ inner.within entry.1 = f := by
  simp only [field, outcome_bind_error, outcome_adapt, mapError_error, outcome_pure, reduceCtorEq,
    and_false, exists_false, or_false]

theorem foldlM_field_ok {check : Check Id} {fields matched out : List (String × Value)} :
    outcome (fields.foldlM check.field matched) = .ok out ↔
      ∃ pairs, List.Forall₂ (Keeps fun x => outcome (check x)) fields pairs ∧
        storeAll matched pairs = out := by
  induction fields generalizing matched with
  | nil => simp
  | cons field fields ih =>
    simp only [List.foldlM_cons, outcome_bind_ok, field_ok, ih]
    constructor
    · intro given
      obtain ⟨_, ⟨y, accepted, rfl⟩, pairs, each, rfl⟩ := given
      exact ⟨(field.1, y) :: pairs, .cons ⟨rfl, accepted⟩ each, rfl⟩
    · intro given
      obtain ⟨_, _ | @⟨_, pair, _, pairs, ⟨same, accepted⟩, each⟩, rfl⟩ := given
      exact ⟨_, ⟨pair.2, accepted, same ▸ rfl⟩, pairs, each, rfl⟩

theorem foldlM_field_error {check : Check Id} {fields matched : List (String × Value)} {f : Failure}
    (failed : outcome (fields.foldlM check.field matched) = .error f) :
    ∃ field ∈ fields, ∃ inner, outcome (check field.2) = .error inner ∧ inner.within field.1 = f := by
  obtain ⟨field, member, _, rejected⟩ := foldlM_error failed
  exact ⟨field, member, field_error.1 rejected⟩

end Check

end Conform
