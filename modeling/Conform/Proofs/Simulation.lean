import Conform.Proofs.Traversal

/-! Two runs side by side, in two settings and on two values. What relates the parts of checks on both
sides relates the checks of every schema, as long as the values differ only in what no rule sees. -/

namespace Conform

section Answers

variable {α β : Type}

structure FailureMatch (Fails : Failure → Failure → Prop) : Prop where
  refl (f : Failure) : Fails f f
  isFatal {f g : Failure} : Fails f g → f.isFatal = g.isFatal
  within {f g : Failure} (token : String) : Fails f g → Fails (f.within token) (g.within token)
  relabelled {f g : Failure} (kind : FailureKind) (heading : String) :
    Fails f g → Fails (f.relabelled kind heading) (g.relabelled kind heading)

/-- Two answers that correspond: related results, or matching failures. -/
inductive Corresponds (Fails : Failure → Failure → Prop) (V : α → β → Prop) : Except Failure α → Except Failure β → Prop
  where
  | ok {a : α} {b : β} (related : V a b) : Corresponds Fails V (.ok a) (.ok b)
  | error {f g : Failure} (matched : Fails f g) : Corresponds Fails V (.error f) (.error g)

theorem Corresponds.refl {Fails : Failure → Failure → Prop} (same : ∀ f, Fails f f) (x : Except Failure α) :
    Corresponds Fails Eq x x := by
  cases x with
  | ok a => exact .ok rfl
  | error f => exact .error (same f)

theorem FailureMatch.corresponds_refl {Fails : Failure → Failure → Prop} (failures : FailureMatch Fails)
    (x : Except Failure α) : Corresponds Fails Eq x x :=
  .refl failures.refl x

theorem Corresponds.ok_or_error {Fails : Failure → Failure → Prop} {V : α → β → Prop} {x : Except Failure α}
    {y : Except Failure β} (related : Corresponds Fails V x y) :
    (∃ a b, x = .ok a ∧ y = .ok b ∧ V a b) ∨ ∃ f g, x = .error f ∧ y = .error g ∧ Fails f g := by
  cases related with
  | ok related => exact .inl ⟨_, _, rfl, rfl, related⟩
  | error matched => exact .inr ⟨_, _, rfl, rfl, matched⟩

section Outcomes

variable {Fails Fails' : Failure → Failure → Prop} {γ δ : Type} {V : α → β → Prop} {x : ExceptT Failure Id α}
  {y : ExceptT Failure Id β}

theorem Corresponds.bind {W : γ → δ → Prop} {next : α → ExceptT Failure Id γ} {next' : β → ExceptT Failure Id δ}
    (first : Corresponds Fails V (outcome x) (outcome y))
    (later : ∀ a b, outcome x = .ok a → outcome y = .ok b → V a b →
      Corresponds Fails W (outcome (next a)) (outcome (next' b))) :
    Corresponds Fails W (outcome (x >>= next)) (outcome (y >>= next')) := by
  rw [outcome_bind, outcome_bind]
  generalize outcome x = answer, outcome y = answer' at first later
  cases first with
  | ok related => exact later _ _ rfl rfl related
  | error matched => exact .error matched

theorem Corresponds.adapt {relabel : Failure → Failure} (related : Corresponds Fails V (outcome x) (outcome y))
    (respects : ∀ f g, Fails f g → Fails' (relabel f) (relabel g)) :
    Corresponds Fails' V (outcome (ExceptT.adapt relabel x)) (outcome (ExceptT.adapt relabel y)) := by
  rw [outcome_adapt, outcome_adapt]
  generalize outcome x = answer, outcome y = answer' at related
  cases related with
  | ok related => exact .ok related
  | error matched => exact .error (respects _ _ matched)

end Outcomes

/-- Fatal failures are handed on as they are, or seen from one frame further out. -/
def HandsOn (relabel : Failure → Failure) : Prop :=
  ∀ f, f.isFatal = true → relabel f = f ∨ ∃ token, relabel f = f.within token

theorem handsOn_within (token : String) : HandsOn (·.within token) := fun _ _ => .inr ⟨token, rfl⟩

theorem handsOn_relabelled (kind : FailureKind) (heading : String) : HandsOn (·.relabelled kind heading) :=
  fun _ fatal => .inl (Failure.relabelled_of_isFatal fatal kind heading)

theorem handsOn_relabelled_within (token : String) (kind : FailureKind) (heading : String) :
    HandsOn fun f => (f.within token).relabelled kind heading :=
  fun f fatal => .inr ⟨token, Failure.relabelled_of_isFatal (f := f.within token) fatal kind heading⟩

end Answers

section Fields

variable {V : Value → Value → Prop}

inductive FieldsRelate (V : Value → Value → Prop) : String × Value → String × Value → Prop where
  | mk (key : String) {v w : Value} (values : V v w) : FieldsRelate V (key, v) (key, w)

theorem FieldsRelate.key {a b : String × Value} (related : FieldsRelate V a b) : a.1 = b.1 := by
  cases related
  rfl

theorem FieldsRelate.value {a b : String × Value} (related : FieldsRelate V a b) : V a.2 b.2 := by
  cases related
  assumption

theorem fieldsRelate_iff {a b : String × Value} : FieldsRelate V a b ↔ a.1 = b.1 ∧ V a.2 b.2 := by
  constructor
  · intro related
    exact ⟨related.key, related.value⟩
  · intro given
    obtain ⟨key, v⟩ := a
    obtain ⟨rfl, values⟩ := given
    exact .mk _ values

theorem fieldsRelate_eq : FieldsRelate Eq = Eq := by
  funext a b
  refine propext ⟨fun related => Prod.ext related.key related.value, ?_⟩
  rintro rfl
  exact .mk a.1 rfl

theorem lookup_related {fields fields' : List (String × Value)}
    (related : List.Forall₂ (FieldsRelate V) fields fields') (absent : V .undefined .undefined) (name : String) :
    V ((fields.lookup name).getD .undefined) ((fields'.lookup name).getD .undefined) := by
  induction related with
  | nil => exact absent
  | cons first _ ih =>
    obtain ⟨key, values⟩ := first
    simp only [List.lookup_cons]
    split
    · exact values
    · exact ih

theorem filter_related {fields fields' : List (String × Value)}
    (related : List.Forall₂ (FieldsRelate V) fields fields') (keep : String → Bool) :
    List.Forall₂ (FieldsRelate V) (fields.filter (keep ·.1)) (fields'.filter (keep ·.1)) := by
  exact List.rel_filter (fun a b same => iff_of_eq (congrArg (keep · = true) same.key)) related

theorem put_related {fields fields' : List (String × Value)} {x y : Value}
    (related : List.Forall₂ (FieldsRelate V) fields fields') (key : String) (values : V x y) :
    List.Forall₂ (FieldsRelate V) (Fields.put key x fields) (Fields.put key y fields') := by
  induction related with
  | nil => exact .cons (.mk key values) .nil
  | cons first rest ih =>
    obtain ⟨name, kept⟩ := first
    simp only [Fields.put]
    split
    · exact .cons (.mk name values) rest
    · exact .cons (.mk name kept) ih

theorem zipIdx_related {xs ys : List Value} (related : List.Forall₂ V xs ys) (start : Nat) :
    List.Forall₂ (fun a b => V a.1 b.1 ∧ a.2 = b.2) (xs.zipIdx start) (ys.zipIdx start) := by
  induction related generalizing start with
  | nil => exact .nil
  | cons first _ ih => exact .cons ⟨first, rfl⟩ (ih (start + 1))

end Fields

/-- A relation between values that differ only in what no rule of a schema sees, up to matching failures. -/
structure Unseen [RegexEngine] (Fails : Failure → Failure → Prop) (V : Value → Value → Prop) : Prop where
  refl (v : Value) : V v v
  absentExit {ν : Type} {v w : Value} (rules : Rules ν) : V v w → rules.absentExit? v = rules.absentExit? w
  isUndefined {v w : Value} : V v w → v.isUndefined = w.isUndefined
  shape {v w : Value} : V v w → v.shape = w.shape
  accepts {v w : Value} (tag : TypeTag) : V v w → tag.accepts v = tag.accepts w
  typeMismatch {v w : Value} (tag : TypeTag) : V v w → Conform.typeMismatch tag v = Conform.typeMismatch tag w
  bounds {v w : Value} (c : Constraints) (tag : TypeTag) :
    V v w → Corresponds Fails Eq (c.checkBounds tag v) (c.checkBounds tag w)
  pattern {v w : Value} (c : Constraints) (tag : TypeTag) : V v w → c.checkPattern tag v = c.checkPattern tag w
  className {v w : Value} (type : TypeRules) : V v w → type.checkClass v = type.checkClass w
  equality {v w : Value} (c : Constraints) : V v w → Corresponds Fails Eq (c.checkEquality v) (c.checkEquality w)
  fields {v w : Value} : V v w → Option.Rel (List.Forall₂ (FieldsRelate V)) v.fields? w.fields?
  withFields {v w : Value} {fields fields' : List (String × Value)} :
    V v w → List.Forall₂ (FieldsRelate V) fields fields' → V (v.withFields fields) (w.withFields fields')
  items {xs ys : List Value} : V (.list xs) (.list ys) → List.Forall₂ V xs ys
  list {xs ys : List Value} : List.Forall₂ V xs ys → V (.list xs) (.list ys)

/-- A relation between computations on both sides that respects how checks are put together: one after
another, under another failure, and with another attempt after a failure that is not fatal. -/
structure Simulation (m n : Type → Type) [Monad m] [Monad n] where
  Fails : Failure → Failure → Prop
  failures : FailureMatch Fails
  Rel {α β : Type} (V : α → β → Prop) : ExceptT Failure m α → ExceptT Failure n β → Prop
  rel_pure {α β : Type} {V : α → β → Prop} {a : α} {b : β} : V a b → Rel V (pure a) (pure b)
  rel_throw {α β : Type} {V : α → β → Prop} {f g : Failure} : Fails f g → Rel V (throw f) (throw g)
  rel_bind {α β γ δ : Type} {V : α → β → Prop} {W : γ → δ → Prop} {x : ExceptT Failure m α} {y : ExceptT Failure n β}
    {next : α → ExceptT Failure m γ} {next' : β → ExceptT Failure n δ} :
    Rel V x y → (∀ a b, V a b → Rel W (next a) (next' b)) → Rel W (x >>= next) (y >>= next')
  rel_adapt {α β : Type} {V : α → β → Prop} {x : ExceptT Failure m α} {y : ExceptT Failure n β}
    {relabel : Failure → Failure} : Rel V x y → HandsOn relabel → (∀ f g, Fails f g → Fails (relabel f) (relabel g)) →
    Rel V (ExceptT.adapt relabel x) (ExceptT.adapt relabel y)
  rel_retry {α β : Type} {V : α → β → Prop} {x : ExceptT Failure m α} {y : ExceptT Failure n β}
    {handler : Failure → ExceptT Failure m α} {handler' : Failure → ExceptT Failure n β} :
    Rel V x y → (∀ f g, Fails f g → Rel V (handler f) (handler' g)) →
    Rel V (tryCatch x fun f => if f.isFatal then throw f else handler f)
      (tryCatch y fun f => if f.isFatal then throw f else handler' f)

namespace Simulation

variable {m n : Type → Type} [Monad m] [Monad n] (S : Simulation m n) {ν α β σ τ : Type}

theorem rel_rule {V : α → β → Prop} {x : Except Failure α} {y : Except Failure β} (corresponds : Corresponds S.Fails V x y) :
    S.Rel V (liftM x) (liftM y) := by
  cases corresponds with
  | ok related => exact S.rel_pure related
  | error matched => exact S.rel_throw matched

theorem rel_rule_bind {W : α → β → Prop} {rule rule' : Except Failure Unit} {next : Unit → ExceptT Failure m α}
    {next' : Unit → ExceptT Failure n β} (corresponds : Corresponds S.Fails Eq rule rule')
    (later : S.Rel W (next ()) (next' ())) : S.Rel W (liftM rule >>= next) (liftM rule' >>= next') :=
  S.rel_bind (S.rel_rule corresponds) fun _ _ _ => later

section Lists

variable {S}

theorem rel_foldlM {R : α → β → Prop} {W : σ → τ → Prop} {step : σ → α → ExceptT Failure m σ}
    {step' : τ → β → ExceptT Failure n τ} {as : List α} {bs : List β} (items : List.Forall₂ R as bs)
    (each : ∀ a b, R a b → ∀ s t, W s t → S.Rel W (step s a) (step' t b)) {s : σ} {t : τ} (start : W s t) :
    S.Rel W (as.foldlM step s) (bs.foldlM step' t) := by
  induction items generalizing s t with
  | nil => exact S.rel_pure start
  | cons first _ ih =>
    simp only [List.foldlM_cons]
    exact S.rel_bind (each _ _ first _ _ start) fun s t reached => ih reached

theorem rel_mapM [LawfulMonad m] [LawfulMonad n] {R : α → β → Prop} {W : σ → τ → Prop} {step : α → ExceptT Failure m σ}
    {step' : β → ExceptT Failure n τ} {as : List α} {bs : List β} (items : List.Forall₂ R as bs)
    (each : ∀ a b, R a b → S.Rel W (step a) (step' b)) :
    S.Rel (List.Forall₂ W) (as.mapM step) (bs.mapM step') := by
  induction items with
  | nil => exact S.rel_pure .nil
  | cons first _ ih =>
    simp only [List.mapM_cons]
    exact S.rel_bind (each _ _ first) fun _ _ head => S.rel_bind ih fun _ _ rest => S.rel_pure (.cons head rest)

end Lists

variable [RegexEngine]

def Compiles (ctx : Context m ν) (ctx' : Context n ν) (key : PropertyKey) : Prop :=
  ∀ p, key = .pattern p → S.Rel Eq (liftM (ctx.compile p)) (liftM (ctx'.compile p))

/-- Two settings that treat a node alike: its markers, and its custom rule, if it has one. -/
structure Treats (V : Value → Value → Prop) (ctx : Context m ν) (ctx' : Context n ν) (node : Schema ν) : Prop where
  compiles : ∀ entry ∈ node.properties?.getD [], S.Compiles ctx ctx' entry.1
  custom : ∀ rule, node.rules.custom? = some rule → ∀ v w, V v w →
    Corresponds S.Fails V (ctx.custom rule v node) (ctx'.custom rule w node)

/-- Values that only differ in what no rule sees, in two settings whose previews make no difference. -/
structure Settings (V : Value → Value → Prop) (ctx : Context m ν) (ctx' : Context n ν) : Prop where
  unseen : Unseen S.Fails V
  enumeration {v w : Value} (c : Constraints) : V v w →
    Corresponds S.Fails Eq (c.checkEnumeration ctx.config.enumPreview v) (c.checkEnumeration ctx'.config.enumPreview w)

variable {S} {V : Value → Value → Prop}

section Parts

theorem rel_firstOf {schemas : List (Schema ν)} {check : Schema ν → Check m} {check' : Schema ν → Check n} {v w : Value}
    (each : ∀ s ∈ schemas, S.Rel V (check s v) (check' s w)) {f g : Failure} (last : S.Fails f g) :
    S.Rel V (Check.firstOf f (schemas.map check) v) (Check.firstOf g (schemas.map check') w) := by
  induction schemas generalizing f g with
  | nil => exact S.rel_throw last
  | cons s rest ih =>
    obtain ⟨first, rest⟩ := List.forall_mem_cons.1 each
    exact S.rel_retry first fun f g matched => ih rest matched

theorem rel_field (unseen : Unseen S.Fails V) {check : Check m} {check' : Check n} {a b : String × Value}
    (key : a.1 = b.1) (related : S.Rel V (check a.2) (check' b.2)) {fields fields' : List (String × Value)}
    (stored : List.Forall₂ (FieldsRelate V) fields fields') :
    S.Rel (List.Forall₂ (FieldsRelate V)) (check.field fields a) (check'.field fields' b) := by
  unfold Check.field
  rw [key]
  refine S.rel_bind (S.rel_adapt related (handsOn_within b.1) fun _ _ => S.failures.within b.1) fun x y values => ?_
  refine S.rel_pure ?_
  unfold store
  rw [unseen.isUndefined values]
  split
  · exact stored
  · exact put_related stored b.1 values

variable {ctx : Context m ν} {ctx' : Context n ν}

theorem rel_valueRules (settings : S.Settings V ctx ctx') {schema : Schema ν} (treats : S.Treats V ctx ctx' schema)
    {v w : Value} (related : V v w) : S.Rel V (ctx.valueRules schema v) (ctx'.valueRules schema w) := by
  unfold Context.valueRules
  refine S.rel_rule_bind (settings.unseen.equality _ related) (S.rel_rule_bind (settings.enumeration _ related) ?_)
  split
  · next rule found => exact S.rel_rule (treats.custom rule found v w related)
  · exact S.rel_pure related

theorem rel_patternFields (unseen : Unseen S.Fails V) {p : KeyPattern} (compiles : S.Compiles ctx ctx' (.pattern p))
    {check : Check m} {check' : Check n} (each : ∀ v w, V v w → S.Rel V (check v) (check' w))
    {fields fields' matched matched' : List (String × Value)} (related : List.Forall₂ (FieldsRelate V) fields fields')
    (stored : List.Forall₂ (FieldsRelate V) matched matched') :
    S.Rel (List.Forall₂ (FieldsRelate V)) (ctx.patternFields p check fields matched)
      (ctx'.patternFields p check' fields' matched') := by
  refine S.rel_bind (compiles p rfl) fun compiled _ same => ?_
  subst same
  cases compiled with
  | error e => exact S.rel_throw (S.failures.refl _)
  | ok regex =>
    have selected := filter_related related (regex.isMatch ·)
    dsimp only
    cases keys : fields.filter (regex.isMatch ·.1) with
    | nil =>
      rw [keys, List.forall₂_nil_left_iff] at selected
      rw [selected]
      -- Nothing is selected: the failure for an absent value counts as a missing key unless it is fatal.
      refine S.rel_bind (S.rel_adapt (each _ _ (unseen.refl .undefined)) (fun f fatal => .inr ⟨_, if_pos fatal⟩) ?_)
        fun _ _ _ => S.rel_pure stored
      intro f g fails
      rw [S.failures.isFatal fails]
      split
      · exact S.failures.within _ fails
      · exact S.failures.refl _
    | cons first rest =>
      rw [keys] at selected
      obtain ⟨first', rest', head, tail, keys'⟩ := List.forall₂_cons_left_iff.1 selected
      rw [keys']
      exact rel_foldlM (.cons head tail) (fun a b same s t => rel_field unseen same.key (each _ _ same.value)) stored

section Entries

variable {declared : List (PropertyKey × Schema ν)} {check : PropertyKey × Schema ν → Check m}
  {check' : PropertyKey × Schema ν → Check n} (compiles : ∀ entry ∈ declared, S.Compiles ctx ctx' entry.1)
  (each : ∀ entry ∈ declared, ∀ v w, V v w → S.Rel V (check entry v) (check' entry w))
include compiles each

theorem rel_properties (unseen : Unseen S.Fails V) {fields fields' : List (String × Value)}
    (related : List.Forall₂ (FieldsRelate V) fields fields') :
    S.Rel (List.Forall₂ (FieldsRelate V)) (ctx.properties (declared.map fun entry => (entry.1, check entry)) fields)
      (ctx'.properties (declared.map fun entry => (entry.1, check' entry)) fields') := by
  simp only [Context.properties, List.foldlM_map]
  have items : List.Forall₂ (fun a b => a = b ∧ a ∈ declared) declared declared :=
    List.forall₂_same.2 fun entry member => ⟨rfl, member⟩
  refine rel_foldlM items ?_ .nil
  rintro entry _ ⟨rfl, member⟩ matched matched' stored
  have compiles := compiles entry member
  obtain ⟨key, s⟩ := entry
  cases key with
  | literal name =>
    have field : FieldsRelate V (name, (fields.lookup name).getD .undefined) (name, (fields'.lookup name).getD .undefined) :=
      .mk name (lookup_related related (unseen.refl .undefined) name)
    exact rel_field unseen field.key (each _ member _ _ field.value) stored
  | pattern p => exact rel_patternFields unseen compiles (each _ member) related stored

theorem rel_shape (settings : S.Settings V ctx ctx') {schema : Schema ν} (treats : S.Treats V ctx ctx' schema)
    {v w : Value} (related : V v w) :
    S.Rel V (ctx.shape schema (declared.map fun entry => (entry.1, check entry)) v)
      (ctx'.shape schema (declared.map fun entry => (entry.1, check' entry)) w) := by
  unfold Context.shape
  rw [← settings.unseen.absentExit _ related, ← settings.unseen.shape related]
  split
  · exact S.rel_pure (settings.unseen.refl _)
  · have keyed := settings.unseen.fields related
    generalize v.fields? = given, w.fields? = given' at keyed ⊢
    cases keyed with
    | none => exact S.rel_throw (S.failures.refl _)
    | some keyed =>
      exact S.rel_bind (rel_properties compiles each settings.unseen keyed) fun _ _ stored =>
        rel_valueRules settings treats (settings.unseen.withFields related stored)

theorem rel_nestedShape (unseen : Unseen S.Fails V) {v w : Value} (related : V v w) :
    S.Rel V (ctx.nestedShape declared (declared.map fun entry => (entry.1, check entry)) v)
      (ctx'.nestedShape declared (declared.map fun entry => (entry.1, check' entry)) w) := by
  unfold Context.nestedShape
  rw [← unseen.shape related]
  have keyed := unseen.fields related
  generalize v.fields? = given, w.fields? = given' at keyed ⊢
  cases keyed with
  | none => exact S.rel_throw (S.failures.refl _)
  | some keyed =>
    refine S.rel_bind (S.rel_adapt (rel_properties compiles each unseen keyed) (handsOn_relabelled _ _)
      fun _ _ => S.failures.relabelled _ _) fun _ _ stored => S.rel_pure (unseen.withFields related stored)

end Entries

section Schemas

variable {schemas : List (Schema ν)} {check : Schema ν → Check m} {check' : Schema ν → Check n}

theorem rel_alternation (settings : S.Settings V ctx ctx')
    (each : ∀ s ∈ schemas, ∀ v w, V v w → S.Rel V (check s v) (check' s w)) {schema : Schema ν}
    (treats : S.Treats V ctx ctx' schema) {v w : Value} (related : V v w) :
    S.Rel V (ctx.alternation schema (schemas.map check) v) (ctx'.alternation schema (schemas.map check') w) := by
  unfold Context.alternation
  rw [← settings.unseen.absentExit _ related, ← settings.unseen.shape related]
  split
  · exact S.rel_pure (settings.unseen.refl _)
  · have first := rel_firstOf (fun s member => each s member v w related) (S.failures.refl (.here .typeMismatch ""))
    refine S.rel_bind (S.rel_adapt first (fun f fatal => .inl (if_pos fatal)) ?_) fun _ _ chosen =>
      rel_valueRules settings treats chosen
    intro f g fails
    rw [S.failures.isFatal fails]
    split
    · exact fails
    · exact S.failures.refl _

theorem rel_element (each : ∀ s ∈ schemas, ∀ v w, V v w → S.Rel V (check s v) (check' s w)) (keepOrder : Bool)
    (index : Nat) {v w : Value} (related : V v w) :
    S.Rel V (Context.element keepOrder (schemas.map check) index v)
      (Context.element keepOrder (schemas.map check') index w) := by
  unfold Context.element
  split
  · simp only [List.getElem?_map]
    cases found : schemas[index]? with
    | none => exact S.rel_pure related
    | some s => exact each s (List.mem_of_getElem? found) v w related
  · exact rel_firstOf (fun s member => each s member v w related) (S.failures.refl _)

theorem rel_elements [LawfulMonad m] [LawfulMonad n] (unseen : Unseen S.Fails V)
    (each : ∀ s ∈ schemas, ∀ v w, V v w → S.Rel V (check s v) (check' s w)) (type : TypeRules) {v w : Value}
    (related : V v w) :
    S.Rel V (Context.elements type (schemas.map check) v) (Context.elements type (schemas.map check') w) := by
  have lists := unseen.accepts .array related
  cases v with
  | list xs =>
    cases w with
    | list ys =>
      have items := unseen.items related
      simp only [Context.elements, List.length_map, items.length_eq]
      split
      · exact S.rel_throw (S.failures.refl _)
      · refine S.rel_bind (rel_mapM (zipIdx_related items 0) ?_) fun _ _ outputs => S.rel_pure (unseen.list outputs)
        rintro ⟨x, index⟩ ⟨y, _⟩ ⟨values, rfl⟩
        exact S.rel_adapt (rel_element each type.keepOrder index values) (handsOn_relabelled_within _ _ _)
          fun _ _ fails => S.failures.relabelled _ _ (S.failures.within _ fails)
    | _ => cases lists
  | _ =>
    cases w with
    | list ys => cases lists
    | _ => exact S.rel_pure related

theorem rel_typed [LawfulMonad m] [LawfulMonad n] (settings : S.Settings V ctx ctx') {nested? : Option (Check m)}
    {nested?' : Option (Check n)} (type : TypeRules)
    (each : type.tag = .array → ∀ s ∈ schemas, ∀ v w, V v w → S.Rel V (check s v) (check' s w))
    (nested : ∀ v w, V v w → S.Rel V (nested?.elim (pure v) (· v)) (nested?'.elim (pure w) (· w)))
    {schema : Schema ν} (treats : S.Treats V ctx ctx' schema) {v w : Value} (related : V v w) :
    S.Rel V (ctx.typed schema type (schemas.map check) nested? v)
      (ctx'.typed schema type (schemas.map check') nested?' w) := by
  have rest (x y : Value) (listed : V x y) : S.Rel V (nested?.elim (pure x) (· x) >>= ctx.valueRules schema)
      (nested?'.elim (pure y) (· y) >>= ctx'.valueRules schema) :=
    S.rel_bind (nested x y listed) fun _ _ shaped => rel_valueRules settings treats shaped
  have unseen := settings.unseen
  unfold Context.typed
  rw [← unseen.accepts type.tag related, ← unseen.absentExit _ related, ← unseen.typeMismatch type.tag related,
    ← unseen.pattern _ _ related, ← unseen.className _ related]
  split
  · refine S.rel_rule_bind (unseen.bounds _ _ related) (S.rel_rule_bind (S.failures.corresponds_refl _)
      (S.rel_rule_bind (S.failures.corresponds_refl _) ?_))
    dsimp only
    split
    · next array => exact S.rel_bind (rel_elements unseen (each array) type related) rest
    · exact S.rel_bind (S.rel_pure related) rest
  · split
    · exact S.rel_pure (unseen.refl _)
    · exact S.rel_throw (S.failures.refl _)

end Schemas

end Parts

theorem rel_checkVia [LawfulMonad m] [LawfulMonad n] {ctx : Context m ν} {ctx' : Context n ν}
    (settings : S.Settings V ctx ctx') {enter : Nat → Check m → Check m} {enter' : Nat → Check n → Check n} {limit : Nat}
    (enters : ∀ depth ≤ limit, ∀ (check : Check m) (check' : Check n) (v w : Value), V v w →
      S.Rel V (check v) (check' w) → S.Rel V (enter depth check v) (enter' depth check' w)) {s : Schema ν}
    (treats : s.Everywhere (S.Treats V ctx ctx')) {depth : Nat} (fits : depth + s.height ≤ limit) {v w : Value} (related : V v w) :
    S.Rel V (ctx.checkVia enter (· + 1) s depth v) (ctx'.checkVia enter' (· + 1) s depth w) := by
  induction s generalizing depth v w with
  | shape rules properties ih =>
    obtain ⟨own, below⟩ := Schema.everywhere_iff.1 treats
    rw [Schema.everywhereBelow_shape] at below
    rw [Context.checkVia_shape, Context.checkVia_shape]
    have compiles : ∀ entry ∈ properties, S.Compiles ctx ctx' entry.1 := own.compiles
    refine enters depth (by omega) _ _ v w related (rel_shape compiles (fun entry member x y values => ?_) settings own related)
    have lower := Schema.height_entry rules member
    exact ih entry member (below entry member) (by omega) values
  | alternation rules members ih =>
    obtain ⟨own, below⟩ := Schema.everywhere_iff.1 treats
    rw [Schema.everywhereBelow_alternation] at below
    rw [Context.checkVia_alternation, Context.checkVia_alternation]
    refine enters depth (by omega) _ _ v w related (rel_alternation settings (fun s member x y values => ?_) own related)
    have lower := Schema.height_member rules member
    exact ih s member (below s member) (by omega) values
  | typed rules type items? nested? itemsIh nestedIh =>
    obtain ⟨own, below⟩ := Schema.everywhere_iff.1 treats
    rw [Context.checkVia_typed, Context.checkVia_typed]
    refine enters depth (by omega) _ _ v w related
      (rel_typed settings type (fun array s member x y values => ?_) (fun x y values => ?_) own related)
    · have lower := Schema.height_element rules nested? array member
      exact itemsIh array s member (Schema.everywhere_elementSchema ⟨nofun, nofun⟩ below member) (by omega) values
    · cases nested? with
      | none => exact S.rel_pure values
      | some properties =>
        have compiles : ∀ entry ∈ properties, S.Compiles ctx ctx' entry.1 := own.compiles
        refine rel_nestedShape compiles (fun entry member x y values => ?_) settings.unseen values
        have lower := Schema.height_nested rules type items? member
        exact nestedIh properties rfl entry member ((Schema.everywhereBelow_typed.1 below).2 entry member) (by omega) values

theorem rel_check [LawfulMonad m] [LawfulMonad n] {ctx : Context m ν} {ctx' : Context n ν}
    (settings : S.Settings V ctx ctx') (limit : ctx.config.maxDepth = ctx'.config.maxDepth) {s : Schema ν}
    (treats : s.Everywhere (S.Treats V ctx ctx')) (depth : Nat) {v w : Value} (related : V v w) :
    S.Rel V (ctx.check s depth v) (ctx'.check s depth w) := by
  rw [← ctx.checkVia_guarded, ← ctx'.checkVia_guarded]
  refine rel_checkVia settings (fun depth _ check check' v w _ inner => ?_) treats (Nat.le_refl _) related
  unfold Context.guarded
  rw [limit]
  split
  · exact S.rel_throw (S.failures.refl _)
  · exact inner

def ofAnswers {Fails : Failure → Failure → Prop} (failures : FailureMatch Fails) : Simulation Id Id where
  Fails := Fails
  failures := failures
  Rel V x y := Corresponds Fails V (outcome x) (outcome y)
  rel_pure related := .ok related
  rel_throw matched := .error matched
  rel_bind first later := first.bind fun a b _ _ related => later a b related
  rel_adapt related _ respects := related.adapt respects
  rel_retry {_ _ _ x y _ _} first later := by
    rw [outcome_tryCatch, outcome_tryCatch]
    generalize outcome x = answer, outcome y = answer' at first
    cases first with
    | ok related => exact .ok related
    | @error f g matched =>
      dsimp only
      rw [failures.isFatal matched]
      split
      · exact .error matched
      · exact later f g matched

end Simulation

end Conform
