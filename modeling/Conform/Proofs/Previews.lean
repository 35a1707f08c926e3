import Conform.Proofs.Descent
import Conform.Proofs.Simulation

/-! How much of an enumeration a message shows. Two settings that differ in nothing else give the same answers, except
that the texts of two failures may come from an enumeration that refuses the same value in both. -/

namespace Conform

section Answers

variable {α β : Type} {Fails : Failure → Failure → Prop}

theorem Corresponds.imp {Fails' : Failure → Failure → Prop} {V : α → β → Prop} {x : Except Failure α}
    {y : Except Failure β} (related : Corresponds Fails V x y) (weaker : ∀ f g, Fails f g → Fails' f g) :
    Corresponds Fails' V x y := by
  cases related with
  | ok related => exact .ok related
  | error matched => exact .error (weaker _ _ matched)

theorem Corresponds.foldlM {step step' : β → α → ExceptT Failure Id β} {items : List α}
    (each : ∀ a ∈ items, ∀ state, Corresponds Fails Eq (outcome (step state a)) (outcome (step' state a))) (start : β) :
    Corresponds Fails Eq (outcome (items.foldlM step start)) (outcome (items.foldlM step' start)) := by
  induction items generalizing start with
  | nil => exact .ok rfl
  | cons a items ih =>
    obtain ⟨first, rest⟩ := List.forall_mem_cons.1 each
    rw [List.foldlM_cons, List.foldlM_cons]
    apply (first start).bind
    rintro state _ - - rfl
    exact ih rest state

theorem Corresponds.mapM {step step' : α → ExceptT Failure Id β} {items : List α}
    (each : ∀ a ∈ items, Corresponds Fails Eq (outcome (step a)) (outcome (step' a))) :
    Corresponds Fails Eq (outcome (items.mapM step)) (outcome (items.mapM step')) := by
  induction items with
  | nil => exact .ok rfl
  | cons a items ih =>
    obtain ⟨first, rest⟩ := List.forall_mem_cons.1 each
    rw [List.mapM_cons, List.mapM_cons]
    apply first.bind
    rintro b _ - - rfl
    apply (ih rest).bind
    rintro bs _ - - rfl
    exact .ok rfl

/-- Failures that are the same, or of which neither is fatal. -/
def MildOrSame (f g : Failure) : Prop := f = g ∨ f.isFatal = false ∧ g.isFatal = false

theorem firstOf_corresponds {items : List α} {check check' : α → Check Id} {v : Value}
    (each : ∀ a ∈ items, Corresponds MildOrSame Eq (outcome (check a v)) (outcome (check' a v))) {f g : Failure}
    (last : MildOrSame f g) :
    Corresponds MildOrSame Eq (outcome (Check.firstOf f (items.map check) v))
      (outcome (Check.firstOf g (items.map check') v)) := by
  induction items generalizing f g with
  | nil => exact .error last
  | cons a rest ih =>
    obtain ⟨first, rest⟩ := List.forall_mem_cons.1 each
    simp only [List.map_cons, Check.firstOf, outcome_tryCatch]
    rcases first.ok_or_error with ⟨w, _, accepted, accepted', rfl⟩ | ⟨f, g, failed, failed', matched⟩
    · rw [accepted, accepted']
      exact .ok rfl
    · rw [failed, failed']
      rcases matched with rfl | ⟨mild, mild'⟩
      · cases fatal : f.isFatal with
        | true =>
          simp only [fatal, if_true]
          exact .error (.inl rfl)
        | false =>
          simp only [fatal, Bool.false_eq_true, if_false]
          exact ih rest (.inl rfl)
      · simp only [mild, mild', Bool.false_eq_true, if_false]
        exact ih rest (.inr ⟨mild, mild'⟩)

end Answers

namespace Descent

section

variable [RegexEngine] {ν : Type}

section Definitions

variable (config config' : Config) (custom : CustomRules ν)

inductive Enumerated : Place ν → Value → Failure → Prop where
  | mk {s : Schema ν} {v w : Value} {depth : Nat} {f : Failure} (working : Working config custom depth s v w)
      (failed : s.rules.constraints.checkEnumeration config.enumPreview w = .error f) :
      Enumerated ⟨.node s, v, depth⟩ w f

inductive Enumerating : Place ν → Failure → Failure → Prop where
  | here {place : Place ν} {w : Value} {f g : Failure} (first : Enumerated config custom place w f)
      (second : Enumerated config' custom place w g) : Enumerating place f g
  | inside {place next : Place ν} {frame : Frame} {f g : Failure} (first : Step config custom false place frame next)
      (second : Step config' custom false place frame next) (inner : Enumerating next f g) :
      Enumerating place (frame.pass f) (frame.pass g)

/-- Failures of one place that are the same but for the text of an enumeration. -/
def AgreeAt (place : Place ν) (f g : Failure) : Prop := f = g ∨ Enumerating config config' custom place f g

def ChecksAgree (s : Schema ν) (depth : Nat) : Prop :=
  ∀ v, Corresponds (AgreeAt config config' custom ⟨.node s, v, depth⟩) Eq
    (outcome ((Context.direct config custom).check s depth v))
    (outcome ((Context.direct config' custom).check s depth v))

end Definitions

variable {config config' : Config} {custom : CustomRules ν}

section Agreement

variable {place next : Place ν} {f g : Failure}

theorem Enumerated.mild {w : Value} (refused : Enumerated config custom place w f) : f.isFatal = false := by
  obtain ⟨_, failed⟩ := refused
  obtain ⟨message, rfl⟩ := Constraints.checkEnumeration_error failed
  rfl

theorem Enumerating.mild (enumerating : Enumerating config config' custom place f g) :
    f.isFatal = false ∧ g.isFatal = false := by
  induction enumerating with
  | here first second => exact ⟨first.mild, second.mild⟩
  | @inside _ _ frame f g _ _ _ ih =>
    rw [frame.isFatal_pass, frame.isFatal_pass]
    exact ih

theorem Enumerating.exists_walk (enumerating : Enumerating config config' custom place f g) :
    ∃ frames stop w raised raised', Walk config custom false place frames stop ∧
      Walk config' custom false place frames stop ∧ Enumerated config custom stop w raised ∧
      Enumerated config' custom stop w raised' ∧ f = report frames raised ∧ g = report frames raised' := by
  induction enumerating with
  | @here place w f g first second =>
    exact ⟨[], place, w, f, g, .stop place, .stop place, first, second, (report_nil f).symm, (report_nil g).symm⟩
  | @inside _ _ frame _ _ first second _ ih =>
    obtain ⟨frames, stop, w, raised, raised', walk, walk', refused, refused', rfl, rfl⟩ := ih
    exact ⟨frame :: frames, stop, w, raised, raised', .step first walk, .step second walk', refused, refused',
      (report_cons ..).symm, (report_cons ..).symm⟩

theorem Enumerating.kind_path (enumerating : Enumerating config config' custom place f g) :
    f.kind = g.kind ∧ f.path = g.path := by
  induction enumerating with
  | here first second =>
    obtain ⟨_, failed⟩ := first
    obtain ⟨_, failed'⟩ := second
    obtain ⟨message, rfl⟩ := Constraints.checkEnumeration_error failed
    obtain ⟨message', rfl⟩ := Constraints.checkEnumeration_error failed'
    exact ⟨rfl, rfl⟩
  | @inside _ _ frame f g _ _ inner ih =>
    obtain ⟨mild, mild'⟩ := inner.mild
    rw [frame.pass_of_mild mild, frame.pass_of_mild mild', ih.1, ih.2]
    exact ⟨rfl, rfl⟩

theorem AgreeAt.mildOrSame (agree : AgreeAt config config' custom place f g) : MildOrSame f g :=
  agree.imp_right Enumerating.mild

theorem AgreeAt.inside {frame : Frame} (first : Step config custom false place frame next)
    (second : Step config' custom false place frame next) (agree : AgreeAt config config' custom next f g) :
    AgreeAt config config' custom place (frame.pass f) (frame.pass g) := by
  rcases agree with rfl | enumerating
  · exact .inl rfl
  · exact .inr (.inside first second enumerating)

theorem corresponds_refl (place : Place ν) {α : Type} (x : Except Failure α) :
    Corresponds (AgreeAt config config' custom place) Eq x x :=
  .refl (fun _ => .inl rfl) x

end Agreement

section Properties

variable {place : Place ν} {properties : List (PropertyKey × Schema ν)} {fields : List (String × Value)}

theorem field_agrees {next : Place ν} {name : String} {check check' : Check Id} {v : Value}
    (first : Step config custom false place { token? := some name } next)
    (second : Step config' custom false place { token? := some name } next)
    (inner : Corresponds (AgreeAt config config' custom next) Eq (outcome (check v)) (outcome (check' v)))
    (matched : List (String × Value)) :
    Corresponds (AgreeAt config config' custom place) Eq (outcome (check.field matched (name, v)))
      (outcome (check'.field matched (name, v))) := by
  unfold Check.field
  apply Corresponds.bind (V := Eq)
  · exact inner.adapt fun f g agree => AgreeAt.inside first second agree
  · rintro w _ - - rfl
    exact .ok rfl

theorem patternFields_agrees {p : KeyPattern} {s : Schema ν} (declared : place.site.properties? = some properties)
    (keyed : place.value.fields? = some fields) (member : (.pattern p, s) ∈ properties)
    (inner : ChecksAgree config config' custom s (place.depth + 1)) (matched : List (String × Value)) :
    Corresponds (AgreeAt config config' custom place) Eq
      (outcome ((Context.direct config custom).patternFields p
        ((Context.direct config custom).check s (place.depth + 1)) fields matched))
      (outcome ((Context.direct config' custom).patternFields p
        ((Context.direct config' custom).check s (place.depth + 1)) fields matched)) := by
  simp only [Context.patternFields, Context.direct, liftId_bind, Id.run]
  cases compiled : p.compile with
  | error e => exact corresponds_refl ..
  | ok regex =>
    dsimp only
    cases selected : fields.filter (regex.isMatch ·.1) with
    | nil =>
      dsimp only
      apply Corresponds.bind (V := Eq)
      · -- A failure that is not fatal counts as a missing key, and fatal failures are the same.
        refine (inner .undefined).adapt fun f g agree => .inl ?_
        rcases agree.mildOrSame with rfl | ⟨mild, mild'⟩
        · rfl
        · simp only [mild, mild', Bool.false_eq_true, if_false]
      · rintro _ _ - - -
        exact .ok rfl
    | cons head rest =>
      apply Corresponds.foldlM
      intro field inside
      rw [← selected, List.mem_filter] at inside
      obtain ⟨found, selects⟩ := inside
      exact field_agrees (.selected declared keyed member compiled found selects)
        (.selected declared keyed member compiled found selects) (inner field.2)

theorem properties_agree (place : Place ν) (declared : place.site.properties? = some properties)
    (keyed : place.value.fields? = some fields)
    (inner : ∀ entry ∈ properties, ChecksAgree config config' custom entry.2 (place.depth + 1)) :
    Corresponds (AgreeAt config config' custom place) Eq
      (outcome ((Context.direct config custom).properties (properties.map fun entry =>
        (entry.1, (Context.direct config custom).check entry.2 (place.depth + 1))) fields))
      (outcome ((Context.direct config' custom).properties (properties.map fun entry =>
        (entry.1, (Context.direct config' custom).check entry.2 (place.depth + 1))) fields)) := by
  simp only [Context.properties, List.foldlM_map]
  apply Corresponds.foldlM
  intro entry member
  have inner := inner entry member
  obtain ⟨key, s⟩ := entry
  cases key with
  | literal name => exact field_agrees (.literal declared keyed member) (.literal declared keyed member) (inner _)
  | pattern p => exact patternFields_agrees declared keyed member inner

end Properties

section Elements

variable {schemas : List (Schema ν)} {v : Value} {depth : Nat}
  (inner : ∀ s ∈ schemas, ChecksAgree config config' custom s depth)
include inner

theorem firstOf_agrees (last : Failure) :
    Corresponds MildOrSame Eq
      (outcome (Check.firstOf last (schemas.map ((Context.direct config custom).check · depth)) v))
      (outcome (Check.firstOf last (schemas.map ((Context.direct config' custom).check · depth)) v)) := by
  apply firstOf_corresponds
  · intro s member
    exact (inner s member v).imp fun _ _ agree => agree.mildOrSame
  · exact .inl rfl

omit inner in
theorem firstOf_mild {last f : Failure} (mild : f.isFatal = false)
    (failed : outcome (Check.firstOf last (schemas.map ((Context.direct config custom).check · depth)) v) = .error f) :
    schemas = [] ∧ f = last ∨ ∃ before s, schemas = before ++ [s] ∧ Refused config custom before depth v ∧
      outcome ((Context.direct config custom).check s depth v) = .error f := by
  rcases Check.firstOf_error failed with ⟨_, _, _, _, _, _, fatal⟩ | ⟨refused, ⟨none, same⟩ | ⟨_, _, split, rejected⟩⟩
  · exact absurd fatal (by simp [mild])
  · exact .inl ⟨List.map_eq_nil_iff.1 none, same⟩
  · obtain ⟨before, s, same, earlier, rejected, _⟩ := refused_last refused split rejected
    exact .inr ⟨before, s, same, earlier, rejected⟩

/-- Of the failures of elements that are not fatal, only that of the last schema is handed on. -/
theorem element_agrees (keepOrder : Bool) (index : Nat) :
    Corresponds (AgreeAt config config' custom ⟨.element keepOrder schemas index, v, depth⟩) Eq
      (outcome (Context.element keepOrder (schemas.map ((Context.direct config custom).check · depth)) index v))
      (outcome (Context.element keepOrder (schemas.map ((Context.direct config' custom).check · depth)) index v)) := by
  cases keepOrder with
  | true =>
    simp only [Context.element, if_true, List.getElem?_map]
    cases found : schemas[index]? with
    | none => exact .ok rfl
    | some s =>
      have agree := inner s (List.mem_of_getElem? found) v
      exact agree.imp fun f g agree => AgreeAt.inside (.positional found) (.positional found) agree
  | false =>
    have settled := firstOf_agrees (v := v) inner (.here .arrayElement "No item schemas accept the element!")
    simp only [Context.element, Bool.false_eq_true, if_false]
    rcases settled.ok_or_error with ⟨w, _, accepted, accepted', rfl⟩ | ⟨f, g, failed, failed', rfl | ⟨mild, mild'⟩⟩
    · rw [accepted, accepted']
      exact .ok rfl
    · rw [failed, failed']
      exact .error (.inl rfl)
    · rw [failed, failed']
      apply Corresponds.error
      rcases firstOf_mild mild failed with ⟨rfl, rfl⟩ | ⟨before, s, rfl, refused, rejected⟩
      · rcases firstOf_mild mild' failed' with ⟨-, rfl⟩ | ⟨_, _, none, _⟩
        · exact .inl rfl
        · simp at none
      · rcases firstOf_mild mild' failed' with ⟨none, _⟩ | ⟨_, _, same, refused', rejected'⟩
        · simp at none
        · obtain ⟨rfl, last⟩ := List.append_inj' same rfl
          cases last
          have agree := inner s (by simp) v
          rw [rejected, rejected'] at agree
          cases agree with
          | error agree => exact AgreeAt.inside (.lastItem rfl refused) (.lastItem rfl refused') agree

end Elements

section Nodes

variable {rules : Rules ν} {v : Value} {depth : Nat}

theorem working_shape {properties : List (PropertyKey × Schema ν)} {fields matched : List (String × Value)}
    (present : rules.absentExit? v = none) (keyed : v.fields? = some fields)
    (found : outcome ((Context.direct config custom).properties (properties.map fun entry =>
      (entry.1, (Context.direct config custom).check entry.2 (depth + 1))) fields) = .ok matched) :
    Working config custom depth (.shape rules properties) v (v.withFields matched) := by
  obtain ⟨groups, added, rfl⟩ := Context.properties_ok.1 found
  rw [List.forall₂_map_left_iff] at added
  exact .shape present keyed added

theorem working_alternation {members : List (Schema ν)} {last : Failure} {w : Value}
    (present : rules.absentExit? v = none)
    (found : outcome (Check.firstOf last (members.map ((Context.direct config custom).check · (depth + 1))) v) = .ok w) :
    Working config custom depth (.alternation rules members) v w := by
  obtain ⟨_, _, _, split, refused, accepted⟩ := Check.firstOf_ok.1 found
  obtain ⟨before, s, after, rfl, rfl, rfl, rfl⟩ := split_of_map split
  exact .alternation present (refused_of_map refused) accepted

/-- Of the last rules of a node, only the enumeration sees the setting. -/
theorem valueRules_agree {s : Schema ν} {w : Value} (working : Working config custom depth s v w)
    (working' : Working config' custom depth s v w) :
    Corresponds (AgreeAt config config' custom ⟨.node s, v, depth⟩) Eq
      (outcome ((Context.direct config custom).valueRules s w))
      (outcome ((Context.direct config' custom).valueRules s w)) := by
  have enumeration : Corresponds (AgreeAt config config' custom ⟨.node s, v, depth⟩) Eq
      (s.rules.constraints.checkEnumeration config.enumPreview w)
      (s.rules.constraints.checkEnumeration config'.enumPreview w) := by
    have alike : s.rules.constraints.checkEnumeration config.enumPreview w = .ok () ↔
        s.rules.constraints.checkEnumeration config'.enumPreview w = .ok () := by
      rw [Constraints.checkEnumeration_ok, Constraints.checkEnumeration_ok]
    cases answer : s.rules.constraints.checkEnumeration config.enumPreview w with
    | ok _ =>
      rw [alike.1 answer]
      exact .ok rfl
    | error f =>
      cases answer' : s.rules.constraints.checkEnumeration config'.enumPreview w with
      | ok _ => cases answer.symm.trans (alike.2 answer')
      | error g => exact .error (.inr (.here ⟨working, answer⟩ ⟨working', answer'⟩))
  unfold Context.valueRules
  apply Corresponds.bind (V := Eq)
  · exact corresponds_refl ..
  · rintro _ _ - - -
    apply Corresponds.bind (V := Eq)
    · rw [outcome_liftExcept, outcome_liftExcept]
      exact enumeration
    · rintro _ _ - - -
      exact corresponds_refl ..

theorem shape_agrees {properties : List (PropertyKey × Schema ν)}
    (inner : ∀ entry ∈ properties, ChecksAgree config config' custom entry.2 (depth + 1)) :
    Corresponds (AgreeAt config config' custom ⟨.node (.shape rules properties), v, depth⟩) Eq
      (outcome ((Context.direct config custom).shape (.shape rules properties) (properties.map fun entry =>
        (entry.1, (Context.direct config custom).check entry.2 (depth + 1))) v))
      (outcome ((Context.direct config' custom).shape (.shape rules properties) (properties.map fun entry =>
        (entry.1, (Context.direct config' custom).check entry.2 (depth + 1))) v)) := by
  simp only [Context.shape, Schema.rules]
  cases present : rules.absentExit? v with
  | some exit => exact .ok rfl
  | none =>
    dsimp only
    cases keyed : v.fields? with
    | none => exact corresponds_refl ..
    | some fields =>
      dsimp only
      apply (properties_agree ⟨.node (.shape rules properties), v, depth⟩ rfl keyed inner).bind
      rintro matched _ found found' rfl
      exact valueRules_agree (working_shape present keyed found) (working_shape present keyed found')

theorem alternation_agrees {members : List (Schema ν)}
    (inner : ∀ s ∈ members, ChecksAgree config config' custom s (depth + 1)) :
    Corresponds (AgreeAt config config' custom ⟨.node (.alternation rules members), v, depth⟩) Eq
      (outcome ((Context.direct config custom).alternation (.alternation rules members)
        (members.map ((Context.direct config custom).check · (depth + 1))) v))
      (outcome ((Context.direct config' custom).alternation (.alternation rules members)
        (members.map ((Context.direct config' custom).check · (depth + 1))) v)) := by
  simp only [Context.alternation, Schema.rules]
  cases present : rules.absentExit? v with
  | some exit => exact .ok rfl
  | none =>
    dsimp only
    apply Corresponds.bind (V := Eq)
    · -- Failures of members are not handed on unless they are fatal, and then they are the same.
      refine (firstOf_agrees inner _).adapt fun f g matched => .inl ?_
      rcases matched with rfl | ⟨mild, mild'⟩
      · rfl
      · simp only [mild, mild', Bool.false_eq_true, if_false]
    · rintro w _ found found' rfl
      rw [outcome_adapt, mapError_ok] at found found'
      exact valueRules_agree (working_alternation present found) (working_alternation present found')

section Typed

variable {type : TypeRules} {items? : Option (List (Schema ν))} {nested? : Option (List (PropertyKey × Schema ν))}

theorem listed_of_ok (array : type.tag = .array) {listed : Value}
    (found : outcome (Context.elements type ((Schema.elementSchemas items?).map
      ((Context.direct config custom).check · (depth + 1))) v) = .ok listed) :
    Listed config custom type items? depth v listed := by
  rwa [Listed, if_pos array]

theorem listed_of_other (other : type.tag ≠ .array) : Listed config custom type items? depth v v := by
  rw [Listed, if_neg other]

theorem elements_agree (array : type.tag = .array)
    (inner : ∀ s ∈ Schema.elementSchemas items?, ChecksAgree config config' custom s (depth + 1)) :
    Corresponds (AgreeAt config config' custom ⟨.node (.typed rules type items? nested?), v, depth⟩) Eq
      (outcome (Context.elements type ((Schema.elementSchemas items?).map
        ((Context.direct config custom).check · (depth + 1))) v))
      (outcome (Context.elements type ((Schema.elementSchemas items?).map
        ((Context.direct config' custom).check · (depth + 1))) v)) := by
  cases v with
  | list xs =>
    simp only [Context.elements, List.length_map]
    split
    · exact corresponds_refl ..
    · apply Corresponds.bind (V := Eq)
      · apply Corresponds.mapM
        rintro ⟨x, index⟩ inside
        have found : xs[index]? = some x := List.mem_zipIdx_iff_getElem?.1 inside
        refine (element_agrees inner type.keepOrder index).adapt fun f g agree => ?_
        exact AgreeAt.inside (.element array found) (.element array found) agree
      · rintro ys _ - - rfl
        exact .ok rfl
  | _ => exact .ok rfl

theorem nestedShape_agrees {properties : List (PropertyKey × Schema ν)} {listed : Value}
    (accepted : type.tag.accepts v = true) (content : Listed config custom type items? depth v listed)
    (content' : Listed config' custom type items? depth v listed)
    (inner : ∀ entry ∈ properties, ChecksAgree config config' custom entry.2 (depth + 2)) :
    Corresponds (AgreeAt config config' custom ⟨.node (.typed rules type items? (some properties)), v, depth⟩) Eq
      (outcome ((Context.direct config custom).nestedShape properties (properties.map fun entry =>
        (entry.1, (Context.direct config custom).check entry.2 (depth + 2))) listed))
      (outcome ((Context.direct config' custom).nestedShape properties (properties.map fun entry =>
        (entry.1, (Context.direct config' custom).check entry.2 (depth + 2))) listed)) := by
  unfold Context.nestedShape
  cases keyed : listed.fields? with
  | none => exact corresponds_refl ..
  | some fields =>
    dsimp only
    have checked := properties_agree ⟨.nested properties, listed, depth + 1⟩ rfl keyed inner
    apply Corresponds.bind (V := Eq)
    · refine checked.adapt fun f g agree => ?_
      exact AgreeAt.inside (.nestedShape accepted content) (.nestedShape accepted content') agree
    · rintro matched _ - - rfl
      exact .ok rfl

theorem shaped_agrees {listed : Value} (accepted : type.tag.accepts v = true)
    (content : Listed config custom type items? depth v listed)
    (content' : Listed config' custom type items? depth v listed)
    (nested : ∀ properties, nested? = some properties → ∀ entry ∈ properties,
      ChecksAgree config config' custom entry.2 (depth + 2)) :
    Corresponds (AgreeAt config config' custom ⟨.node (.typed rules type items? nested?), v, depth⟩) Eq
      (outcome ((nested?.map fun properties => (Context.direct config custom).nestedShape properties
        (properties.map fun entry => (entry.1, (Context.direct config custom).check entry.2 (depth + 2)))).elim
          (pure listed) (· listed) >>= (Context.direct config custom).valueRules (.typed rules type items? nested?)))
      (outcome ((nested?.map fun properties => (Context.direct config' custom).nestedShape properties
        (properties.map fun entry => (entry.1, (Context.direct config' custom).check entry.2 (depth + 2)))).elim
          (pure listed) (· listed) >>= (Context.direct config' custom).valueRules (.typed rules type items? nested?))) := by
  cases nested? with
  | none => exact valueRules_agree (.typed accepted content) (.typed accepted content')
  | some properties =>
    apply (nestedShape_agrees accepted content content' (nested properties rfl)).bind
    rintro shaped _ made made' rfl
    exact valueRules_agree (working_typed accepted content made) (working_typed accepted content' made')

theorem typed_agrees
    (items : type.tag = .array → ∀ s ∈ Schema.elementSchemas items?, ChecksAgree config config' custom s (depth + 1))
    (nested : ∀ properties, nested? = some properties → ∀ entry ∈ properties,
      ChecksAgree config config' custom entry.2 (depth + 2)) :
    Corresponds (AgreeAt config config' custom ⟨.node (.typed rules type items? nested?), v, depth⟩) Eq
      (outcome ((Context.direct config custom).typed (.typed rules type items? nested?) type
        ((Schema.elementSchemas items?).map ((Context.direct config custom).check · (depth + 1)))
        (nested?.map fun properties => (Context.direct config custom).nestedShape properties
          (properties.map fun entry => (entry.1, (Context.direct config custom).check entry.2 (depth + 2)))) v))
      (outcome ((Context.direct config' custom).typed (.typed rules type items? nested?) type
        ((Schema.elementSchemas items?).map ((Context.direct config' custom).check · (depth + 1)))
        (nested?.map fun properties => (Context.direct config' custom).nestedShape properties
          (properties.map fun entry => (entry.1, (Context.direct config' custom).check entry.2 (depth + 2)))) v)) := by
  unfold Context.typed
  by_cases accepted : type.tag.accepts v = true
  · rw [if_pos accepted, if_pos accepted]
    apply Corresponds.bind (V := Eq)
    · exact corresponds_refl ..
    rintro _ _ - - -
    apply Corresponds.bind (V := Eq)
    · exact corresponds_refl ..
    rintro _ _ - - -
    apply Corresponds.bind (V := Eq)
    · exact corresponds_refl ..
    rintro _ _ - - -
    by_cases array : type.tag = .array
    · rw [if_pos array, if_pos array]
      apply (elements_agree array (items array)).bind
      rintro listed _ found found' rfl
      exact shaped_agrees accepted (listed_of_ok array found) (listed_of_ok array found') nested
    · rw [if_neg array, if_neg array]
      exact shaped_agrees accepted (listed_of_other array) (listed_of_other array) nested
  · rw [if_neg accepted, if_neg accepted]
    exact corresponds_refl ..

end Typed

theorem guarded_agrees (limit : config.maxDepth = config'.maxDepth) {s : Schema ν} {check check' : Check Id}
    (inner : Corresponds (AgreeAt config config' custom ⟨.node s, v, depth⟩) Eq (outcome (check v)) (outcome (check' v))) :
    Corresponds (AgreeAt config config' custom ⟨.node s, v, depth⟩) Eq
      (outcome ((Context.direct config custom).guarded depth check v))
      (outcome ((Context.direct config' custom).guarded depth check' v)) := by
  have limit : (Context.direct config custom).config.maxDepth = (Context.direct config' custom).config.maxDepth := limit
  unfold Context.guarded
  rw [limit]
  split
  · exact corresponds_refl ..
  · exact inner

theorem checks_agree (limit : config.maxDepth = config'.maxDepth) (s : Schema ν) (depth : Nat) :
    ChecksAgree config config' custom s depth := by
  induction s generalizing depth with
  | shape rules properties ih =>
    intro v
    rw [Context.check_shape, Context.check_shape]
    exact guarded_agrees limit (shape_agrees fun entry member => ih entry member (depth + 1))
  | alternation rules members ih =>
    intro v
    rw [Context.check_alternation, Context.check_alternation]
    exact guarded_agrees limit (alternation_agrees fun s member => ih s member (depth + 1))
  | typed rules type items? nested? itemsIh nestedIh =>
    intro v
    rw [Context.check_typed, Context.check_typed]
    apply guarded_agrees limit
    apply typed_agrees
    · exact fun array s member => itemsIh array s member (depth + 1)
    · exact fun properties found entry member => nestedIh properties found entry member (depth + 2)

end Nodes

/-- How much of an enumeration a message shows has no influence on anything else. The answer is the same value, or a
failure of the same kind at the same place with the same message, unless the failure goes back to an enumeration that
refuses the same value either way. -/
theorem validateWith_preview (config : Config) (shown : Nat) (custom : CustomRules ν) (v : Value) (s : Schema ν) :
    (∃ w, validateWith config custom v s = .ok w ∧
      validateWith { config with enumPreview := shown } custom v s = .ok w) ∨
    ∃ f g, validateWith config custom v s = .error f ∧
      validateWith { config with enumPreview := shown } custom v s = .error g ∧ f.kind = g.kind ∧ f.path = g.path ∧
      (f.message = g.message ∨ ∃ frames stop w raised raised', Walk config custom false ⟨.node s, v, 0⟩ frames stop ∧
        Walk { config with enumPreview := shown } custom false ⟨.node s, v, 0⟩ frames stop ∧
        Enumerated config custom stop w raised ∧
        Enumerated { config with enumPreview := shown } custom stop w raised' ∧
        f = report frames raised ∧ g = report frames raised') := by
  have limit : config.maxDepth = Config.maxDepth { config with enumPreview := shown } := rfl
  rcases (checks_agree limit s 0 v).ok_or_error with ⟨w, _, accepted, accepted', rfl⟩ | ⟨f, g, failed, failed', rfl | enumerating⟩
  · exact .inl ⟨w, accepted, accepted'⟩
  · exact .inr ⟨f, f, failed, failed', rfl, rfl, .inl rfl⟩
  · obtain ⟨kind, path⟩ := enumerating.kind_path
    exact .inr ⟨f, g, failed, failed', kind, path, .inr enumerating.exists_walk⟩

end

def smallDigits : Schema Unit :=
  .typed {} { tag := .array } (some [.typed { constraints := { contains? := some [.int 1, .int 2] } } { tag := .number }
    none none]) none

example :
    validateWith {} accepting (.list [.int 1, .int 7]) smallDigits = .error ⟨.arrayElement,
      "Invalid type of element in array! Invalid property value! Expected one of '1, 2', instead got '7'!", ["[1]"]⟩ ∧
    validateWith { enumPreview := 1 } accepting (.list [.int 1, .int 7]) smallDigits = .error ⟨.arrayElement,
      "Invalid type of element in array! Invalid property value! Expected one of '1, ...', instead got '7'!",
      ["[1]"]⟩ :=
  ⟨by rfl, by rfl⟩

end Descent

end Conform
