import Conform.Proofs.Stability
import Conform.Schema.Builder

/-! Alternations of rewriting members. An earlier member that rejects a value may accept what a later
one has made of it, and take it over. The answer stands only where this leaves it as it is, but each
takeover goes to an earlier member, so that further rounds settle. -/

namespace Conform

section

variable [RegexEngine] {ν : Type} {config : Config} {custom : CustomRules ν}

theorem validateWith_oneOf {members : List (Schema ν)} (plain : Plain config (.oneOf members)) {v w : Value} :
    validateWith config custom v (.oneOf members) = .ok w ↔ FirstAccepts config custom members v w := by
  have present : ({} : Rules ν).absentExit? v = none := by cases v <;> rfl
  have free : ({} : Rules ν).constraints.Wants w := ⟨nofun, nofun⟩
  rw [Schema.oneOf, validateWith_alternation plain]
  simp [present, free]

theorem FirstAccepts.append {earlier : List (Schema ν)} {v w : Value}
    (first : FirstAccepts config custom earlier v w) (later : List (Schema ν)) :
    FirstAccepts config custom (earlier ++ later) v w := by
  obtain ⟨before, s, after, rfl, rejected, accepted⟩ := first
  exact ⟨before, s, after ++ later, by simp, rejected, accepted⟩

/-- What a member matches as it is, the alternation matches so too, or an earlier member rewrites it. -/
theorem stands_or_taken_over {before after : List (Schema ν)} {s : Schema ν} {w : Value}
    (again : validateWith config custom w s = .ok w) :
    FirstAccepts config custom (before ++ s :: after) w w ∨
      ∃ y, y ≠ w ∧ FirstAccepts config custom before w y := by
  by_cases taken : ∃ y, FirstAccepts config custom before w y
  · obtain ⟨y, first⟩ := taken
    by_cases same : y = w
    · subst same
      exact .inl (first.append _)
    · exact .inr ⟨y, same, first⟩
  · refine .inl ⟨before, s, after, rfl, fun earlier member y accepted => taken ?_, again⟩
    exact exists_firstAccepts member accepted

def rounds (config : Config) (custom : CustomRules ν) (s : Schema ν) : Nat → Value → Outcome
  | 0, v => .ok v
  | n + 1, v => do rounds config custom s n (← validateWith config custom v s)

theorem exists_rounds {members before after : List (Schema ν)} {s : Schema ν}
    (plain : Plain config (.oneOf members)) (all : ∀ s ∈ members, s.Everywhere (Rematches config custom))
    (declared : members = before ++ s :: after) {w : Value} (again : validateWith config custom w s = .ok w) :
    ∃ n ≤ before.length, ∃ y, rounds config custom (.oneOf members) n w = .ok y ∧
      validateWith config custom y (.oneOf members) = .ok y := by
  induction size : before.length using Nat.strongRecOn generalizing before after s w with
  | ind _ ih =>
    rcases stands_or_taken_over again with stands | ⟨y, _, first⟩
    · exact ⟨0, Nat.zero_le _, w, rfl, (validateWith_oneOf plain).2 (declared ▸ stands)⟩
    · have taken := (validateWith_oneOf plain).2 (declared ▸ first.append (s :: after))
      -- The member that takes the answer over stands before the one that gave it.
      obtain ⟨ahead, t, between, rfl, _, accepted⟩ := first
      have member : t ∈ members := by simp [declared]
      have kept := rematched (plain.member member) (all t member) accepted
      have split : members = ahead ++ t :: (between ++ s :: after) := by simp [declared]
      have shorter : ahead.length < (ahead ++ t :: between).length := by simp
      obtain ⟨n, bound, z, settles, stands⟩ := ih ahead.length (size ▸ shorter) split kept rfl
      refine ⟨n + 1, by omega, z, ?_, stands⟩
      rw [rounds, taken]
      exact settles

def flatShape (rules : Rules ν) (fields : List (String × Rules ν × TypeRules)) : Schema ν :=
  .shape rules (fields.map fun field => (.literal field.1, .typed field.2.1 field.2.2 none none))

/-- Flat shapes with distinct keys, without rules of the caller and without equality, whose nodes match
their own defaults as they are. -/
structure Flat (config : Config) (custom : CustomRules ν) (s : Schema ν) : Prop where
  distinct : ∃ rules fields, s = flatShape rules fields ∧ (fields.map Prod.fst).Nodup
  uncustomized : s.Everywhere fun node => node.rules.custom? = none
  silent : s.Everywhere fun node => ¬Compares node
  defaults : s.Everywhere (DefaultMatched config custom)

theorem flatShape_everywhere {rules : Rules ν} {fields : List (String × Rules ν × TypeRules)}
    {condition : Schema ν → Prop} (own : condition (flatShape rules fields))
    (each : ∀ field ∈ fields, condition (.typed field.2.1 field.2.2 none none)) :
    (flatShape rules fields).Everywhere condition := by
  refine Schema.everywhere_iff.2 ⟨own, Schema.everywhereBelow_shape.2 (List.forall_mem_map.2 ?_)⟩
  intro field member
  exact Schema.everywhere_iff.2 ⟨each field member, Schema.everywhereBelow_typed.2 ⟨nofun, nofun⟩⟩

theorem Flat.rematches {s : Schema ν} (flat : Flat config custom s) : s.Everywhere (Rematches config custom) := by
  obtain ⟨rules, fields, rfl, distinct⟩ := flat.distinct
  have once : SelectsOnce (flatShape rules fields) := by
    intro properties found
    cases found
    refine List.pairwise_map.2 ((List.pairwise_map.1 distinct).imp fun differ name both => differ ?_)
    exact both.1.symm.trans both.2
  have structural : (flatShape rules fields).Everywhere fun node => SelectsOnce node ∧ ChoosesSettled node :=
    flatShape_everywhere ⟨once, trivial⟩ fun _ _ => ⟨nofun, fun _ _ => .inl (Nat.le_refl 1)⟩
  exact fun node inside =>
    ⟨(structural node inside).1, (structural node inside).2, flat.defaults node inside⟩

/-- Of members that match their own answers as they are, the first that accepts a value decides. Its
answer stands exactly if no member before it rewrites it, and it settles after at most as many rounds
as there are members before it. -/
theorem validateWith_oneOf_settles {members before after : List (Schema ν)} {s : Schema ν}
    (plain : Plain config (.oneOf members)) (all : ∀ s ∈ members, s.Everywhere (Rematches config custom))
    (declared : members = before ++ s :: after) {v w : Value}
    (rejected : ∀ earlier ∈ before, ∀ y, validateWith config custom v earlier ≠ .ok y)
    (accepted : validateWith config custom v s = .ok w) :
    validateWith config custom v (.oneOf members) = .ok w ∧
      (validateWith config custom w (.oneOf members) = .ok w ↔
        ∀ y, FirstAccepts config custom before w y → y = w) ∧
      ∃ n ≤ before.length, ∃ y, rounds config custom (.oneOf members) n w = .ok y ∧
        validateWith config custom y (.oneOf members) = .ok y := by
  have member : s ∈ members := by simp [declared]
  have again := rematched (plain.member member) (all s member) accepted
  refine ⟨(validateWith_oneOf plain).2 ⟨before, s, after, declared, rejected, accepted⟩, ⟨?_, ?_⟩,
    exists_rounds plain all declared again⟩
  · intro stands y first
    have taken := (validateWith_oneOf plain).2 (declared ▸ first.append (s :: after))
    exact Except.ok.inj (taken.symm.trans stands)
  · intro same
    refine (validateWith_oneOf plain).2 (declared ▸ (stands_or_taken_over again).resolve_right ?_)
    intro given
    obtain ⟨y, differs, first⟩ := given
    exact differs (same y first)

end

def textOr (default : String) : Rules Empty × TypeRules :=
  ({ optional := true, default? := some (.string default) }, { tag := .string })

def signed : Schema Empty := flatShape {} [("name", textOr "anonymous")]

def numbered : Schema Empty := flatShape {} [("id", {}, { tag := .number })]

def enrolled : Schema Empty := flatShape {} [("name", {}, { tag := .string }), ("role", textOr "member")]

theorem flat_of_fields {fields : List (String × Rules Empty × TypeRules)} (distinct : (fields.map Prod.fst).Nodup)
    (each : ∀ field ∈ fields, (∃ default, field.2 = textOr default) ∨ field.2.1 = {}) :
    Flat {} noRules (flatShape {} fields) where
  distinct := ⟨_, _, rfl, distinct⟩
  uncustomized := by
    refine flatShape_everywhere rfl fun field member => ?_
    rcases each field member with ⟨_, same⟩ | same <;> simp [Schema.rules, same, textOr]
  silent := by
    refine flatShape_everywhere (not_compares rfl rfl) fun field member => ?_
    rcases each field member with ⟨_, same⟩ | same <;> simp [Compares, Schema.rules, same, textOr]
  defaults := by
    refine flatShape_everywhere (fun optional => absurd optional Bool.false_ne_true)
      fun field member optional d declared => ?_
    rcases each field member with ⟨_, same⟩ | same
    · simp only [Schema.rules, same, textOr, Option.some.injEq] at declared
      subst declared
      rw [same]
      rfl
    · simp [Schema.rules, same] at optional

theorem signed_flat : Flat {} noRules signed :=
  flat_of_fields (by decide) (List.forall_mem_singleton.2 (.inl ⟨_, rfl⟩))

theorem numbered_flat : Flat {} noRules numbered :=
  flat_of_fields (by decide) (List.forall_mem_singleton.2 (.inr rfl))

theorem enrolled_flat : Flat {} noRules enrolled :=
  flat_of_fields (by decide) (List.forall_mem_cons.2 ⟨.inr rfl, List.forall_mem_singleton.2 (.inl ⟨_, rfl⟩)⟩)

theorem numbered_settles :
    Plain {} (.oneOf [enrolled, signed, numbered]) ∧
    (∀ s ∈ [enrolled, signed, numbered], s.Everywhere (Rematches {} noRules)) ∧
    (∀ earlier ∈ [enrolled, signed], ∀ y,
      validateWith {} noRules (.object [("name", .int 1), ("id", .int 2)]) earlier ≠ .ok y) ∧
    validateWith {} noRules (.object [("name", .int 1), ("id", .int 2)]) numbered = .ok (.object [("id", .int 2)]) ∧
    validateWith {} noRules (.object [("name", .int 1), ("id", .int 2)]) (.oneOf [enrolled, signed, numbered]) =
      .ok (.object [("id", .int 2)]) ∧
    (validateWith {} noRules (.object [("id", .int 2)]) (.oneOf [enrolled, signed, numbered]) =
        .ok (.object [("id", .int 2)]) ↔
      ∀ y, FirstAccepts {} noRules [enrolled, signed] (.object [("id", .int 2)]) y → y = .object [("id", .int 2)]) ∧
    ∃ n ≤ 2, ∃ y,
      rounds {} noRules (.oneOf [enrolled, signed, numbered]) n (.object [("id", .int 2)]) = .ok y ∧
      validateWith {} noRules y (.oneOf [enrolled, signed, numbered]) = .ok y := by
  have flat : ∀ s ∈ [enrolled, signed, numbered], Flat {} noRules s := by
    simp only [List.forall_mem_cons]
    exact ⟨enrolled_flat, signed_flat, numbered_flat, nofun⟩
  have plain : Plain {} (.oneOf [enrolled, signed, numbered]) := by
    refine ⟨Schema.everywhere_iff.2 ⟨rfl, Schema.everywhereBelow_alternation.2 ?_⟩, by decide⟩
    exact fun s member => (flat s member).uncustomized
  have all : ∀ s ∈ [enrolled, signed, numbered], s.Everywhere (Rematches {} noRules) :=
    fun s member => (flat s member).rematches
  have rejected : ∀ earlier ∈ [enrolled, signed], ∀ y,
      validateWith {} noRules (.object [("name", .int 1), ("id", .int 2)]) earlier ≠ .ok y := by
    simp only [List.forall_mem_cons]
    exact ⟨nofun, nofun, nofun⟩
  have accepted : validateWith {} noRules (.object [("name", .int 1), ("id", .int 2)]) numbered =
      .ok (.object [("id", .int 2)]) := by rfl
  have declared : [enrolled, signed, numbered] = [enrolled, signed] ++ numbered :: [] := rfl
  exact ⟨plain, all, rejected, accepted, validateWith_oneOf_settles plain all declared rejected accepted⟩

/-- An alternation of flat shapes need not leave its own answers alone: what is matched as numbered
becomes signed. -/
theorem numbered_taken_over :
    (∀ s ∈ [signed, numbered], Flat {} noRules s) ∧
    validateWith {} noRules (.object [("name", .int 1), ("id", .int 2)]) (.oneOf [signed, numbered]) =
      .ok (.object [("id", .int 2)]) ∧
    validateWith {} noRules (.object [("id", .int 2)]) (.oneOf [signed, numbered]) ≠
      .ok (.object [("id", .int 2)]) := by
  refine ⟨?_, rfl, fun same => ?_⟩
  · simp only [List.forall_mem_cons]
    exact ⟨signed_flat, numbered_flat, nofun⟩
  · have other : validateWith {} noRules (.object [("id", .int 2)]) (.oneOf [signed, numbered]) =
        .ok (.object [("name", .string "anonymous")]) := by rfl
    simp [other] at same

end Conform
