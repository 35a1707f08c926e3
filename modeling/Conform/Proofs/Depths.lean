import Conform.Proofs.Recording
import Conform.Regex.Engine

/-! The depths at which a check enters nodes. None of them is greater than the height of the schema, whatever
the value is, so that the guard never trips on a schema that fits and no count of levels overflows. -/

namespace Conform

def depthNotes : Recorder (List Nat) Nat where
  add noted depth := noted ++ [depth]
  Sound _ := True
  sound_add _ _ := trivial

theorem addAll_depthNotes (noted new : List Nat) : depthNotes.addAll noted new = noted ++ new := by
  induction new generalizing noted with
  | nil => exact noted.append_nil.symm
  | cons depth rest ih => exact (ih (noted ++ [depth])).trans (List.append_assoc noted [depth] rest)

section

variable [RegexEngine] {ν : Type}

namespace Context

def noting (config : Config) (custom : CustomRules ν) : Context (StateM (List Nat)) ν :=
  ⟨config, fun p => pure p.compile, custom⟩

def noted (ctx : Context (StateM (List Nat)) ν) (depth : Nat) (check : Check (StateM (List Nat))) :
    Check (StateM (List Nat)) := fun v => do
  modify (· ++ [depth])
  ctx.guarded depth check v

end Context

/-- Validation that counts levels as given and notes the depth of each node where it enters it. -/
def validateNoting (config : Config) (custom : CustomRules ν) (next : Nat → Nat) (v : Value) (s : Schema ν) :
    Outcome × List Nat :=
  let ctx := Context.noting config custom
  ((ctx.checkVia ctx.noted next s 0 v).run.run []).run

theorem rel_noted (config : Config) (custom : CustomRules ν) (Own : Nat → Prop) {depth : Nat} (own : Own depth)
    (check : Check (StateM (List Nat))) (check' : Check Id) (v : Value)
    (related : (depthNotes.relation Own).Rel (check v) (check' v)) :
    (depthNotes.relation Own).Rel ((Context.noting config custom).noted depth check v)
      ((Context.direct config custom).guarded depth check' v) := by
  have note : (depthNotes.relation Own).Rel (modify (· ++ [depth])) (pure ()) :=
    ⟨[depth], List.forall_mem_singleton.2 own, fun _ _ => rfl⟩
  have guarded : (depthNotes.relation Own).Rel ((Context.noting config custom).guarded depth check v)
      ((Context.direct config custom).guarded depth check' v) :=
    (depthNotes.settings Own config custom _).guarded related depth
  have both := (depthNotes.relation Own).rel_bind note fun _ => guarded
  rwa [pure_bind] at both

theorem exists_validateNoting (config : Config) (custom : CustomRules ν) (v : Value) (s : Schema ν) :
    ∃ depths, validateNoting config custom (· + 1) v s = (validateWith config custom v s, depths) ∧
      ∀ depth ∈ depths, depth ≤ s.height := by
  have compiles : s.Everywhere fun node => ∀ entry ∈ node.properties?.getD [],
      (depthNotes.relation (· ≤ s.height)).Compiles (Context.noting config custom) (Context.direct config custom)
        entry.1 :=
    fun _ _ _ _ _ _ => ⟨[], nofun, fun _ _ => rfl⟩
  have related := CheckRelation.rel_checkVia (depthNotes.settings (· ≤ s.height) config custom _)
    (fun _ shallow => rel_noted config custom (· ≤ s.height) shallow) compiles (Nat.le_of_eq (Nat.zero_add _)) v
  rw [Context.checkVia_guarded] at related
  obtain ⟨depths, below, records⟩ := related
  refine ⟨depths, ?_, below⟩
  exact (records [] trivial).trans (congrArg (Prod.mk _) (addAll_depthNotes [] depths))

/-- On a schema that fits, the guard never trips and no check enters a node deeper than the schema is high. So the
count of levels is the same in words, which wrap around at a number above the limit. -/
theorem validateWith_of_fits {config : Config} {custom : CustomRules ν} {s : Schema ν} (fits : s.height ≤ config.maxDepth)
    (quiet : s.Everywhere (Context.QuietRule custom)) (v : Value) :
    (∀ f, validateWith config custom v s = .error f → f.kind ≠ .depthExceeded) ∧
    (∃ depths, validateNoting config custom (· + 1) v s = (validateWith config custom v s, depths) ∧
      ∀ depth ∈ depths, depth ≤ s.height) ∧
    ∀ words, config.maxDepth < words →
      validateNoting config custom (fun depth => (depth + 1) % words) v s =
        validateNoting config custom (· + 1) v s := by
  refine ⟨fun f failed => ?_, exists_validateNoting config custom v s, fun words above => ?_⟩
  · have mild := Context.check_mild fits quiet failed
    exact beq_eq_false_iff_ne.1 mild
  · have counts : ∀ depth < s.height, (depth + 1) % words = depth + 1 :=
      fun depth lower => Nat.mod_eq_of_lt (by omega)
    unfold validateNoting
    dsimp only
    rw [Context.checkVia_next _ _ counts (Nat.le_of_eq (Nat.zero_add _))]

end

def keeping : CustomRules Unit := fun _ v _ => .ok v

def boxedList : Schema Unit :=
  .typed {} { tag := .object } none (some [(.literal "all", .typed {} { tag := .array } none none)])

def deepBox : Value := .object [("all", .list [.list [.list []]])]

/-- The nested shape is two levels down and the elements of the list one more, which do not count further. -/
theorem boxedList_of_fits :
    boxedList.height ≤ 3 ∧ boxedList.Everywhere (Context.QuietRule keeping) ∧
    validateNoting ⟨3, 5⟩ keeping (· + 1) deepBox boxedList = (.ok deepBox, [0, 2, 3]) ∧
    (∀ f, validateWith ⟨3, 5⟩ keeping deepBox boxedList = .error f → f.kind ≠ .depthExceeded) ∧
    (∃ depths, validateNoting ⟨3, 5⟩ keeping (· + 1) deepBox boxedList =
        (validateWith ⟨3, 5⟩ keeping deepBox boxedList, depths) ∧
      ∀ depth ∈ depths, depth ≤ boxedList.height) ∧
    ∀ words, 3 < words →
      validateNoting ⟨3, 5⟩ keeping (fun depth => (depth + 1) % words) deepBox boxedList =
        validateNoting ⟨3, 5⟩ keeping (· + 1) deepBox boxedList := by
  have fits : boxedList.height ≤ 3 := by decide
  have quiet : boxedList.Everywhere (Context.QuietRule keeping) :=
    List.forall_mem_cons.2 ⟨nofun, List.forall_mem_singleton.2 nofun⟩
  exact ⟨fits, quiet, by rfl, validateWith_of_fits fits quiet deepBox⟩

end Conform
