import Mathlib.Data.Set.Insert
import Conform.Schema.TypeExpr

/-! Type expressions read back as sets of values, letter by letter. A text that is read in the same way
wherever an alternative may stand has a meaning of its own, and so do the texts put together from such texts. -/

namespace Conform

namespace TypeExpr

def named (name : String) : Set Value := {v | ∃ tag : TypeTag, tag.name = name ∧ tag.accepts v = true}

def listsOf (elements : Set Value) : Set Value := {v | ∃ xs, v = .list xs ∧ ∀ x ∈ xs, x ∈ elements}

/-- How far a type expression has been read. In the innermost open union some alternatives are complete, and
the last one stands for some values, or is a name of which some letters have been read. -/
structure Reading where
  /-- What is complete of the unions around, the innermost one first. -/
  around : List (Set Value) := []
  complete : Set Value := ∅
  last : Set Value := ∅
  letters : List Char := []

namespace Reading

def alternative (r : Reading) : Set Value := if r.letters = [] then r.last else named (String.ofList r.letters)

def total (r : Reading) : Set Value := r.complete ∪ r.alternative

def step (r : Reading) : Char → Reading
  | '|' => { r with complete := r.total, last := ∅, letters := [] }
  | '(' => { around := r.complete :: r.around }
  | ')' => { around := r.around.tail, complete := r.around.headD ∅, last := r.total }
  | ']' => { r with last := listsOf r.alternative, letters := [] }
  | ' ' | '[' => r
  | letter => { r with letters := r.letters ++ [letter] }

def run (text : String) (r : Reading) : Reading := text.toList.foldl step r

def Fresh (r : Reading) : Prop := r.last = ∅ ∧ r.letters = []

theorem fresh_bar (r : Reading) : (r.step '|').Fresh := ⟨rfl, rfl⟩

theorem fresh_open (r : Reading) : (r.step '(').Fresh := ⟨rfl, rfl⟩

theorem run_append (s t : String) (r : Reading) : run (s ++ t) r = run t (run s r) := by
  simp only [run, String.toList_append, List.foldl_append]

theorem step_letter (r : Reading) {c : Char} (letter : c.isLower = true) :
    r.step c = { r with letters := r.letters ++ [c] } := by
  unfold step
  split
  case h_7 => rfl
  all_goals exact absurd letter (by decide)

theorem foldl_letters {letters : List Char} (lower : letters.all Char.isLower = true) (r : Reading) :
    letters.foldl step r = { r with letters := r.letters ++ letters } := by
  induction letters generalizing r with
  | nil => simp
  | cons c rest ih =>
    rw [List.all_cons, Bool.and_eq_true] at lower
    rw [List.foldl_cons, step_letter r lower.1, ih lower.2]
    simp

theorem run_name (tag : TypeTag) (r : Reading) :
    run tag.name r = { r with letters := r.letters ++ tag.name.toList } := by
  have lower : tag.name.toList.all Char.isLower = true := by cases tag <;> decide
  exact foldl_letters lower r

end Reading

/-- As an alternative, a text adds the values to its union and leaves the unions around alone. -/
structure ReadsAs (text : String) (values : Set Value) : Prop where
  around {r : Reading} : r.Fresh → (r.run text).around = r.around
  total {r : Reading} : r.Fresh → (r.run text).total = r.complete ∪ values

structure ReadsAsOne (text : String) (values : Set Value) : Prop where
  around {r : Reading} : r.Fresh → (r.run text).around = r.around
  complete {r : Reading} : r.Fresh → (r.run text).complete = r.complete
  alternative {r : Reading} : r.Fresh → (r.run text).alternative = values

def read (text : String) : Set Value := (Reading.run text {}).total

theorem ReadsAs.read_eq {text : String} {values : Set Value} (reads : ReadsAs text values) : read text = values := by
  have start : Reading.Fresh {} := ⟨rfl, rfl⟩
  rw [read, reads.total start, Set.empty_union]

theorem ReadsAs.own {text : String} {values : Set Value} (reads : ReadsAs text values) : ReadsAs text (read text) := by
  rw [reads.read_eq]
  exact reads

namespace ReadsAsOne

variable {text : String} {values : Set Value}

theorem reads (one : ReadsAsOne text values) : ReadsAs text values where
  around := one.around
  total fresh := by rw [Reading.total, one.complete fresh, one.alternative fresh]

theorem own (one : ReadsAsOne text values) : ReadsAsOne text (read text) := by
  rw [one.reads.read_eq]
  exact one

theorem empty : ReadsAsOne "" ∅ where
  around _ := rfl
  complete _ := rfl
  alternative {r} fresh := by
    change r.alternative = ∅
    rw [Reading.alternative, if_pos fresh.2, fresh.1]

theorem name (tag : TypeTag) : ReadsAsOne tag.name {v | tag.accepts v = true} where
  around _ := by rw [Reading.run_name]
  complete _ := by rw [Reading.run_name]
  alternative fresh := by
    have written : tag.name.toList ≠ [] := by cases tag <;> decide
    rw [Reading.run_name, Reading.alternative, fresh.2, List.nil_append, if_neg written, String.ofList_toList]
    ext v
    constructor
    · intro given
      obtain ⟨other, same, accepted⟩ := given
      exact TypeTag.name_injective same ▸ accepted
    · intro accepted
      exact ⟨tag, rfl, accepted⟩

theorem bracketed (reads : ReadsAs text values) : ReadsAsOne ("(" ++ text ++ ")") values where
  around {r} _ := by
    rw [Reading.run_append, Reading.run_append]
    change ((r.step '(').run text).around.tail = r.around
    rw [reads.around r.fresh_open]
    rfl
  complete {r} _ := by
    rw [Reading.run_append, Reading.run_append]
    change ((r.step '(').run text).around.headD ∅ = r.complete
    rw [reads.around r.fresh_open]
    rfl
  alternative {r} _ := by
    rw [Reading.run_append, Reading.run_append]
    change ((r.step '(').run text).total = values
    rw [reads.total r.fresh_open]
    exact Set.empty_union values

/-- The suffix of lists applies to a single alternative. -/
theorem list (one : ReadsAsOne text values) : ReadsAsOne (text ++ "[" ++ "" ++ "]") (listsOf values) where
  around fresh := by
    rw [Reading.run_append, Reading.run_append, Reading.run_append]
    exact one.around fresh
  complete fresh := by
    rw [Reading.run_append, Reading.run_append, Reading.run_append]
    exact one.complete fresh
  alternative fresh := by
    rw [Reading.run_append, Reading.run_append, Reading.run_append]
    exact congrArg listsOf (one.alternative fresh)

end ReadsAsOne

theorem ReadsAs.append {s t : String} {values values' : Set Value} (first : ReadsAs s values)
    (second : ReadsAs t values') : ReadsAs (s ++ " | " ++ t) (values ∪ values') where
  around {r} fresh := by
    rw [Reading.run_append, Reading.run_append]
    change (((r.run s).step '|').run t).around = r.around
    rw [second.around (Reading.fresh_bar _)]
    exact first.around fresh
  total {r} fresh := by
    rw [Reading.run_append, Reading.run_append]
    change (((r.run s).step '|').run t).total = r.complete ∪ (values ∪ values')
    rw [second.total (Reading.fresh_bar _)]
    change (r.run s).total ∪ values' = r.complete ∪ (values ∪ values')
    rw [first.total fresh, Set.union_assoc]

def readAny (texts : List String) : Set Value := {v | ∃ text ∈ texts, v ∈ read text}

theorem readAny_nil : readAny [] = ∅ := by
  simp [readAny]

theorem readAny_cons (text : String) (rest : List String) : readAny (text :: rest) = read text ∪ readAny rest := by
  ext v
  simp [readAny]

theorem readAny_singleton (text : String) : readAny [text] = read text := by
  rw [readAny_cons, readAny_nil, Set.union_empty]

theorem readAny_append (texts texts' : List String) : readAny (texts ++ texts') = readAny texts ∪ readAny texts' := by
  ext v
  simp [readAny, or_and_right, exists_or]

theorem readAny_distinct (texts : List String) : readAny (distinct texts) = readAny texts := by
  ext v
  simp [readAny, distinct, List.mem_eraseDups]

theorem readsAs_union {texts : List String} (each : ∀ text ∈ texts, ReadsAs text (read text)) :
    ReadsAs (union texts) (readAny texts) := by
  induction texts with
  | nil =>
    rw [readAny_nil]
    exact ReadsAsOne.empty.reads
  | cons text rest ih =>
    obtain ⟨own, each⟩ := List.forall_mem_cons.1 each
    rw [readAny_cons]
    cases rest with
    | nil =>
      rw [readAny_nil, Set.union_empty]
      exact own
    | cons next rest =>
      rw [union, String.intercalate_cons_cons]
      exact own.append (ih each)

theorem readsAsOne_union {texts : List String} (few : texts.length ≤ 1)
    (each : ∀ text ∈ texts, ReadsAsOne text (read text)) : ReadsAsOne (union texts) (readAny texts) := by
  match texts, few with
  | [], _ =>
    rw [readAny_nil]
    exact .empty
  | [text], _ =>
    rw [readAny_singleton]
    exact each text List.mem_cons_self

section Flags

variable [RegexEngine] {ν : Type} (rules : Rules ν)

theorem readAny_orNull (texts : List String) :
    readAny (Schema.orNull rules texts) = readAny texts ∪ {v | v = .null ∧ rules.nullable = true} := by
  have null : readAny ["null"] = {v | v = .null} := by
    rw [readAny_singleton]
    refine (ReadsAsOne.name .null).reads.read_eq.trans (Set.ext fun v => ?_)
    cases v <;> simp [TypeTag.accepts, Value.isNull]
  unfold Schema.orNull
  split
  · next nullable => simp only [readAny_append, null, nullable, and_true]
  · next required => simp [required]

theorem readAny_orUndefined (texts : List String) :
    readAny (Schema.orUndefined rules texts) = readAny texts ∪ {v | v = .undefined ∧ rules.optional = true} := by
  have undefined : readAny ["undefined"] = {v | v = .undefined} := by
    rw [readAny_singleton]
    refine (ReadsAsOne.name .undefined).reads.read_eq.trans (Set.ext fun v => ?_)
    cases v <;> simp [TypeTag.accepts, Value.isUndefined]
  unfold Schema.orUndefined
  split
  · next optional => simp only [readAny_append, undefined, optional, and_true]
  · next required => simp [required]

theorem forall_flags {condition : String → Prop} (null : condition "null") (undefined : condition "undefined")
    {texts : List String} (each : ∀ text ∈ texts, condition text) :
    ∀ text ∈ Schema.orUndefined rules (Schema.orNull rules texts), condition text := by
  have spared : ∀ text ∈ Schema.orNull rules texts, condition text := by
    unfold Schema.orNull
    split
    · exact List.forall_mem_append.2 ⟨each, List.forall_mem_singleton.2 null⟩
    · exact each
  unfold Schema.orUndefined
  split
  · exact List.forall_mem_append.2 ⟨spared, List.forall_mem_singleton.2 undefined⟩
  · exact spared

end Flags

end TypeExpr

end Conform
