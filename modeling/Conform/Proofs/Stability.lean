import Conform.Proofs.Meaning

/-! Validation of matched values. What a schema has matched it accepts again, and where it leaves
no choice between replacements it matches the same. -/

namespace Conform

/-- What a property adds for the stored fields: of the fields under a marker only those present
are left. -/
def PropertyKey.readd (pairs : List (String × Value)) : PropertyKey → List (String × Value)
  | .literal _ => pairs
  | .pattern _ => storeAll [] pairs

theorem PropertyKey.storeAll_readd (key : PropertyKey) (pairs : List (String × Value)) :
    storeAll [] (key.readd pairs) = storeAll [] pairs := by
  cases key with
  | literal => rfl
  | pattern => exact storeAll_storeAll pairs

theorem Value.fields?_withFields (v : Value) (fields : List (String × Value)) :
    (v.withFields fields).fields? = some fields := by
  cases v <;> rfl

theorem Value.withFields_withFields (v : Value) (fields stored : List (String × Value)) :
    (v.withFields fields).withFields stored = v.withFields stored := by
  cases v <;> rfl

theorem Value.withFields_alike {v : Value} {fields : List (String × Value)} (keyed : v.fields? = some fields)
    (stored : List (String × Value)) :
    (∀ tag : TypeTag, tag.accepts (v.withFields stored) = tag.accepts v) ∧
      (v.withFields stored).className? = v.className? ∧ (v.withFields stored).number? = none ∧
      (v.withFields stored).length? = none ∧ ∀ text, v.withFields stored ≠ .string text := by
  cases v <;> cases keyed <;> exact ⟨fun tag => by cases tag <;> rfl, rfl, rfl, rfl, nofun⟩

section

variable [RegexEngine]

/-- The names that a key stands for. A marker that does not compile stands for none. -/
def PropertyKey.Selects (key : PropertyKey) (name : String) : Prop :=
  match key with
  | .literal own => name = own
  | .pattern p => ∃ regex, p.compile = .ok regex ∧ regex.isMatch name = true

theorem PropertyKey.selects_pattern {p : KeyPattern} {regex : Regex} (compiled : p.compile = .ok regex)
    (name : String) : regex.isMatch name = true ↔ (PropertyKey.pattern p).Selects name := by
  constructor
  · exact fun matched => ⟨regex, compiled, matched⟩
  · intro given
    obtain ⟨other, found, matched⟩ := given
    cases compiled.symm.trans found
    exact matched

/-- The names of a key find among the stored fields exactly what its property has added. -/
def Holds (key : PropertyKey) (pairs stored : List (String × Value)) : Prop :=
  ∀ select : String → Bool, (∀ name, select name = true ↔ key.Selects name) →
    stored.filter (select ·.1) = storeAll [] pairs

section Property

variable {fields stored pairs : List (String × Value)} {key : PropertyKey} {check : Value → Outcome}

theorem Adds.selects (adds : Adds fields key check pairs) {pair : String × Value} (member : pair ∈ pairs) :
    key.Selects pair.1 := by
  cases adds with
  | literal => exact congrArg Prod.fst (List.mem_singleton.1 member)
  | @pattern p regex _ _ compiled each _ =>
    obtain ⟨field, inside, same, _⟩ := exists_of_mem_results each member
    rw [same]
    exact ⟨regex, compiled, (List.mem_filter.1 inside).2⟩

theorem Holds.lookup {name : String} {y : Value} (holds : Holds (.literal name) [(name, y)] stored) :
    (stored.lookup name).getD .undefined = y := by
  have found := holds (· == name) fun other => beq_iff_eq
  rw [← Fields.lookup_filter (· == name) (beq_self_eq_true name) stored, found]
  cases y <;> simp [storeAll, store, Value.isUndefined, Fields.put]

/-- Where a marker is left without fields, an absent value was the answer to some value, or had to
be accepted in the first place. -/
private theorem absent_answered {regex : Regex}
    (each : List.Forall₂ (Check.Keeps check) (fields.filter (regex.isMatch ·.1)) pairs)
    (absent : fields.filter (regex.isMatch ·.1) = [] → ∃ y, check .undefined = .ok y)
    (emptied : storeAll [] pairs = []) :
    ∃ x y, check x = .ok y ∧ (x = .undefined ∨ y = .undefined) := by
  cases pairs with
  | nil =>
    obtain ⟨y, accepted⟩ := absent (List.forall₂_nil_right_iff.1 each)
    exact ⟨.undefined, y, accepted, .inl rfl⟩
  | cons pair rest =>
    obtain ⟨field, _, _, accepted⟩ := exists_of_mem_results each List.mem_cons_self
    exact ⟨field.2, pair.2, accepted, .inr (eq_undefined_of_storeAll emptied List.mem_cons_self)⟩

theorem Holds.asks (holds : Holds key pairs stored) (adds : Adds fields key check pairs) {means : Value → Prop}
    (again : ∀ x y, check x = .ok y → means x ∧ means y) : key.Asks means stored := by
  cases adds with
  | literal accepted =>
    rw [PropertyKey.Asks, holds.lookup]
    exact (again _ _ accepted).2
  | @pattern p regex _ _ compiled each absent =>
    have found := holds regex.isMatch (PropertyKey.selects_pattern compiled)
    refine ⟨regex, compiled, fun field member matched => ?_, fun none => ?_⟩
    · have inside : field ∈ storeAll [] pairs := found ▸ List.mem_filter.2 ⟨member, matched⟩
      rcases mem_storeAll inside with nothing | ⟨inside, _⟩
      · cases nothing
      · obtain ⟨source, _, _, accepted⟩ := exists_of_mem_results each inside
        exact (again _ _ accepted).2
    · have emptied : storeAll [] pairs = [] := by
        rw [← found]
        exact List.filter_eq_nil_iff.2 fun field member => by simp [none field member]
      obtain ⟨x, y, accepted, rfl | rfl⟩ := absent_answered each absent emptied
      · exact (again _ _ accepted).1
      · exact (again _ _ accepted).2

theorem Holds.readds (holds : Holds key pairs stored) (adds : Adds fields key check pairs)
    (again : ∀ x y, check x = .ok y → check y = .ok y) : Adds stored key check (key.readd pairs) := by
  cases adds with
  | literal accepted =>
    apply Adds.literal
    rw [holds.lookup]
    exact again _ _ accepted
  | @pattern p regex _ _ compiled each absent =>
    have found := holds regex.isMatch (PropertyKey.selects_pattern compiled)
    refine .pattern compiled ?_ fun none => ?_
    · rw [found, PropertyKey.readd, List.forall₂_same]
      intro pair member
      rcases mem_storeAll member with nothing | ⟨inside, _⟩
      · cases nothing
      · obtain ⟨source, _, _, accepted⟩ := exists_of_mem_results each inside
        exact ⟨rfl, again _ _ accepted⟩
    · rw [found] at none
      obtain ⟨x, y, accepted, rfl | rfl⟩ := absent_answered each absent none
      · exact ⟨y, accepted⟩
      · exact ⟨_, again _ _ accepted⟩

end Property

def SelectsOnce {ν : Type} (node : Schema ν) : Prop :=
  ∀ properties, node.properties? = some properties →
    properties.Pairwise fun a b => ∀ name, ¬(a.1.Selects name ∧ b.1.Selects name)

variable {ν : Type} {config : Config} {custom : CustomRules ν}

section Structure

variable {properties : List (PropertyKey × Schema ν)} {fields : List (String × Value)}
  {groups : List (List (String × Value))}

theorem exists_rows (check : Schema ν → Value → Outcome)
    (disjoint : properties.Pairwise fun a b => ∀ name, ¬(a.1.Selects name ∧ b.1.Selects name))
    (adds : List.Forall₂ (fun entry => Adds fields entry.1 (check entry.2)) properties groups) :
    ∃ rows : List ((PropertyKey × Schema ν) × List (String × Value)),
      rows.map Prod.fst = properties ∧ rows.map Prod.snd = groups ∧
      Separated (fun entry => entry.1.Selects) rows ∧
      ∀ row ∈ rows, Adds fields row.1.1 (check row.1.2) row.2 := by
  obtain ⟨same, each⟩ := List.forall₂_iff_zip.1 adds
  have each (row) (member : row ∈ properties.zip groups) : Adds fields row.1.1 (check row.1.2) row.2 := each member
  have first : (properties.zip groups).map Prod.fst = properties := List.map_fst_zip (by omega)
  refine ⟨properties.zip groups, first, List.map_snd_zip (by omega), ⟨?_, ?_⟩, each⟩
  · exact fun row member pair inside => (each row member).selects inside
  · rw [← first, List.pairwise_map] at disjoint
    exact disjoint

private theorem holds_of_rows {rows : List ((PropertyKey × Schema ν) × List (String × Value))}
    (separated : Separated (fun entry => entry.1.Selects) rows)
    {row : (PropertyKey × Schema ν) × List (String × Value)} (member : row ∈ rows) :
    Holds row.1.1 row.2 (storeAll [] (rows.map Prod.snd).flatten) := by
  intro select selects
  rw [← List.flatMap_def]
  exact filter_storeAll_rows separated member selects

theorem StructureBecomes.keyedBy {v w : Value}
    (disjoint : properties.Pairwise fun a b => ∀ name, ¬(a.1.Selects name ∧ b.1.Selects name))
    (becomes : StructureBecomes config custom properties v w)
    (again : ∀ entry ∈ properties, ∀ x y, validateWith config custom x entry.2 = .ok y →
      entry.2.Describes x ∧ entry.2.Describes y) :
    KeyedBy (properties.map fun entry => (entry.1, entry.2.Describes)) w := by
  obtain ⟨fields, groups, _, adds, rfl⟩ := becomes
  obtain ⟨rows, rfl, rfl, separated, each⟩ := exists_rows (fun s x => validateWith config custom x s) disjoint adds
  refine ⟨_, Value.fields?_withFields _ _, ?_⟩
  simp only [List.forall_mem_map]
  intro row member
  exact (holds_of_rows separated member).asks (each row member) (again _ (List.mem_map_of_mem member))

theorem StructureBecomes.again {v w : Value}
    (disjoint : properties.Pairwise fun a b => ∀ name, ¬(a.1.Selects name ∧ b.1.Selects name))
    (becomes : StructureBecomes config custom properties v w)
    (again : ∀ entry ∈ properties, ∀ x y, validateWith config custom x entry.2 = .ok y →
      validateWith config custom y entry.2 = .ok y) :
    StructureBecomes config custom properties w w := by
  obtain ⟨fields, groups, _, adds, rfl⟩ := becomes
  obtain ⟨rows, rfl, rfl, separated, each⟩ := exists_rows (fun s x => validateWith config custom x s) disjoint adds
  have readds (row) (member : row ∈ rows) :=
    (holds_of_rows separated member).readds (each row member) (again _ (List.mem_map_of_mem member))
  refine ⟨_, rows.map fun row => row.1.1.readd row.2, Value.fields?_withFields _ _, ?_, ?_⟩
  · simp only [AddsAll, List.forall₂_map_left_iff, List.forall₂_map_right_iff, List.forall₂_same]
    exact readds
  · have separated' : Separated (fun entry => entry.1.Selects)
        (rows.map fun row => (row.1, row.1.1.readd row.2)) := by
      refine ⟨?_, List.pairwise_map.2 separated.disjoint⟩
      simp only [List.forall_mem_map]
      exact fun row member pair inside => (readds row member).selects inside
    have stored := storeAll_rows separated'
    simp only [List.flatMap_map, PropertyKey.storeAll_readd, ← storeAll_rows separated] at stored
    rw [Value.withFields_withFields, ← List.flatMap_def, ← List.flatMap_def, stored]

end Structure

section Content

variable {rules : Rules ν} {type : TypeRules} {items? : Option (List (Schema ν))}
  {nested? : Option (List (PropertyKey × Schema ν))}

/-- What a typed node asks of a value alone stays true of what the value becomes: lists keep their
length, and structures their class. -/
theorem ContentBecomes.admits {v w : Value} (becomes : ContentBecomes config custom type items? nested? v w)
    (accepted : type.tag.accepts v = true) (bounds : rules.constraints.Bounds type.tag v)
    (pattern : rules.constraints.Matches type.tag v) (named : type.Classifies v) :
    type.tag.accepts w = true ∧ rules.constraints.Bounds type.tag w ∧
      rules.constraints.Matches type.tag w ∧ type.Classifies w := by
  cases becomes with
  | same => exact ⟨accepted, bounds, pattern, named⟩
  | list array become =>
    rw [array] at *
    refine ⟨rfl, ⟨nofun, fun _ size found => ?_⟩, nofun, named⟩
    apply bounds.2 (.inr rfl) size
    rw [← found]
    exact congrArg some become.2.1.symm
  | keyed other become =>
    obtain ⟨fields, groups, keyed, _, rfl⟩ := become
    obtain ⟨same, className, number, length, text⟩ := Value.withFields_alike keyed (storeAll [] groups.flatten)
    refine ⟨(same type.tag).trans accepted, ⟨fun _ x found => ?_, fun _ size found => ?_⟩,
      fun _ _ text' _ found => absurd found (text text'), ?_⟩
    · cases number.symm.trans found
    · cases length.symm.trans found
    · rw [TypeRules.Classifies, className]
      exact named

theorem ElementsBecome.lists {items : List (Schema ν)} {xs ys : List Value}
    (become : ElementsBecome config custom type items xs ys)
    (again : ∀ s ∈ items, ∀ x y, validateWith config custom x s = .ok y → s.Describes y) :
    type.Lists (items.map Schema.Describes) (.list ys) := by
  obtain ⟨fixed, same, each⟩ := become
  refine ⟨ys, rfl, fun keep => by rw [same, fixed keep, List.length_map], ?_⟩
  have source {index : Nat} {y : Value} (atIndex : ys[index]? = some y) :
      ∃ x, ElementBecomes config custom type.keepOrder items index x y := by
    obtain ⟨inYs, _⟩ := List.getElem?_eq_some_iff.1 atIndex
    exact ⟨_, each index _ y (List.getElem?_eq_getElem (by omega)) atIndex⟩
  split
  · next keepOrder =>
    intro index y means atIndex found
    rw [List.getElem?_map, Option.map_eq_some_iff] at found
    obtain ⟨s, found, rfl⟩ := found
    obtain ⟨x, ⟨_, ⟨missing, _⟩ | ⟨s', found', accepted⟩⟩ | ⟨other, _⟩⟩ := source atIndex
    · cases missing.symm.trans found
    · cases found.symm.trans found'
      exact again s (List.mem_of_getElem? found) x y accepted
    · cases keepOrder.symm.trans other
  · next anywhere =>
    intro y member
    obtain ⟨index, atIndex⟩ := List.mem_iff_getElem?.1 member
    obtain ⟨x, ⟨keepOrder, _⟩ | ⟨_, first⟩⟩ := source atIndex
    · exact absurd keepOrder anywhere
    · obtain ⟨s, member, accepted⟩ := first.accepts
      exact ⟨s.Describes, List.mem_map_of_mem member, again s member x y accepted⟩

end Content

def DefaultAccepted (config : Config) (custom : CustomRules ν) (node : Schema ν) : Prop :=
  node.rules.optional = true → ∀ d, node.rules.default? = some d →
    ∃ y, validateWith config custom d node = .ok y

structure Reaccepts (config : Config) (custom : CustomRules ν) (node : Schema ν) : Prop where
  verbatim : ComparesVerbatim node
  once : SelectsOnce node
  default : DefaultAccepted config custom node

theorem reaccepts_any : Reaccepts config custom .any :=
  ⟨comparesVerbatim_of_silent rfl rfl, nofun, nofun⟩

theorem reaccepts_verbatim {s : Schema ν} (all : s.Everywhere (Reaccepts config custom)) :
    s.Everywhere ComparesVerbatim :=
  fun node inside => (all node inside).verbatim

private theorem describes_of_exit {s : Schema ν} (plain : Plain config s)
    (all : s.Everywhere (Reaccepts config custom)) {v w : Value}
    (accepted : validateWith config custom v s = .ok w) (exit : s.rules.absentExit? v = some w) :
    s.Describes w := by
  have verbatim := reaccepts_verbatim all
  rcases Rules.absentExit?_cases exit with rfl | ⟨optional, declared⟩
  · exact (exists_matched_iff plain verbatim w).1 ⟨w, accepted⟩
  · have default := (Schema.everywhere_iff.1 all).1.default optional w declared
    exact (exists_matched_iff plain verbatim w).1 default

theorem describes_matched {s : Schema ν} (plain : Plain config s)
    (all : s.Everywhere (Reaccepts config custom)) {v w : Value}
    (accepted : validateWith config custom v s = .ok w) : s.Describes w := by
  induction s generalizing v w with
  | shape rules properties ih =>
    rcases (validateWith_shape plain).1 accepted with exit | ⟨_, becomes, holds⟩
    · exact describes_of_exit plain all accepted exit
    · obtain ⟨own, below⟩ := Schema.everywhere_iff.1 all
      rw [Schema.everywhereBelow_shape] at below
      refine Schema.describes_shape.2 (.inr ⟨becomes.keyedBy (own.once _ rfl) ?_, holds⟩)
      intro entry member x y accepted
      have verbatim := reaccepts_verbatim (below entry member)
      exact ⟨(exists_matched_iff (plain.entry member) verbatim x).1 ⟨y, accepted⟩,
        ih entry member (plain.entry member) (below entry member) accepted⟩
  | alternation rules members ih =>
    rcases (validateWith_alternation plain).1 accepted with exit | ⟨_, first, holds⟩
    · exact describes_of_exit plain all accepted exit
    · have below := Schema.everywhereBelow_alternation.1 (Schema.everywhere_iff.1 all).2
      obtain ⟨s, member, accepted⟩ := first.accepts
      have described := ih s member (plain.member member) (below s member) accepted
      exact Schema.describes_alternation.2 (.inr ⟨⟨s, member, described⟩, holds⟩)
  | typed rules type items? nested? itemsIh nestedIh =>
    rcases (validateWith_typed plain).1 accepted with ⟨_, exit⟩ | ⟨fit, bounds, pattern, named, becomes, holds⟩
    · exact describes_of_exit plain all accepted exit
    · obtain ⟨own, below⟩ := Schema.everywhere_iff.1 all
      obtain ⟨fit, bounds, pattern, named⟩ := becomes.admits fit bounds pattern named
      refine Schema.describes_typed.2 (.inr ⟨fit, bounds, pattern, named, ?_, ?_, holds⟩)
      · intro array
        cases becomes with
        | list _ become =>
          apply become.lists
          intro s member x y accepted
          exact itemsIh array s member (plain.element array member)
            (Schema.everywhere_elementSchema reaccepts_any below member) accepted
        | keyed other => exact absurd array other
        | same other => exact absurd array other
      · intro properties same
        obtain rfl := same
        cases becomes with
        | keyed _ become =>
          apply become.keyedBy (own.once _ rfl)
          intro entry member x y accepted
          have below := (Schema.everywhereBelow_typed.1 below).2 entry member
          have verbatim := reaccepts_verbatim below
          exact ⟨(exists_matched_iff (plain.nested rfl member) verbatim x).1 ⟨y, accepted⟩,
            nestedIh properties rfl entry member (plain.nested rfl member) below accepted⟩

/-- A matched value is accepted again: no name is selected twice, equality is asked only of values
that are kept, and defaults are acceptable. -/
theorem validateWith_accepts_matched {s : Schema ν}
    (uncustomized : s.Everywhere fun node => node.rules.custom? = none) (fits : s.height ≤ config.maxDepth)
    (once : s.Everywhere SelectsOnce) (verbatim : s.Everywhere ComparesVerbatim)
    (defaults : s.Everywhere (DefaultAccepted config custom)) {v w : Value}
    (matched : validateWith config custom v s = .ok w) : ∃ y, validateWith config custom w s = .ok y := by
  have all : s.Everywhere (Reaccepts config custom) := fun node inside =>
    ⟨verbatim node inside, once node inside, defaults node inside⟩
  have plain : Plain config s := ⟨uncustomized, fits⟩
  exact (exists_matched_iff plain verbatim w).2 (describes_matched plain all matched)

end

theorem versioned_once : versioned.Everywhere SelectsOnce := by
  have apart (name : String) : ¬((PropertyKey.literal "version").Selects name ∧
      (PropertyKey.pattern extension).Selects name) := by
    intro given
    obtain ⟨rfl, regex, compiled, matched⟩ := given
    have excluded : extension.compile.map (·.isMatch "version") = .ok false := by rfl
    rw [compiled] at excluded
    cases matched.symm.trans (Except.ok.inj excluded)
  refine versioned_everywhere ?_ nofun nofun
  intro properties found
  cases found
  exact .cons (List.forall_mem_singleton.2 apart) (List.pairwise_singleton _ _)

def labelText : Schema Empty := .typed {} { tag := .string } none none

def labelShape : Schema Empty := .shape {} [(.literal "label", labelText)]

def labelled : Schema Empty := .alternation {} [labelShape, versioned]

theorem labelled_accepted_again :
    (labelled.Everywhere fun node => node.rules.custom? = none) ∧ labelled.height ≤ ({} : Config).maxDepth ∧
      labelled.Everywhere SelectsOnce ∧ labelled.Everywhere ComparesVerbatim ∧
      labelled.Everywhere (DefaultAccepted {} noRules) ∧
      validateWith {} noRules (.object [("x-label", .string "b"), ("label", .undefined)]) labelled =
        .ok (.object [("version", .int 1), ("x-label", .string "b")]) ∧
      ∃ y, validateWith {} noRules (.object [("version", .int 1), ("x-label", .string "b")]) labelled = .ok y := by
  have everywhere {condition : Schema Empty → Prop} (own : condition labelled) (shape : condition labelShape)
      (text : condition labelText) (other : versioned.Everywhere condition) : labelled.Everywhere condition :=
    List.forall_mem_cons.2 ⟨own, List.forall_mem_cons.2 ⟨shape, List.forall_mem_cons.2 ⟨text, other⟩⟩⟩
  have uncustomized : labelled.Everywhere fun node => node.rules.custom? = none :=
    everywhere rfl rfl rfl (versioned_everywhere rfl rfl rfl)
  have fits : labelled.height ≤ ({} : Config).maxDepth := by decide
  have once : labelled.Everywhere SelectsOnce := by
    refine everywhere nofun ?_ nofun versioned_once
    intro properties found
    cases found
    exact List.pairwise_singleton _ _
  have verbatim : labelled.Everywhere ComparesVerbatim :=
    everywhere (comparesVerbatim_of_silent rfl rfl) (comparesVerbatim_of_silent rfl rfl)
      (comparesVerbatim_of_silent rfl rfl) versioned_verbatim
  have defaults : labelled.Everywhere (DefaultAccepted {} noRules) := by
    refine everywhere nofun nofun nofun (versioned_everywhere nofun ?_ nofun)
    intro _ d declared
    cases declared
    exact ⟨_, rfl⟩
  have matched : validateWith {} noRules (.object [("x-label", .string "b"), ("label", .undefined)]) labelled =
      .ok (.object [("version", .int 1), ("x-label", .string "b")]) := by rfl
  exact ⟨uncustomized, fits, once, verbatim, defaults, matched,
    validateWith_accepts_matched uncustomized fits once verbatim defaults matched⟩

section

variable [RegexEngine] {ν : Type} {config : Config} {custom : CustomRules ν}

theorem eq_undefined_of_matched {s : Schema ν} (plain : Plain config s) {v : Value}
    (accepted : validateWith config custom v s = .ok .undefined) : v = .undefined := by
  have exits {rules : Rules ν} {v : Value} (exit : rules.absentExit? v = some .undefined) : v = .undefined := by
    rcases Rules.absentExit?_eq_some.1 exit with ⟨rfl, _⟩ | ⟨_, _, same⟩
    · rfl
    · cases same
  have structures {properties : List (PropertyKey × Schema ν)} {v : Value} :
      ¬StructureBecomes config custom properties v .undefined := by
    intro given
    obtain ⟨fields, groups, _, _, same⟩ := given
    cases v <;> cases same
  induction s generalizing v with
  | shape rules properties =>
    rcases (validateWith_shape plain).1 accepted with exit | ⟨_, becomes, _⟩
    · exact exits exit
    · exact absurd becomes structures
  | alternation rules members ih =>
    rcases (validateWith_alternation plain).1 accepted with exit | ⟨_, first, _⟩
    · exact exits exit
    · obtain ⟨s, member, accepted⟩ := first.accepts
      exact ih s member (plain.member member) accepted
  | typed rules type items? nested? =>
    rcases (validateWith_typed plain).1 accepted with ⟨_, exit⟩ | ⟨_, _, _, _, becomes, _⟩
    · exact exits exit
    · cases becomes with
      | keyed _ become => exact absurd become structures
      | same => rfl

/-- Schemas that leave no choice between replacements: there is at most one, or none of them
replaces anything. -/
def Settled (schemas : List (Schema ν)) : Prop :=
  schemas.length ≤ 1 ∨ ∀ s ∈ schemas, s.Everywhere Rigid

def ChoosesSettled : Schema ν → Prop
  | .shape _ _ => True
  | .alternation _ members => Settled members
  | .typed _ type items? _ => type.tag = .array → type.keepOrder = false → Settled (Schema.elementSchemas items?)

def DefaultMatched (config : Config) (custom : CustomRules ν) (node : Schema ν) : Prop :=
  node.rules.optional = true → ∀ d, node.rules.default? = some d → validateWith config custom d node = .ok d

structure Rematches (config : Config) (custom : CustomRules ν) (node : Schema ν) : Prop where
  once : SelectsOnce node
  settled : ChoosesSettled node
  default : DefaultMatched config custom node

theorem rematches_any : Rematches config custom .any :=
  ⟨nofun, nofun, nofun⟩

theorem FirstAccepts.again {schemas : List (Schema ν)} (settled : Settled schemas)
    (plain : ∀ s ∈ schemas, Plain config s) {v w : Value} (first : FirstAccepts config custom schemas v w)
    (again : ∀ s ∈ schemas, ∀ x y, validateWith config custom x s = .ok y →
      validateWith config custom y s = .ok y) : FirstAccepts config custom schemas w w := by
  rcases settled with single | rigid
  · obtain ⟨before, s, after, rfl, _, accepted⟩ := first
    have short : before = [] ∧ after = [] := by
      simp only [List.length_append, List.length_cons] at single
      constructor <;> exact List.length_eq_zero_iff.1 (by omega)
    obtain ⟨rfl, rfl⟩ := short
    exact ⟨[], s, [], rfl, by simp, again s (by simp) v w accepted⟩
  · obtain ⟨s, member, accepted⟩ := first.accepts
    obtain rfl := eq_of_rigid (plain s member) (rigid s member) accepted
    exact first

theorem ElementsBecome.again {type : TypeRules} {items : List (Schema ν)} {xs ys : List Value}
    (become : ElementsBecome config custom type items xs ys)
    (settled : type.keepOrder = false → Settled items) (plain : ∀ s ∈ items, Plain config s)
    (again : ∀ s ∈ items, ∀ x y, validateWith config custom x s = .ok y →
      validateWith config custom y s = .ok y) :
    ElementsBecome config custom type items ys ys := by
  obtain ⟨fixed, same, each⟩ := become
  refine ⟨fun keep => same.trans (fixed keep), rfl, fun index y y' atY atY' => ?_⟩
  cases atY.symm.trans atY'
  obtain ⟨inYs, _⟩ := List.getElem?_eq_some_iff.1 atY
  rcases each index _ y (List.getElem?_eq_getElem (by omega)) atY with
    ⟨keepOrder, ⟨missing, _⟩ | ⟨s, found, accepted⟩⟩ | ⟨anywhere, first⟩
  · exact .inl ⟨keepOrder, .inl ⟨missing, rfl⟩⟩
  · exact .inl ⟨keepOrder, .inr ⟨s, found, again s (List.mem_of_getElem? found) _ y accepted⟩⟩
  · exact .inr ⟨anywhere, first.again (settled anywhere) plain again⟩

private theorem rematches_exit {s : Schema ν} (default : DefaultMatched config custom s) {v w : Value}
    (accepted : validateWith config custom v s = .ok w) (exit : s.rules.absentExit? v = some w) :
    validateWith config custom w s = .ok w := by
  rcases Rules.absentExit?_cases exit with rfl | ⟨optional, declared⟩
  · exact accepted
  · exact default optional w declared

private theorem exit_of_matched {rules : Rules ν} {s : Schema ν} (plain : Plain config s) {v w : Value}
    (present : rules.absentExit? v = none) (accepted : validateWith config custom v s = .ok w) :
    rules.absentExit? w = some w ∨ rules.absentExit? w = none := by
  cases w with
  | undefined =>
    obtain rfl := eq_undefined_of_matched plain accepted
    exact .inr present
  | null =>
    cases nullable : rules.nullable with
    | true => exact .inl (by simp [Rules.absentExit?, nullable])
    | false => exact .inr (by simp [Rules.absentExit?, nullable])
  | _ => exact .inr rfl

private theorem exit_of_structure {rules : Rules ν} {properties : List (PropertyKey × Schema ν)} {v w : Value}
    (becomes : StructureBecomes config custom properties v w) : rules.absentExit? w = none := by
  obtain ⟨fields, groups, _, _, rfl⟩ := becomes
  cases v <;> rfl

theorem rematched {s : Schema ν} (plain : Plain config s) (all : s.Everywhere (Rematches config custom))
    {v w : Value} (accepted : validateWith config custom v s = .ok w) :
    validateWith config custom w s = .ok w := by
  induction s generalizing v w with
  | shape rules properties ih =>
    obtain ⟨own, below⟩ := Schema.everywhere_iff.1 all
    rw [Schema.everywhereBelow_shape] at below
    rcases (validateWith_shape plain).1 accepted with exit | ⟨_, becomes, holds⟩
    · exact rematches_exit own.default accepted exit
    · refine (validateWith_shape plain).2 (.inr ⟨exit_of_structure becomes, ?_, holds⟩)
      exact becomes.again (own.once _ rfl) fun entry member x y accepted =>
        ih entry member (plain.entry member) (below entry member) accepted
  | alternation rules members ih =>
    obtain ⟨own, below⟩ := Schema.everywhere_iff.1 all
    rw [Schema.everywhereBelow_alternation] at below
    rcases (validateWith_alternation plain).1 accepted with exit | ⟨present, first, holds⟩
    · exact rematches_exit own.default accepted exit
    · obtain ⟨s, member, chosen⟩ := first.accepts
      apply (validateWith_alternation plain).2
      refine (exit_of_matched (plain.member member) present chosen).imp id fun present => ⟨present, ?_, holds⟩
      exact first.again own.settled (fun s member => plain.member member) fun s member x y accepted =>
        ih s member (plain.member member) (below s member) accepted
  | typed rules type items? nested? itemsIh nestedIh =>
    obtain ⟨own, below⟩ := Schema.everywhere_iff.1 all
    rcases (validateWith_typed plain).1 accepted with ⟨_, exit⟩ | ⟨fit, bounds, pattern, named, becomes, holds⟩
    · exact rematches_exit own.default accepted exit
    · obtain ⟨fit, bounds, pattern, named⟩ := becomes.admits fit bounds pattern named
      refine (validateWith_typed plain).2 (.inr ⟨fit, bounds, pattern, named, ?_, holds⟩)
      cases becomes with
      | list array become =>
        refine .list array (become.again (own.settled array) (fun s member => plain.element array member) ?_)
        intro s member x y accepted
        exact itemsIh array s member (plain.element array member)
          (Schema.everywhere_elementSchema rematches_any below member) accepted
      | keyed other become =>
        refine .keyed other (become.again (own.once _ rfl) fun entry member x y accepted => ?_)
        exact nestedIh _ rfl entry member (plain.nested rfl member)
          ((Schema.everywhereBelow_typed.1 below).2 entry member) accepted
      | same other => exact .same other

/-- Validation leaves its own answers alone: no name is selected twice, schemas tried in turn are
settled, and defaults are matched as they are. -/
theorem validateWith_idempotent {s : Schema ν} (uncustomized : s.Everywhere fun node => node.rules.custom? = none)
    (fits : s.height ≤ config.maxDepth) (once : s.Everywhere SelectsOnce) (settled : s.Everywhere ChoosesSettled)
    (defaults : s.Everywhere (DefaultMatched config custom)) {v w : Value}
    (matched : validateWith config custom v s = .ok w) : validateWith config custom w s = .ok w :=
  rematched ⟨uncustomized, fits⟩
    (fun node inside => ⟨once node inside, settled node inside, defaults node inside⟩) matched

end

theorem versioned_rematched :
    (versioned.Everywhere fun node => node.rules.custom? = none) ∧ versioned.height ≤ ({} : Config).maxDepth ∧
      versioned.Everywhere SelectsOnce ∧ versioned.Everywhere ChoosesSettled ∧
      versioned.Everywhere (DefaultMatched {} noRules) ∧
      validateWith {} noRules (.object [("x-id", .string "7"), ("y", .null)]) versioned =
        .ok (.object [("version", .int 1), ("x-id", .string "7")]) ∧
      validateWith {} noRules (.object [("version", .int 1), ("x-id", .string "7")]) versioned =
        .ok (.object [("version", .int 1), ("x-id", .string "7")]) := by
  have uncustomized : versioned.Everywhere fun node => node.rules.custom? = none :=
    versioned_everywhere rfl rfl rfl
  have fits : versioned.height ≤ ({} : Config).maxDepth := by decide
  have settled : versioned.Everywhere ChoosesSettled := versioned_everywhere trivial nofun nofun
  have defaults : versioned.Everywhere (DefaultMatched {} noRules) := by
    refine versioned_everywhere nofun ?_ nofun
    intro _ d declared
    cases declared
    rfl
  have matched : validateWith {} noRules (.object [("x-id", .string "7"), ("y", .null)]) versioned =
      .ok (.object [("version", .int 1), ("x-id", .string "7")]) := by rfl
  exact ⟨uncustomized, fits, versioned_once, settled, defaults, matched,
    validateWith_idempotent uncustomized fits versioned_once settled defaults matched⟩

end Conform
