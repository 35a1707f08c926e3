import Conform.Json.Descriptor
import Conform.Proofs.Outcome
import Conform.Proofs.SchemaTree

/-! Reading a descriptor: which schema a document is read as, stated field by field. The reader
succeeds exactly where these relations hold. -/

namespace Conform

namespace Document

theorem bool?_eq_some_iff {d : Document} {b : Bool} : d.bool? = some b ↔ d = .bool b := by
  cases d <;> simp [bool?]

theorem string?_eq_some_iff {d : Document} {s : String} : d.string? = some s ↔ d = .string s := by
  cases d <;> simp [string?]

theorem items?_eq_some_iff {d : Document} {items : List Document} : d.items? = some items ↔ d = .array items := by
  cases d <;> simp [items?]

theorem mapM_string?_eq_some_iff {items : List Document} {texts : List String} :
    items.mapM string? = some texts ↔ items = texts.map .string := by
  induction items generalizing texts with
  | nil => cases texts <;> simp
  | cons d rest ih => cases texts <;> simp [Option.bind_eq_some_iff, string?_eq_some_iff, ih, and_comm]

end Document

namespace Descriptor

theorem classNames?_eq_some_iff {d : Document} {names : List String} :
    classNames? d = some names ↔ d = .array (names.map .string) := by
  simp [classNames?, Option.bind_eq_some_iff, Document.items?_eq_some_iff, Document.mapM_string?_eq_some_iff]

variable {ν α β : Type}

theorem bind_ok {x : Result α} {next : α → Result β} {b : β} :
    x >>= next = .ok b ↔ ∃ a, x = .ok a ∧ next a = .ok b := by
  cases x <;> simp [bind, Except.bind]

theorem pure_ok {a b : α} : (pure a : Result α) = .ok b ↔ a = b := by
  simp [pure, Except.pure]

theorem mapM_ok {read : α → Result β} {items : List α} {results : List β} :
    items.mapM read = .ok results ↔ List.Forall₂ (fun a b => read a = .ok b) items results := by
  induction items generalizing results with
  | nil => rw [List.mapM_nil, pure_ok, List.forall₂_nil_left_iff, eq_comm]
  | cons a items ih =>
    simp only [List.mapM_cons, bind_ok, pure_ok, ih, List.forall₂_cons_left_iff]
    constructor
    · intro given
      obtain ⟨b, first, rest, later, rfl⟩ := given
      exact ⟨b, rest, first, later, rfl⟩
    · intro given
      obtain ⟨b, rest, first, later, rfl⟩ := given
      exact ⟨b, first, rest, later, rfl⟩

section Fields

variable {fields : List (String × Document)} {name : String}

theorem field?_ok {read : Document → Option α} {form : FieldForm} {a? : Option α} :
    field? read form fields name = .ok a? ↔ Option.Rel (fun d a => read d = some a) (fields.lookup name) a? := by
  unfold field?
  cases fields.lookup name with
  | none => cases a? <;> simp
  | some d => cases found : read d <;> cases a? <;> simp [found]

def StatesFlag (d? : Option Document) (absent b : Bool) : Prop := d?.elim (b = absent) (· = .bool b)

theorem flag_ok {absent b : Bool} :
    flag fields name absent = .ok b ↔ StatesFlag (fields.lookup name) absent b := by
  simp only [flag, bind_ok, pure_ok, field?_ok]
  cases fields.lookup name with
  | none =>
    constructor
    · rintro ⟨_, ⟨⟩, rfl⟩
      exact rfl
    · rintro rfl
      exact ⟨none, .none, rfl⟩
  | some d =>
    constructor
    · rintro ⟨_, ⟨read⟩, rfl⟩
      exact Document.bool?_eq_some_iff.1 read
    · rintro rfl
      exact ⟨some b, .some rfl, rfl⟩

def StatesTag (d? : Option Document) (tag : TypeTag) : Prop := d?.elim (tag = .any) (· = .string tag.name)

theorem typeTag_ok {tag : TypeTag} : typeTag fields = .ok tag ↔ StatesTag (fields.lookup "type") tag := by
  simp only [typeTag, bind_ok, field?_ok]
  cases fields.lookup "type" with
  | none =>
    constructor
    · rintro ⟨_, ⟨⟩, any⟩
      exact (pure_ok.1 any).symm
    · rintro rfl
      exact ⟨none, .none, rfl⟩
  | some d =>
    constructor
    · rintro ⟨_, @⟨_, name, read⟩, known⟩
      obtain rfl := Document.string?_eq_some_iff.1 read
      cases found : TypeTag.ofName? name with
      | none => simp [found] at known
      | some other =>
        simp only [found, pure_ok] at known
        exact congrArg Document.string (TypeTag.ofName?_eq_some_iff.1 (known ▸ found)).symm
    · rintro rfl
      refine ⟨some tag.name, .some rfl, ?_⟩
      simp only [TypeTag.ofName?_eq_some_iff.2 rfl, pure_ok]

theorem ifPresent_ok {read : Document → Result α} {d? : Option Document} {a? : Option α} :
    ifPresent (d?.map read) = .ok a? ↔ Option.Rel (fun d a => read d = .ok a) d? a? := by
  cases d? with
  | none => cases a? <;> simp [ifPresent]
  | some d =>
    simp only [Option.map_some, ifPresent, map_eq_pure_bind, bind_ok, pure_ok]
    constructor
    · rintro ⟨_, read, rfl⟩
      exact .some read
    · rintro ⟨read⟩
      exact ⟨_, read, rfl⟩

end Fields

variable [RegexEngine]

def StatesRegex (d : Document) (r : Regex) : Prop := ∃ source, d = .string source ∧ regex source = .ok r

theorem pattern?_ok {fields : List (String × Document)} {r? : Option Regex} :
    pattern? fields = .ok r? ↔ Option.Rel StatesRegex (fields.lookup "match") r? := by
  simp only [pattern?, bind_ok, field?_ok]
  cases fields.lookup "match" with
  | none =>
    constructor
    · rintro ⟨_, ⟨⟩, nothing⟩
      exact pure_ok.1 nothing ▸ .none
    · rintro ⟨⟩
      exact ⟨none, .none, rfl⟩
  | some d =>
    constructor
    · rintro ⟨_, @⟨_, source, read⟩, compiled⟩
      simp only [bind_ok, pure_ok] at compiled
      obtain ⟨r, compiled, rfl⟩ := compiled
      exact .some ⟨source, Document.string?_eq_some_iff.1 read, compiled⟩
    · rintro ⟨source, rfl, compiled⟩
      refine ⟨some source, .some rfl, ?_⟩
      simp only [bind_ok, pure_ok]
      exact ⟨_, compiled, rfl⟩

structure StatesRules (fields : List (String × Document)) (rules : Rules ν) : Prop where
  nullable : StatesFlag (fields.lookup "nullable") false rules.nullable
  optional : StatesFlag (fields.lookup "optional") false rules.optional
  default? : (fields.lookup "defaultValue").map Value.ofDocument = rules.default?
  allowEmpty : StatesFlag (fields.lookup "empty") true rules.constraints.allowEmpty
  min? : Option.Rel (fun d x => d.number? = some x) (fields.lookup "min") rules.constraints.min?
  max? : Option.Rel (fun d x => d.number? = some x) (fields.lookup "max") rules.constraints.max?
  length? : Option.Rel (fun d n => d.count? = some n) (fields.lookup "length") rules.constraints.length?
  pattern? : Option.Rel StatesRegex (fields.lookup "match") rules.constraints.pattern?
  equals? : (fields.lookup "equals").map Value.ofDocument = rules.constraints.equals?
  contains? : ∃ allowed?, Option.Rel (fun d items => d.items? = some items) (fields.lookup "contains") allowed? ∧
    allowed?.map Value.ofItems = rules.constraints.contains?
  uncustomized : rules.custom? = none

theorem rules_ok {fields : List (String × Document)} {r : Rules ν} :
    rules fields = .ok r ↔ StatesRules fields r := by
  simp only [rules, bind_ok, pure_ok, flag_ok, field?_ok, pattern?_ok]
  constructor
  · intro given
    obtain ⟨_, nullable, _, optional, _, allowEmpty, _, min, _, max, _, length, _, pattern, _, allowed, rfl⟩ := given
    exact ⟨nullable, optional, rfl, allowEmpty, min, max, length, pattern, rfl, ⟨_, allowed, rfl⟩, rfl⟩
  · intro states
    obtain ⟨nullable, optional, default, allowEmpty, min, max, length, pattern, equals, ⟨_, allowed, contains⟩,
      uncustomized⟩ := states
    refine ⟨_, nullable, _, optional, _, allowEmpty, _, min, _, max, _, length, _, pattern, _, allowed, ?_⟩
    rw [default, equals, contains, ← uncustomized]

structure StatesType (fields : List (String × Document)) (type : TypeRules) : Prop where
  tag : StatesTag (fields.lookup "type") type.tag
  instance? : Option.Rel (fun d s => d.string? = some s) (fields.lookup "instance") type.instance?
  instances? : Option.Rel (fun d names => classNames? d = some names) (fields.lookup "instances") type.instances?
  keepOrder : StatesFlag (fields.lookup "keepOrder") false type.keepOrder
  keepLength : StatesFlag (fields.lookup "keepLength") false type.keepLength

section Parts

def Loads (d : Document) (s : Schema ν) : Prop := schema d = .ok s

def ReadsList (read : Document → Schema ν → Prop) (d : Document) (schemas : List (Schema ν)) : Prop :=
  ∃ items, d = .array items ∧ List.Forall₂ read items schemas

/-- An object of descriptors is read one by one, each under the key that its name is. -/
def ReadsProperties (read : Document → Schema ν → Prop) (d : Document) (entries : List (PropertyKey × Schema ν)) :
    Prop :=
  ∃ fields, d = .object fields ∧
    List.Forall₂ (fun field entry => PropertyKey.ofText field.1 = entry.1 ∧ read field.2 entry.2) fields entries

theorem schemas_eq (items : List Document) : schemas items = items.mapM (schema (ν := ν)) := by
  induction items with
  | nil => rfl
  | cons d rest ih => rw [schemas, ih, List.mapM_cons]

theorem entries_eq (fields : List (String × Document)) :
    entries fields = fields.mapM fun field => do return (PropertyKey.ofText field.1, ← schema (ν := ν) field.2) := by
  induction fields with
  | nil => rfl
  | cons field rest ih => simp [entries, ih]

theorem listing_ok {name : String} {d : Document} {schemas : List (Schema ν)} :
    listing name d = .ok schemas ↔ ReadsList Loads d schemas := by
  cases d with
  | array items =>
    simp only [listing, schemas_eq, mapM_ok, ReadsList, Document.array.injEq, exists_eq_left']
    exact Iff.rfl
  | _ => simp [listing, ReadsList]

theorem properties_ok {d : Document} {entries : List (PropertyKey × Schema ν)} :
    properties d = .ok entries ↔ ReadsProperties Loads d entries := by
  have one (field : String × Document) (entry : PropertyKey × Schema ν) :
      (do return (PropertyKey.ofText field.1, ← schema field.2) : Result _) = .ok entry ↔
        PropertyKey.ofText field.1 = entry.1 ∧ schema field.2 = .ok entry.2 := by
    simp only [bind_ok, pure_ok, Prod.ext_iff]
    grind
  cases d with
  | object fields =>
    simp only [properties, entries_eq, mapM_ok, one, ReadsProperties, Loads, Document.object.injEq, exists_eq_left']
  | _ => simp [properties, ReadsProperties]

theorem listing?_eq (name : String) (fields : List (String × Document)) :
    listing? (ν := ν) name fields = (fields.lookup name).map (listing name) := by
  induction fields with
  | nil => rfl
  | cons field rest ih =>
    obtain ⟨key, d⟩ := field
    by_cases same : key = name
    · subst same
      simp [listing?]
    · have differ : (name == key) = false := by simpa using Ne.symm same
      rw [listing?, if_neg same, ih, List.lookup_cons, differ]

theorem properties?_eq (fields : List (String × Document)) :
    properties? (ν := ν) fields = (fields.lookup "properties").map properties := by
  induction fields with
  | nil => rfl
  | cons field rest ih =>
    obtain ⟨key, d⟩ := field
    by_cases same : key = "properties"
    · subst same
      simp [properties?]
    · have differ : ("properties" == key) = false := by simpa using Ne.symm same
      rw [properties?, if_neg same, ih, List.lookup_cons, differ]

end Parts

/-- What a document is read as, given what its parts are read as. Its fields `types`, `type` and
`properties` decide on the kind of node, and the kind on the fields that are read. -/
inductive Reads (read : Document → Schema ν → Prop) : Document → Schema ν → Prop where
  | alternation {fields : List (String × Document)} {d : Document} {r : Rules ν} {members : List (Schema ν)}
      (types : fields.lookup "types" = some d) (each : ReadsList read d members) (states : StatesRules fields r) :
      Reads read (.object fields) (.alternation r members)
  | shape {fields : List (String × Document)} {d : Document} {r : Rules ν} {entries : List (PropertyKey × Schema ν)}
      (single : fields.lookup "types" = none) (untyped : fields.lookup "type" = none)
      (found : fields.lookup "properties" = some d) (each : ReadsProperties read d entries)
      (states : StatesRules fields r) :
      Reads read (.object fields) (.shape r entries)
  | typed {fields : List (String × Document)} {r : Rules ν} {type : TypeRules}
      {items? : Option (List (Schema ν))} {nested? : Option (List (PropertyKey × Schema ν))}
      (single : fields.lookup "types" = none)
      (tagged : fields.lookup "type" = none → fields.lookup "properties" = none)
      (stated : StatesType fields type) (items : Option.Rel (ReadsList read) (fields.lookup "items") items?)
      (nested : Option.Rel (ReadsProperties read) (fields.lookup "properties") nested?)
      (states : StatesRules fields r) :
      Reads read (.object fields) (.typed r type items? nested?)

omit [RegexEngine] in
theorem kind_cases (fields : List (String × Document)) :
    (∃ d, fields.lookup "types" = some d) ∨
      fields.lookup "types" = none ∧ fields.lookup "type" = none ∧ (∃ d, fields.lookup "properties" = some d) ∨
      fields.lookup "types" = none ∧ (fields.lookup "type" = none → fields.lookup "properties" = none) := by
  cases fields.lookup "types" <;> cases fields.lookup "type" <;> cases fields.lookup "properties" <;> simp

section Kinds

variable {fields : List (String × Document)} {d : Document} {s : Schema ν}

private theorem alternation_ok (types : fields.lookup "types" = some d) :
    schema (.object fields) = .ok s ↔
      ∃ members r, ReadsList Loads d members ∧ StatesRules fields r ∧ .alternation r members = s := by
  simp only [schema, listing?_eq, types, Option.map_some, bind_ok, pure_ok, listing_ok, rules_ok]
  grind

private theorem shape_ok (single : fields.lookup "types" = none) (untyped : fields.lookup "type" = none)
    (found : fields.lookup "properties" = some d) :
    schema (.object fields) = .ok s ↔
      ∃ entries r, ReadsProperties Loads d entries ∧ StatesRules fields r ∧ .shape r entries = s := by
  simp only [schema, listing?_eq, properties?_eq, single, untyped, found, Option.map_none, Option.map_some,
    bind_ok, pure_ok, properties_ok, rules_ok]
  grind

private theorem typed_ok (single : fields.lookup "types" = none)
    (tagged : fields.lookup "type" = none → fields.lookup "properties" = none) :
    schema (.object fields) = .ok s ↔
      ∃ type items? nested? r, StatesType fields type ∧ Option.Rel (ReadsList Loads) (fields.lookup "items") items? ∧
        Option.Rel (ReadsProperties Loads) (fields.lookup "properties") nested? ∧ StatesRules fields r ∧
        .typed r type items? nested? = s := by
  have kind : schema (ν := ν) (.object fields) =
      typed fields ((fields.lookup "items").map (listing "items")) ((fields.lookup "properties").map properties) := by
    simp only [schema, listing?_eq, properties?_eq, single, Option.map_none]
    cases tag : fields.lookup "type" with
    | none => rw [tagged tag, Option.map_none]
    | some name => rfl
  simp only [kind, typed, bind_ok, pure_ok, typeTag_ok, field?_ok, flag_ok, ifPresent_ok, listing_ok,
    properties_ok, rules_ok]
  constructor
  · intro given
    obtain ⟨_, tag, _, name, _, names, _, items, _, order, _, length, _, nested, _, states, rfl⟩ := given
    exact ⟨_, _, _, _, ⟨tag, name, names, order, length⟩, items, nested, states, rfl⟩
  · intro given
    obtain ⟨_, _, _, _, ⟨tag, name, names, order, length⟩, items, nested, states, rfl⟩ := given
    exact ⟨_, tag, _, name, _, names, _, items, _, order, _, length, _, nested, _, states, rfl⟩

end Kinds

/-- The reader answers with a schema exactly where the document states one. -/
theorem loads_iff {d : Document} {s : Schema ν} : Loads d s ↔ Reads Loads d s := by
  constructor
  · intro loaded
    obtain _ | _ | _ | _ | _ | _ | fields := d
    case object =>
      rcases kind_cases fields with ⟨d, types⟩ | ⟨single, untyped, d, found⟩ | ⟨single, tagged⟩
      · obtain ⟨members, r, each, states, rfl⟩ := (alternation_ok types).1 loaded
        exact .alternation types each states
      · obtain ⟨entries, r, each, states, rfl⟩ := (shape_ok single untyped found).1 loaded
        exact .shape single untyped found each states
      · obtain ⟨type, items?, nested?, r, stated, items, nested, states, rfl⟩ := (typed_ok single tagged).1 loaded
        exact .typed single tagged stated items nested states
    all_goals cases loaded
  · intro reads
    cases reads with
    | alternation types each states => exact (alternation_ok types).2 ⟨_, _, each, states, rfl⟩
    | shape single untyped found each states =>
      exact (shape_ok single untyped found).2 ⟨_, _, each, states, rfl⟩
    | typed single tagged stated items nested states =>
      exact (typed_ok single tagged).2 ⟨_, _, _, _, stated, items, nested, states, rfl⟩

/-- Induction on what is read, given what is known of the parts. -/
theorem Loads.induct {motive : Document → Schema ν → Prop}
    (step : ∀ d s, Reads (fun d s => Loads d s ∧ motive d s) d s → motive d s) {d : Document} {s : Schema ν}
    (loaded : Loads d s) : motive d s := by
  have list {d : Document} {schemas : List (Schema ν)} (reads : ReadsList Loads d schemas)
      (ih : ∀ s ∈ schemas, ∀ {d}, Loads d s → motive d s) :
      ReadsList (fun d s => Loads d s ∧ motive d s) d schemas := by
    obtain ⟨items, rfl, each⟩ := reads
    exact ⟨items, rfl, forall₂_imp_of_mem each fun _ s member loaded => ⟨loaded, ih s member loaded⟩⟩
  have keyed {d : Document} {entries : List (PropertyKey × Schema ν)} (reads : ReadsProperties Loads d entries)
      (ih : ∀ entry ∈ entries, ∀ {d}, Loads d entry.2 → motive d entry.2) :
      ReadsProperties (fun d s => Loads d s ∧ motive d s) d entries := by
    obtain ⟨fields, rfl, each⟩ := reads
    exact ⟨fields, rfl, forall₂_imp_of_mem each fun _ entry member ⟨same, loaded⟩ =>
      ⟨same, loaded, ih entry member loaded⟩⟩
  -- The parts of a document are read as the parts of its schema, so the induction is on the schema.
  induction s using Schema.inductDeclared generalizing d with
  | alternation rules members ih =>
    refine step _ _ ?_
    cases loads_iff.1 loaded with
    | alternation types each states => exact .alternation types (list each ih) states
  | shape rules properties ih =>
    refine step _ _ ?_
    cases loads_iff.1 loaded with
    | shape single untyped found each states => exact .shape single untyped found (keyed each ih) states
  | typed rules type items? nested? itemsIh nestedIh =>
    refine step _ _ ?_
    cases loads_iff.1 loaded with
    | @typed fields _ _ _ _ single tagged stated items nested states =>
      refine .typed single tagged stated ?_ ?_ states
      · generalize fields.lookup "items" = d? at items ⊢
        cases items with
        | none => exact .none
        | some reads => exact .some (list reads itemsIh)
      · generalize fields.lookup "properties" = d? at nested ⊢
        cases nested with
        | none => exact .none
        | some reads => exact .some (keyed reads nestedIh)

end Descriptor

end Conform
