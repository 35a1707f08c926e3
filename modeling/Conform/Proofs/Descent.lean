import Conform.Proofs.Levels
import Conform.Regex.Engine

/-! Where failures come from. Every failure of a validation is raised at one place of the value and
the schema, and the steps that lead there are what its path and its labels record. -/

namespace Conform

namespace Descent

inductive Label where
  | nestedShape | arrayElement
deriving DecidableEq

namespace Label

def kind : Label → FailureKind
  | nestedShape => .objectShape
  | arrayElement => .arrayElement

def heading : Label → String
  | nestedShape => "Object does not match the schema!"
  | arrayElement => "Invalid type of element in array!"

theorem kind_ne_depthExceeded (label : Label) : label.kind ≠ .depthExceeded := by
  cases label <;> decide

end Label

/-- What one step of a descent leaves on a failure from further inside. -/
structure Frame where
  token? : Option String := none
  label? : Option Label := none

def Frame.pass (frame : Frame) (f : Failure) : Failure :=
  let located := frame.token?.elim f f.within
  frame.label?.elim located fun label => located.relabelled label.kind label.heading

private theorem pass_eq (frame : Frame) (f : Failure) :
    frame.pass f = frame.label?.elim { f with path := frame.token?.toList ++ f.path } fun label =>
      Failure.relabelled label.kind label.heading { f with path := frame.token?.toList ++ f.path } := by
  obtain ⟨token?, label?⟩ := frame
  cases token? <;> cases label? <;> rfl

theorem Frame.pass_of_isFatal (frame : Frame) {f : Failure} (fatal : f.isFatal = true) :
    frame.pass f = { f with path := frame.token?.toList ++ f.path } := by
  rw [pass_eq]
  cases frame.label? with
  | none => rfl
  | some label =>
    have located : Failure.isFatal { f with path := frame.token?.toList ++ f.path } = true := fatal
    exact Failure.relabelled_of_isFatal located label.kind label.heading

theorem Frame.pass_of_mild (frame : Frame) {f : Failure} (mild : f.isFatal = false) :
    frame.pass f =
      { kind := (frame.label?.map Label.kind).getD f.kind
        message := frame.label?.elim f.message fun label => label.heading ++ " " ++ f.message
        path := frame.token?.toList ++ f.path } := by
  rw [pass_eq]
  cases frame.label? with
  | none => rfl
  | some label => exact if_neg (ne_of_eq_of_ne mild Bool.false_ne_true)

@[simp] theorem Frame.isFatal_pass (frame : Frame) (f : Failure) : (frame.pass f).isFatal = f.isFatal := by
  cases fatal : f.isFatal with
  | true => rwa [frame.pass_of_isFatal fatal]
  | false =>
    rw [frame.pass_of_mild fatal]
    cases frame.label? with
    | none => exact fatal
    | some label => exact beq_eq_false_iff_ne.2 label.kind_ne_depthExceeded

def tokens (frames : List Frame) : List String := frames.filterMap (·.token?)

def labels (frames : List Frame) : List Label := frames.filterMap (·.label?)

/-- The failure that is reported when one is raised at the end of a descent. The path leads there; a
fatal failure stays what it is, and any other gets the headings in front and the outermost kind. -/
def report (frames : List Frame) (raised : Failure) : Failure where
  kind := if raised.isFatal then raised.kind else ((labels frames).head?.map Label.kind).getD raised.kind
  message := if raised.isFatal then raised.message
    else (labels frames).foldr (fun label message => label.heading ++ " " ++ message) raised.message
  path := tokens frames ++ raised.path

theorem report_nil (f : Failure) : report [] f = f := by
  simp [report, labels, tokens]

theorem isFatal_report (frames : List Frame) (f : Failure) : (report frames f).isFatal = f.isFatal := by
  cases fatal : f.isFatal with
  | true => rwa [Failure.isFatal, report, if_pos fatal]
  | false =>
    rw [Failure.isFatal, report, if_neg (by simp [fatal])]
    cases labels frames with
    | nil => exact fatal
    | cons label rest => exact beq_eq_false_iff_ne.2 label.kind_ne_depthExceeded

theorem report_cons (frame : Frame) (frames : List Frame) (f : Failure) :
    report (frame :: frames) f = frame.pass (report frames f) := by
  have tokens : tokens (frame :: frames) = frame.token?.toList ++ tokens frames := by
    cases same : frame.token? <;> simp [tokens, same]
  have labels : labels (frame :: frames) = frame.label?.toList ++ labels frames := by
    cases same : frame.label? <;> simp [labels, same]
  have same := isFatal_report frames f
  cases fatal : f.isFatal with
  | true =>
    rw [frame.pass_of_isFatal (same.trans fatal)]
    simp [report, fatal, tokens]
  | false =>
    rw [frame.pass_of_mild (same.trans fatal)]
    cases declared : frame.label? <;> simp [report, fatal, tokens, labels, declared]

section

variable [RegexEngine] {ν : Type}

/-- What a value is checked against: a node, the nested shape of one, or the schemas of elements
for the element at an index. -/
inductive Site (ν : Type) where
  | node (s : Schema ν)
  | nested (properties : List (PropertyKey × Schema ν))
  | element (keepOrder : Bool) (items : List (Schema ν)) (index : Nat)

def Site.properties? : Site ν → Option (List (PropertyKey × Schema ν))
  | node (.shape _ properties) | nested properties => some properties
  | _ => none

structure Place (ν : Type) where
  site : Site ν
  value : Value
  depth : Nat

variable (config : Config) (custom : CustomRules ν)

def Listed (type : TypeRules) (items? : Option (List (Schema ν))) (depth : Nat) (v listed : Value) : Prop :=
  if type.tag = .array then
    outcome (Context.elements type ((Schema.elementSchemas items?).map
      ((Context.direct config custom).check · (depth + 1))) v) = .ok listed
  else listed = v

def Added (properties : List (PropertyKey × Schema ν)) (depth : Nat) (fields : List (String × Value))
    (groups : List (List (String × Value))) : Prop :=
  List.Forall₂ (fun entry => Adds fields entry.1 fun x =>
    outcome ((Context.direct config custom).check entry.2 depth x)) properties groups

/-- The value rejects schemas, but none of them in a fatal way. -/
def Refused (schemas : List (Schema ν)) (depth : Nat) (v : Value) : Prop :=
  ∀ s ∈ schemas, ((Context.direct config custom).check s depth).Rejects v false

/-- One step from a place to a place inside, on the way to a failure that is fatal or not. -/
inductive Step (fatal : Bool) : Place ν → Frame → Place ν → Prop where
  | nestedShape {rules : Rules ν} {type : TypeRules} {items? : Option (List (Schema ν))}
      {properties : List (PropertyKey × Schema ν)} {v listed : Value} {depth : Nat}
      (accepted : type.tag.accepts v = true) (content : Listed config custom type items? depth v listed) :
      Step fatal ⟨.node (.typed rules type items? (some properties)), v, depth⟩
        { label? := some .nestedShape } ⟨.nested properties, listed, depth + 1⟩
  | literal {place : Place ν} {properties : List (PropertyKey × Schema ν)} {fields : List (String × Value)}
      {name : String} {s : Schema ν} (declared : place.site.properties? = some properties)
      (keyed : place.value.fields? = some fields) (member : (.literal name, s) ∈ properties) :
      Step fatal place { token? := some name }
        ⟨.node s, (fields.lookup name).getD .undefined, place.depth + 1⟩
  | selected {place : Place ν} {properties : List (PropertyKey × Schema ν)} {fields : List (String × Value)}
      {p : KeyPattern} {s : Schema ν} {regex : Regex} {field : String × Value}
      (declared : place.site.properties? = some properties) (keyed : place.value.fields? = some fields)
      (member : (.pattern p, s) ∈ properties) (compiled : p.compile = .ok regex) (found : field ∈ fields)
      (matched : regex.isMatch field.1 = true) :
      Step fatal place { token? := some field.1 } ⟨.node s, field.2, place.depth + 1⟩
  | absent {place : Place ν} {properties : List (PropertyKey × Schema ν)} {fields : List (String × Value)}
      {p : KeyPattern} {s : Schema ν} {regex : Regex} (tripped : fatal = true)
      (declared : place.site.properties? = some properties) (keyed : place.value.fields? = some fields)
      (member : (.pattern p, s) ∈ properties) (compiled : p.compile = .ok regex)
      (none : ∀ field ∈ fields, regex.isMatch field.1 = false) :
      Step fatal place { token? := some (PropertyKey.pattern p).text }
        ⟨.node s, .undefined, place.depth + 1⟩
  | element {rules : Rules ν} {type : TypeRules} {items? : Option (List (Schema ν))}
      {nested? : Option (List (PropertyKey × Schema ν))} {xs : List Value} {index : Nat} {x : Value}
      {depth : Nat} (array : type.tag = .array) (found : xs[index]? = some x) :
      Step fatal ⟨.node (.typed rules type items? nested?), .list xs, depth⟩
        { token? := some ("[" ++ toString index ++ "]"), label? := some .arrayElement }
        ⟨.element type.keepOrder (Schema.elementSchemas items?) index, x, depth + 1⟩
  | positional {items : List (Schema ν)} {index : Nat} {s : Schema ν} {x : Value} {depth : Nat}
      (found : items[index]? = some s) :
      Step fatal ⟨.element true items index, x, depth⟩ {} ⟨.node s, x, depth⟩
  | fatalItem {before after : List (Schema ν)} {s : Schema ν} {index : Nat} {x : Value} {depth : Nat}
      (tripped : fatal = true) (refused : Refused config custom before depth x) :
      Step fatal ⟨.element false (before ++ s :: after) index, x, depth⟩ {} ⟨.node s, x, depth⟩
  | lastItem {before : List (Schema ν)} {s : Schema ν} {index : Nat} {x : Value} {depth : Nat}
      (mild : fatal = false) (refused : Refused config custom before depth x) :
      Step fatal ⟨.element false (before ++ [s]) index, x, depth⟩ {} ⟨.node s, x, depth⟩
  | member {rules : Rules ν} {before after : List (Schema ν)} {s : Schema ν} {v : Value} {depth : Nat}
      (tripped : fatal = true) (present : rules.absentExit? v = none)
      (refused : Refused config custom before (depth + 1) v) :
      Step fatal ⟨.node (.alternation rules (before ++ s :: after)), v, depth⟩ {} ⟨.node s, v, depth + 1⟩

/-- What a node has made of a value when its value rules come. A missing value that is spared never
comes to them. -/
inductive Working (depth : Nat) : Schema ν → Value → Value → Prop where
  | shape {rules : Rules ν} {properties : List (PropertyKey × Schema ν)} {v : Value}
      {fields : List (String × Value)} {groups : List (List (String × Value))}
      (present : rules.absentExit? v = none) (keyed : v.fields? = some fields)
      (added : Added config custom properties (depth + 1) fields groups) :
      Working depth (.shape rules properties) v (v.withFields (storeAll [] groups.flatten))
  | alternation {rules : Rules ν} {before after : List (Schema ν)} {s : Schema ν} {v w : Value}
      (present : rules.absentExit? v = none) (refused : Refused config custom before (depth + 1) v)
      (accepted : outcome ((Context.direct config custom).check s (depth + 1) v) = .ok w) :
      Working depth (.alternation rules (before ++ s :: after)) v w
  | typed {rules : Rules ν} {type : TypeRules} {items? : Option (List (Schema ν))} {v listed : Value}
      (accepted : type.tag.accepts v = true) (content : Listed config custom type items? depth v listed) :
      Working depth (.typed rules type items? none) v listed
  | nested {rules : Rules ν} {type : TypeRules} {items? : Option (List (Schema ν))}
      {properties : List (PropertyKey × Schema ν)} {v listed : Value} {fields : List (String × Value)}
      {groups : List (List (String × Value))} (accepted : type.tag.accepts v = true)
      (content : Listed config custom type items? depth v listed) (keyed : listed.fields? = some fields)
      (added : Added config custom properties (depth + 2) fields groups) :
      Working depth (.typed rules type items? (some properties)) v
        (listed.withFields (storeAll [] groups.flatten))

/-- A failure that arises at a place itself. -/
inductive Raised : Place ν → Failure → Prop where
  | depth {s : Schema ν} {v : Value} {depth : Nat} (deep : config.maxDepth < depth) :
      Raised ⟨.node s, v, depth⟩ (.here .depthExceeded
        ("Maximum schema depth of '" ++ toString config.maxDepth ++ "' exceeded!"))
  | type {rules : Rules ν} {type : TypeRules} {items? : Option (List (Schema ν))}
      {nested? : Option (List (PropertyKey × Schema ν))} {v : Value} {depth : Nat}
      (present : rules.absentExit? v = none) (other : type.tag.accepts v = false) :
      Raised ⟨.node (.typed rules type items? nested?), v, depth⟩ (typeMismatch type.tag v)
  | bounds {rules : Rules ν} {type : TypeRules} {items? : Option (List (Schema ν))}
      {nested? : Option (List (PropertyKey × Schema ν))} {v : Value} {depth : Nat} {f : Failure}
      (accepted : type.tag.accepts v = true) (failed : rules.constraints.checkBounds type.tag v = .error f) :
      Raised ⟨.node (.typed rules type items? nested?), v, depth⟩ f
  | pattern {rules : Rules ν} {type : TypeRules} {items? : Option (List (Schema ν))}
      {nested? : Option (List (PropertyKey × Schema ν))} {v : Value} {depth : Nat} {f : Failure}
      (accepted : type.tag.accepts v = true) (failed : rules.constraints.checkPattern type.tag v = .error f) :
      Raised ⟨.node (.typed rules type items? nested?), v, depth⟩ f
  | className {rules : Rules ν} {type : TypeRules} {items? : Option (List (Schema ν))}
      {nested? : Option (List (PropertyKey × Schema ν))} {v : Value} {depth : Nat} {f : Failure}
      (accepted : type.tag.accepts v = true) (failed : type.checkClass v = .error f) :
      Raised ⟨.node (.typed rules type items? nested?), v, depth⟩ f
  | arrayLength {rules : Rules ν} {type : TypeRules} {items? : Option (List (Schema ν))}
      {nested? : Option (List (PropertyKey × Schema ν))} {xs : List Value} {depth : Nat}
      (array : type.tag = .array) (fixed : type.keepLength = true)
      (wrong : xs.length ≠ (Schema.elementSchemas items?).length) :
      Raised ⟨.node (.typed rules type items? nested?), .list xs, depth⟩ (.here .arrayLength
        ("Invalid number of elements in array! Expected '" ++
          toString (Schema.elementSchemas items?).length ++ "' items, instead got '" ++
          toString xs.length ++ "'!"))
  | noItem {index : Nat} {x : Value} {depth : Nat} :
      Raised ⟨.element false [] index, x, depth⟩
        (.here .arrayElement "No item schemas accept the element!")
  | shape {rules : Rules ν} {properties : List (PropertyKey × Schema ν)} {v : Value} {depth : Nat}
      (present : rules.absentExit? v = none) (unkeyed : v.fields? = none) :
      Raised ⟨.node (.shape rules properties), v, depth⟩ (.here .objectShape
        ("Expected '" ++ (Schema.shape rules properties).typeExpr ++ "', instead got '" ++ v.shape ++ "'!"))
  | nested {properties : List (PropertyKey × Schema ν)} {v : Value} {depth : Nat} (unkeyed : v.fields? = none) :
      Raised ⟨.nested properties, v, depth⟩ (.here .objectShape
        ("Expected '" ++ TypeExpr.braces (Schema.propertyTypes properties) ++ "', instead got '" ++
          v.shape ++ "'!"))
  | invalidMarker {place : Place ν} {properties : List (PropertyKey × Schema ν)}
      {fields : List (String × Value)} {p : KeyPattern} {s : Schema ν} {e : SchemaError}
      (declared : place.site.properties? = some properties) (keyed : place.value.fields? = some fields)
      (member : (.pattern p, s) ∈ properties) (invalid : p.compile = .error e) :
      Raised place
        ⟨.invalidKeyPattern, "Invalid key pattern! " ++ e.message, [(PropertyKey.pattern p).text]⟩
  | missingKey {place : Place ν} {properties : List (PropertyKey × Schema ν)}
      {fields : List (String × Value)} {p : KeyPattern} {s : Schema ν} {regex : Regex}
      (declared : place.site.properties? = some properties) (keyed : place.value.fields? = some fields)
      (member : (.pattern p, s) ∈ properties) (compiled : p.compile = .ok regex)
      (none : ∀ field ∈ fields, regex.isMatch field.1 = false)
      (refused : Refused config custom [s] (place.depth + 1) .undefined) :
      Raised place ⟨.missingKey, "No keys matching pattern '" ++ p.marker ++ "' found!",
        [(PropertyKey.pattern p).text]⟩
  | alternation {rules : Rules ν} {members : List (Schema ν)} {v : Value} {depth : Nat}
      (present : rules.absentExit? v = none) (refused : Refused config custom members (depth + 1) v) :
      Raised ⟨.node (.alternation rules members), v, depth⟩ (.here .typeMismatch
        ("Invalid property type! Expected '" ++ (Schema.alternation rules members).typeExpr ++
          "', instead got '" ++ v.shape ++ "'!"))
  | equality {s : Schema ν} {v w : Value} {depth : Nat} {f : Failure}
      (working : Working config custom depth s v w)
      (failed : s.rules.constraints.checkEquality w = .error f) : Raised ⟨.node s, v, depth⟩ f
  | enumeration {s : Schema ν} {v w : Value} {depth : Nat} {f : Failure}
      (working : Working config custom depth s v w)
      (failed : s.rules.constraints.checkEnumeration config.enumPreview w = .error f) :
      Raised ⟨.node s, v, depth⟩ f
  | custom {s : Schema ν} {v w : Value} {depth : Nat} {rule : ν} {f : Failure}
      (working : Working config custom depth s v w) (declared : s.rules.custom? = some rule)
      (failed : custom rule w s = .error f) : Raised ⟨.node s, v, depth⟩ f

/-- A chain of steps, with what they leave on a failure from its end. -/
inductive Walk (fatal : Bool) : Place ν → List Frame → Place ν → Prop where
  | stop (place : Place ν) : Walk fatal place [] place
  | step {start next stop : Place ν} {frame : Frame} {frames : List Frame}
      (first : Step config custom fatal start frame next) (rest : Walk fatal next frames stop) :
      Walk fatal start (frame :: frames) stop

def Fails : Place ν → Failure → Prop
  | ⟨.node s, v, depth⟩, f => outcome ((Context.direct config custom).check s depth v) = .error f
  | ⟨.nested properties, v, depth⟩, f =>
    v.fields? = none ∧ f = .here .objectShape
      ("Expected '" ++ TypeExpr.braces (Schema.propertyTypes properties) ++ "', instead got '" ++
        v.shape ++ "'!") ∨
    ∃ fields, v.fields? = some fields ∧ ∃ entry ∈ properties, PropertyFails fields entry.1
      (fun x => outcome ((Context.direct config custom).check entry.2 (depth + 1) x)) f
  | ⟨.element keepOrder items index, x, depth⟩, f =>
    outcome (Context.element keepOrder (items.map ((Context.direct config custom).check · depth)) index x) =
      .error f

def Inherited (place : Place ν) (f : Failure) : Prop :=
  ∃ frame next g, Step config custom g.isFatal place frame next ∧ Fails config custom next g ∧
    f = frame.pass g

def Site.rank : Site ν → Nat
  | node s => 2 * s.height + 1
  | nested properties => 2 * Schema.heightOfEntries properties
  | element _ items _ => 2 * Schema.heightOfAll items

theorem Site.rank_entry {site : Site ν} {properties : List (PropertyKey × Schema ν)}
    (declared : site.properties? = some properties) {entry : PropertyKey × Schema ν}
    (member : entry ∈ properties) : (Site.node entry.2).rank < site.rank := by
  have lower := Schema.height_lt_heightOfEntries member
  cases site with
  | node s =>
    cases s <;> cases declared
    simp only [rank, Schema.height]
    omega
  | nested =>
    cases declared
    simp only [rank]
    omega
  | element => cases declared

theorem Site.rank_item {keepOrder : Bool} {items : List (Schema ν)} {index : Nat} {s : Schema ν}
    (member : s ∈ items) : (Site.node s).rank < (Site.element keepOrder items index).rank := by
  have lower := Schema.height_lt_heightOfAll member
  simp only [rank]
  omega

theorem Step.rank_lt {config : Config} {custom : CustomRules ν} {fatal : Bool} {place next : Place ν}
    {frame : Frame} (step : Step config custom fatal place frame next) : next.site.rank < place.site.rank := by
  cases step with
  | literal declared _ member => exact Site.rank_entry declared member
  | selected declared _ member => exact Site.rank_entry declared member
  | absent _ declared _ member => exact Site.rank_entry declared member
  | @nestedShape rules type items? properties =>
    simp only [Site.rank, Schema.height_typed, Option.elim_some]
    cases properties with
    | nil => simp [Schema.heightOfEntries]
    | cons entry rest =>
      simp only [List.isEmpty_cons, Bool.false_eq_true, if_false]
      omega
  | element array =>
    simp only [Site.rank, Schema.height_typed, if_pos array]
    omega
  | positional found => exact Site.rank_item (List.mem_of_getElem? found)
  | fatalItem => exact Site.rank_item (by simp)
  | lastItem => exact Site.rank_item (by simp)
  | @member rules before after s =>
    have inside : s ∈ before ++ s :: after := by simp
    have lower := Schema.height_member rules inside
    simp only [Site.rank]
    omega

section Steps

variable {config : Config} {custom : CustomRules ν}

theorem property_fails {place : Place ν} {properties : List (PropertyKey × Schema ν)}
    {fields : List (String × Value)} {entry : PropertyKey × Schema ν} {f : Failure}
    (declared : place.site.properties? = some properties) (keyed : place.value.fields? = some fields)
    (member : entry ∈ properties)
    (fails : PropertyFails fields entry.1
      (fun x => outcome ((Context.direct config custom).check entry.2 (place.depth + 1) x)) f) :
    Raised config custom place f ∨ Inherited config custom place f := by
  obtain ⟨key, s⟩ := entry
  cases fails with
  | literal rejected => exact .inr ⟨_, _, _, .literal declared keyed member, rejected, rfl⟩
  | invalidMarker invalid => exact .inl (.invalidMarker declared keyed member invalid)
  | selected compiled found matched rejected =>
    exact .inr ⟨_, _, _, .selected declared keyed member compiled found matched, rejected, rfl⟩
  | absent compiled none rejected fatal =>
    exact .inr ⟨_, _, _, .absent fatal declared keyed member compiled none, rejected, rfl⟩
  | missing compiled none rejected mild =>
    refine .inl (.missingKey declared keyed member compiled none ?_)
    exact List.forall_mem_singleton.2 ⟨_, rejected, mild⟩

theorem refused_of_map {schemas : List (Schema ν)} {depth : Nat} {v : Value}
    (rejected : ∀ check ∈ schemas.map ((Context.direct config custom).check · depth),
      Check.Rejects check v false) : Refused config custom schemas depth v :=
  fun _ member => rejected _ (List.mem_map_of_mem member)

theorem refused_last {schemas : List (Schema ν)} {depth : Nat} {v : Value} {before : List (Check Id)}
    {check : Check Id} {f : Failure}
    (refused : ∀ check ∈ schemas.map ((Context.direct config custom).check · depth), Check.Rejects check v false)
    (split : schemas.map ((Context.direct config custom).check · depth) = before ++ [check])
    (rejected : outcome (check v) = .error f) :
    ∃ earlier s, schemas = earlier ++ [s] ∧ Refused config custom earlier depth v ∧
      outcome ((Context.direct config custom).check s depth v) = .error f ∧ f.isFatal = false := by
  obtain ⟨earlier, s, after, rfl, rfl, rfl, none⟩ := split_of_map split
  obtain rfl := List.map_eq_nil_iff.1 none
  have refused := refused_of_map refused
  obtain ⟨g, same, mild⟩ := refused s (by simp)
  cases rejected.symm.trans same
  exact ⟨earlier, s, rfl, fun s member => refused s (by simp [member]), rejected, mild⟩

theorem element_fails {keepOrder : Bool} {items : List (Schema ν)} {index : Nat} {x : Value} {depth : Nat}
    {f : Failure} (failed : Fails config custom ⟨.element keepOrder items index, x, depth⟩ f) :
    Raised config custom ⟨.element keepOrder items index, x, depth⟩ f ∨
      Inherited config custom ⟨.element keepOrder items index, x, depth⟩ f := by
  rcases Context.element_error failed with ⟨rfl, check, found, rejected⟩ |
    ⟨rfl, ⟨_, _, _, split, refused, rejected, fatal⟩ | ⟨refused, ⟨none, rfl⟩ | ⟨_, _, split, rejected⟩⟩⟩
  · rw [List.getElem?_map, Option.map_eq_some_iff] at found
    obtain ⟨s, found, rfl⟩ := found
    exact .inr ⟨_, _, _, .positional found, rejected, rfl⟩
  · obtain ⟨before, s, after, rfl, rfl, rfl, rfl⟩ := split_of_map split
    exact .inr ⟨_, _, _, .fatalItem fatal (refused_of_map refused), rejected, rfl⟩
  · obtain rfl := List.map_eq_nil_iff.1 none
    exact .inl .noItem
  · obtain ⟨before, s, rfl, earlier, rejected, mild⟩ := refused_last refused split rejected
    exact .inr ⟨_, _, _, .lastItem mild earlier, rejected, rfl⟩

theorem nested_fails {properties : List (PropertyKey × Schema ν)} {v : Value} {depth : Nat} {f : Failure}
    (failed : Fails config custom ⟨.nested properties, v, depth⟩ f) :
    Raised config custom ⟨.nested properties, v, depth⟩ f ∨
      Inherited config custom ⟨.nested properties, v, depth⟩ f := by
  rcases failed with ⟨unkeyed, rfl⟩ | ⟨fields, keyed, entry, member, fails⟩
  · exact .inl (.nested unkeyed)
  · exact property_fails rfl keyed member fails

theorem valueRules_fails {s : Schema ν} {v w : Value} {depth : Nat} {f : Failure}
    (working : Working config custom depth s v w)
    (failed : outcome ((Context.direct config custom).valueRules s w) = .error f) :
    Raised config custom ⟨.node s, v, depth⟩ f := by
  rcases Context.valueRules_error.1 failed with equality | ⟨_, enumeration | ⟨_, rule, declared, failed⟩⟩
  · exact .equality working equality
  · exact .enumeration working enumeration
  · exact .custom working declared failed

theorem shape_fails {rules : Rules ν} {properties : List (PropertyKey × Schema ν)} {v : Value} {depth : Nat}
    {f : Failure} (failed : Fails config custom ⟨.node (.shape rules properties), v, depth⟩ f) :
    Raised config custom ⟨.node (.shape rules properties), v, depth⟩ f ∨
      Inherited config custom ⟨.node (.shape rules properties), v, depth⟩ f := by
  rw [Fails, Context.check_shape] at failed
  rcases Context.guarded_error.1 failed with ⟨deep, rfl⟩ | ⟨_, failed⟩
  · exact .inl (.depth deep)
  · obtain ⟨present, ⟨unkeyed, rfl⟩ | ⟨fields, keyed, ⟨_, mapped, fails⟩ | ⟨groups, added, failed⟩⟩⟩ :=
      Context.shape_error failed
    · exact .inl (.shape present unkeyed)
    · obtain ⟨entry, member, rfl⟩ := List.mem_map.1 mapped
      exact property_fails rfl keyed member fails
    · rw [List.forall₂_map_left_iff] at added
      exact .inl (valueRules_fails (.shape present keyed added) failed)

theorem alternation_fails {rules : Rules ν} {members : List (Schema ν)} {v : Value} {depth : Nat}
    {f : Failure} (failed : Fails config custom ⟨.node (.alternation rules members), v, depth⟩ f) :
    Raised config custom ⟨.node (.alternation rules members), v, depth⟩ f ∨
      Inherited config custom ⟨.node (.alternation rules members), v, depth⟩ f := by
  rw [Fails, Context.check_alternation] at failed
  rcases Context.guarded_error.1 failed with ⟨deep, rfl⟩ | ⟨_, failed⟩
  · exact .inl (.depth deep)
  · obtain ⟨present, ⟨_, _, _, split, refused, rejected, fatal⟩ | ⟨refused, rfl⟩ |
      ⟨_, _, _, x, split, refused, accepted, failed⟩⟩ := Context.alternation_error failed
    · obtain ⟨before, s, after, rfl, rfl, rfl, rfl⟩ := split_of_map split
      exact .inr ⟨_, _, _, .member fatal present (refused_of_map refused), rejected, rfl⟩
    · exact .inl (.alternation present (refused_of_map refused))
    · obtain ⟨before, s, after, rfl, rfl, rfl, rfl⟩ := split_of_map split
      exact .inl (valueRules_fails (.alternation present (refused_of_map refused) accepted) failed)

theorem elements_fail {rules : Rules ν} {type : TypeRules} {items? : Option (List (Schema ν))}
    {nested? : Option (List (PropertyKey × Schema ν))} {v : Value} {depth : Nat} {f : Failure}
    (array : type.tag = .array)
    (failed : outcome (Context.elements type ((Schema.elementSchemas items?).map
      ((Context.direct config custom).check · (depth + 1))) v) = .error f) :
    Raised config custom ⟨.node (.typed rules type items? nested?), v, depth⟩ f ∨
      Inherited config custom ⟨.node (.typed rules type items? nested?), v, depth⟩ f := by
  obtain ⟨xs, rfl, ⟨fixed, wrong, rfl⟩ | ⟨index, x, inner, found, rejected, rfl⟩⟩ := Context.elements_error failed
  · rw [List.length_map] at wrong ⊢
    exact .inl (.arrayLength array fixed wrong)
  · exact .inr ⟨_, _, _, .element array found, rejected, rfl⟩

theorem nestedShape_fails {rules : Rules ν} {type : TypeRules} {items? : Option (List (Schema ν))}
    {properties : List (PropertyKey × Schema ν)} {v listed : Value} {depth : Nat} {f : Failure}
    (accepted : type.tag.accepts v = true) (content : Listed config custom type items? depth v listed)
    (failed : outcome ((Context.direct config custom).nestedShape properties (properties.map fun entry =>
      (entry.1, (Context.direct config custom).check entry.2 (depth + 2))) listed) = .error f) :
    Inherited config custom ⟨.node (.typed rules type items? (some properties)), v, depth⟩ f := by
  rcases Context.nestedShape_error failed with ⟨unkeyed, rfl⟩ | ⟨fields, keyed, _, mapped, inner, fails, rfl⟩
  · refine ⟨_, _, _, .nestedShape accepted content, .inl ⟨unkeyed, rfl⟩, ?_⟩
    have spaced : " Expected '" = " " ++ "Expected '" := rfl
    simp only [Frame.pass, Option.elim_none, Option.elim_some, Failure.relabelled, Failure.here, spaced,
      String.append_assoc]
    rfl
  · obtain ⟨entry, member, rfl⟩ := List.mem_map.1 mapped
    exact ⟨_, _, _, .nestedShape accepted content, .inr ⟨fields, keyed, entry, member, fails⟩, rfl⟩

theorem working_typed {rules : Rules ν} {type : TypeRules} {items? : Option (List (Schema ν))}
    {nested? : Option (List (PropertyKey × Schema ν))} {v listed shaped : Value} {depth : Nat}
    (accepted : type.tag.accepts v = true) (content : Listed config custom type items? depth v listed)
    (nested : (nested?.map fun properties => (Context.direct config custom).nestedShape properties
      (properties.map fun entry => (entry.1, (Context.direct config custom).check entry.2 (depth + 2)))).elim
        (shaped = listed) fun nested => outcome (nested listed) = .ok shaped) :
    Working config custom depth (.typed rules type items? nested?) v shaped := by
  cases nested? with
  | none =>
    obtain rfl : shaped = listed := nested
    exact .typed accepted content
  | some properties =>
    obtain ⟨fields, groups, keyed, added, rfl⟩ := Context.nestedShape_ok.1 nested
    rw [List.forall₂_map_left_iff] at added
    exact .nested accepted content keyed added

theorem typed_fails {rules : Rules ν} {type : TypeRules} {items? : Option (List (Schema ν))}
    {nested? : Option (List (PropertyKey × Schema ν))} {v : Value} {depth : Nat} {f : Failure}
    (failed : Fails config custom ⟨.node (.typed rules type items? nested?), v, depth⟩ f) :
    Raised config custom ⟨.node (.typed rules type items? nested?), v, depth⟩ f ∨
      Inherited config custom ⟨.node (.typed rules type items? nested?), v, depth⟩ f := by
  rw [Fails, Context.check_typed] at failed
  rcases Context.guarded_error.1 failed with ⟨deep, rfl⟩ | ⟨_, failed⟩
  · exact .inl (.depth deep)
  · rcases Context.typed_error failed with ⟨other, present, rfl⟩ | ⟨accepted, failed | failed | failed |
      ⟨array, failed⟩ | ⟨_, listed, found, content, failed⟩ | ⟨listed, shaped, _, _, _, content, nested, failed⟩⟩
    · exact .inl (.type present other)
    · exact .inl (.bounds accepted failed)
    · exact .inl (.pattern accepted failed)
    · exact .inl (.className accepted failed)
    · exact elements_fail array failed
    · obtain ⟨properties, rfl, rfl⟩ := Option.map_eq_some_iff.1 found
      exact .inr (nestedShape_fails accepted content failed)
    · exact .inl (valueRules_fails (working_typed accepted content nested) failed)

theorem raised_or_inherited {place : Place ν} {f : Failure} (failed : Fails config custom place f) :
    Raised config custom place f ∨ Inherited config custom place f := by
  obtain ⟨site, v, depth⟩ := place
  cases site with
  | node s =>
    cases s with
    | shape rules properties => exact shape_fails failed
    | alternation rules members => exact alternation_fails failed
    | typed rules type items? nested? => exact typed_fails failed
  | nested properties => exact nested_fails failed
  | element keepOrder items index => exact element_fails failed

theorem exists_walk {place : Place ν} {f : Failure} (failed : Fails config custom place f) :
    ∃ frames stop raised, Walk config custom f.isFatal place frames stop ∧ Raised config custom stop raised ∧
      f = report frames raised := by
  -- Each step goes down in rank, so that handing on comes to an end.
  induction bound : place.site.rank using Nat.strongRecOn generalizing place f with
  | ind rank ih =>
    rcases raised_or_inherited failed with raised | ⟨frame, next, g, step, inner, rfl⟩
    · exact ⟨[], place, f, .stop place, raised, (report_nil f).symm⟩
    · obtain ⟨frames, stop, raised, rest, found, rfl⟩ := ih _ (bound ▸ step.rank_lt) inner rfl
      refine ⟨frame :: frames, stop, raised, ?_, found, (report_cons frame frames raised).symm⟩
      rw [Frame.isFatal_pass]
      exact .step step rest

/-- A raised failure lies at its place, or at a marker there. Only custom rules put it elsewhere. -/
theorem Raised.path_eq {place : Place ν} {raised : Failure} (found : Raised config custom place raised) :
    raised.path = [] ∨ (∃ p, raised.path = [(PropertyKey.pattern p).text]) ∨
      ∃ s w rule, place.site = .node s ∧ custom rule w s = .error raised := by
  cases found with
  | @type _ type _ _ v =>
    obtain ⟨message, same⟩ := typeMismatch_eq type.tag v
    exact .inl (by rw [same, Failure.here])
  | bounds _ failed =>
    obtain ⟨message, rfl⟩ := Constraints.checkBounds_error failed
    exact .inl rfl
  | pattern _ failed =>
    obtain ⟨message, rfl⟩ := Constraints.checkPattern_error failed
    exact .inl rfl
  | className _ failed =>
    obtain ⟨message, rfl⟩ := TypeRules.checkClass_error failed
    exact .inl rfl
  | equality _ failed =>
    obtain ⟨message, rfl⟩ := Constraints.checkEquality_error failed
    exact .inl rfl
  | enumeration _ failed =>
    obtain ⟨message, rfl⟩ := Constraints.checkEnumeration_error failed
    exact .inl rfl
  | invalidMarker => exact .inr (.inl ⟨_, rfl⟩)
  | missingKey => exact .inr (.inl ⟨_, rfl⟩)
  | custom _ _ failed => exact .inr (.inr ⟨_, _, _, rfl, failed⟩)
  | _ => exact .inl rfl

/-- Every failure of a validation reports one that is raised at the end of a walk from the root. -/
theorem validateWith_located {s : Schema ν} {v : Value} {f : Failure}
    (failed : validateWith config custom v s = .error f) :
    ∃ frames stop raised, Walk config custom f.isFatal ⟨.node s, v, 0⟩ frames stop ∧
      Raised config custom stop raised ∧ f = report frames raised :=
  exists_walk failed

end Steps

end

def accepting : CustomRules Unit := fun _ v _ => .ok v

def tagged : Schema Unit := .shape {}
  [(.literal "tags", .typed {} { tag := .array } (some [.typed {} { tag := .string } none none]) none)]

theorem tagged_located :
    validateWith {} accepting (.object [("tags", .list [.string "a", .int 1])]) tagged =
      .error ⟨.arrayElement, "Invalid type of element in array! Invalid property type! Expected 'string', " ++
        "instead got 'number'!", ["tags", "[1]"]⟩ ∧
    ∃ frames stop raised, Walk {} accepting false
      ⟨.node tagged, .object [("tags", .list [.string "a", .int 1])], 0⟩ frames stop ∧
      Raised {} accepting stop raised ∧
      ⟨.arrayElement, "Invalid type of element in array! Invalid property type! Expected 'string', " ++
        "instead got 'number'!", ["tags", "[1]"]⟩ = report frames raised := by
  have failed : validateWith {} accepting (.object [("tags", .list [.string "a", .int 1])]) tagged =
      .error ⟨.arrayElement, "Invalid type of element in array! Invalid property type! Expected 'string', " ++
        "instead got 'number'!", ["tags", "[1]"]⟩ := by rfl
  exact ⟨failed, validateWith_located failed⟩

end Descent

end Conform
