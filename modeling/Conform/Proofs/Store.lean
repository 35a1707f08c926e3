import Conform.Validation.Check
import Mathlib.Data.List.Induction

/-! The fields that a shape stores: which pairs survive, in which order, and how properties
that select different keys keep out of each other's way. -/

namespace Conform

namespace Fields

variable {α : Type}

theorem put_append {key : String} {fields : List (String × α)} (absent : key ∉ fields.map Prod.fst)
    (value : α) (rest : List (String × α)) : put key value (fields ++ rest) = fields ++ put key value rest := by
  induction fields with
  | nil => rfl
  | cons field fields ih =>
    obtain ⟨k, v⟩ := field
    simp only [List.map_cons, List.mem_cons, not_or] at absent
    rw [List.cons_append, put, if_neg (Ne.symm absent.1), ih absent.2, List.cons_append]

theorem mem_put {key : String} {value : α} {fields : List (String × α)} {field : String × α}
    (member : field ∈ put key value fields) : field = (key, value) ∨ field ∈ fields := by
  induction fields with
  | nil => exact .inl (List.mem_singleton.1 member)
  | cons first fields ih =>
    obtain ⟨k, v⟩ := first
    rw [put] at member
    split at member
    · next same =>
      subst same
      exact (List.mem_cons.1 member).imp_right (List.mem_cons_of_mem _)
    · rcases List.mem_cons.1 member with same | later
      · exact .inr (same ▸ List.mem_cons_self)
      · exact (ih later).imp_right (List.mem_cons_of_mem _)

theorem lookup_filter (select : String → Bool) {key : String} (selected : select key = true)
    (fields : List (String × α)) : (fields.filter (select ·.1)).lookup key = fields.lookup key := by
  induction fields with
  | nil => rfl
  | cons field fields ih =>
    obtain ⟨k, v⟩ := field
    by_cases same : key = k
    · subst same
      rw [List.filter_cons_of_pos (by exact selected), List.lookup_cons_self, List.lookup_cons_self]
    · have differ : (key == k) = false := by simpa using same
      rw [List.lookup_cons, differ, ← ih, List.filter_cons]
      split
      · rw [List.lookup_cons, differ]
      · rfl

theorem mem_of_lookup {fields : List (String × α)} {name : String} {value : α}
    (found : fields.lookup name = some value) : (name, value) ∈ fields := by
  obtain ⟨before, after, rfl, _⟩ := List.lookup_eq_some_iff.1 found
  exact List.mem_append_right _ List.mem_cons_self

end Fields

theorem Value.isUndefined_iff {v : Value} : v.isUndefined = true ↔ v = .undefined := by
  cases v <;> simp [isUndefined]

def storeAll (fields pairs : List (String × Value)) : List (String × Value) :=
  pairs.foldl (fun fields pair => store fields pair.1 pair.2) fields

@[simp] theorem storeAll_nil (fields : List (String × Value)) : storeAll fields [] = fields := rfl

@[simp] theorem storeAll_cons (fields : List (String × Value)) (pair : String × Value)
    (pairs : List (String × Value)) :
    storeAll fields (pair :: pairs) = storeAll (store fields pair.1 pair.2) pairs := rfl

theorem storeAll_append (fields pairs more : List (String × Value)) :
    storeAll fields (pairs ++ more) = storeAll (storeAll fields pairs) more :=
  List.foldl_append

theorem mem_store {fields : List (String × Value)} {key : String} {v : Value}
    {field : String × Value} (member : field ∈ store fields key v) :
    field ∈ fields ∨ field = (key, v) ∧ v.isUndefined = false := by
  unfold store at member
  split at member
  · exact .inl member
  · next present => exact (Fields.mem_put member).symm.imp_right fun same => ⟨same, by simpa using present⟩

theorem mem_storeAll {fields pairs : List (String × Value)} {field : String × Value}
    (member : field ∈ storeAll fields pairs) :
    field ∈ fields ∨ field ∈ pairs ∧ field.2.isUndefined = false := by
  induction pairs generalizing fields with
  | nil => exact .inl member
  | cons pair pairs ih =>
    rcases ih member with early | ⟨later, present⟩
    · rcases mem_store early with old | ⟨rfl, present⟩
      · exact .inl old
      · exact .inr ⟨List.mem_cons_self, present⟩
    · exact .inr ⟨List.mem_cons_of_mem _ later, present⟩

theorem mem_keys_store {fields : List (String × Value)} {name : String}
    (stored : name ∈ fields.map Prod.fst) (key : String) (v : Value) :
    name ∈ (store fields key v).map Prod.fst := by
  unfold store
  split
  · exact stored
  · rw [Fields.keys_put]
    split
    · exact stored
    · exact List.mem_append_left _ stored

theorem mem_keys_storeAll {fields pairs : List (String × Value)} {name : String}
    (source : name ∈ fields.map Prod.fst ∨ ∃ pair ∈ pairs, pair.1 = name ∧ pair.2.isUndefined = false) :
    name ∈ (storeAll fields pairs).map Prod.fst := by
  induction pairs generalizing fields with
  | nil => exact source.resolve_right (by simp)
  | cons pair pairs ih =>
    rcases source with stored | ⟨other, member, rfl, present⟩
    · exact ih (.inl (mem_keys_store stored pair.1 pair.2))
    · rcases List.mem_cons.1 member with rfl | later
      · have new : other.1 ∈ (store fields other.1 other.2).map Prod.fst := by
          rw [store, if_neg (by simp [present]), Fields.keys_put]
          split
          · next stored => exact stored
          · simp
        exact ih (.inl new)
      · exact ih (.inr ⟨other, later, rfl, present⟩)

theorem eq_undefined_of_storeAll {pairs : List (String × Value)} (nothing : storeAll [] pairs = [])
    {pair : String × Value} (member : pair ∈ pairs) : pair.2 = .undefined := by
  cases absent : pair.2.isUndefined with
  | true => exact Value.isUndefined_iff.1 absent
  | false =>
    have stored : pair.1 ∈ (storeAll [] pairs).map Prod.fst :=
      mem_keys_storeAll (.inr ⟨pair, member, rfl, absent⟩)
    rw [nothing] at stored
    cases stored

theorem nodup_storeAll {fields : List (String × Value)} (distinct : (fields.map Prod.fst).Nodup)
    (pairs : List (String × Value)) : ((storeAll fields pairs).map Prod.fst).Nodup := by
  induction pairs generalizing fields with
  | nil => exact distinct
  | cons pair pairs ih =>
    apply ih
    change ((store fields pair.1 pair.2).map Prod.fst).Nodup
    unfold store
    split
    · exact distinct
    · exact Fields.nodup_put pair.1 pair.2 distinct

def presentPairs (pairs : List (String × Value)) : List (String × Value) :=
  pairs.filter fun pair => !pair.2.isUndefined

theorem presentPairs_append_singleton (pairs : List (String × Value)) (pair : String × Value) :
    presentPairs (pairs ++ [pair]) = if pair.2.isUndefined then presentPairs pairs else presentPairs pairs ++ [pair] := by
  rw [presentPairs, List.filter_append]
  cases absent : pair.2.isUndefined <;> simp [presentPairs, absent]

/-- Under each name stands the last value that is stored there. -/
theorem lookup_storeAll (pairs : List (String × Value)) (name : String) :
    (storeAll [] pairs).lookup name = (presentPairs pairs).reverse.lookup name := by
  induction pairs using List.reverseRecOn with
  | nil => rfl
  | append_singleton pairs pair ih =>
    rw [storeAll_append, storeAll_cons, storeAll_nil, store, presentPairs_append_singleton]
    split
    · exact ih
    · rw [Fields.lookup_put, ih, List.reverse_append, List.reverse_singleton, List.singleton_append,
        List.lookup_cons]
      by_cases same : name = pair.1
      · simp [same]
      · rw [if_neg same, beq_eq_false_iff_ne.2 same]

theorem lookup_storeAll_append (pairs more : List (String × Value)) (name : String) :
    (storeAll [] (pairs ++ more)).lookup name =
      ((storeAll [] more).lookup name).or ((storeAll [] pairs).lookup name) := by
  simp only [lookup_storeAll, presentPairs, List.filter_append, List.reverse_append, List.lookup_append]

theorem lookup_storeAll_eq_none {pairs : List (String × Value)} {name : String} :
    (storeAll [] pairs).lookup name = none ↔ ∀ pair ∈ pairs, ¬(pair.1 = name ∧ pair.2.isUndefined = false) := by
  simp only [lookup_storeAll, List.lookup_eq_none_iff, List.mem_reverse, presentPairs, List.mem_filter]
  grind

theorem keys_storeAll (pairs : List (String × Value)) :
    (storeAll [] pairs).map Prod.fst = ((presentPairs pairs).map Prod.fst).eraseDups := by
  induction pairs using List.reverseRecOn with
  | nil => rfl
  | append_singleton pairs pair ih =>
    rw [storeAll_append, storeAll_cons, storeAll_nil, store, presentPairs_append_singleton]
    split
    · exact ih
    · rw [Fields.keys_put, ih, List.map_append, List.map_singleton, List.eraseDups_append]
      by_cases old : pair.1 ∈ (presentPairs pairs).map Prod.fst <;>
        simp [List.mem_eraseDups, List.eraseDups_cons, old, List.removeAll]

theorem store_append {fields : List (String × Value)} {key : String}
    (absent : key ∉ fields.map Prod.fst) (v : Value) (rest : List (String × Value)) :
    store (fields ++ rest) key v = fields ++ store rest key v := by
  unfold store
  split
  · rfl
  · exact Fields.put_append absent v rest

theorem storeAll_append_of_absent {fields pairs : List (String × Value)}
    (absent : ∀ pair ∈ pairs, pair.1 ∉ fields.map Prod.fst) (rest : List (String × Value)) :
    storeAll (fields ++ rest) pairs = fields ++ storeAll rest pairs := by
  induction pairs generalizing rest with
  | nil => rfl
  | cons pair pairs ih =>
    obtain ⟨first, others⟩ := List.forall_mem_cons.1 absent
    rw [storeAll_cons, store_append first, ih others, storeAll_cons]

theorem storeAll_of_absent {fields pairs : List (String × Value)}
    (absent : ∀ pair ∈ pairs, pair.1 ∉ fields.map Prod.fst) :
    storeAll fields pairs = fields ++ storeAll [] pairs := by
  simpa only [List.append_nil] using storeAll_append_of_absent absent []

theorem storeAll_self {pairs : List (String × Value)} (distinct : (pairs.map Prod.fst).Nodup)
    (present : ∀ pair ∈ pairs, pair.2.isUndefined = false) : storeAll [] pairs = pairs := by
  induction pairs with
  | nil => rfl
  | cons pair pairs ih =>
    obtain ⟨key, v⟩ := pair
    obtain ⟨head, tail⟩ := List.forall_mem_cons.1 present
    obtain ⟨fresh, distinct⟩ := List.nodup_cons.1 distinct
    have first : store [] key v = [(key, v)] := by
      simp only [store, Fields.put]
      exact if_neg (by simpa using head)
    have absent : ∀ pair ∈ pairs, pair.1 ∉ [(key, v)].map Prod.fst := by
      intro pair member same
      obtain rfl : pair.1 = key := by simpa using same
      exact fresh (List.mem_map.2 ⟨pair, member, rfl⟩)
    rw [storeAll_cons, first, storeAll_of_absent absent, ih distinct tail, List.singleton_append]

theorem storeAll_storeAll (pairs : List (String × Value)) :
    storeAll [] (storeAll [] pairs) = storeAll [] pairs := by
  have distinct : (([] : List (String × Value)).map Prod.fst).Nodup := List.nodup_nil
  apply storeAll_self (nodup_storeAll distinct pairs)
  intro field member
  rcases mem_storeAll member with none | ⟨_, present⟩
  · simp at none
  · exact present

section Rows

variable {α : Type} {rows : List (α × List (String × Value))} {Selects : α → String → Prop}

/-- Each row holds pairs under keys of its own, and no key belongs to two rows. -/
structure Separated (Selects : α → String → Prop) (rows : List (α × List (String × Value))) : Prop where
  own : ∀ row ∈ rows, ∀ pair ∈ row.2, Selects row.1 pair.1
  disjoint : rows.Pairwise fun a b => ∀ key, ¬(Selects a.1 key ∧ Selects b.1 key)

/-- Separated rows are stored one behind the other. -/
theorem storeAll_rows (separated : Separated Selects rows) :
    storeAll [] (rows.flatMap (·.2)) = rows.flatMap fun row => storeAll [] row.2 := by
  obtain ⟨own, disjoint⟩ := separated
  induction rows with
  | nil => rfl
  | cons row rows ih =>
    obtain ⟨ownFirst, ownRest⟩ := List.forall_mem_cons.1 own
    obtain ⟨apart, disjoint⟩ := List.pairwise_cons.1 disjoint
    have absent : ∀ pair ∈ rows.flatMap (·.2), pair.1 ∉ (storeAll [] row.2).map Prod.fst := by
      intro pair member stored
      obtain ⟨other, inRows, inOther⟩ := List.mem_flatMap.1 member
      obtain ⟨field, inFirst, same⟩ := List.mem_map.1 stored
      rcases mem_storeAll inFirst with none | ⟨inFirst, _⟩
      · simp at none
      · exact apart other inRows pair.1
          ⟨same ▸ ownFirst field inFirst, ownRest other inRows pair inOther⟩
    rw [List.flatMap_cons, storeAll_append, storeAll_of_absent absent, ih ownRest disjoint,
      List.flatMap_cons]

/-- The order of separated rows shows only in the order of what they store. -/
theorem perm_storeAll_rows (separated : Separated Selects rows) {rows' : List (α × List (String × Value))}
    (reordered : rows.Perm rows') :
    (storeAll [] (rows.flatMap (·.2))).Perm (storeAll [] (rows'.flatMap (·.2))) := by
  have separated' : Separated Selects rows' :=
    ⟨fun row member => separated.own row (reordered.mem_iff.2 member),
      reordered.pairwise separated.disjoint fun apart key both => apart key both.symm⟩
  rw [storeAll_rows separated, storeAll_rows separated']
  exact reordered.flatMap_right _

theorem filter_storeAll_rows (separated : Separated Selects rows)
    {row : α × List (String × Value)} (member : row ∈ rows) {select : String → Bool}
    (selects : ∀ key, select key = true ↔ Selects row.1 key) :
    (storeAll [] (rows.flatMap (·.2))).filter (select ·.1) = storeAll [] row.2 := by
  rw [storeAll_rows separated]
  obtain ⟨own, disjoint⟩ := separated
  obtain ⟨before, after, rfl⟩ := List.append_of_mem member
  obtain ⟨_, disjoint, apartBefore⟩ := List.pairwise_append.1 disjoint
  have apartAfter := (List.pairwise_cons.1 disjoint).1
  have stored (other : α × List (String × Value)) (inRows : other ∈ before ++ row :: after) :
      ∀ field ∈ storeAll [] other.2, Selects other.1 field.1 := by
    intro field inOther
    rcases mem_storeAll inOther with none | ⟨inOther, _⟩
    · simp at none
    · exact own other inRows field inOther
  have nothing (others : List (α × List (String × Value)))
      (inRows : ∀ other ∈ others, other ∈ before ++ row :: after)
      (apart : ∀ other ∈ others, ∀ key, ¬(Selects other.1 key ∧ Selects row.1 key)) :
      (others.flatMap fun other => storeAll [] other.2).filter (select ·.1) = [] := by
    apply List.filter_eq_nil_iff.2
    intro field inOthers selected
    obtain ⟨other, inOthers, inOther⟩ := List.mem_flatMap.1 inOthers
    exact apart other inOthers field.1
      ⟨stored other (inRows other inOthers) field inOther, (selects _).1 selected⟩
  have all : (storeAll [] row.2).filter (select ·.1) = storeAll [] row.2 :=
    List.filter_eq_self.2 fun field inRow => (selects _).2 (stored row (by simp) field inRow)
  rw [List.flatMap_append, List.flatMap_cons, List.filter_append, List.filter_append, all,
    nothing before (fun other inBefore => List.mem_append_left _ inBefore)
      (fun other inBefore => apartBefore other inBefore row List.mem_cons_self),
    nothing after (fun other inAfter => by simp [inAfter])
      (fun other inAfter key both => apartAfter other inAfter key both.symm),
    List.nil_append, List.append_nil]

end Rows

end Conform
