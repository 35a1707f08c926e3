import Conform.Proofs.EqualityLaws
import Conform.Value.Entries

/-! Lists without their repetitions. An element is kept unless it equals one that is kept already, and what is kept are
the first occurrences. Equality need not be reflexive: an element that equals nothing is never a repetition. -/

namespace Conform

section Lists

variable {α : Type} [BEq α]

private theorem loop_append (xs ys kept : List α) :
    List.eraseDupsBy.loop (· == ·) (xs ++ ys) kept =
      List.eraseDupsBy.loop (· == ·) ys (List.eraseDupsBy.loop (· == ·) xs kept).reverse := by
  induction xs generalizing kept with
  | nil => simp [List.eraseDupsBy.loop]
  | cons x rest ih =>
    simp only [List.cons_append, List.eraseDupsBy.loop]
    split <;> exact ih _

theorem distinct_append_singleton (xs : List α) (x : α) :
    distinct (xs ++ [x]) = if (distinct xs).any (x == ·) then distinct xs else distinct xs ++ [x] := by
  simp only [distinct, List.eraseDups, List.eraseDupsBy, loop_append]
  simp only [List.eraseDupsBy.loop, List.any_reverse]
  split <;> simp_all

theorem distinct_sublist (xs : List α) : (distinct xs).Sublist xs := by
  induction xs using List.reverseRecOn with
  | nil => exact .slnil
  | append_singleton xs x ih =>
    rw [distinct_append_singleton]
    split
    · exact ih.trans (List.sublist_append_left xs [x])
    · exact ih.append_right [x]

theorem pairwise_distinct (xs : List α) :
    (distinct xs).Pairwise fun earlier later => (later == earlier) = false := by
  induction xs using List.reverseRecOn with
  | nil => exact .nil
  | append_singleton xs x ih =>
    rw [distinct_append_singleton]
    split
    · exact ih
    · next fresh =>
      have other : ∀ y ∈ distinct xs, (x == y) = false := by simpa using fresh
      refine List.pairwise_append.2 ⟨ih, List.pairwise_singleton _ x, ?_⟩
      intro y member z last
      obtain rfl := List.mem_singleton.1 last
      exact other y member

theorem distinct_of_pairwise {xs : List α} (apart : xs.Pairwise fun earlier later => (later == earlier) = false) :
    distinct xs = xs := by
  induction xs using List.reverseRecOn with
  | nil => rfl
  | append_singleton xs x ih =>
    obtain ⟨before, _, last⟩ := List.pairwise_append.1 apart
    have fresh : ¬xs.any (x == ·) = true := by simpa using fun y member => last y member x List.mem_cons_self
    rw [distinct_append_singleton, ih before, if_neg fresh]

theorem mem_distinct_or {xs : List α} {x : α} (member : x ∈ xs) :
    x ∈ distinct xs ∨ ∃ kept ∈ distinct xs, (x == kept) = true := by
  induction xs using List.reverseRecOn with
  | nil => cases member
  | append_singleton xs last ih =>
    rw [distinct_append_singleton]
    rcases List.mem_append.1 member with early | same
    · split
      · exact ih early
      · rcases ih early with kept | ⟨kept, stored, equal⟩
        · exact .inl (List.mem_append_left _ kept)
        · exact .inr ⟨kept, List.mem_append_left _ stored, equal⟩
    · obtain rfl := List.mem_singleton.1 same
      split
      · next repeated => exact .inr (List.any_eq_true.1 repeated)
      · exact .inl (List.mem_append_right _ same)

def firstOccurrences (xs : List α) : List (α × Nat) :=
  xs.zipIdx.filter fun entry => !(xs.take entry.2).any (entry.1 == ·)

theorem firstOccurrences_append_singleton (xs : List α) (x : α) :
    firstOccurrences (xs ++ [x]) =
      firstOccurrences xs ++ if xs.any (x == ·) then [] else [(x, xs.length)] := by
  have early : ∀ entry ∈ xs.zipIdx, (xs ++ [x]).take entry.2 = xs.take entry.2 := by
    intro entry member
    have inside := (List.mem_zipIdx' member).1
    exact List.take_append_of_le_length inside.le
  have before : xs.zipIdx.filter (fun entry => !((xs ++ [x]).take entry.2).any (entry.1 == ·)) =
      firstOccurrences xs := List.filter_congr fun entry member => by rw [early entry member]
  rw [firstOccurrences, List.zipIdx_append, List.filter_append, before, List.zipIdx_singleton, List.filter_singleton]
  simp only [Nat.zero_add, List.take_left]
  cases xs.any (x == ·) <;> rfl

section Equivalence

variable [PartialEquivBEq α]

theorem any_distinct (xs : List α) (x : α) : (distinct xs).any (x == ·) = xs.any (x == ·) := by
  rw [Bool.eq_iff_iff, List.any_eq_true, List.any_eq_true]
  constructor
  · intro given
    obtain ⟨kept, stored, equal⟩ := given
    exact ⟨kept, (distinct_sublist xs).subset stored, equal⟩
  · intro given
    obtain ⟨y, member, equal⟩ := given
    rcases mem_distinct_or member with kept | ⟨kept, stored, repeated⟩
    · exact ⟨y, kept, equal⟩
    · exact ⟨kept, stored, BEq.trans equal repeated⟩

theorem distinct_eq_firstOccurrences (xs : List α) : distinct xs = (firstOccurrences xs).map Prod.fst := by
  induction xs using List.reverseRecOn with
  | nil => rfl
  | append_singleton xs x ih =>
    rw [distinct_append_singleton, firstOccurrences_append_singleton, List.map_append, ← ih, any_distinct]
    split
    · rw [List.map_nil, List.append_nil]
    · rfl

theorem first_or_repeats {xs : List α} {entry : α × Nat} (member : entry ∈ xs.zipIdx) :
    entry ∈ firstOccurrences xs ∨
      ∃ kept ∈ firstOccurrences xs, kept.2 < entry.2 ∧ (entry.1 == kept.1) = true := by
  obtain ⟨x, index⟩ := entry
  induction index using Nat.strong_induction_on generalizing x with
  | _ index ih =>
    by_cases repeated : (xs.take index).any (x == ·) = true
    · obtain ⟨y, inside, equal⟩ := List.any_eq_true.1 repeated
      obtain ⟨earlier, less, found⟩ := List.mem_take_iff_getElem.1 inside
      have listed : (y, earlier) ∈ xs.zipIdx := by
        rw [List.mk_mem_zipIdx_iff_getElem?, List.getElem?_eq_some_iff]
        exact ⟨_, found⟩
      have less : earlier < index := by omega
      rcases ih earlier less y listed with first | ⟨kept, first, before, again⟩
      · exact .inr ⟨_, first, less, equal⟩
      · exact .inr ⟨kept, first, before.trans less, BEq.trans equal again⟩
    · exact .inl (List.mem_filter.2 ⟨member, by simpa using repeated⟩)

end Equivalence

end Lists

/-- Without its repetitions, a list of values consists of its first occurrences, in their order. No value that is kept
equals an earlier one, every other value equals an earlier one that is kept, and nothing is left to be dropped. -/
theorem Value.distinct_keeps_first (xs : List Value) :
    distinct xs = (firstOccurrences xs).map Prod.fst ∧
      (distinct xs).Sublist xs ∧
      ((distinct xs).Pairwise fun earlier later => (later == earlier) = false) ∧
      (∀ entry ∈ xs.zipIdx, entry ∈ firstOccurrences xs ∨
        ∃ kept ∈ firstOccurrences xs, kept.2 < entry.2 ∧ (entry.1 == kept.1) = true) ∧
      distinct (distinct xs) = distinct xs := by
  refine ⟨distinct_eq_firstOccurrences xs, distinct_sublist xs, pairwise_distinct xs, ?_, ?_⟩
  · intro entry member
    exact first_or_repeats member
  · exact distinct_of_pairwise (pairwise_distinct xs)

/-- A float that is not a number is no repetition of itself. The negative zero repeats the other zero of its kind. -/
example :
    distinct [Value.float ⟨0x7ff8000000000000⟩, .int 0, .float ⟨0⟩, .float ⟨0x7ff8000000000000⟩,
      .float ⟨0x8000000000000000⟩, .int 0] =
    [.float ⟨0x7ff8000000000000⟩, .int 0, .float ⟨0⟩, .float ⟨0x7ff8000000000000⟩] := by rfl

end Conform
