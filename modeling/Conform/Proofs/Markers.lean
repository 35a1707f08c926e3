import Conform.KeyPattern
import Mathlib.Data.List.TakeDrop

/-! The texts of keys. Markers are exactly the texts of one form, whose last slash separates the parts. A marker is
determined by its text, and so is every key that was read off a text. -/

namespace Conform

/-- The form of a marker: a slash, a body that is not empty, another slash, and letters of flags. -/
structure MarkerForm (key body flags : String) : Prop where
  body_ne_empty : body ≠ ""
  letters : ∀ c ∈ flags.toList, c ∈ ['d', 'g', 'i', 'm', 's', 'u', 'y', 'v']
  written : key = "/" ++ body ++ "/" ++ flags

namespace KeyPattern

theorem flags_ne_slash (p : KeyPattern) : ∀ c ∈ p.flags.toList.reverse, (c != '/') = true := by
  intro c member
  have known : markerFlags.contains c = true := List.all_eq_true.1 p.flags_known c (List.mem_reverse.1 member)
  simp only [bne_iff_ne]
  rintro rfl
  exact absurd known (by decide)

theorem toList_marker (p : KeyPattern) : p.marker.toList = '/' :: (p.body.toList ++ '/' :: p.flags.toList) := by
  simp [marker, String.toList_append]

theorem ofMarker?_marker (p : KeyPattern) : ofMarker? p.marker = some p := by
  have reversed : (p.body.toList ++ '/' :: p.flags.toList).reverse =
      p.flags.toList.reverse ++ '/' :: p.body.toList.reverse := by simp
  have flags : (p.flags.toList.reverse ++ '/' :: p.body.toList.reverse).takeWhile (· != '/') =
      p.flags.toList.reverse := by
    rw [List.takeWhile_append_of_pos p.flags_ne_slash]
    simp
  have body : (p.flags.toList.reverse ++ '/' :: p.body.toList.reverse).dropWhile (· != '/') =
      '/' :: p.body.toList.reverse := by
    rw [List.dropWhile_append_of_pos p.flags_ne_slash]
    simp
  unfold ofMarker?
  rw [toList_marker]
  simp only [reversed, flags, body, List.tail_cons, List.reverse_reverse, String.ofList_toList]
  exact dif_pos ⟨p.body_ne_empty, p.flags_known⟩

theorem marker_injective {p q : KeyPattern} (same : p.marker = q.marker) : p = q := by
  rw [← Option.some.injEq, ← ofMarker?_marker p, same, ofMarker?_marker]

theorem marker_of_ofMarker? {key : String} {p : KeyPattern} (found : ofMarker? key = some p) : p.marker = key := by
  unfold ofMarker? at found
  split at found
  · next rest written =>
    dsimp only at found
    split at found
    · next h =>
      cases found
      have boundary := List.head?_dropWhile_not (· != '/') rest.reverse
      have split := List.takeWhile_append_dropWhile (p := (· != '/')) (l := rest.reverse)
      apply String.toList_inj.1
      rw [toList_marker, written]
      simp only [String.toList_ofList]
      cases ahead : rest.reverse.dropWhile (· != '/') with
      | nil =>
        rw [ahead] at h
        exact absurd rfl h.1
      | cons c inner =>
        rw [ahead] at boundary split
        obtain rfl : c = '/' := by simpa using boundary
        have parts : rest = inner.reverse ++ '/' :: (rest.reverse.takeWhile (· != '/')).reverse := by
          simpa using (congrArg List.reverse split).symm
        rw [List.tail_cons, ← parts]
    · cases found
  · cases found

theorem flagLetters_iff {flags : String} :
    flags.toList.all markerFlags.contains = true ↔
      ∀ c ∈ flags.toList, c ∈ ['d', 'g', 'i', 'm', 's', 'u', 'y', 'v'] := by
  have letters : markerFlags = ['d', 'g', 'i', 'm', 's', 'u', 'y', 'v'] := by decide
  rw [List.all_eq_true, letters]
  simp only [List.contains_iff_mem]

theorem markerForm (p : KeyPattern) : MarkerForm p.marker p.body p.flags :=
  ⟨p.body_ne_empty, flagLetters_iff.1 p.flags_known, rfl⟩

end KeyPattern

section MarkerForm

variable {key body flags : String}

theorem MarkerForm.ofMarker? (form : MarkerForm key body flags) :
    ∃ p : KeyPattern, KeyPattern.ofMarker? key = some p ∧ p.body = body ∧ p.flags = flags := by
  obtain ⟨filled, letters, rfl⟩ := form
  let p : KeyPattern := ⟨body, flags, filled, KeyPattern.flagLetters_iff.2 letters⟩
  exact ⟨p, p.ofMarker?_marker, rfl, rfl⟩

theorem markerForm_iff :
    MarkerForm key body flags ↔
      ∃ p : KeyPattern, KeyPattern.ofMarker? key = some p ∧ p.body = body ∧ p.flags = flags := by
  constructor
  · exact MarkerForm.ofMarker?
  · intro given
    obtain ⟨p, found, rfl, rfl⟩ := given
    have form := p.markerForm
    rwa [KeyPattern.marker_of_ofMarker? found] at form

theorem MarkerForm.unique {body' flags' : String} (form : MarkerForm key body flags)
    (form' : MarkerForm key body' flags') : body = body' ∧ flags = flags' := by
  obtain ⟨p, found, rfl, rfl⟩ := form.ofMarker?
  obtain ⟨q, found', rfl, rfl⟩ := form'.ofMarker?
  cases found.symm.trans found'
  exact ⟨rfl, rfl⟩

end MarkerForm

namespace PropertyKey

def written : PropertyKey → String
  | literal name => name
  | pattern p => p.marker

theorem ofText_of_unmarked {text : String} (unmarked : ∀ body flags, ¬MarkerForm text body flags) :
    ofText text = literal text := by
  cases found : KeyPattern.ofMarker? text with
  | none => rw [ofText, found]
  | some p => exact absurd (markerForm_iff.2 ⟨p, found, rfl, rfl⟩) (unmarked _ _)

theorem written_ofText (text : String) : (ofText text).written = text := by
  unfold ofText
  split
  · next found => exact KeyPattern.marker_of_ofMarker? found
  · rfl

/-- Keys are read off exactly the form of markers: a text of that form has one body and one set of flags, which are those
of the marker that it is read as, and any other text is a literal key. Markers with one text are one marker. -/
theorem ofText_grammar (key : String) :
    (∀ body flags, MarkerForm key body flags ↔
      ∃ p : KeyPattern, KeyPattern.ofMarker? key = some p ∧ p.body = body ∧ p.flags = flags) ∧
    (∀ body flags body' flags', MarkerForm key body flags → MarkerForm key body' flags' →
      body = body' ∧ flags = flags') ∧
    (∀ p, KeyPattern.ofMarker? key = some p → p.marker = key ∧ ofText key = pattern p) ∧
    (∀ p q : KeyPattern, p.marker = key → q.marker = key → p = q) ∧
    ((∀ body flags, ¬MarkerForm key body flags) → ofText key = literal key) := by
  refine ⟨fun _ _ => markerForm_iff, fun _ _ _ _ => MarkerForm.unique, fun p found => ?_, fun p q one other => ?_,
    ofText_of_unmarked⟩
  · exact ⟨KeyPattern.marker_of_ofMarker? found, by rw [ofText, found]⟩
  · exact KeyPattern.marker_injective (one.trans other.symm)

/-- The body of a marker may hold a slash with letters of flags behind it. -/
theorem slashedKey_grammar :
    MarkerForm "/a/gi/im" "a/gi" "im" ∧
      (∃ p : KeyPattern, KeyPattern.ofMarker? "/a/gi/im" = some p ∧ p.body = "a/gi" ∧ p.flags = "im") ∧
      ∀ body flags, MarkerForm "/a/gi/im" body flags → "a/gi" = body ∧ "im" = flags := by
  have form : MarkerForm "/a/gi/im" "a/gi" "im" := ⟨by decide, KeyPattern.flagLetters_iff.1 rfl, rfl⟩
  obtain ⟨read, unique, -⟩ := ofText_grammar "/a/gi/im"
  exact ⟨form, (read _ _).1 form, fun _ _ => unique _ _ _ _ form⟩

end PropertyKey

end Conform
