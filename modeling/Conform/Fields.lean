/-! Fields in the order of first insertion. Putting a value under a key that is present
replaces the value in its place. -/

namespace Conform

namespace Fields

variable {α : Type}

def put (key : String) (value : α) : List (String × α) → List (String × α)
  | [] => [(key, value)]
  | (k, v) :: rest => if k = key then (k, value) :: rest else (k, v) :: put key value rest

/-- The fields after putting pairs one by one, so that the last pair of a key counts. -/
def ofPairs (pairs : List (String × α)) : List (String × α) :=
  pairs.foldl (fun fields (key, value) => put key value fields) []

theorem lookup_put (key : String) (value : α) (name : String) (fields : List (String × α)) :
    (put key value fields).lookup name =
      if name = key then some value else fields.lookup name := by
  have differ {k : String} (h : ¬name = k) : (name == k) = false := by simpa using h
  induction fields with
  | nil => by_cases h : name = key <;> simp [put, List.lookup_cons, h, differ]
  | cons field rest ih =>
    obtain ⟨k, v⟩ := field
    by_cases hk : k = key
    · subst hk
      by_cases h : name = k <;> simp [put, List.lookup_cons, h, differ]
    · by_cases h : name = k
      · simp [put, hk, h]
      · simp [put, hk, List.lookup_cons, ih, h, differ]

theorem keys_put (key : String) (value : α) (fields : List (String × α)) :
    (put key value fields).map Prod.fst =
      if key ∈ fields.map Prod.fst then fields.map Prod.fst
      else fields.map Prod.fst ++ [key] := by
  induction fields with
  | nil => simp [put]
  | cons field rest ih =>
    obtain ⟨k, v⟩ := field
    by_cases h : k = key
    · simp [put, h]
    · have h' : key ≠ k := fun e => h e.symm
      simp only [put, if_neg h, List.map_cons, ih, List.mem_cons, h', false_or]
      split <;> simp

theorem nodup_put (key : String) (value : α) {fields : List (String × α)}
    (distinct : (fields.map Prod.fst).Nodup) : ((put key value fields).map Prod.fst).Nodup := by
  rw [keys_put]
  split
  · exact distinct
  · next absent =>
    refine List.nodup_append.2 ⟨distinct, by simp, ?_⟩
    intro k member other same e
    simp only [List.mem_singleton] at same
    exact absent (same ▸ e ▸ member)

end Fields

end Conform
