import Conform.Proofs.Levels

/-! The recursion of checks, with the guard and the count of levels left open. The checks of a schema are the
case where the guard is that of the depth limit and the next level is one deeper. -/

namespace Conform

namespace Context

variable [RegexEngine] {m : Type → Type} [Monad m] {ν : Type}

section Definition

variable (ctx : Context m ν) (enter : Nat → Check m → Check m) (next : Nat → Nat)

mutual

/-- The check that a schema stands for at a depth, where a node is entered and levels are counted as given. -/
def checkVia : Schema ν → Nat → Check m
  | .shape rules entries, depth =>
    enter depth (ctx.shape (.shape rules entries) (checkEntriesVia entries (next depth)))
  | .alternation rules members, depth =>
    enter depth (ctx.alternation (.alternation rules members) (checkAllVia members (next depth)))
  | .typed rules type items? nested?, depth =>
    enter depth (ctx.typed (.typed rules type items? nested?) type
      (match items? with
        | some items => checkAllVia items (next depth)
        | none => [enter (next depth) (ctx.typed .any { tag := .any } [] none)])
      (match nested? with
        | some entries => some (ctx.nestedShape entries (checkEntriesVia entries (next (next depth))))
        | none => none))

def checkAllVia : List (Schema ν) → Nat → List (Check m)
  | [], _ => []
  | s :: rest, depth => checkVia s depth :: checkAllVia rest depth

def checkEntriesVia : List (PropertyKey × Schema ν) → Nat → List (PropertyKey × Check m)
  | [], _ => []
  | (key, s) :: rest, depth => (key, checkVia s depth) :: checkEntriesVia rest depth

end

end Definition

section Equations

variable (ctx : Context m ν) (enter : Nat → Check m → Check m) (next : Nat → Nat)

theorem checkAllVia_eq (schemas : List (Schema ν)) (depth : Nat) :
    ctx.checkAllVia enter next schemas depth = schemas.map (ctx.checkVia enter next · depth) := by
  induction schemas with
  | nil => rfl
  | cons s rest ih => rw [checkAllVia, ih, List.map_cons]

theorem checkEntriesVia_eq (properties : List (PropertyKey × Schema ν)) (depth : Nat) :
    ctx.checkEntriesVia enter next properties depth =
      properties.map fun entry => (entry.1, ctx.checkVia enter next entry.2 depth) := by
  induction properties with
  | nil => rfl
  | cons entry rest ih => rw [checkEntriesVia, ih, List.map_cons]

theorem checkVia_shape (rules : Rules ν) (properties : List (PropertyKey × Schema ν)) (depth : Nat) :
    ctx.checkVia enter next (.shape rules properties) depth =
      enter depth (ctx.shape (.shape rules properties)
        (properties.map fun entry => (entry.1, ctx.checkVia enter next entry.2 (next depth)))) := by
  rw [checkVia, checkEntriesVia_eq]

theorem checkVia_alternation (rules : Rules ν) (members : List (Schema ν)) (depth : Nat) :
    ctx.checkVia enter next (.alternation rules members) depth =
      enter depth (ctx.alternation (.alternation rules members)
        (members.map (ctx.checkVia enter next · (next depth)))) := by
  rw [checkVia, checkAllVia_eq]

theorem checkVia_any (depth : Nat) :
    ctx.checkVia enter next .any depth = enter depth (ctx.typed .any { tag := .any } [] none) := by
  rw [ctx.typed_of_ne_array (by decide) [] [enter (next depth) (ctx.typed .any { tag := .any } [] none)]]
  rfl

theorem checkVia_typed (rules : Rules ν) (type : TypeRules) (items? : Option (List (Schema ν)))
    (nested? : Option (List (PropertyKey × Schema ν))) (depth : Nat) :
    ctx.checkVia enter next (.typed rules type items? nested?) depth =
      enter depth (ctx.typed (.typed rules type items? nested?) type
        ((Schema.elementSchemas items?).map (ctx.checkVia enter next · (next depth)))
        (nested?.map fun properties => ctx.nestedShape properties
          (properties.map fun entry => (entry.1, ctx.checkVia enter next entry.2 (next (next depth)))))) := by
  cases items? <;> cases nested? <;>
    simp [checkVia, checkAllVia_eq, checkEntriesVia_eq, Schema.elementSchemas, Schema.defaultItems, checkVia_any]

end Equations

theorem checkVia_guarded (ctx : Context m ν) (s : Schema ν) (depth : Nat) :
    ctx.checkVia ctx.guarded (· + 1) s depth = ctx.check s depth := by
  induction s generalizing depth with
  | shape rules properties ih =>
    rw [checkVia_shape, check_shape, entries_congr fun entry member => ih entry member (depth + 1)]
  | alternation rules members ih =>
    rw [checkVia_alternation, check_alternation, List.map_congr_left fun s member => ih s member (depth + 1)]
  | typed rules type items? nested? itemsIh nestedIh =>
    rw [checkVia_typed, check_typed]
    exact congrArg (ctx.guarded depth) (ctx.typed_congr (fun array s member => itemsIh array s member (depth + 1))
      fun properties found entry member => nestedIh properties found entry member (depth + 2))

/-- A count of levels that goes wrong only from a limit on does not show on schemas that stay below it. -/
theorem checkVia_next (ctx : Context m ν) (enter : Nat → Check m → Check m) {next : Nat → Nat} {limit : Nat}
    (counts : ∀ depth < limit, next depth = depth + 1) {s : Schema ν} {depth : Nat}
    (fits : depth + s.height ≤ limit) :
    ctx.checkVia enter next s depth = ctx.checkVia enter (· + 1) s depth := by
  induction s generalizing depth with
  | shape rules properties ih =>
    rw [checkVia_shape, checkVia_shape]
    refine congrArg (fun entries => enter depth (ctx.shape _ entries)) (entries_congr fun entry member => ?_)
    have below := Schema.height_entry rules member
    rw [counts depth (by omega)]
    exact ih entry member (by omega)
  | alternation rules members ih =>
    rw [checkVia_alternation, checkVia_alternation]
    refine congrArg (fun checks => enter depth (ctx.alternation _ checks)) (List.map_congr_left fun s member => ?_)
    have below := Schema.height_member rules member
    rw [counts depth (by omega)]
    exact ih s member (by omega)
  | typed rules type items? nested? itemsIh nestedIh =>
    rw [checkVia_typed, checkVia_typed]
    refine congrArg (enter depth) (ctx.typed_congr (fun array s member => ?_) fun properties found entry member => ?_)
    · have below := Schema.height_element rules nested? array member
      rw [counts depth (by omega)]
      exact itemsIh array s member (by omega)
    · subst found
      have below := Schema.height_nested rules type items? member
      rw [counts depth (by omega), counts (depth + 1) (by omega)]
      exact nestedIh properties rfl entry member (by omega)

end Context

end Conform
