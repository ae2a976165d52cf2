import Mathlib.Data.List.Nodup
import PropValidators.Omission
import PropValidators.Proofs.Conversion.Walk
/-!
What each selected name adds: conversion and the search for omissions of a selection are those of
its names one after the other, and each name counts by the group found under it alone.
-/
namespace PropValidators

namespace Traced

variable {α : Type}

/-- Traced lists put together in order, with all that is traced. -/
def concat (xs : List (Traced (List α))) : Traced (List α) :=
  ⟨xs.flatMap value, xs.flatMap skips, xs.flatMap lookups⟩

theorem concat_cons (x : Traced (List α)) (xs : List (Traced (List α))) :
    concat (x :: xs) = ⟨x.value ++ (concat xs).value, x.skips ++ (concat xs).skips,
      x.lookups ++ (concat xs).lookups⟩ := rfl

theorem concat_append (xs ys : List (Traced (List α))) :
    concat (xs ++ ys) = concat [concat xs, concat ys] := by
  simp [concat]

end Traced

/-- What a selected name adds to conversion, by the group that is found under it. -/
def selectedEntries (setting : Setting) (name : Text) :
    (group? : Option (List Property)) → Traced (List Assignment)
  | some properties => convertProperties setting properties
  | none => ⟨[], [.undeclared name], []⟩

/-- What a selected name adds to the search for omissions. -/
def selectedOmissions (setting : Setting) (name : Text) :
    (group? : Option (List Property)) → Traced (List Omission)
  | some properties => omissionsOf setting name properties
  | none => ⟨[⟨name, none, .undeclared⟩], [], []⟩

variable {setting : Setting} {groups groups' : Groups} {names : List Text}

theorem convertSelection_eq_concat (setting : Setting) (groups : Groups) (names : List Text) :
    convertSelection setting groups names =
      .concat (names.map fun name => selectedEntries setting name (groups.lookup name)) := by
  induction names with
  | nil => rfl
  | cons name names ih =>
    rw [convertSelection, ih, List.map_cons, Traced.concat_cons]
    cases groups.lookup name with
    | none => rfl
    | some properties =>
      simp only [selectedEntries]
      simp [bind, pure]

/-- Every entry is that of a property of a selected group. -/
theorem exists_property_of_mem {entry : Assignment}
    (h : entry ∈ (convertSelection setting groups names).value) :
    ∃ name properties p, groups.lookup name = some properties ∧ p ∈ properties ∧
      (convertProperty setting p).value = some entry := by
  rw [convertSelection_eq_concat] at h
  simp only [Traced.concat, List.flatMap_map, List.mem_flatMap] at h
  obtain ⟨name, -, hentry⟩ := h
  cases hgroup : groups.lookup name with
  | none => simp [hgroup, selectedEntries] at hentry
  | some properties =>
    rw [hgroup, selectedEntries, convertProperties_value] at hentry
    obtain ⟨p, hp, hentry⟩ := List.mem_filterMap.mp hentry
    exact ⟨name, properties, p, hgroup, hp, hentry⟩

theorem findOmissions_eq_concat (setting : Setting) (groups : Groups) (names : List Text) :
    findOmissions setting groups names =
      .concat (names.map fun name => selectedOmissions setting name (groups.lookup name)) := by
  induction names with
  | nil => rfl
  | cons name names ih =>
    rw [findOmissions, ih, List.map_cons, Traced.concat_cons]
    cases groups.lookup name with
    | none => simp [selectedOmissions, bind, pure]
    | some properties => simp [selectedOmissions, bind, pure]

/-! ### Names by their groups -/

theorem convertSelection_congr (h : ∀ name ∈ names, groups'.lookup name = groups.lookup name) :
    convertSelection setting groups' names = convertSelection setting groups names := by
  rw [convertSelection_eq_concat, convertSelection_eq_concat]
  congr 1
  exact List.map_congr_left fun name hname => by rw [h name hname]

theorem findOmissions_congr (h : ∀ name ∈ names, groups'.lookup name = groups.lookup name) :
    findOmissions setting groups' names = findOmissions setting groups names := by
  rw [findOmissions_eq_concat, findOmissions_eq_concat]
  congr 1
  exact List.map_congr_left fun name hname => by rw [h name hname]

/-! ### Selections in two parts -/

theorem convertSelection_append (setting : Setting) (groups : Groups) (first second : List Text) :
    convertSelection setting groups (first ++ second) =
      .concat [convertSelection setting groups first, convertSelection setting groups second] := by
  simp only [convertSelection_eq_concat, List.map_append, Traced.concat_append]

theorem findOmissions_append (setting : Setting) (groups : Groups) (first second : List Text) :
    findOmissions setting groups (first ++ second) =
      .concat [findOmissions setting groups first, findOmissions setting groups second] := by
  simp only [findOmissions_eq_concat, List.map_append, Traced.concat_append]

/-! ### Selections of all groups -/

/-- A group is found under its name where no name is repeated. -/
theorem lookup_of_mem {group : Text × List Property} (h : (groups.map Prod.fst).Nodup)
    (hmem : group ∈ groups) : groups.lookup group.1 = some group.2 := by
  induction groups with
  | nil => cases hmem
  | cons first groups ih =>
    obtain ⟨hfirst, hgroups⟩ := List.nodup_cons.mp h
    rcases List.mem_cons.mp hmem with rfl | hmem
    · exact List.lookup_cons_self
    · have hne : group.1 ≠ first.1 := by
        intro heq
        exact hfirst (heq ▸ List.mem_map_of_mem hmem)
      rw [List.lookup_cons, beq_false_of_ne hne]
      exact ih hgroups hmem

theorem convertSelection_all (setting : Setting) (h : (groups.map Prod.fst).Nodup) :
    convertSelection setting groups (groups.map Prod.fst) =
      .concat (groups.map fun group => convertProperties setting group.2) := by
  rw [convertSelection_eq_concat, List.map_map]
  congr 1
  refine List.map_congr_left fun group hgroup => ?_
  simp only [Function.comp_apply, lookup_of_mem h hgroup, selectedEntries]

theorem findOmissions_all (setting : Setting) (h : (groups.map Prod.fst).Nodup) :
    findOmissions setting groups (groups.map Prod.fst) =
      .concat (groups.map fun group => omissionsOf setting group.1 group.2) := by
  rw [findOmissions_eq_concat, List.map_map]
  congr 1
  refine List.map_congr_left fun group hgroup => ?_
  simp only [Function.comp_apply, lookup_of_mem h hgroup, selectedOmissions]

end PropValidators
