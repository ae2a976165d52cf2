import Mathlib.Data.List.Induction
import Mathlib.Data.List.Nodup
import PropValidators.Keyed
/-!
Lists of entries under keys: what is found in a list of two parts and after an entry is put in, and
lists with every key once.
-/
namespace PropValidators.Keyed

variable {κ α : Type} [DecidableEq κ]

theorem last?_cons (key k : κ) (value : α) (entries : List (κ × α)) :
    last? key ((k, value) :: entries) =
      (last? key entries).or (if k = key then some value else none) := by
  rw [last?]
  cases last? key entries <;> rfl

/-- What is found is in the later entries, if it is there. -/
theorem last?_append (key : κ) (xs ys : List (κ × α)) :
    last? key (xs ++ ys) = (last? key ys).or (last? key xs) := by
  induction xs with
  | nil => simp [last?]
  | cons entry xs ih =>
    obtain ⟨k, value⟩ := entry
    rw [List.cons_append, last?, last?, ih]
    cases last? key ys with
    | some later => rfl
    | none => cases last? key xs <;> rfl

theorem last?_eq_none {key : κ} {entries : List (κ × α)} :
    last? key entries = none ↔ key ∉ entries.map Prod.fst := by
  induction entries with
  | nil => simp [last?]
  | cons entry entries ih =>
    obtain ⟨k, value⟩ := entry
    rw [last?, List.map_cons, List.mem_cons, not_or, ← ih]
    cases last? key entries with
    | some later => simp
    | none => simp [eq_comm]

/-! ### Entries put in -/

section Lookup

variable [BEq κ] [LawfulBEq κ]

theorem lookup_put_self (key : κ) (value : α) (entries : List (κ × α)) :
    (put key value entries).lookup key = some value := by
  induction entries with
  | nil => simp [put]
  | cons entry entries ih =>
    obtain ⟨k, v⟩ := entry
    by_cases hk : k = key
    · simp [put, hk]
    · have hkey : (key == k) = false := beq_false_of_ne (Ne.symm hk)
      simpa [put, hk, List.lookup_cons, hkey] using ih

theorem lookup_put_of_ne {k key : κ} (h : k ≠ key) (value : α) (entries : List (κ × α)) :
    (put key value entries).lookup k = entries.lookup k := by
  have hkey : (k == key) = false := beq_false_of_ne h
  induction entries with
  | nil => simp [put, List.lookup_cons, hkey]
  | cons entry entries ih =>
    obtain ⟨k', v⟩ := entry
    by_cases hk : k' = key
    · simp [put, hk, List.lookup_cons, hkey]
    · simp [put, hk, List.lookup_cons, ih]

/-- An entry that is found is put in without a change. -/
theorem put_of_lookup {key : κ} {value : α} {entries : List (κ × α)}
    (h : entries.lookup key = some value) : put key value entries = entries := by
  induction entries with
  | nil => cases h
  | cons entry entries ih =>
    obtain ⟨k, v⟩ := entry
    by_cases hk : k = key
    · simp only [hk, List.lookup_cons_self, Option.some.injEq] at h
      rw [put, if_pos hk, hk, h]
    · have hkey : (key == k) = false := beq_false_of_ne (Ne.symm hk)
      simp only [List.lookup_cons, hkey] at h
      rw [put, if_neg hk, ih h]

end Lookup

theorem put_of_notMem {key : κ} {entries : List (κ × α)} (h : key ∉ entries.map Prod.fst)
    (value : α) : put key value entries = entries ++ [(key, value)] := by
  induction entries with
  | nil => rfl
  | cons entry entries ih =>
    obtain ⟨k, v⟩ := entry
    rw [List.map_cons, List.mem_cons, not_or] at h
    rw [put, if_neg (Ne.symm h.1), ih h.2, List.cons_append]

theorem map_fst_put_of_mem {key : κ} {entries : List (κ × α)} (h : key ∈ entries.map Prod.fst)
    (value : α) : (put key value entries).map Prod.fst = entries.map Prod.fst := by
  induction entries with
  | nil => exact absurd h List.not_mem_nil
  | cons entry entries ih =>
    obtain ⟨k, v⟩ := entry
    by_cases hk : k = key
    · simp [put, hk]
    · have hmem : key ∈ entries.map Prod.fst :=
        (List.mem_cons.mp h).resolve_left (Ne.symm hk)
      simp [put, hk, ih hmem]

/-! ### Every key once -/

theorem settled_append_singleton (entries : List (κ × α)) (entry : κ × α) :
    settled (entries ++ [entry]) = put entry.1 entry.2 (settled entries) := by
  rw [settled, List.foldl_append]
  rfl

/-- A list is settled as it is if no key is repeated in it. -/
theorem settled_of_nodup {entries : List (κ × α)} (h : (entries.map Prod.fst).Nodup) :
    settled entries = entries := by
  induction entries using List.reverseRecOn with
  | nil => rfl
  | append_singleton entries entry ih =>
    rw [List.map_append, List.nodup_append] at h
    obtain ⟨hentries, -, hdisjoint⟩ := h
    have hnew : entry.1 ∉ entries.map Prod.fst :=
      fun hmem => hdisjoint _ hmem _ (by simp) rfl
    rw [settled_append_singleton, ih hentries, put_of_notMem hnew]

theorem nodup_settled (entries : List (κ × α)) : ((settled entries).map Prod.fst).Nodup := by
  induction entries using List.reverseRecOn with
  | nil => exact List.nodup_nil
  | append_singleton entries entry ih =>
    rw [settled_append_singleton]
    by_cases hmem : entry.1 ∈ (settled entries).map Prod.fst
    · rw [map_fst_put_of_mem hmem]
      exact ih
    · rw [put_of_notMem hmem, List.map_append, List.nodup_append]
      refine ⟨ih, List.nodup_singleton _, fun key hkey other hother => ?_⟩
      rw [List.map_singleton, List.mem_singleton] at hother
      rintro rfl
      exact hmem (hother ▸ hkey)

/-- What is found in a settled list is the value of the last entry. -/
theorem lookup_settled [BEq κ] [LawfulBEq κ] (entries : List (κ × α)) (key : κ) :
    (settled entries).lookup key = last? key entries := by
  induction entries using List.reverseRecOn with
  | nil => rfl
  | append_singleton entries entry ih =>
    rw [settled_append_singleton, last?_append, ← ih]
    by_cases hkey : key = entry.1
    · subst hkey
      simp [lookup_put_self, last?]
    · simp [lookup_put_of_ne hkey, last?, Ne.symm hkey]

/-- A settled list has its keys in the order in which they first occur. -/
theorem map_fst_settled [BEq κ] [LawfulBEq κ] (entries : List (κ × α)) :
    (settled entries).map Prod.fst = (entries.map Prod.fst).eraseDups := by
  induction entries using List.reverseRecOn with
  | nil => rfl
  | append_singleton entries entry ih =>
    rw [settled_append_singleton, List.map_append, List.map_singleton, List.eraseDups_append, ← ih]
    by_cases hmem : entry.1 ∈ entries.map Prod.fst
    · have hsettled : entry.1 ∈ (settled entries).map Prod.fst := by
        rwa [ih, List.mem_eraseDups]
      rw [map_fst_put_of_mem hsettled]
      simp [List.removeAll, hmem]
    · have hsettled : entry.1 ∉ (settled entries).map Prod.fst := by
        rwa [ih, List.mem_eraseDups]
      rw [put_of_notMem hsettled]
      simp [List.removeAll, hmem, List.eraseDups_cons]

end PropValidators.Keyed
