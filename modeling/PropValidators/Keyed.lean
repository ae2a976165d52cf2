/-!
Lists of entries under keys, in the order of writing. A later entry under the same key takes the
place of an earlier one.
-/
namespace PropValidators.Keyed

variable {κ α : Type} [DecidableEq κ]

/-- The value of the last entry under a key. -/
def last? (key : κ) : List (κ × α) → Option α
  | [] => none
  | (k, value) :: entries =>
    match last? key entries with
    | some later => some later
    | none => if k = key then some value else none

/-- Entries with a value put under a key: at the place of the entry it replaces, else last. -/
def put (key : κ) (value : α) : List (κ × α) → List (κ × α)
  | [] => [(key, value)]
  | (k, v) :: entries =>
    if k = key then (key, value) :: entries else (k, v) :: put key value entries

/-- Each key once, at the place of its first entry and with the value of its last. -/
def settled (entries : List (κ × α)) : List (κ × α) :=
  entries.foldl (fun kept entry => put entry.1 entry.2 kept) []

theorem mem_of_last? {key : κ} {value : α} {entries : List (κ × α)}
    (h : last? key entries = some value) : (key, value) ∈ entries := by
  induction entries with
  | nil => simp [last?] at h
  | cons entry entries ih =>
    obtain ⟨k, v⟩ := entry
    unfold last? at h
    split at h
    · next later hlater =>
      cases h
      exact List.mem_cons_of_mem _ (ih hlater)
    · split at h
      · next hk =>
        cases h
        subst hk
        exact List.mem_cons_self
      · cases h

theorem sizeOf_lt_of_last? [SizeOf κ] [SizeOf α] {key : κ} {value : α} {entries : List (κ × α)}
    (h : last? key entries = some value) : sizeOf value < sizeOf entries := by
  have hm := List.sizeOf_lt_of_mem (mem_of_last? h)
  have hp : sizeOf (key, value) = 1 + sizeOf key + sizeOf value := rfl
  omega

end PropValidators.Keyed
