import PropValidators.Proofs.File.Path
/-!
Making the directories of a path, from the last one that is there: which places change, and what is
in the way if it is refused.
-/
namespace PropValidators

namespace FileTree

variable {t t' u : FileTree} {l m : Location} {p : Path} {name : String}

/-! ### One directory -/

theorem makeDirectory_of_locate_error {problem : FileProblem}
    (h : t.locate p = .error problem) : t.makeDirectory p = .error problem := by
  rw [makeDirectory, h]
  rfl

theorem makeDirectory_of_node {n : FileNode} (hlocate : t.locate p = .ok l)
    (hl : t.node? l = some n) : t.makeDirectory p = .error .alreadyThere := by
  simp only [makeDirectory, hlocate, bind, Except.bind, hl]
  rfl

theorem makeDirectory_of_none (hlocate : t.locate p = .ok l) (hl : t.node? l = none) :
    t.makeDirectory p = .ok (t.put l .directory) := by
  simp only [makeDirectory, hlocate, bind, Except.bind, hl]
  rfl

theorem makeDirectory_eq_missing :
    t.makeDirectory p = .error .missing ↔ t.locate p = .error .missing := by
  constructor
  · intro h
    cases hlocate : t.locate p with
    | error problem =>
      rw [makeDirectory_of_locate_error hlocate] at h
      cases h
      rfl
    | ok l =>
      cases hl : t.node? l with
      | none =>
        rw [makeDirectory_of_none hlocate hl] at h
        cases h
      | some n =>
        rw [makeDirectory_of_node hlocate hl] at h
        cases h
  · exact makeDirectory_of_locate_error

theorem ensureDirectory_of_isDirectory (h : t.isDirectory p = true) :
    t.ensureDirectory p = (t, .ok ()) := by
  obtain ⟨l, hlocate, hl⟩ := isDirectory_eq_true.mp h
  simp [ensureDirectory, makeDirectory_of_node hlocate hl, h]

theorem ensureDirectory_of_none (hlocate : t.locate p = .ok l) (hl : t.node? l = none) :
    t.ensureDirectory p = (t.put l .directory, .ok ()) := by
  simp [ensureDirectory, makeDirectory_of_none hlocate hl]

theorem ensureDirectory_of_locate_error {problem : FileProblem}
    (h : t.locate p = .error problem) : t.ensureDirectory p = (t, .error ⟨problem, p⟩) := by
  have hdirectory : ¬t.isDirectory p = true := by
    rw [isDirectory_eq_true]
    rintro ⟨l, hlocate, -⟩
    rw [h] at hlocate
    cases hlocate
  simp [ensureDirectory, makeDirectory_of_locate_error h, hdirectory]

theorem ensureDirectory_of_file {content : List UInt8} (hlocate : t.locate p = .ok l)
    (hl : t.node? l = some (.file content)) :
    t.ensureDirectory p = (t, .error ⟨.alreadyThere, p⟩) := by
  have hdirectory : ¬t.isDirectory p = true := by
    rw [isDirectory_eq_true]
    rintro ⟨m, hlocate', hm⟩
    obtain rfl := Except.ok.inj (hlocate.symm.trans hlocate')
    rw [hl] at hm
    cases hm
  simp [ensureDirectory, makeDirectory_of_node hlocate hl, hdirectory]

/-- The ways in which a directory is there after it is asked for, or is refused. -/
inductive Ensured (t : FileTree) (p : Path) : FileTree × Except FileError Unit → Prop
  | there : t.isDirectory p = true → Ensured t p (t, .ok ())
  | made {l : Location} : t.locate p = .ok l → t.node? l = none →
    Ensured t p (t.put l .directory, .ok ())
  | lost {problem : FileProblem} : t.locate p = .error problem →
    Ensured t p (t, .error ⟨problem, p⟩)
  | taken {l : Location} {content : List UInt8} : t.locate p = .ok l →
    t.node? l = some (.file content) → Ensured t p (t, .error ⟨.alreadyThere, p⟩)

theorem ensured (t : FileTree) (p : Path) : Ensured t p (t.ensureDirectory p) := by
  cases hlocate : t.locate p with
  | error problem =>
    rw [ensureDirectory_of_locate_error hlocate]
    exact .lost hlocate
  | ok l =>
    cases hl : t.node? l with
    | none =>
      rw [ensureDirectory_of_none hlocate hl]
      exact .made hlocate hl
    | some n =>
      cases n with
      | directory =>
        have hdirectory : t.isDirectory p = true := isDirectory_eq_true.mpr ⟨l, hlocate, hl⟩
        rw [ensureDirectory_of_isDirectory hdirectory]
        exact .there hdirectory
      | file content =>
        rw [ensureDirectory_of_file hlocate hl]
        exact .taken hlocate hl

theorem isDirectory_put (hlocate : t.locate p = .ok l) (hl : t.node? l = none) :
    (t.put l .directory).isDirectory p = true := by
  have hdirectory : t.node? l ≠ some .directory := by simp [hl]
  exact isDirectory_eq_true.mpr
    ⟨l, locate_put hdirectory _ hlocate, node?_put_self (not_onWayTo hdirectory) _⟩

namespace Ensured

variable {result : FileTree × Except FileError Unit} {e : FileError}

theorem isDirectory (h : Ensured t p (t', .ok ())) : t'.isDirectory p = true := by
  cases h with
  | there hdirectory => exact hdirectory
  | made hlocate hl => exact isDirectory_put hlocate hl

theorem eq_of_error (h : Ensured t p (t', .error e)) : t' = t := by
  cases h <;> rfl

theorem workingDirectory_eq (h : Ensured t p result) :
    result.1.workingDirectory = t.workingDirectory := by
  cases h <;> rfl

theorem node?_eq (h : Ensured t p result) (hdirect : p.isDirect = true) (hm : m ≠ t.place p) :
    result.1.node? m = t.node? m := by
  cases h with
  | there | lost | taken => rfl
  | made hlocate hl =>
    obtain rfl := locate_direct hdirect hlocate
    exact node?_put_of_ne hm _

end Ensured

/-! ### All directories of a path -/

theorem isDirectory_start (t : FileTree) (absolute : Bool) : t.isDirectory ⟨absolute, []⟩ = true :=
  isDirectory_eq_true.mpr
    ⟨_, locate_start t absolute, node?_of_onWayTo_start (Location.onWayTo_self _)⟩

theorem ensureDirectories_start (t : FileTree) (absolute : Bool) :
    t.ensureDirectories ⟨absolute, []⟩ = (t, .ok ()) :=
  ensureDirectory_of_isDirectory (isDirectory_start t absolute)

theorem ensureDirectories_child (t : FileTree) (p : Path) (name : String) :
    t.ensureDirectories (p.child name) =
      match t.makeDirectory (p.child name) with
      | .error .missing =>
        match t.ensureDirectories p with
        | (u, .ok ()) => u.ensureDirectory (p.child name)
        | (u, .error e) => (u, .error e)
      | _ => t.ensureDirectory (p.child name) := by
  have hnames : (p.child name).names.reverse = name :: p.names.reverse := by
    simp [Path.child]
  have hpath : (⟨p.absolute, (name :: p.names.reverse).reverse⟩ : Path) = p.child name := by
    simp [Path.child]
  rw [ensureDirectories, hnames]
  show t.ensureNames p.absolute (name :: p.names.reverse) = _
  rw [ensureNames]
  simp only [hpath]
  rfl

/-- How the directories of a path are made: those around it first if they are missing. -/
inductive EnsuredAll (t : FileTree) (p : Path) (name : String) :
    FileTree × Except FileError Unit → Prop
  | alone {result : FileTree × Except FileError Unit} :
    t.locate (p.child name) ≠ .error .missing → Ensured t (p.child name) result →
      EnsuredAll t p name result
  | behind {u : FileTree} {result : FileTree × Except FileError Unit} :
    t.locate (p.child name) = .error .missing → t.ensureDirectories p = (u, .ok ()) →
      Ensured u (p.child name) result → EnsuredAll t p name result
  | refused {u : FileTree} {e : FileError} :
    t.locate (p.child name) = .error .missing → t.ensureDirectories p = (u, .error e) →
      EnsuredAll t p name (u, .error e)

theorem ensuredAll (t : FileTree) (p : Path) (name : String) :
    EnsuredAll t p name (t.ensureDirectories (p.child name)) := by
  rw [ensureDirectories_child]
  split
  · next hmissing =>
    rw [makeDirectory_eq_missing] at hmissing
    cases hfront : t.ensureDirectories p with
    | mk u result =>
      cases result with
      | ok _ => exact .behind hmissing hfront (ensured u _)
      | error e => exact .refused hmissing hfront
  · next hmissing =>
    rw [makeDirectory_eq_missing] at hmissing
    exact .alone hmissing (ensured t _)

/-- Directories that are there stay as they are. -/
theorem ensureDirectories_of_isDirectory (h : t.isDirectory p = true) :
    t.ensureDirectories p = (t, .ok ()) := by
  induction p using Path.childRec with
  | start absolute => exact ensureDirectories_start t absolute
  | child p name =>
    obtain ⟨l, hlocate, hl⟩ := isDirectory_eq_true.mp h
    rw [ensureDirectories_child, makeDirectory_of_node hlocate hl]
    exact ensureDirectory_of_isDirectory h

theorem isDirectory_ensureDirectories (h : t.ensureDirectories p = (t', .ok ())) :
    t'.isDirectory p = true := by
  induction p using Path.childRec with
  | start absolute =>
    rw [ensureDirectories_start] at h
    cases h
    exact isDirectory_start t absolute
  | child p name =>
    have hall := ensuredAll t p name
    rw [h] at hall
    cases hall with
    | alone _ hensured => exact hensured.isDirectory
    | behind _ _ hensured => exact hensured.isDirectory

theorem workingDirectory_ensureDirectories (t : FileTree) (p : Path) :
    (t.ensureDirectories p).1.workingDirectory = t.workingDirectory := by
  induction p using Path.childRec with
  | start absolute => rw [ensureDirectories_start]
  | child p name ih =>
    have hall := ensuredAll t p name
    generalize t.ensureDirectories (p.child name) = result at hall
    cases hall with
    | alone _ hensured => exact hensured.workingDirectory_eq
    | behind _ hu hensured =>
      rw [hu] at ih
      exact hensured.workingDirectory_eq.trans ih
    | refused _ hu =>
      rw [hu] at ih
      exact ih

/-- The same path leads on to the same place when directories are made. -/
theorem place_of_ensureDirectories {result : Except FileError Unit}
    (h : t.ensureDirectories p = (u, result)) (q : Path) : u.place q = t.place q := by
  have hworking := workingDirectory_ensureDirectories t p
  rw [h] at hworking
  exact place_congr hworking

/-- Only places on the way to a directory change when it is made. -/
theorem node?_ensureDirectories (hdirect : p.isDirect = true) (hm : ¬m.OnWayTo (t.place p)) :
    (t.ensureDirectories p).1.node? m = t.node? m := by
  induction p using Path.childRec with
  | start absolute => rw [ensureDirectories_start]
  | child p name ih =>
    obtain ⟨hp, -⟩ := Path.isDirect_child.mp hdirect
    rw [place_child, Location.onWayTo_child, not_or, ← place_child] at hm
    obtain ⟨hne, hway⟩ := hm
    have hfront := ih hp hway
    have hall := ensuredAll t p name
    generalize t.ensureDirectories (p.child name) = result at hall
    cases hall with
    | alone _ hensured => exact hensured.node?_eq hdirect hne
    | behind _ hu hensured =>
      rw [← place_of_ensureDirectories hu] at hne
      rw [hu] at hfront
      rw [hensured.node?_eq hdirect hne, hfront]
    | refused _ hu =>
      rw [hu] at hfront
      exact hfront

/-- A place in a directory does not change when the directory is made. -/
theorem node?_child_ensureDirectories {result : Except FileError Unit}
    (hdirect : p.isDirect = true) (h : t.ensureDirectories p = (u, result)) (name : String) :
    u.node? (t.place (p.child name)) = t.node? (t.place (p.child name)) := by
  have hway : ¬((t.place p).child name).OnWayTo (t.place p) := fun hway => hway.ne_child rfl
  have hkept := node?_ensureDirectories hdirect hway
  rw [h] at hkept
  rw [place_child]
  exact hkept

end FileTree

end PropValidators
