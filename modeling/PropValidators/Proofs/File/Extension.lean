import PropValidators.Proofs.File.Making
import PropValidators.Proofs.File.Writing
/-!
What writing does to a tree: it makes directories where nothing was, and puts a content at one place
if it succeeds. Directories stay, and so do the files in all other places.
-/
namespace PropValidators

namespace FileTree

/-- A tree that has come about from another one by making directories and by putting contents at the
`touched` places. -/
structure Extends (t t' : FileTree) (touched : List Location) : Prop where
  workingDirectory : t'.workingDirectory = t.workingDirectory
  directory_kept : ∀ l, t.node? l = some .directory → t'.node? l = some .directory
  file_iff : ∀ l, l ∉ touched → ∀ content,
    t'.node? l = some (.file content) ↔ t.node? l = some (.file content)

variable {t t' u : FileTree} {l : Location} {p : Path} {content : List UInt8}
  {touched touched' : List Location}

namespace Extends

theorem refl (t : FileTree) : Extends t t [] where
  workingDirectory := rfl
  directory_kept _ h := h
  file_iff _ _ _ := Iff.rfl

theorem trans (h : Extends t u touched) (h' : Extends u t' touched') :
    Extends t t' (touched ++ touched') where
  workingDirectory := h'.workingDirectory.trans h.workingDirectory
  directory_kept l hl := h'.directory_kept l (h.directory_kept l hl)
  file_iff l hl content := by
    rw [List.mem_append, not_or] at hl
    rw [h'.file_iff l hl.2, h.file_iff l hl.1]

theorem put_directory (h : t.node? l = none) : Extends t (t.put l .directory) [] := by
  have hdirectory : t.node? l ≠ some .directory := by simp [h]
  refine ⟨rfl, directory_kept_put hdirectory .directory, fun m _ content => ?_⟩
  by_cases hm : m = l
  · rw [hm, node?_put_self (not_onWayTo hdirectory), h]
    simp
  · rw [node?_put_of_ne hm]

theorem put_file (h : t.node? l ≠ some .directory) (content : List UInt8) :
    Extends t (t.put l (.file content)) [l] where
  workingDirectory := rfl
  directory_kept := directory_kept_put h (.file content)
  file_iff m hm content' := by
    rw [List.mem_singleton] at hm
    rw [node?_put_of_ne hm]

end Extends

/-! ### Directories -/

theorem extends_of_ensured {result : FileTree × Except FileError Unit} (h : Ensured t p result) :
    Extends t result.1 [] := by
  cases h with
  | there | lost | taken => exact .refl t
  | made _ hl => exact .put_directory hl

theorem extends_ensureDirectories (t : FileTree) (p : Path) :
    Extends t (t.ensureDirectories p).1 [] := by
  induction p using Path.childRec with
  | start absolute =>
    rw [ensureDirectories_start]
    exact .refl t
  | child p name ih =>
    have hall := ensuredAll t p name
    generalize t.ensureDirectories (p.child name) = result at hall ⊢
    cases hall with
    | alone _ hensured => exact extends_of_ensured hensured
    | behind _ hu hensured =>
      rw [hu] at ih
      exact ih.trans (extends_of_ensured hensured)
    | refused _ hu =>
      rw [hu] at ih
      exact ih

/-! ### Paths -/

/-- A path goes on to lead to the same place. -/
theorem Extends.locate (h : Extends t t' touched) (hlocate : t.locate p = .ok l) :
    t'.locate p = .ok l := locate_of_kept h.workingDirectory h.directory_kept hlocate

/-- A file that is not touched is read as before. -/
theorem Extends.read (h : Extends t t' touched) (hdirect : p.isDirect = true)
    (hplace : t.place p ∉ touched) (hread : t.read p = .ok content) : t'.read p = .ok content := by
  obtain ⟨l, hlocate, hl⟩ := read_eq_ok.mp hread
  obtain rfl := locate_direct hdirect hlocate
  exact read_eq_ok.mpr ⟨_, h.locate hlocate, (h.file_iff _ hplace content).mpr hl⟩

/-! ### Writing -/

/-- A write touches the place that its path leads to, if it succeeds. -/
theorem extends_write (hdirect : p.isDirect = true) (h : t.write p content = (t', .ok ())) :
    Extends t t' [t.place p] := by
  obtain ⟨u, hmade, hput⟩ := write_eq_ok h
  have hextends : Extends t u [] := by
    simpa [hmade] using extends_ensureDirectories t p.parent
  obtain ⟨l, hlocate, hdirectory, rfl⟩ := replace_eq_ok hput
  obtain rfl := locate_direct hdirect hlocate
  rw [← place_of_ensureDirectories hmade]
  exact hextends.trans (.put_file hdirectory content)

/-! ### Files that stand in directories -/

/-- A file with a content at a place, and directories all the way to it. -/
structure Stands (t : FileTree) (l : Location) (content : List UInt8) : Prop where
  place : t.node? l = some (.file content)
  around : ∀ m, m.OnWayTo l → m ≠ l → t.node? m = some .directory

theorem locate_of_around (hproper : p.IsProper)
    (h : ∀ m, m.OnWayTo (t.place p) → m ≠ t.place p → t.node? m = some .directory) :
    t.locate p = .ok (t.place p) := by
  induction p using Path.childRec with
  | start absolute => rfl
  | child p name ih =>
    have haround (m : Location) (hway : m.OnWayTo (t.place p)) : t.node? m = some .directory := by
      rw [place_child] at h
      exact h m (Location.onWayTo_child.mpr (.inr hway)) hway.ne_child
    have hfront : t.locate p = .ok (t.place p) :=
      ih (Path.isProper_of_child hproper).1 fun m hway _ => haround m hway
    have hdirectory : t.isDirectory p = true :=
      isDirectory_eq_true.mpr ⟨_, hfront, haround _ (Location.onWayTo_self _)⟩
    exact locate_child_of_directory hdirectory hproper

/-- Whatever path leads to a file that stands, the file is read. -/
theorem Stands.read (h : t.Stands (t.place p) content) (hproper : p.IsProper) :
    t.read p = .ok content :=
  read_eq_ok.mpr ⟨_, locate_of_around hproper h.around, h.place⟩

/-- A file goes on to stand where nothing is put. -/
theorem Extends.stands (h : Extends t t' touched) (hl : l ∉ touched)
    (hstands : t.Stands l content) :
    t'.Stands l content where
  place := (h.file_iff l hl content).mpr hstands.place
  around m hway hne := h.directory_kept m (hstands.around m hway hne)

/-- A write that succeeds leaves its content standing at the place of its path. -/
theorem stands_write (hdirect : p.isDirect = true) (h : t.write p content = (t', .ok ())) :
    t'.Stands (t.place p) content := by
  obtain ⟨l, hlocate, hplace⟩ := read_eq_ok.mp (read_write h)
  obtain rfl := locate_direct hdirect hlocate
  rw [← place_congr (extends_write hdirect h).workingDirectory]
  exact ⟨hplace, directory_of_locate hdirect hlocate⟩

/-- A path that is written can be that of a file. -/
theorem isProper_of_write (hdirect : p.isDirect = true) (h : t.write p content = (t', .ok ())) :
    p.IsProper := by
  obtain ⟨l, hlocate, -⟩ := read_eq_ok.mp (read_write h)
  exact ⟨hdirect, hasNul_of_locate hlocate⟩

end FileTree

/-- Props that are not saved leave all files as they are. -/
theorem Artifact.extends_save_error [Platform] {t t' : FileTree} {p : Path}
    {props : List Assignment} {e : SaveError} (h : save t p props = (t', .error e)) :
    t.Extends t' [] := save_eq_error h ▸ FileTree.extends_ensureDirectories t p.parent

end PropValidators
