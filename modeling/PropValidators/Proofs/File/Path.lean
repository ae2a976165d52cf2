import PropValidators.File.Tree
import PropValidators.Proofs.Keyed
/-!
Where paths lead. A path is taken apart at its last name: the names before it lead to a directory,
and the last one leads on from there.
-/
namespace PropValidators

namespace Location

/-- Places on the way to a place: the place itself, the directory that it is in, the one around
that, and so on. -/
def OnWayTo (m l : Location) : Prop := m.names <:+ l.names

instance (m l : Location) : Decidable (m.OnWayTo l) := inferInstanceAs (Decidable (_ <:+ _))

variable {k l m : Location} {name : String}

@[simp] theorem up_child (l : Location) (name : String) : (l.child name).up = l := rfl

theorem onWayTo_self (l : Location) : l.OnWayTo l := List.suffix_refl _

theorem root_onWayTo (l : Location) : root.OnWayTo l := List.nil_suffix

theorem up_onWayTo (l : Location) : l.up.OnWayTo l := List.tail_suffix _

theorem OnWayTo.trans (h : k.OnWayTo l) (h' : l.OnWayTo m) : k.OnWayTo m := List.IsSuffix.trans h h'

theorem onWayTo_child : m.OnWayTo (l.child name) ↔ m = l.child name ∨ m.OnWayTo l := by
  obtain ⟨names⟩ := m
  simp only [OnWayTo, child, List.suffix_cons_iff, Location.mk.injEq]

theorem OnWayTo.ne_child (h : m.OnWayTo l) : m ≠ l.child name := by
  rintro rfl
  have hlength := List.IsSuffix.length_le h
  simp only [child, List.length_cons] at hlength
  omega

theorem OnWayTo.up_ne (h : m.OnWayTo l) (hroot : m ≠ root) : m.up ≠ l := by
  obtain ⟨names⟩ := m
  cases names with
  | nil => exact absurd rfl hroot
  | cons name names =>
    rintro rfl
    have hne : (⟨name :: names⟩ : Location) ≠ child ⟨names⟩ name := h.ne_child
    exact hne rfl

end Location

namespace Path

variable {p q : Path} {name : String}

/-- Induction along a path, from where it starts to its last name. -/
@[elab_as_elim]
theorem childRec {motive : Path → Prop} (start : ∀ absolute, motive ⟨absolute, []⟩)
    (child : ∀ p name, motive p → motive (p.child name)) (p : Path) : motive p := by
  obtain ⟨absolute, names⟩ := p
  induction names using List.reverseRecOn with
  | nil => exact start absolute
  | append_singleton names name ih => exact child ⟨absolute, names⟩ name ih

theorem parent_child (p : Path) (name : String) : (p.child name).parent = p := by
  simp [parent, child]

theorem isDirect_iff : p.isDirect = true ↔ ".." ∉ p.names := by simp [isDirect]

theorem isDirect_child : (p.child name).isDirect = true ↔ p.isDirect = true ∧ name ≠ ".." := by
  rw [isDirect_iff, isDirect_iff, child, List.mem_append, List.mem_singleton, not_or]
  exact and_congr_right fun _ => ne_comm

theorem isDirect_parent (h : p.isDirect = true) : p.parent.isDirect = true := by
  rw [isDirect_iff] at h ⊢
  exact fun hmem => h (List.dropLast_subset _ hmem)

theorem hasNul_parent (h : p.hasNul = false) : p.parent.hasNul = false := by
  rw [hasNul, List.any_eq_false] at h ⊢
  exact fun name hmem => h name (List.dropLast_subset _ hmem)

theorem hasNul_child : (p.child name).hasNul = (p.hasNul || name.toList.contains '\x00') := by
  simp [hasNul, child]

/-- A path whose names each lead one level down, and can be names of files. -/
structure IsProper (p : Path) : Prop where
  direct : p.isDirect = true
  noNul : p.hasNul = false

instance (p : Path) : Decidable p.IsProper :=
  decidable_of_iff (p.isDirect = true ∧ p.hasNul = false)
    ⟨fun h => ⟨h.1, h.2⟩, fun h => ⟨h.direct, h.noNul⟩⟩

theorem isProper_of_child (h : (p.child name).IsProper) :
    p.IsProper ∧ name ≠ ".." ∧ name.toList.contains '\x00' = false := by
  obtain ⟨hdirect, hname⟩ := isDirect_child.mp h.direct
  have hnul := h.noNul
  rw [hasNul_child, Bool.or_eq_false_iff] at hnul
  exact ⟨⟨hdirect, hnul.1⟩, hname, hnul.2⟩

end Path

theorem FileError.message?_eq_none {e : FileError} : e.message? = none ↔ e.problem = .nul := by
  obtain ⟨problem, path⟩ := e
  cases problem <;> simp [message?, FileProblem.report?]

namespace FileTree

variable {t t' : FileTree} {l m : Location} {p : Path} {name : String} {content : List UInt8}

/-- The place that a path leads to if each of its names leads one level down. -/
def place (t : FileTree) (p : Path) : Location := ⟨p.names.reverse ++ (t.start p).names⟩

theorem place_child (t : FileTree) (p : Path) (name : String) :
    t.place (p.child name) = (t.place p).child name := by
  have hnames : (p.child name).names.reverse = name :: p.names.reverse := by simp [Path.child]
  rw [place, hnames]
  rfl

theorem place_congr (h : t'.workingDirectory = t.workingDirectory) : t'.place p = t.place p := by
  rw [place, place, start, start, h]

/-! ### One node put into a tree -/

theorem node?_of_onWayTo (h : l.OnWayTo t.workingDirectory) : t.node? l = some .directory :=
  if_pos (List.isSuffixOf_iff_suffix.mpr h)

theorem node?_of_not_onWayTo (h : ¬l.OnWayTo t.workingDirectory) :
    t.node? l = t.nodes.lookup l := by
  apply if_neg
  rwa [List.isSuffixOf_iff_suffix]

theorem not_onWayTo (h : t.node? l ≠ some .directory) : ¬l.OnWayTo t.workingDirectory :=
  fun hway => h (node?_of_onWayTo hway)

/-- What a path starts from is always a directory, and so is all that is around it. -/
theorem node?_of_onWayTo_start (h : m.OnWayTo (t.start p)) : t.node? m = some .directory := by
  apply node?_of_onWayTo
  unfold start at h
  split at h
  · exact h.trans (Location.root_onWayTo _)
  · exact h

theorem node?_put_of_ne (h : m ≠ l) (n : FileNode) : (t.put l n).node? m = t.node? m := by
  simp only [node?, put, Keyed.lookup_put_of_ne h]

theorem node?_put_self (h : ¬l.OnWayTo t.workingDirectory) (n : FileNode) :
    (t.put l n).node? l = some n := by
  have hput : ¬l.OnWayTo (t.put l n).workingDirectory := h
  rw [node?_of_not_onWayTo hput, put, Keyed.lookup_put_self]

theorem directory_kept_put (h : t.node? l ≠ some .directory) (n : FileNode) (m : Location)
    (hm : t.node? m = some .directory) : (t.put l n).node? m = some .directory := by
  have hne : m ≠ l := by
    rintro rfl
    exact h hm
  rw [node?_put_of_ne hne, hm]

/-! ### Steps and paths -/

/-- A step leads on from a directory. -/
theorem step_eq_ok : t.step l name = .ok m ↔
    t.node? l = some .directory ∧ m = if name = ".." then l.up else l.child name := by
  unfold step
  split
  · next hl => simp [hl]
  · next hl => simp [hl]
  · next hl => simp [hl, eq_comm]

theorem locate_start (t : FileTree) (absolute : Bool) :
    t.locate ⟨absolute, []⟩ = .ok (t.start ⟨absolute, []⟩) := rfl

theorem locate_child (t : FileTree) (p : Path) (name : String) :
    t.locate (p.child name) =
      if name.toList.contains '\x00' then .error .nul
      else t.locate p >>= fun l => t.step l name := by
  have hstart : t.start (p.child name) = t.start p := rfl
  have hnames : (p.child name).names.foldlM t.step (t.start p) =
      p.names.foldlM t.step (t.start p) >>= fun l => t.step l name := by
    rw [Path.child, List.foldlM_append]
    simp
  rw [locate, locate, Path.hasNul_child, hstart, hnames]
  cases hname : name.toList.contains '\x00' with
  | true => simp
  | false => cases hp : p.hasNul <;> simp [bind, Except.bind]

theorem locate_child_eq_ok : t.locate (p.child name) = .ok l ↔
    name.toList.contains '\x00' = false ∧ ∃ d, t.locate p = .ok d ∧ t.step d name = .ok l := by
  rw [locate_child]
  cases name.toList.contains '\x00' <;> cases t.locate p <;> simp [bind, Except.bind]

/-- A path leads to the same place where directories stay as they are. -/
theorem locate_of_kept (hworking : t'.workingDirectory = t.workingDirectory)
    (hkept : ∀ m, t.node? m = some .directory → t'.node? m = some .directory)
    (hlocate : t.locate p = .ok l) : t'.locate p = .ok l := by
  induction p using Path.childRec generalizing l with
  | start absolute =>
    rw [← hlocate, locate_start, locate_start, start, start, hworking]
  | child p name ih =>
    obtain ⟨hname, d, hfront, hstep⟩ := locate_child_eq_ok.mp hlocate
    obtain ⟨hd, hl⟩ := step_eq_ok.mp hstep
    exact locate_child_eq_ok.mpr ⟨hname, d, ih hfront, step_eq_ok.mpr ⟨hkept d hd, hl⟩⟩

theorem locate_put (h : t.node? l ≠ some .directory) (n : FileNode)
    (hlocate : t.locate p = .ok l) : (t.put l n).locate p = .ok l :=
  locate_of_kept (t := t) rfl (directory_kept_put h n) hlocate

theorem locate_direct (hdirect : p.isDirect = true) (hlocate : t.locate p = .ok l) :
    l = t.place p := by
  induction p using Path.childRec generalizing l with
  | start absolute =>
    rw [locate_start] at hlocate
    exact (Except.ok.inj hlocate).symm
  | child p name ih =>
    obtain ⟨hp, hname⟩ := Path.isDirect_child.mp hdirect
    obtain ⟨-, d, hfront, hstep⟩ := locate_child_eq_ok.mp hlocate
    obtain ⟨-, rfl⟩ := step_eq_ok.mp hstep
    rw [ih hp hfront, if_neg hname, place_child]

/-- A path that leads anywhere can be the path of a file. -/
theorem hasNul_of_locate (h : t.locate p = .ok l) : p.hasNul = false := by
  unfold locate at h
  split at h
  · cases h
  · next hnul => exact Bool.eq_false_iff.mpr hnul

theorem locate_of_hasNul (h : p.hasNul = true) : t.locate p = .error .nul := if_pos h

theorem locate_ne_nul (h : p.hasNul = false) : t.locate p ≠ .error .nul := by
  induction p using Path.childRec with
  | start absolute => rintro ⟨⟩
  | child p name ih =>
    rw [Path.hasNul_child, Bool.or_eq_false_iff] at h
    rw [locate_child, h.2]
    cases hfront : t.locate p with
    | error problem =>
      rintro ⟨⟩
      exact ih h.1 hfront
    | ok d =>
      show t.step d name ≠ .error .nul
      unfold step
      split <;> rintro ⟨⟩

/-! ### What is found -/

theorem find_eq_ok {n : FileNode} :
    t.find p = .ok n ↔ ∃ l, t.locate p = .ok l ∧ t.node? l = some n := by
  unfold find
  cases t.locate p with
  | error problem => simp [bind, Except.bind]
  | ok l =>
    cases hl : t.node? l <;>
      simp [bind, Except.bind, pure, Except.pure, throw, throwThe, MonadExceptOf.throw, hl]

theorem read_eq_ok :
    t.read p = .ok content ↔ ∃ l, t.locate p = .ok l ∧ t.node? l = some (.file content) := by
  rw [← find_eq_ok]
  unfold read
  cases hfind : t.find p with
  | error problem => simp
  | ok n => cases n <;> simp

theorem isDirectory_eq_true :
    t.isDirectory p = true ↔ ∃ l, t.locate p = .ok l ∧ t.node? l = some .directory := by
  rw [← find_eq_ok]
  unfold isDirectory
  cases t.find p <;> simp [Except.toOption]

/-- What a name leads on from is a directory. -/
theorem isDirectory_of_locate_child (h : t.locate (p.child name) = .ok l) :
    t.isDirectory p = true := by
  obtain ⟨-, d, hfront, hstep⟩ := locate_child_eq_ok.mp h
  exact isDirectory_eq_true.mpr ⟨d, hfront, (step_eq_ok.mp hstep).1⟩

theorem locate_child_of_directory (h : t.isDirectory p = true) (hproper : (p.child name).IsProper) :
    t.locate (p.child name) = .ok (t.place (p.child name)) := by
  obtain ⟨hp, hname, hnul⟩ := Path.isProper_of_child hproper
  obtain ⟨l, hlocate, hl⟩ := isDirectory_eq_true.mp h
  obtain rfl := locate_direct hp.direct hlocate
  apply locate_child_eq_ok.mpr
  refine ⟨hnul, t.place p, hlocate, step_eq_ok.mpr ⟨hl, ?_⟩⟩
  rw [if_neg hname, place_child]

/-- A path that leads to its place has directories all the way. -/
theorem directory_of_locate (hdirect : p.isDirect = true) (hlocate : t.locate p = .ok l) :
    ∀ m, m.OnWayTo (t.place p) → m ≠ t.place p → t.node? m = some .directory := by
  induction p using Path.childRec generalizing l with
  | start absolute =>
    intro m hway hne
    exact node?_of_onWayTo_start hway
  | child p name ih =>
    intro m hway hne
    obtain ⟨hp, -⟩ := Path.isDirect_child.mp hdirect
    obtain ⟨-, d, hfront, hstep⟩ := locate_child_eq_ok.mp hlocate
    obtain ⟨hd, -⟩ := step_eq_ok.mp hstep
    obtain rfl := locate_direct hp hfront
    rw [place_child] at hway hne
    rcases Location.onWayTo_child.mp hway with rfl | hway
    · exact absurd rfl hne
    · by_cases hm : m = t.place p
      · rw [hm, hd]
      · exact ih hp hfront m hway hm

/-- A path that can be that of a file is refused for another reason than that something is missing
only if a file is on its way. -/
theorem file_of_locate_error {problem : FileProblem} (hproper : p.IsProper)
    (hlocate : t.locate p = .error problem) (hproblem : problem ≠ .missing) :
    ∃ m content, m.OnWayTo (t.place p) ∧ m ≠ t.place p ∧ t.node? m = some (.file content) := by
  induction p using Path.childRec with
  | start absolute => cases hlocate
  | child p name ih =>
    obtain ⟨hp, -, hnul⟩ := Path.isProper_of_child hproper
    rw [locate_child, hnul] at hlocate
    rw [place_child]
    cases hfront : t.locate p with
    | error problem' =>
      rw [hfront] at hlocate
      cases hlocate
      obtain ⟨m, content, hway, -, hm⟩ := ih hp hfront
      exact ⟨m, content, Location.onWayTo_child.mpr (.inr hway), hway.ne_child, hm⟩
    | ok d =>
      rw [hfront] at hlocate
      obtain rfl := locate_direct hp.direct hfront
      have hself := (t.place p).onWayTo_self
      have hstep : t.step (t.place p) name = .error problem := hlocate
      unfold step at hstep
      split at hstep
      · cases hstep
        exact absurd rfl hproblem
      · next content hfile =>
        exact ⟨t.place p, content, Location.onWayTo_child.mpr (.inr hself), hself.ne_child, hfile⟩
      · cases hstep

end FileTree

end PropValidators
