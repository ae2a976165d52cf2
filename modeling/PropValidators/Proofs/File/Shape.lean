import PropValidators.Proofs.File.Making
/-!
Trees that differ in nothing but the contents of files: in them a path leads to the same place, and
writing to it succeeds in both or is refused in both for the same reason.
-/
namespace PropValidators

/-- What is at one place of two trees: nothing, a directory, or a file in both. -/
inductive FileNode.SameKind : Option FileNode → Option FileNode → Prop
  | nothing : SameKind none none
  | directory : SameKind (some .directory) (some .directory)
  | file (content content' : List UInt8) : SameKind (some (.file content)) (some (.file content'))

namespace FileTree

/-- Trees with the same directories, and with files in the same places, in which paths start from
the same place. -/
structure SameShape (t u : FileTree) : Prop where
  workingDirectory : t.workingDirectory = u.workingDirectory
  kind (l : Location) : FileNode.SameKind (t.node? l) (u.node? l)

/-- Operations that end in the same way, in trees of the same shape. -/
structure SameEnd (r s : FileTree × Except FileError Unit) : Prop where
  shape : SameShape r.1 s.1
  result : r.2 = s.2

variable {t u : FileTree}

theorem SameEnd.cases {r s : FileTree × Except FileError Unit} (h : SameEnd r s) :
    ∃ t u, SameShape t u ∧
      ((r = (t, .ok ()) ∧ s = (u, .ok ())) ∨ ∃ e, r = (t, .error e) ∧ s = (u, .error e)) := by
  obtain ⟨t, result⟩ := r
  obtain ⟨u, result'⟩ := s
  obtain ⟨hshape, rfl : result = result'⟩ := h
  refine ⟨t, u, hshape, ?_⟩
  cases result with
  | ok => exact .inl ⟨rfl, rfl⟩
  | error e => exact .inr ⟨e, rfl, rfl⟩

namespace SameShape

theorem put (h : SameShape t u) (l : Location) {n n' : FileNode}
    (hn : FileNode.SameKind (some n) (some n')) : SameShape (t.put l n) (u.put l n') := by
  refine ⟨h.workingDirectory, fun m => ?_⟩
  by_cases hm : m = l
  · subst hm
    by_cases hway : m.OnWayTo t.workingDirectory
    · have ht : (t.put m n).node? m = some .directory := node?_of_onWayTo hway
      have hu : (u.put m n').node? m = some .directory :=
        node?_of_onWayTo (h.workingDirectory ▸ hway)
      rw [ht, hu]
      exact .directory
    · rw [node?_put_self hway, node?_put_self (h.workingDirectory ▸ hway)]
      exact hn
  · rw [node?_put_of_ne hm, node?_put_of_ne hm]
    exact h.kind m

theorem step (h : SameShape t u) : t.step = u.step := by
  funext l name
  have hl := h.kind l
  unfold FileTree.step
  generalize t.node? l = n at hl ⊢
  generalize u.node? l = n' at hl ⊢
  cases hl <;> rfl

theorem locate (h : SameShape t u) (p : Path) : t.locate p = u.locate p := by
  rw [FileTree.locate, FileTree.locate, start, start, h.step, h.workingDirectory]

theorem isDirectory (h : SameShape t u) (p : Path) : t.isDirectory p = u.isDirectory p := by
  have hdirectory (l : Location) : t.node? l = some .directory ↔ u.node? l = some .directory := by
    have hl := h.kind l
    generalize t.node? l = n at hl ⊢
    generalize u.node? l = n' at hl ⊢
    cases hl <;> simp
  rw [Bool.eq_iff_iff]
  simp only [isDirectory_eq_true, h.locate p, hdirectory]

/-- A directory is made in both trees or in neither. -/
theorem makeDirectory (h : SameShape t u) (p : Path) :
    (∃ problem, t.makeDirectory p = .error problem ∧ u.makeDirectory p = .error problem) ∨
      ∃ t' u', t.makeDirectory p = .ok t' ∧ u.makeDirectory p = .ok u' ∧ SameShape t' u' := by
  unfold FileTree.makeDirectory
  rw [h.locate p]
  cases u.locate p with
  | error problem => exact .inl ⟨problem, rfl, rfl⟩
  | ok l =>
    have hl := h.kind l
    have hput := h.put l .directory
    simp only [bind, Except.bind]
    generalize t.node? l = n at hl ⊢
    generalize u.node? l = n' at hl ⊢
    cases hl with
    | nothing => exact .inr ⟨_, _, rfl, rfl, hput⟩
    | directory => exact .inl ⟨_, rfl, rfl⟩
    | file => exact .inl ⟨_, rfl, rfl⟩

theorem ensureDirectory (h : SameShape t u) (p : Path) :
    SameEnd (t.ensureDirectory p) (u.ensureDirectory p) := by
  unfold FileTree.ensureDirectory
  obtain ⟨problem, ht, hu⟩ | ⟨t', u', ht, hu, hmade⟩ := h.makeDirectory p
  · simp only [ht, hu, h.isDirectory p]
    split <;> exact ⟨h, rfl⟩
  · simp only [ht, hu]
    exact ⟨hmade, rfl⟩

theorem ensureNames (h : SameShape t u) (absolute : Bool) (names : List String) :
    SameEnd (t.ensureNames absolute names) (u.ensureNames absolute names) := by
  induction names with
  | nil => exact h.ensureDirectory _
  | cons name names ih =>
    unfold FileTree.ensureNames
    have hend := h.ensureDirectory ⟨absolute, (name :: names).reverse⟩
    obtain ⟨problem, ht, hu⟩ | ⟨t', u', ht, hu, -⟩ :=
      h.makeDirectory ⟨absolute, (name :: names).reverse⟩
    · simp only [ht, hu]
      -- Only if the directory around is missing is it made first.
      cases problem with
      | missing =>
        obtain ⟨t', u', hshape, ⟨ht', hu'⟩ | ⟨e, ht', hu'⟩⟩ := ih.cases
        · simp only [ht', hu']
          exact hshape.ensureDirectory _
        · simp only [ht', hu']
          exact ⟨hshape, rfl⟩
      | _ => exact hend
    · simp only [ht, hu]
      exact hend

theorem replace (h : SameShape t u) (p : Path) (content : List UInt8) :
    SameEnd (t.replace p content) (u.replace p content) := by
  unfold FileTree.replace
  rw [h.locate p]
  cases u.locate p with
  | error problem => exact ⟨h, rfl⟩
  | ok l =>
    have hl := h.kind l
    have hput := h.put l (.file content content)
    dsimp only
    generalize t.node? l = n at hl ⊢
    generalize u.node? l = n' at hl ⊢
    cases hl with
    | directory => exact ⟨h, rfl⟩
    | nothing => exact ⟨hput, rfl⟩
    | file => exact ⟨hput, rfl⟩

theorem ensureDirectories (h : SameShape t u) (p : Path) :
    SameEnd (t.ensureDirectories p) (u.ensureDirectories p) :=
  h.ensureNames p.absolute p.names.reverse

theorem write (h : SameShape t u) (p : Path) (content : List UInt8) :
    SameEnd (t.write p content) (u.write p content) := by
  unfold FileTree.write
  obtain ⟨t', u', hshape, ⟨ht, hu⟩ | ⟨e, ht, hu⟩⟩ := (h.ensureDirectories p.parent).cases
  · simp only [ht, hu]
    exact hshape.replace p content
  · simp only [ht, hu]
    exact ⟨hshape, rfl⟩

end SameShape

end FileTree

end PropValidators
