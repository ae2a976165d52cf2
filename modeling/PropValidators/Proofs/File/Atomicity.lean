import PropValidators.Proofs.File.Extension
/-!
Writing is all or nothing in a tree that has everything in a directory: it makes the directories
that are missing around a file and puts the content, or it is refused and the tree stays as it is.
-/
namespace PropValidators.FileTree

/-- A tree in which every file and every directory is in a directory. -/
def IsRooted (t : FileTree) : Prop :=
  ∀ entry ∈ t.nodes, t.node? entry.1.up = some .directory

instance (t : FileTree) : Decidable t.IsRooted := inferInstanceAs (Decidable (∀ _ ∈ _, _))

variable {t t' : FileTree} {l m : Location} {p : Path} {content : List UInt8} {e : FileError}

/-! ### Rooted trees -/

theorem isRooted_iff :
    t.IsRooted ↔ ∀ l, t.node? l ≠ none → t.node? l.up = some .directory := by
  constructor
  · intro h l hl
    by_cases hway : l.OnWayTo t.workingDirectory
    · exact node?_of_onWayTo ((Location.up_onWayTo l).trans hway)
    · obtain ⟨n, hn⟩ := Option.ne_none_iff_exists'.mp hl
      rw [node?_of_not_onWayTo hway] at hn
      obtain ⟨before, after, hnodes, -⟩ := List.lookup_eq_some_iff.mp hn
      exact h (l, n) (by simp [hnodes])
  · intro h entry hentry
    apply h
    unfold node?
    split
    · simp
    · intro hnone
      simpa using List.lookup_eq_none_iff.mp hnone entry hentry

/-- A place in a directory is where its path leads to. -/
theorem IsRooted.locate (h : t.IsRooted) (hproper : p.IsProper)
    (hup : t.node? (t.place p).up = some .directory) : t.locate p = .ok (t.place p) := by
  induction p using Path.childRec with
  | start absolute => rfl
  | child p name ih =>
    rw [place_child, Location.up_child] at hup
    have hfront : t.locate p = .ok (t.place p) :=
      ih (Path.isProper_of_child hproper).1 (isRooted_iff.mp h _ (by simp [hup]))
    exact locate_child_of_directory (isDirectory_eq_true.mpr ⟨_, hfront, hup⟩) hproper

theorem IsRooted.locate_of_node (h : t.IsRooted) (hproper : p.IsProper)
    (hnode : t.node? (t.place p) ≠ none) : t.locate p = .ok (t.place p) :=
  h.locate hproper (isRooted_iff.mp h _ hnode)

/-! ### Refusals -/

theorem ensureDirectories_of_hasNul (h : p.hasNul = true) :
    t.ensureDirectories p = (t, .error ⟨.nul, p⟩) := by
  induction p using Path.childRec with
  | start absolute => cases h
  | child p name =>
    have hlocate : t.locate (p.child name) = .error .nul := locate_of_hasNul h
    rw [ensureDirectories_child, makeDirectory_of_locate_error hlocate]
    exact ensureDirectory_of_locate_error hlocate

theorem Ensured.file_of_error (h : Ensured t p (t', .error e)) (hproper : p.IsProper)
    (hmissing : t.locate p ≠ .error .missing) :
    ∃ m content, m.OnWayTo (t.place p) ∧ t.node? m = some (.file content) := by
  cases h with
  | lost hlocate =>
    have hproblem := fun heq => hmissing (hlocate.trans (congrArg Except.error heq))
    obtain ⟨m, content, hway, -, hm⟩ := file_of_locate_error hproper hlocate hproblem
    exact ⟨m, content, hway, hm⟩
  | taken hlocate hfile =>
    obtain rfl := locate_direct hproper.direct hlocate
    exact ⟨t.place p, _, (t.place p).onWayTo_self, hfile⟩

/-- In a rooted tree the directories of a path are refused before any is made, and only if a file is
on the way. -/
theorem IsRooted.ensureDirectories_eq_error (h : t.IsRooted) (hproper : p.IsProper)
    (hrefused : t.ensureDirectories p = (t', .error e)) :
    t' = t ∧ ∃ m content, m.OnWayTo (t.place p) ∧ t.node? m = some (.file content) := by
  induction p using Path.childRec with
  | start absolute =>
    rw [ensureDirectories_start] at hrefused
    cases hrefused
  | child p name ih =>
    have hp := (Path.isProper_of_child hproper).1
    have hall := ensuredAll t p name
    rw [hrefused] at hall
    cases hall with
    | alone hmissing hensured =>
      exact ⟨hensured.eq_of_error, hensured.file_of_error hproper hmissing⟩
    | refused _ hu =>
      obtain ⟨rfl, m, content, hway, hm⟩ := ih hp hu
      rw [place_child]
      exact ⟨rfl, m, content, Location.onWayTo_child.mpr (.inr hway), hm⟩
    -- Once the directories around are made nothing stands at the place, so it is not refused.
    | @behind u _ hmissing hu hensured =>
      have hdirectory : u.isDirectory p = true := isDirectory_ensureDirectories hu
      have hlocate := locate_child_of_directory hdirectory hproper
      rw [place_of_ensureDirectories hu] at hlocate
      have hnone : t.node? (t.place (p.child name)) = none := by
        by_contra hnode
        rw [h.locate_of_node hproper hnode] at hmissing
        cases hmissing
      have hnode : u.node? (t.place (p.child name)) = none := by
        rw [node?_child_ensureDirectories hp.direct hu, hnone]
      cases hensured with
      | lost hlost =>
        rw [hlocate] at hlost
        cases hlost
      | taken htaken hfile =>
        rw [hlocate] at htaken
        cases htaken
        rw [hnode] at hfile
        cases hfile

theorem IsRooted.ensureDirectories_eq_refused (h : t.IsRooted) (hdirect : p.isDirect = true)
    (hrefused : t.ensureDirectories p = (t', .error e)) (hnul : e.problem ≠ .nul) :
    t' = t ∧ ∃ m content, m.OnWayTo (t.place p) ∧ t.node? m = some (.file content) := by
  refine h.ensureDirectories_eq_error ⟨hdirect, Bool.eq_false_iff.mpr fun hpnul => ?_⟩ hrefused
  rw [ensureDirectories_of_hasNul hpnul] at hrefused
  cases hrefused
  exact hnul rfl

theorem replace_eq_refused (hlocate : t.locate p = .ok l)
    (h : t.replace p content = (t', .error e)) : t.node? l = some .directory := by
  unfold replace at h
  simp only [hlocate] at h
  split at h
  · assumption
  · cases h

theorem replace_of_hasNul (h : p.hasNul = true) :
    t.replace p content = (t, .error ⟨.nul, p⟩) := by
  simp only [replace, locate_of_hasNul h]

/-- In a rooted tree a write is refused before anything is made, unless the path has a character
that no path can have, and only if a directory is at the place or a file around it. -/
theorem IsRooted.write_eq_error (h : t.IsRooted) (hdirect : p.isDirect = true)
    (hrefused : t.write p content = (t', .error e)) (hnul : e.problem ≠ .nul) :
    t' = t ∧ (t.node? (t.place p) = some .directory ∨
      ∃ m content, m.OnWayTo (t.place p) ∧ m ≠ t.place p ∧ t.node? m = some (.file content)) := by
  induction p using Path.childRec with
  | start absolute =>
    refine ⟨?_, .inl (node?_of_onWayTo_start (Location.onWayTo_self _))⟩
    have hmade : t.ensureDirectories (Path.parent ⟨absolute, []⟩) = (t, .ok ()) :=
      ensureDirectories_start t absolute
    simp only [write, hmade] at hrefused
    exact replace_eq_error hrefused
  | child p name =>
    have hp := (Path.isDirect_child.mp hdirect).1
    have hcases := FileTree.write_eq_error hrefused
    rw [Path.parent_child] at hcases
    rcases hcases with hmade | ⟨hmade, hput⟩
    · obtain ⟨rfl, m, content, hway, hm⟩ := h.ensureDirectories_eq_refused hp hmade hnul
      rw [place_child]
      exact ⟨rfl, .inr ⟨m, content, Location.onWayTo_child.mpr (.inr hway), hway.ne_child, hm⟩⟩
    · have hproper : (p.child name).IsProper := by
        refine ⟨hdirect, Bool.eq_false_iff.mpr fun hpnul => ?_⟩
        rw [replace_of_hasNul hpnul] at hput
        cases hput
        exact hnul rfl
      have hlocate := locate_child_of_directory (isDirectory_ensureDirectories hmade) hproper
      rw [place_of_ensureDirectories hmade] at hlocate
      have hdirectory : t.node? (t.place (p.child name)) = some .directory := by
        rw [← node?_child_ensureDirectories hp hmade, replace_eq_refused hlocate hput]
      -- The directory at the place is in directories that were there, so none has been made.
      have hplace : t.locate (p.child name) = .ok (t.place (p.child name)) :=
        h.locate_of_node hproper (by simp [hdirectory])
      have hparent : t.isDirectory p = true := isDirectory_of_locate_child hplace
      rw [ensureDirectories_of_isDirectory hparent] at hmade
      cases hmade
      exact ⟨rfl, .inl hdirectory⟩

theorem ensureDirectories_ne_nul (h : p.hasNul = false)
    (hrefused : t.ensureDirectories p = (t', .error e)) : e.problem ≠ .nul := by
  have hone {u : FileTree} {q : Path} (hq : q.hasNul = false)
      (hensured : Ensured u q (t', .error e)) : e.problem ≠ .nul := by
    cases hensured with
    | lost hlost =>
      rintro (rfl : _ = FileProblem.nul)
      exact locate_ne_nul hq hlost
    | taken => rintro ⟨⟩
  induction p using Path.childRec with
  | start absolute =>
    rw [ensureDirectories_start] at hrefused
    cases hrefused
  | child p name ih =>
    have hall := ensuredAll t p name
    rw [hrefused] at hall
    cases hall with
    | alone _ hensured => exact hone h hensured
    | behind _ _ hensured => exact hone h hensured
    | refused _ hu =>
      rw [Path.hasNul_child, Bool.or_eq_false_iff] at h
      exact ih h.1 hu

/-- A path that can be that of a file is not refused for its characters. -/
theorem write_ne_nul (h : p.hasNul = false) (hrefused : t.write p content = (t', .error e)) :
    e.problem ≠ .nul := by
  rcases FileTree.write_eq_error hrefused with hmade | ⟨-, hput⟩
  · exact ensureDirectories_ne_nul (Path.hasNul_parent h) hmade
  · unfold replace at hput
    split at hput
    · next problem hlocate =>
      cases hput
      rintro (rfl : _ = FileProblem.nul)
      exact locate_ne_nul h hlocate
    · split at hput
      · cases hput
        rintro ⟨⟩
      · simp at hput

/-! ### Successes -/

/-- What is different after a write: the content stands at its place, and nothing else has changed
but on the way to it. -/
structure Written (t t' : FileTree) (l : Location) (content : List UInt8) : Prop
    extends t'.Stands l content where
  workingDirectory : t'.workingDirectory = t.workingDirectory
  elsewhere : ∀ m, ¬m.OnWayTo l → t'.node? m = t.node? m

theorem written (hdirect : p.isDirect = true) (h : t.write p content = (t', .ok ())) :
    Written t t' (t.place p) content := by
  refine ⟨stands_write hdirect h, (extends_write hdirect h).workingDirectory, fun m hm => ?_⟩
  obtain ⟨u, hmade, hput⟩ := write_eq_ok h
  have hkept : (t.ensureDirectories p.parent).1.node? m = t.node? m := by
    induction p using Path.childRec with
    | start absolute => rw [Path.parent, List.dropLast_nil, ensureDirectories_start]
    | child p name =>
      rw [Path.parent_child]
      rw [place_child, Location.onWayTo_child, not_or] at hm
      exact node?_ensureDirectories (Path.isDirect_child.mp hdirect).1 hm.2
  rw [hmade] at hkept
  obtain ⟨l, hlocate', -, rfl⟩ := replace_eq_ok hput
  obtain rfl := locate_direct hdirect hlocate'
  rw [place_of_ensureDirectories hmade] at hlocate'
  have hne : m ≠ u.place p := by
    rintro rfl
    exact hm ((place_of_ensureDirectories hmade p).symm ▸ Location.onWayTo_self _)
  rw [node?_put_of_ne hne]
  exact hkept

/-- A write that succeeds has found no directory at its place and no file around it. -/
theorem free_of_write (h : t.write p content = (t', .ok ())) (hdirect : p.isDirect = true) :
    t.node? (t.place p) ≠ some .directory ∧
      ∀ m content, m.OnWayTo (t.place p) → m ≠ t.place p → t.node? m ≠ some (.file content) := by
  have hextends : Extends t t' [t.place p] := extends_write hdirect h
  have hwritten := written hdirect h
  constructor
  · intro hdirectory
    have hkept := hextends.directory_kept _ hdirectory
    rw [hwritten.place] at hkept
    cases hkept
  · intro m content' hway hne hfile
    have hkept := (hextends.file_iff m (by simpa using hne) content').mpr hfile
    rw [hwritten.around m hway hne] at hkept
    cases hkept

theorem IsRooted.write (h : t.IsRooted) (hdirect : p.isDirect = true)
    (hwrite : t.write p content = (t', .ok ())) : t'.IsRooted := by
  have hextends : Extends t t' [t.place p] := extends_write hdirect hwrite
  have hwritten := written hdirect hwrite
  rw [isRooted_iff] at h ⊢
  intro m hm
  by_cases hway : m.OnWayTo (t.place p)
  · by_cases hroot : m = .root
    · exact hroot ▸ node?_of_onWayTo (Location.root_onWayTo _)
    · exact hwritten.around _ ((Location.up_onWayTo m).trans hway) (hway.up_ne hroot)
  · rw [hwritten.elsewhere m hway] at hm
    exact hextends.directory_kept _ (h m hm)

end PropValidators.FileTree
