import PropValidators.Proofs.Command.Settings
import PropValidators.Proofs.File.Atomicity
/-!
Saved props are there as a whole or not at all, and a command that does not succeed leaves no trace
in the files. What cannot be serialized and what no path can have are told only after directories
have been made.
-/
namespace PropValidators

namespace Artifact

variable [Platform] {t t' : FileTree} {p : Path} {props : List Assignment}

/-- Props are refused before anything is made, unless the path has a character that none can have.
-/
theorem tree_of_refused {e : FileError} (hrooted : t.IsRooted) (hdirect : p.isDirect = true)
    (h : save t p props = (t', .error (.refused e))) (hnul : e.problem ≠ .nul) : t' = t := by
  unfold save at h
  cases hroom : serializeWithin Platform.limits props with
  | ok text =>
    simp only [hroom] at h
    rcases hwrite : t.write p (Utf8.encode text.toList) with ⟨u, error | written⟩
    · rw [hwrite] at h
      cases h
      exact (hrooted.write_eq_error hdirect hwrite hnul).1
    · rw [hwrite] at h
      cases h
  | error overrun =>
    simp only [hroom] at h
    rcases hmade : t.ensureDirectories p.parent with ⟨u, error | made⟩
    · rw [hmade] at h
      cases h
      exact (hrooted.ensureDirectories_eq_refused (Path.isDirect_parent hdirect) hmade hnul).1
    · rw [hmade] at h
      cases h

/-- Props that are not saved have changed nothing but that directories around their file are made.
-/
theorem elsewhere_of_error {e : SaveError} (hdirect : p.isDirect = true)
    (h : save t p props = (t', .error e)) {l : Location} (hl : ¬l.OnWayTo (t.place p.parent)) :
    t'.node? l = t.node? l := by
  rw [← save_eq_error h]
  exact FileTree.node?_ensureDirectories (Path.isDirect_parent hdirect) hl

theorem refused_of_write {text : String} {e : SaveError}
    (hroom : serializeWithin Platform.limits props = .ok text)
    (h : save t p props = (t', .error e)) :
    ∃ error, e = .refused error ∧ t.write p (Utf8.encode text.toList) = (t', .error error) := by
  simp only [save, hroom] at h
  rcases hwrite : t.write p (Utf8.encode text.toList) with ⟨u, error | written⟩
  · rw [hwrite] at h
    cases h
    exact ⟨error, rfl, rfl⟩
  · rw [hwrite] at h
    cases h

end Artifact

namespace Command

/-- The file that is written to, if one is given, has a path whose names each lead one level
down. -/
def IsDirectOutput (output : Option String) : Prop :=
  ∀ file, output = some file → file ≠ "" → (Path.ofString file).isDirect = true

section

variable [Platform] {t : FileTree} {verbose : Bool} {request : Path} {options : Options}
  {output : Option String} {strict : Bool}

theorem deliver_unchanged {props : List Assignment} {messages : List Notice}
    (hrooted : t.IsRooted) (hdirect : IsDirectOutput output)
    (hcode : (deliver t props output messages).2.code? = some 1) :
    (deliver t props output messages).1 = t := by
  cases houtput : nonempty? output with
  | none =>
    simp only [deliver, houtput]
    cases Artifact.serializeWithin Platform.limits props <;> rfl
  | some file =>
    obtain ⟨hfile, hne⟩ := nonempty?_eq_some.mp houtput
    rcases hsave : Artifact.save t (Path.ofString file) props with ⟨t', error | written⟩
    · rw [deliver_of_refusal houtput hsave] at hcode ⊢
      rw [Outcome.code?_ofError, Option.map_eq_some_iff] at hcode
      obtain ⟨message, hmessage, -⟩ := hcode
      cases error with
      | refused error =>
        refine Artifact.tree_of_refused hrooted (hdirect file hfile hne) hsave fun hnul => ?_
        rw [Error.ofSave, Error.message?, FileError.message?_eq_none.mpr hnul] at hmessage
        cases hmessage
      | overrun => cases hmessage
    · rw [deliver_of_save houtput hsave, Outcome.code?_finished rfl] at hcode
      cases hcode

/-- A conversion without a job, or with one that has something in its way, comes to no writing. -/
theorem runConvert_unwritten
    (h : ∀ job, Job.load t request options = .ok job → (job.obstacles strict).value ≠ []) :
    (runConvert t verbose request options output strict).2.code? ≠ some 0 ∧
      (runConvert t verbose request options output strict).1 = t := by
  cases hload : Job.load t request options with
  | error error =>
    rw [runConvert_of_error hload]
    exact ⟨Outcome.code?_ofError_ne [] error, rfl⟩
  | ok job =>
    rw [runConvert_of_obstacles hload (h job hload)]
    exact ⟨by simp [Outcome.code?], rfl⟩

/-- A conversion that exits with 1 changes no file, whatever it fails for. -/
theorem runConvert_unchanged (hrooted : t.IsRooted) (hdirect : IsDirectOutput output)
    (hcode : (runConvert t verbose request options output strict).2.code? = some 1) :
    (runConvert t verbose request options output strict).1 = t := by
  by_cases hfree : ∃ job, Job.load t request options = .ok job ∧ (job.obstacles strict).value = []
  · obtain ⟨job, hload, hfree⟩ := hfree
    rw [runConvert_of_free hload hfree] at hcode ⊢
    exact deliver_unchanged hrooted hdirect hcode
  · apply And.right
    apply runConvert_unwritten
    intro job hload hnil
    exact hfree ⟨job, hload, hnil⟩

/-- Saving is all or nothing in a tree that has everything in a directory, for props that keep the
limits of the platform and a path without names of two dots and without a character that none can
have. Either it succeeds: then the file has the serialized props and nothing else, there are
directories all the way to it, and every other place is as it was. Or it is refused: then the tree
is as it was. It is refused exactly if the path is that of a directory or leads through a file.
Without these limits it fails, and at most directories around the file have been made where nothing
was. A conversion that exits with 1 leaves the tree as it was, whatever it fails for, and the check
for omissions always does. Where it is no write that fails, the path does not matter. -/
theorem saving_is_all_or_nothing (t : FileTree) (hrooted : t.IsRooted) :
    (∀ props (p : Path), p.IsProper → Artifact.overrun? Platform.limits props = none →
      ((∃ t', Artifact.save t p props = (t', .ok ()) ∧ t'.IsRooted ∧
          t.Written t' (t.place p) (Utf8.encode (Artifact.serialize props).toList)) ∨
        ∃ e, Artifact.save t p props = (t, .error (.refused e)) ∧ e.message? ≠ none) ∧
      ((∃ t' e, Artifact.save t p props = (t', .error e)) ↔
        t.node? (t.place p) = some .directory ∨
          ∃ l content, l.OnWayTo (t.place p) ∧ l ≠ t.place p ∧
            t.node? l = some (.file content))) ∧
    (∀ props (p : Path), p.isDirect = true →
      p.hasNul = true ∨ Artifact.overrun? Platform.limits props ≠ none →
      ∃ t' e, Artifact.save t p props = (t', .error e) ∧ t.Extends t' [] ∧
        ∀ l, ¬l.OnWayTo (t.place p.parent) → t'.node? l = t.node? l) ∧
    (∀ verbose request options output strict, IsDirectOutput output →
      let run := (Invocation.convert verbose request options output strict).run t
      run.2.code? = some 1 → run.1 = t) ∧
    (∀ verbose request options output strict,
      (∀ job, Job.load t (Path.ofString request) options = .ok job →
        (job.obstacles strict).value ≠ []) →
      let run := (Invocation.convert verbose request options output strict).run t
      run.2.code? ≠ some 0 ∧ run.1 = t) ∧
    (∀ verbose request options, ((Invocation.check verbose request options).run t).1 = t) := by
  refine ⟨fun props p hproper hlimits => ?_, fun props p hdirect hbeyond => ?_, ?_, ?_,
    fun _ _ _ => rfl⟩
  · have hroom := Artifact.serializeWithin_eq_ok.mpr ⟨hlimits, rfl⟩
    cases hsave : Artifact.save t p props with
    | mk t' result =>
      cases result with
      | ok _ =>
        have hwrite := (Artifact.save_eq_ok.mp hsave).2
        have hfree := FileTree.free_of_write hwrite hproper.direct
        refine ⟨.inl ⟨t', rfl, hrooted.write hproper.direct hwrite,
          FileTree.written hproper.direct hwrite⟩, ?_, ?_⟩
        · rintro ⟨u, e, hfails⟩
          cases hfails
        · rintro (hplace | ⟨l, content, hway, hne, hl⟩)
          · exact absurd hplace hfree.1
          · exact absurd hl (hfree.2 l content hway hne)
      | error e =>
        obtain ⟨error, rfl, hwrite⟩ := Artifact.refused_of_write hroom hsave
        have hnul := FileTree.write_ne_nul hproper.noNul hwrite
        obtain ⟨rfl, hblocked⟩ := hrooted.write_eq_error hproper.direct hwrite hnul
        exact ⟨.inr ⟨error, rfl, fun hnone => hnul (FileError.message?_eq_none.mp hnone)⟩,
          fun _ => hblocked, fun _ => ⟨_, _, rfl⟩⟩
  · cases hsave : Artifact.save t p props with
    | mk t' result =>
      cases result with
      | ok _ =>
        obtain ⟨hlimits, hwrite⟩ := Artifact.save_eq_ok.mp hsave
        have hproper := FileTree.isProper_of_write hdirect hwrite
        rcases hbeyond with hnul | hoverrun
        · exact absurd hnul (Bool.eq_false_iff.mp hproper.noNul)
        · exact absurd hlimits hoverrun
      | error e =>
        exact ⟨t', e, rfl, Artifact.extends_save_error hsave,
          fun l hl => Artifact.elsewhere_of_error hdirect hsave hl⟩
  · intro verbose request options output strict hdirect run hcode
    exact runConvert_unchanged hrooted hdirect hcode
  · intro verbose request options output strict hkept run
    exact runConvert_unwritten hkept

end

/-- Nothing is made on the way to a path that leads through a file. -/
theorem path_through_request_is_refused :
    requestAlone.IsRooted ∧
      (∃ e, @Artifact.save .standard requestAlone ⟨false, ["r.json", "out", "p.json"]⟩ [] =
        (requestAlone, .error (.refused e))) ∧
      (@Invocation.run .standard requestAlone
        (.convert false "r.json" {} (some "r.json/out/p.json") false)).2.code? = some 1 ∧
      (@Invocation.run .standard requestAlone
        (.convert false "r.json" {} (some "r.json/out/p.json") false)).1 = requestAlone := by
  have hrooted : requestAlone.IsRooted := by decide
  obtain ⟨hsaving, -, hconverting, -⟩ :=
    @saving_is_all_or_nothing .standard requestAlone hrooted
  have hcode : (@Invocation.run .standard requestAlone
      (.convert false "r.json" {} (some "r.json/out/p.json") false)).2.code? = some 1 := by
    decide +kernel
  refine ⟨hrooted, ?_, hcode, ?_⟩
  · obtain ⟨hwhole, hrefused⟩ := hsaving [] ⟨false, ["r.json", "out", "p.json"]⟩ (by decide) rfl
    obtain ⟨t', e, hsave⟩ :=
      hrefused.mpr (.inr ⟨⟨["r.json"]⟩, _, by decide, by decide, rfl⟩)
    rcases hwhole with ⟨t'', hsaved, -⟩ | ⟨e, hunchanged, -⟩
    · rw [hsave] at hsaved
      cases hsaved
    · exact ⟨e, hunchanged⟩
  · refine hconverting _ _ _ _ _ ?_ hcode
    rintro file hfile -
    cases hfile
    decide

/-- A path with a name of two dots may be refused after a directory has been made. -/
example : (requestAlone.write ⟨false, ["new", "..", "r.json", "p.json"]⟩ []).1.nodes ≠
    requestAlone.nodes := by decide

/-- Props under a key that is an integer. -/
def numberedProp (n : Nat) : Assignment := .mk (.literal (.int n)) (.member "string")

theorem overrun?_numberedProp {n : Nat} (hn : 10 ^ 4300 ≤ n) :
    Artifact.overrun? Platform.standard.limits [numberedProp n] = some .digits := by
  have hlong : ¬(Digits.ofNat n).length ≤ 4300 := by
    rw [Digits.length_ofNat_le_iff (by decide), not_lt]
    exact hn
  have hdigits : Platform.standard.limits.allowDigits (Digits.ofNat n).length = false :=
    decide_eq_false hlong
  have hnesting (level : Nat) (hlevel : level ≤ 980) :
      Platform.standard.limits.allowNesting level = true := decide_eq_true hlevel
  have hkey : (PropertyKey.literal (.int n)).toJson.overrun? Platform.standard.limits 3 =
      some .digits := by
    simp [PropertyKey.toJson, Literal.toDocument, Literal.toJson, Json.ofKind, Json.overrun?,
      Json.overrunOfMembers?, Json.member, Json.ofString, hdigits, hnesting]
  have hdocument : (Artifact.document [numberedProp n]).overrun? Platform.standard.limits 0 =
      some .digits := by
    simp [Artifact.document, numberedProp, Assignment.listToJson, Assignment.toJson, Json.overrun?,
      Json.overrunOfMembers?, Json.overrunOfItems?, Json.member, Json.ofString, hkey, hnesting]
  rw [Artifact.overrun?, hdocument]
  rfl

/-- A character that no path can have is told only after a directory has been made, and so is an
integer of 4301 digits. What can be saved otherwise is not saved there, and the system refuses
nothing. -/
theorem failure_may_leave_directory :
    let n := 10 ^ 4300
    requestAlone.IsRooted ∧ requestAlone.node? ⟨["d"]⟩ = none ∧
      (∃ t' e, (Path.ofString "d/x\x00.json").isDirect = true ∧
        @Artifact.save .standard requestAlone (Path.ofString "d/x\x00.json") [] =
          (t', .error (.refused e)) ∧
        e.message? = none ∧ t'.node? ⟨["d"]⟩ = some .directory) ∧
      ∃ t', @Artifact.save .standard requestAlone (Path.ofString "d/x.json") [numberedProp n] =
          (t', .error (.overrun .digits)) ∧
        t'.node? ⟨["d"]⟩ = some .directory := by
  intro n
  have hmade : requestAlone.ensureDirectories (Path.ofString "d/x.json").parent =
      (requestAlone.put ⟨["d"]⟩ .directory, .ok ()) := rfl
  have hsave := @Artifact.save_of_overrun _ (Path.ofString "d/x.json") _ .standard _ _
    (overrun?_numberedProp (Nat.le_refl (10 ^ 4300))) hmade
  exact ⟨by decide, rfl, ⟨_, _, by decide, rfl, rfl, rfl⟩, _, hsave, rfl⟩

end Command

end PropValidators
