import PropValidators.File.Stored
import PropValidators.Proofs.Artifact.RoundTrip
import PropValidators.Proofs.File.Path
import PropValidators.Proofs.Json.Plain
/-!
A file that is written can be read: at the same path stands what was written, and converted props
that are saved are loaded again.
-/
namespace PropValidators

namespace FileTree

variable {t t' : FileTree} {l : Location} {p : Path} {content : List UInt8} {e : FileError}

/-- A content is put where its path leads to, unless a directory is there. -/
theorem replace_eq_ok (h : t.replace p content = (t', .ok ())) :
    ∃ l, t.locate p = .ok l ∧ t.node? l ≠ some .directory ∧ t' = t.put l (.file content) := by
  unfold replace at h
  split at h
  · cases h
  · next l hlocate =>
    split at h
    · cases h
    · next hdirectory =>
      cases h
      exact ⟨l, hlocate, hdirectory, rfl⟩

theorem replace_eq_error (h : t.replace p content = (t', .error e)) : t' = t := by
  unfold replace at h
  split at h
  · cases h
    rfl
  · split at h
    · cases h
      rfl
    · cases h

theorem read_replace (h : t.replace p content = (t', .ok ())) : t'.read p = .ok content := by
  obtain ⟨l, hlocate, hdirectory, rfl⟩ := replace_eq_ok h
  exact read_eq_ok.mpr ⟨l, locate_put hdirectory _ hlocate,
    node?_put_self (not_onWayTo hdirectory) _⟩

/-- A write that succeeds makes the directories of the path and then puts the content. -/
theorem write_eq_ok (h : t.write p content = (t', .ok ())) :
    ∃ u, t.ensureDirectories p.parent = (u, .ok ()) ∧ u.replace p content = (t', .ok ()) := by
  unfold write at h
  split at h
  · next u hmade => exact ⟨u, hmade, h⟩
  · cases h

/-- A write that is refused is so for the directories of the path, or behind them. -/
theorem write_eq_error (h : t.write p content = (t', .error e)) :
    t.ensureDirectories p.parent = (t', .error e) ∨
      t.ensureDirectories p.parent = (t', .ok ()) ∧ t'.replace p content = (t', .error e) := by
  unfold write at h
  split at h
  · next u hmade =>
    obtain rfl := replace_eq_error h
    exact .inr ⟨hmade, h⟩
  · next u e' hmade =>
    cases h
    exact .inl hmade

/-- What is written to a path is read from it afterwards. -/
theorem read_write (h : t.write p content = (t', .ok ())) : t'.read p = .ok content := by
  obtain ⟨u, -, hput⟩ := write_eq_ok h
  exact read_replace hput

/-- Plain text is read as it is. -/
theorem readText_of_plain {text : String} (h : t.read p = .ok (Utf8.encode text.toList))
    (hplain : ArePlain text.toList) : t.readText p = .ok text := by
  rw [readText, h]
  dsimp only
  rw [Utf8.decode?_encode_plain hplain]
  dsimp only
  rw [Utf8.unifyLines_plain hplain, String.ofList_toList]

end FileTree

/-! ### Converted props -/

namespace Artifact

variable {t t' : FileTree} {p : Path} {props : List Assignment}

theorem arePlain_serialize (props : List Assignment) : ArePlain (serialize props).toList :=
  Json.arePlain_compact _

/-- Props that are saved keep the limits of the platform, and their text is written. -/
theorem save_eq_ok [Platform] : save t p props = (t', .ok ()) ↔
    overrun? Platform.limits props = none ∧
      t.write p (Utf8.encode (serialize props).toList) = (t', .ok ()) := by
  unfold save serializeWithin
  cases overrun? Platform.limits props with
  | none =>
    dsimp only
    generalize t.write p (Utf8.encode (serialize props).toList) = result
    obtain ⟨u, error | written⟩ := result <;> simp [Except.mapError]
  | some overrun =>
    rcases t.ensureDirectories p.parent with ⟨u, error | made⟩ <;> simp

/-- Props beyond the limits of the platform are told only after the directories have been made. -/
theorem save_of_overrun [Platform] {overrun : Overrun} {u : FileTree}
    (h : overrun? Platform.limits props = some overrun)
    (hmade : t.ensureDirectories p.parent = (u, .ok ())) :
    save t p props = (u, .error (.overrun overrun)) := by
  simp only [save, serializeWithin, h, hmade]

/-- Props that are not saved have come no further than to the directories around their file. -/
theorem save_eq_error [Platform] {e : SaveError} (h : save t p props = (t', .error e)) :
    (t.ensureDirectories p.parent).1 = t' := by
  unfold save at h
  cases hroom : serializeWithin Platform.limits props with
  | ok text =>
    simp only [hroom] at h
    rcases hwrite : t.write p (Utf8.encode text.toList) with ⟨u, error | written⟩
    · rw [hwrite] at h
      cases h
      rcases FileTree.write_eq_error hwrite with hmade | ⟨hmade, -⟩ <;> rw [hmade, id]
    · rw [hwrite] at h
      cases h
  | error overrun =>
    simp only [hroom] at h
    rcases hmade : t.ensureDirectories p.parent with ⟨u, error | made⟩
    · rw [hmade] at h
      cases h
      rfl
    · rw [hmade] at h
      cases h
      rfl

theorem save_ne_overrun [Platform] {text : String} {overrun : Overrun}
    (h : serializeWithin Platform.limits props = .ok text) :
    save t p props ≠ (t', .error (.overrun overrun)) := by
  simp only [save, h]
  generalize t.write p (Utf8.encode text.toList) = result
  obtain ⟨u, error | written⟩ := result <;> simp [Except.mapError]

/-- The file of saved props has their serialized text and nothing else. -/
theorem read_save [Platform] (h : save t p props = (t', .ok ())) :
    t'.read p = .ok (Utf8.encode (serialize props).toList) :=
  FileTree.read_write (save_eq_ok.mp h).2

/-- A file with the text of props that keep the limits of the platform is loaded as the props. -/
theorem load_of_read [Platform] (hlimits : overrun? Platform.limits props = none)
    (h : t.read p = .ok (Utf8.encode (serialize props).toList)) : load t p = .ok props := by
  rw [load, FileTree.load, FileTree.readText_of_plain h (arePlain_serialize props)]
  dsimp only
  rw [deserialize_serialize hlimits]
  rfl

/-- Saved props are loaded as they were. -/
theorem load_save [Platform] (h : save t p props = (t', .ok ())) : load t' p = .ok props :=
  load_of_read (save_eq_ok.mp h).1 (read_save h)

end Artifact

/-- The compact text of a document is checked as the request that the document is. -/
theorem Request.load_compact {t : FileTree} {p : Path} {j : Json} (hadmitted : j.isAdmitted = true)
    (hread : t.read p = .ok (Utf8.encode j.compact.toList)) :
    Request.load t p = (Request.check j).toExcept.mapError .invalid := by
  have hparse : Request.parse j.compact = Request.check j := by
    rw [Request.parse, Json.readAdmitted?_compact hadmitted]
  rw [Request.load, FileTree.load, FileTree.readText_of_plain hread (Json.arePlain_compact j)]
  dsimp only
  rw [hparse]

end PropValidators
