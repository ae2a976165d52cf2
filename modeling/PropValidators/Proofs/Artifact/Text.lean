import PropValidators.Proofs.Artifact.RoundTrip
import PropValidators.Proofs.Artifact.Standard
import PropValidators.Proofs.Json.Literals
import PropValidators.Proofs.Json.Plain
/-!
The text of converted props is safe to print and to store: plain ASCII on one line, with literals
that their contents cannot close.
-/
namespace PropValidators.Artifact

theorem serialize_eq_items (props : List Assignment) : ∃ items, serialize props =
    "\x7b" ++ r#""v":"1","props":["# ++ items ++ "]\x7d" := by
  refine ⟨String.ofList (Json.printItems (Assignment.listToJson props)), ?_⟩
  rw [serialize_eq]
  refine String.toList_inj.mp ?_
  simp [Json.compact, Json.print]

/-- For every list of assignments, whatever characters its names and strings have, the text has
characters from U+0020 to U+007F only, so it is a single line. No blank stands outside of its
literals, it is framed as an object of the version with a list of props, and its literals stand for
the names and strings of the document, in order. -/
theorem serialized_text_is_safe (props : List Assignment) :
    (∀ c ∈ (serialize props).toList, 0x20 ≤ c.toNat ∧ c.toNat ≤ 0x7F) ∧
    (∀ c ∈ Json.unquoted false (serialize props).toList, Json.isBlank c = false) ∧
    (∃ items, serialize props = "\x7b" ++ r#""v":"1","props":["# ++ items ++ "]\x7d") ∧
    (Json.literals none (serialize props).toList).map Json.contentsText? =
      (document props).strings.map some := by
  obtain ⟨hblank, hliterals⟩ := Json.literals_compact (document props)
  refine ⟨fun c hc => ?_, hblank, serialize_eq_items props, hliterals⟩
  have hplain := Json.arePlain_compact (document props) c hc
  exact ⟨hplain.1, hplain.2.trans (by decide)⟩

end PropValidators.Artifact
