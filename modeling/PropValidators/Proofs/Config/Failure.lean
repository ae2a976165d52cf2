import Mathlib
import PropValidators.Config
/-!
What becomes of a text that is no configuration: an error in words that names its source, unless the
loader of YAML texts is broken off by something in it.
-/
namespace PropValidators.Config

open Yaml (Failure Node Token Value)

section

variable [Platform] {text label : String} {failure : Failure}

theorem parse_eq_unreadable :
    parse text = .error (.unreadable failure) ↔ Platform.loadYaml text = .error failure := by
  unfold parse
  cases Platform.loadYaml text with
  | error f => simp
  | ok value => cases hvalue : ofValue value <;> simp [hvalue, Except.mapError]

end

variable {label : String} {error : ParseError}

theorem ParseError.message?_eq_none : error.message? label = none ↔
    ∃ cause, error = .unreadable (.brokenOff cause) := by
  cases error with
  | unreadable failure => cases failure <;> simp [message?]
  | invalid error => simp [message?]

/-- An error that has words names the source of the text. -/
theorem ParseError.label_infix_message {message : String}
    (h : error.message? label = some message) : label.toList <:+: message.toList := by
  cases error with
  | unreadable failure =>
    cases failure <;> cases h
    exact ⟨"Invalid YAML in ".toList, [], by simp [toString]⟩
  | invalid error =>
    cases h
    exact ⟨[], (": " ++ error.message).toList, by simp [toString]⟩

/-- Whatever loader of YAML texts there is, a text gives a configuration, or an error in words that
name its source, or breaks the loader off. It is exactly in the last case that the error has no
words. -/
theorem parsing_is_contained_unless_broken_off [Platform] (text label : String) :
    ((∃ config, parse text = .ok config) ∨
      (∃ error message, parse text = .error error ∧ error.message? label = some message ∧
        label.toList <:+: message.toList) ∨
      ∃ cause, Platform.loadYaml text = .error (.brokenOff cause)) ∧
    ((∃ error, parse text = .error error ∧ error.message? label = none) ↔
      ∃ cause, Platform.loadYaml text = .error (.brokenOff cause)) := by
  have hbroken : (∃ error, parse text = .error error ∧ error.message? label = none) ↔
      ∃ cause, Platform.loadYaml text = .error (.brokenOff cause) := by
    simp only [ParseError.message?_eq_none, ← parse_eq_unreadable]
    constructor
    · rintro ⟨error, hparse, cause, rfl⟩
      exact ⟨cause, hparse⟩
    · rintro ⟨cause, hparse⟩
      exact ⟨_, hparse, cause, rfl⟩
  refine ⟨?_, hbroken⟩
  cases hparse : parse text with
  | ok config => exact .inl ⟨config, rfl⟩
  | error error =>
    cases hmessage : error.message? label with
    | some message =>
      exact .inr (.inl ⟨error, message, rfl, hmessage, ParseError.label_infix_message hmessage⟩)
    | none => exact .inr (.inr (hbroken.mp ⟨error, hparse, hmessage⟩))

/-- A day that there is none of breaks the reading off under a key that is no setting. -/
theorem impossible_day_breaks_off :
    @parse .standard "released: 2020-02-30\n" =
        .error (.unreadable (.brokenOff .impossibleTimestamp)) ∧
      (ParseError.unreadable (.brokenOff .impossibleTimestamp)).message? "cfg.yaml" = none := by
  have htokens : Token.ofChars "released: 2020-02-30\n".toList =
      [.blockMappingStart, .key, .scalar "released" true, .value,
       .scalar "2020-02-30" true, .blockEnd, .streamEnd] := by cbv
  refine ⟨(@parse_eq_unreadable .standard _ _).mpr ?_, rfl⟩
  show Value.read "released: 2020-02-30\n" = _
  rw [Value.read, htokens]
  rfl

end PropValidators.Config
