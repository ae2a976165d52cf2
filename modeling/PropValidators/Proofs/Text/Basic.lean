import Mathlib.Data.List.Basic
import PropValidators.Text.Quoted
/-!
Texts of strings, which are those without surrogates: a string is read back from its text, and what
shows surrogates as escapes changes nothing in it.
-/
namespace PropValidators

namespace Text

@[simp] theorem ofString_inj {s t : String} : ofString s = ofString t ↔ s = t := by
  constructor
  · intro h
    have hchars : s.toList = t.toList :=
      List.map_injective_iff.mpr (fun _ _ h => CodePoint.char.inj h) h
    exact String.toList_inj.mp hchars
  · rintro rfl
    rfl

/-- Two texts with a dot between them. -/
theorem append_dot (before after : Text) :
    before ++ "." ++ after = before ++ .char '.' :: after := by
  simp [ofString, ofChars]

theorem toChars?_ofChars (cs : List Char) : toChars? (ofChars cs) = some cs := by
  induction cs with
  | nil => rfl
  | cons c cs ih =>
    simp only [toChars?, ofChars] at ih
    simp [toChars?, ofChars, CodePoint.toChar?, ih]

@[simp] theorem toString?_ofString (s : String) : toString? (ofString s) = some s := by
  simp [toString?, ofString, toChars?_ofChars]

theorem eq_ofChars {t : Text} {cs : List Char} (h : t.toChars? = some cs) : t = ofChars cs := by
  induction t generalizing cs with
  | nil =>
    cases h
    rfl
  | cons p t ih =>
    simp only [toChars?, List.mapM_cons, Option.bind_eq_bind, Option.bind_eq_some_iff,
      Option.pure_def, Option.some.injEq] at h
    obtain ⟨c, hc, cs, hcs, rfl⟩ := h
    cases p with
    | surrogate half => cases hc
    | char c' =>
      obtain rfl := Option.some.inj hc
      exact congrArg (.char c' :: ·) (ih hcs)

theorem toString?_eq_some {t : Text} {s : String} : t.toString? = some s ↔ t = ofString s := by
  constructor
  · intro h
    obtain ⟨cs, hcs, rfl⟩ := Option.map_eq_some_iff.mp h
    rw [eq_ofChars hcs, ofString, String.toList_ofList]
  · rintro rfl
    exact toString?_ofString s

/-! ### Texts that are shown -/

@[simp] theorem toChars?_ofString (s : String) : toChars? (ofString s) = some s.toList :=
  toChars?_ofChars s.toList

/-- A text has no surrogates if none of its parts has any. -/
theorem isSome_toChars?_append (s t : Text) :
    (toChars? (s ++ t)).isSome = (s.toChars?.isSome && t.toChars?.isSome) := by
  rw [toChars?, List.mapM_append]
  show (s.toChars? >>= fun cs => t.toChars? >>= fun cs' => pure (cs ++ cs')).isSome = _
  cases s.toChars? <;> cases t.toChars? <;> rfl

@[simp] theorem escaped_append (s t : Text) : (s ++ t).escaped = s.escaped ++ t.escaped := by
  simp [escaped]

@[simp] theorem escaped_ofString (s : String) : (ofString s).escaped = s := by
  have hchars (cs : List Char) : (ofChars cs).escaped = String.ofList cs := by
    induction cs with
    | nil => rfl
    | cons c cs ih =>
      have hstring : String.ofList (c :: cs) = String.ofList [c] ++ String.ofList cs := by
        rw [← String.ofList_append, List.singleton_append]
      rw [hstring, ← ih]
      exact escaped_append (ofChars [c]) (ofChars cs)
  rw [ofString, hchars, String.ofList_toList]

end Text

@[simp] theorem JoinedText.ofString_inj {s t : String} : ofString s = ofString t ↔ s = t := by
  rw [← points_inj, points_ofString, points_ofString, Text.ofString_inj]

end PropValidators
