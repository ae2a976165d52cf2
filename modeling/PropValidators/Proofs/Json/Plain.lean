import PropValidators.Json.Printer
import PropValidators.Proofs.Number.Digits
import PropValidators.Proofs.Text.Plain
/-!
The compact text of a document is plain: ASCII on a single line, whatever its strings hold.
-/
namespace PropValidators

/-! ### Numbers -/

theorem Digits.isPlain_digit {d : Nat} (h : d < 16) : IsPlain (digit d) := by
  have hall : ∀ d < 16, IsPlain (digit d) := by decide
  exact hall d h

theorem Digits.arePlain_ofNat (n : Nat) : ArePlain (ofNat n) := by
  induction n using ofNat_induction with
  | small n h =>
    rw [ofNat_of_lt h, arePlain_cons]
    exact ⟨isPlain_digit (by omega), arePlain_nil⟩
  | large n h ih =>
    rw [ofNat_of_le h, arePlain_append, arePlain_cons]
    exact ⟨ih, isPlain_digit (by omega), arePlain_nil⟩

theorem Digits.arePlain_hex (width n : Nat) : ArePlain (hex width n) := by
  induction width generalizing n with
  | zero => exact arePlain_nil
  | succ width ih =>
    rw [hex, arePlain_append, arePlain_cons]
    exact ⟨ih _, isPlain_digit (by omega), arePlain_nil⟩

theorem Digits.arePlain_ofInt (n : Int) : ArePlain (ofInt n) := by
  cases n with
  | ofNat n => exact arePlain_ofNat n
  | negSucc n => exact arePlain_cons.mpr ⟨by decide, arePlain_ofNat (n + 1)⟩

namespace Decimal

theorem arePlain_exponentText (e : Int) : ArePlain (exponentText e) := by
  have hdigits := Digits.arePlain_ofNat e.natAbs
  have hsign : IsPlain (if e < 0 then '-' else '+') := by split <;> decide
  rw [exponentText, arePlain_cons]
  refine ⟨hsign, ?_⟩
  split
  · exact arePlain_cons.mpr ⟨by decide, hdigits⟩
  · exact hdigits

theorem arePlain_positional {digits : List Char} (h : ArePlain digits) (point : Int) :
    ArePlain (positional digits point) := by
  have hzero : IsPlain '0' := by decide
  have hpoint : IsPlain '.' := by decide
  unfold positional
  split
  · simp [hzero, hpoint, h, arePlain_replicate hzero]
  · have hwhole := h.sublist (List.take_sublist point.natAbs digits)
    have hfraction := h.sublist (List.drop_sublist point.natAbs digits)
    simp only [arePlain_append, arePlain_cons]
    refine ⟨⟨hwhole, arePlain_replicate hzero _⟩, hpoint, ?_⟩
    split
    · exact arePlain_cons.mpr ⟨hzero, arePlain_nil⟩
    · exact hfraction

theorem arePlain_scientific {digits : List Char} (h : ArePlain digits) (exponent : Int) :
    ArePlain (scientific digits exponent) := by
  have hpoint : IsPlain '.' := by decide
  have hmark : IsPlain 'e' := by decide
  have hfraction := h.sublist (List.drop_sublist 1 digits)
  simp only [scientific, arePlain_append, arePlain_cons]
  refine ⟨⟨h.sublist (List.take_sublist 1 digits), ?_⟩, hmark, arePlain_exponentText exponent⟩
  split
  · exact arePlain_nil
  · exact arePlain_cons.mpr ⟨hpoint, hfraction⟩

theorem arePlain_text (d : Decimal) : ArePlain d.text := by
  unfold text
  dsimp only
  split
  · exact arePlain_positional (Digits.arePlain_ofNat d.digits) _
  · exact arePlain_scientific (Digits.arePlain_ofNat d.digits) _

end Decimal

theorem Magnitude.arePlain_text (x : Magnitude) : ArePlain x.text := by
  unfold text
  split
  · decide
  · exact x.shortest.arePlain_text

theorem Binary64.arePlain_text (x : Binary64) : ArePlain x.text := by
  have hminus : IsPlain '-' := by decide
  cases x with
  | finite negative x =>
    rw [text]
    split
    · exact arePlain_cons.mpr ⟨hminus, x.arePlain_text⟩
    · exact x.arePlain_text
  | infinite negative => cases negative <;> decide
  | nan => decide

namespace Json

theorem arePlain_floatLiteral (x : Binary64) : ArePlain (floatLiteral x) := by
  cases x with
  | finite negative x => exact Binary64.arePlain_text (.finite negative x)
  | infinite negative => cases negative <;> decide
  | nan => decide

/-! ### Strings -/

theorem arePlain_escapeUnit (unit : Nat) : ArePlain (escapeUnit unit) := by
  rw [escapeUnit, arePlain_cons, arePlain_cons]
  exact ⟨by decide, by decide, Digits.arePlain_hex 4 unit⟩

theorem arePlain_escape (p : CodePoint) : ArePlain (escape p) := by
  cases p with
  | surrogate half => exact arePlain_escapeUnit _
  | char c =>
    rw [escape]
    -- Seven characters have an escape of their own; what follows is written as it is, or as units.
    iterate 7 (split; · decide)
    split
    · next hplain => exact arePlain_cons.mpr ⟨hplain, arePlain_nil⟩
    split
    · exact arePlain_escapeUnit _
    · exact arePlain_append.mpr ⟨arePlain_escapeUnit _, arePlain_escapeUnit _⟩

theorem arePlain_literal (t : Text) : ArePlain (literal t) := by
  have hquote : IsPlain '"' := by decide
  rw [literal, arePlain_append, arePlain_cons]
  refine ⟨⟨hquote, fun c hc => ?_⟩, arePlain_cons.mpr ⟨hquote, arePlain_nil⟩⟩
  obtain ⟨p, -, hp⟩ := List.mem_flatMap.mp hc
  exact arePlain_escape p c hp

/-! ### Documents -/

mutual

theorem arePlain_print : (j : Json) → ArePlain (print j)
  | null => by decide
  | bool b => by cases b <;> decide
  | int n => Digits.arePlain_ofInt n
  | float x => arePlain_floatLiteral x
  | string t => arePlain_literal t.points
  | array items => by
    have hopen : IsPlain '[' := by decide
    have hclose : IsPlain ']' := by decide
    simp [print, hopen, hclose, arePlain_printItems items]
  | object members => by
    have hopen : IsPlain '{' := by decide
    have hclose : IsPlain '}' := by decide
    simp [print, hopen, hclose, arePlain_printMembers members]

theorem arePlain_printItems : (items : List Json) → ArePlain (printItems items)
  | [] => arePlain_nil
  | [item] => arePlain_print item
  | item :: next :: items => by
    have hcomma : IsPlain ',' := by decide
    simp only [printItems, arePlain_append, arePlain_cons]
    exact ⟨arePlain_print item, hcomma, arePlain_printItems (next :: items)⟩

theorem arePlain_printMembers : (members : List (JoinedText × Json)) →
    ArePlain (printMembers members)
  | [] => arePlain_nil
  | [(name, value)] => by
    have hcolon : IsPlain ':' := by decide
    simp only [printMembers, arePlain_append, arePlain_cons]
    exact ⟨arePlain_literal name.points, hcolon, arePlain_print value⟩
  | (name, value) :: next :: members => by
    have hcolon : IsPlain ':' := by decide
    have hcomma : IsPlain ',' := by decide
    simp only [printMembers, arePlain_append, arePlain_cons]
    exact ⟨⟨arePlain_literal name.points, hcolon, arePlain_print value⟩, hcomma,
      arePlain_printMembers (next :: members)⟩

end

/-- The compact text of a document is plain, whatever the strings in it are. -/
theorem arePlain_compact (j : Json) : ArePlain j.compact.toList := by
  rw [compact, String.toList_ofList]
  exact arePlain_print j

end Json

end PropValidators
