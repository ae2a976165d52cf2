import PropValidators.Text.Utf8
/-!
Plain text, which is ASCII without control characters: it is a single line, and it survives as
octets.
-/
namespace PropValidators

/-- A character of ASCII that is no control character. -/
def IsPlain (c : Char) : Prop := 0x20 ≤ c.toNat ∧ c.toNat ≤ 0x7E

instance (c : Char) : Decidable (IsPlain c) := inferInstanceAs (Decidable (_ ∧ _))

def ArePlain (cs : List Char) : Prop := ∀ c ∈ cs, IsPlain c

instance (cs : List Char) : Decidable (ArePlain cs) := List.decidableBAll IsPlain cs

@[simp] theorem arePlain_nil : ArePlain [] := fun _ h => absurd h List.not_mem_nil

@[simp] theorem arePlain_cons {c : Char} {cs : List Char} :
    ArePlain (c :: cs) ↔ IsPlain c ∧ ArePlain cs := List.forall_mem_cons

@[simp] theorem arePlain_append {cs ds : List Char} :
    ArePlain (cs ++ ds) ↔ ArePlain cs ∧ ArePlain ds := List.forall_mem_append

theorem ArePlain.sublist {cs ds : List Char} (h : ArePlain ds) (hsub : cs.Sublist ds) :
    ArePlain cs := fun c hc => h c (hsub.subset hc)

theorem arePlain_replicate {c : Char} (h : IsPlain c) (n : Nat) :
    ArePlain (List.replicate n c) := fun _ hd => List.eq_of_mem_replicate hd ▸ h

namespace Utf8

theorem encodeChar_of_plain {c : Char} (h : IsPlain c) :
    encodeChar c = [.ofNat c.toNat] := by
  have hc : c.toNat < 0x80 := Nat.lt_of_le_of_lt h.2 (by decide)
  simp [encodeChar, hc]

theorem decode?_octet {c : Char} (h : IsPlain c) (rest : List UInt8) :
    decode? (.ofNat c.toNat :: rest) = (decode? rest).map (c :: ·) := by
  have hc : c.toNat < 0x80 := Nat.lt_of_le_of_lt h.2 (by decide)
  have htoNat : (UInt8.ofNat c.toNat).toNat = c.toNat :=
    UInt8.toNat_ofNat_of_lt (Nat.lt_trans hc (by decide))
  have hlt : UInt8.ofNat c.toNat < 0x80 := by
    rw [UInt8.lt_iff_toNat_lt, htoNat]
    exact hc
  rw [decode?.eq_def]
  dsimp only
  rw [if_pos hlt, htoNat, Char.ofNat_toNat]

/-- Plain text is what its octets stand for. -/
theorem decode?_encode_plain {cs : List Char} (h : ArePlain cs) :
    decode? (encode cs) = some cs := by
  induction cs with
  | nil => rfl
  | cons c cs ih =>
    rw [arePlain_cons] at h
    rw [encode, List.flatMap_cons, encodeChar_of_plain h.1, List.singleton_append,
      decode?_octet h.1]
    exact congrArg (Option.map _) (ih h.2)

/-- Plain text has no line ends. -/
theorem unifyLines_plain {cs : List Char} (h : ArePlain cs) : unifyLines cs = cs := by
  induction cs with
  | nil => rfl
  | cons c cs ih =>
    rw [arePlain_cons] at h
    have hc : c ≠ '\r' := by
      rintro rfl
      exact absurd h.1 (by decide)
    rw [unifyLines, if_neg hc, ih h.2]
    exact fun _ hreturn _ => hc hreturn

end Utf8

end PropValidators
