import PropValidators.Json.Printer
import PropValidators.Proofs.Json.Numeral
import PropValidators.Proofs.Number.Binary64
/-!
Number literals spell what they are written for: that of an integer the integer, and the text of a
floating-point number the very number, whichever of its layouts is chosen.
-/
namespace PropValidators.Json

/-! ### Parts of a number -/

theorem isWhole_ofNat (n : Nat) : IsWhole (Digits.ofNat n) := by
  by_cases h : n = 0
  · subst h
    exact .inl (Digits.ofNat_of_lt (by omega))
  · obtain ⟨d, digits, heq, hne⟩ := Digits.ofNat_eq_cons h
    exact .inr ⟨d, digits, heq, hne, fun c hc => Digits.isDigit_of_mem_ofNat hc⟩

/-- The digits of an exponent: those of its size, after a zero if there is one only. -/
theorem exponentText_eq (e : Int) : ∃ digits, Decimal.exponentText e =
    (if e < 0 then '-' else '+') :: digits ∧ AreDigits digits ∧
      Digits.value digits = e.natAbs := by
  have hmem : ∀ c ∈ Digits.ofNat e.natAbs, c.isDigit = true :=
    fun c hc => Digits.isDigit_of_mem_ofNat hc
  by_cases h : (Digits.ofNat e.natAbs).length < 2
  · refine ⟨'0' :: Digits.ofNat e.natAbs, by simp [Decimal.exponentText, h], ⟨by simp, ?_⟩, ?_⟩
    · intro c hc
      rcases List.mem_cons.mp hc with rfl | hc
      · decide
      · exact hmem c hc
    · have := Digits.value_append ['0'] (Digits.ofNat e.natAbs)
      rw [Digits.value_ofNat] at this
      simpa [Digits.value] using this
  · exact ⟨Digits.ofNat e.natAbs, by simp [Decimal.exponentText, h],
      ⟨Digits.ofNat_ne_nil _, hmem⟩, Digits.value_ofNat _⟩

theorem spellsExponent_exponentText (e : Int) :
    SpellsExponent e ('e' :: Decimal.exponentText e) := by
  obtain ⟨digits, heq, hdigits, hvalue⟩ := exponentText_eq e
  by_cases h : e < 0
  · have hspells := SpellsExponent.intro 'e' ['-'] (by simp) (by simp) hdigits
    rw [hvalue, if_pos rfl, show -(e.natAbs : Int) = e by omega] at hspells
    simpa [heq, h] using hspells
  · have hspells := SpellsExponent.intro 'e' ['+'] (by simp) (by simp) hdigits
    rw [hvalue, if_neg (by decide), show (e.natAbs : Int) = e by omega] at hspells
    simpa [heq, h] using hspells

/-! ### Numbers without a sign -/

theorem spellsUnsigned_ofNat (negative : Bool) (n : Nat) :
    SpellsUnsigned negative (.int (if negative then -(n : Int) else n)) (Digits.ofNat n) := by
  have hspells : SpellsUnsigned negative _ (Digits.ofNat n) := .int (isWhole_ofNat n)
  simpa using hspells

theorem spellsUnsigned_fraction (negative : Bool) {whole fraction : List Char}
    (hw : IsWhole whole) (hd : AreDigits fraction) : SpellsUnsigned negative
      (.float (.ofDecimal negative (Digits.value (whole ++ fraction)) (-fraction.length)))
      (whole ++ '.' :: fraction) := by
  rw [← hd.pointed_eq]
  exact .decimal hw hd

/-! ### Texts of decimals -/

/-- A number depends on a decimal only through the magnitude that the decimal reads as. -/
theorem ofDecimal_congr (negative : Bool) {m n : Nat} {e f : Int}
    (h : Magnitude.ofDecimal? m e = Magnitude.ofDecimal? n f) :
    Binary64.ofDecimal negative m e = Binary64.ofDecimal negative n f := by
  rw [Binary64.ofDecimal, h, Binary64.ofDecimal]

theorem ofDecimal_mul_pow (negative : Bool) (n k : Nat) {e f : Int} (h : f = e + k) :
    Binary64.ofDecimal negative (n * 10 ^ k) e = Binary64.ofDecimal negative n f :=
  ofDecimal_congr negative (by rw [Magnitude.ofDecimal?_mul_pow, h])

theorem isWhole_of_cons {d : Char} {digits : List Char} (hd : d ≠ '0')
    (hall : ∀ c ∈ d :: digits, c.isDigit = true) : IsWhole (d :: digits) :=
  .inr ⟨d, digits, rfl, hd, hall⟩

theorem areDigits_zero : AreDigits ['0'] := by simp [AreDigits]

/-- A number below one: zeros stand between the point and the digits. -/
theorem spellsUnsigned_positional_below (negative : Bool) {n : Nat} {point : Int} (hp : point ≤ 0) :
    SpellsUnsigned negative (.float (.ofDecimal negative n (point - (Digits.ofNat n).length)))
      (Decimal.positional (Digits.ofNat n) point) := by
  have hd : ∀ c ∈ List.replicate point.natAbs '0' ++ Digits.ofNat n, c.isDigit = true := by
    intro c hc
    rcases List.mem_append.mp hc with hc | hc
    · rw [List.eq_of_mem_replicate hc]
      rfl
    · exact Digits.isDigit_of_mem_ofNat hc
  have hne : List.replicate point.natAbs '0' ++ Digits.ofNat n ≠ [] := by
    simp [Digits.ofNat_ne_nil]
  have hspells := spellsUnsigned_fraction negative (.inl rfl) ⟨hne, hd⟩
  have hvalue :
      Digits.value (['0'] ++ (List.replicate point.natAbs '0' ++ Digits.ofNat n)) = n := by
    rw [← List.append_assoc, Digits.value_append, List.singleton_append, ← List.replicate_succ,
      Digits.value_replicate_zero, Digits.value_ofNat]
    simp
  have hexponent : -((List.replicate point.natAbs '0' ++ Digits.ofNat n).length : Int) =
      point - (Digits.ofNat n).length := by
    rw [List.length_append, List.length_replicate]
    omega
  rw [hvalue, hexponent] at hspells
  simpa [Decimal.positional, hp] using hspells

/-- A number of at least one with all digits before the point, padded with zeros. -/
theorem spellsUnsigned_positional_whole (negative : Bool) {n : Nat} (hn : n ≠ 0) {point : Nat}
    (hp : (Digits.ofNat n).length ≤ point) :
    SpellsUnsigned negative (.float (.ofDecimal negative n (point - (Digits.ofNat n).length)))
      (Decimal.positional (Digits.ofNat n) point) := by
  obtain ⟨d, digits, heq, hd⟩ := Digits.ofNat_eq_cons hn
  obtain ⟨k, rfl⟩ := Nat.exists_eq_add_of_le hp
  have hpos := Digits.length_ofNat_pos n
  have hall : ∀ c ∈ Digits.ofNat n ++ List.replicate k '0', c.isDigit = true := by
    intro c hc
    rcases List.mem_append.mp hc with hc | hc
    · exact Digits.isDigit_of_mem_ofNat hc
    · rw [List.eq_of_mem_replicate hc]
      rfl
  have hwhole : IsWhole (Digits.ofNat n ++ List.replicate k '0') := by
    rw [heq] at hall ⊢
    exact isWhole_of_cons hd hall
  have hspells := spellsUnsigned_fraction negative hwhole areDigits_zero
  -- The zero after the point counts with the digits, and is taken back by the exponent.
  have hvalue : Digits.value (Digits.ofNat n ++ List.replicate k '0' ++ ['0']) =
      n * 10 ^ (k + 1) := by
    rw [List.append_assoc, ← List.replicate_succ', Digits.value_append,
      Digits.value_replicate_zero, Digits.value_ofNat, List.length_replicate, Nat.add_zero]
  have hexponent : ((Digits.ofNat n).length + k : Nat) - ((Digits.ofNat n).length : Int) =
      -((['0'].length : Nat) : Int) + (k + 1 : Nat) := by
    simp only [List.length_singleton]
    omega
  have htext : Decimal.positional (Digits.ofNat n) ((Digits.ofNat n).length + k : Nat) =
      Digits.ofNat n ++ List.replicate k '0' ++ ['.', '0'] := by
    have hpoint : ¬(((Digits.ofNat n).length + k : Nat) : Int) ≤ 0 := by omega
    simp only [Decimal.positional, if_neg hpoint, Int.natAbs_natCast, List.take_of_length_le hp,
      List.drop_of_length_le hp]
    simp
  rw [hvalue, ofDecimal_mul_pow negative n _ hexponent] at hspells
  rw [htext]
  exact hspells

/-- A number of at least one with some digits on either side of the point. -/
theorem spellsUnsigned_positional_split (negative : Bool) {n : Nat} (hn : n ≠ 0) {point : Nat}
    (h0 : 0 < point) (hp : point < (Digits.ofNat n).length) :
    SpellsUnsigned negative (.float (.ofDecimal negative n (point - (Digits.ofNat n).length)))
      (Decimal.positional (Digits.ofNat n) point) := by
  obtain ⟨d, digits, heq, hd⟩ := Digits.ofNat_eq_cons hn
  have hall : ∀ c ∈ Digits.ofNat n, c.isDigit = true := fun c => Digits.isDigit_of_mem_ofNat
  have hwhole : IsWhole ((Digits.ofNat n).take point) := by
    obtain ⟨k, rfl⟩ := Nat.exists_eq_succ_of_ne_zero (Nat.ne_of_gt h0)
    rw [heq] at hall ⊢
    rw [List.take_succ_cons]
    refine isWhole_of_cons hd fun c hc => hall c ?_
    rcases List.mem_cons.mp hc with rfl | hc
    · exact List.mem_cons_self
    · exact List.mem_cons_of_mem _ (List.mem_of_mem_take hc)
  have hne : (Digits.ofNat n).drop point ≠ [] := by
    rw [ne_eq, List.drop_eq_nil_iff]
    omega
  have hspells := spellsUnsigned_fraction negative hwhole
    ⟨hne, fun c hc => hall c (List.mem_of_mem_drop hc)⟩
  have hexponent : -(((Digits.ofNat n).drop point).length : Int) =
      point - (Digits.ofNat n).length := by
    rw [List.length_drop]
    omega
  rw [List.take_append_drop, Digits.value_ofNat, hexponent] at hspells
  have hlength : point - min point (Digits.ofNat n).length = 0 := by omega
  simpa [Decimal.positional, hne, hlength, show point ≠ 0 by omega] using hspells

theorem spellsUnsigned_positional (negative : Bool) {n : Nat} (hn : n ≠ 0) (point : Int) :
    SpellsUnsigned negative (.float (.ofDecimal negative n (point - (Digits.ofNat n).length)))
      (Decimal.positional (Digits.ofNat n) point) := by
  by_cases hp : point ≤ 0
  · exact spellsUnsigned_positional_below negative hp
  · obtain ⟨p, rfl⟩ := Int.eq_ofNat_of_zero_le (show 0 ≤ point by omega)
    by_cases hlength : (Digits.ofNat n).length ≤ p
    · exact spellsUnsigned_positional_whole negative hn hlength
    · exact spellsUnsigned_positional_split negative hn (by omega) (by omega)

theorem spellsUnsigned_scientific (negative : Bool) {n : Nat} (hn : n ≠ 0) (e : Int) :
    SpellsUnsigned negative (.float (.ofDecimal negative n (e - ((Digits.ofNat n).length - 1))))
      (Decimal.scientific (Digits.ofNat n) e) := by
  obtain ⟨d, digits, heq, hd⟩ := Digits.ofNat_eq_cons hn
  have hall : ∀ c ∈ Digits.ofNat n, c.isDigit = true := fun c => Digits.isDigit_of_mem_ofNat
  have hvalue := Digits.value_ofNat n
  rw [heq] at hall hvalue ⊢
  have hwhole : IsWhole [d] := isWhole_of_cons hd (by simpa using hall d List.mem_cons_self)
  have hspells : SpellsUnsigned negative _ _ :=
    .scaled hwhole (fun c hc => hall c (List.mem_cons_of_mem _ hc)) (spellsExponent_exponentText e)
  rw [List.singleton_append, List.singleton_append, hvalue] at hspells
  have hlength : ((d :: digits).length : Int) - 1 = digits.length := by simp
  rw [hlength]
  simpa [Decimal.scientific, pointed] using hspells

/-- The text of a decimal spells the number nearest to the decimal. -/
theorem spellsUnsigned_text (negative : Bool) {d : Decimal} (hd : d.digits ≠ 0) :
    SpellsUnsigned negative (.float (.ofDecimal negative d.digits d.exponent)) d.text := by
  simp only [Decimal.text]
  split
  · have hspells := spellsUnsigned_positional negative hd
      (d.exponent + (Digits.ofNat d.digits).length)
    rwa [Int.add_sub_cancel] at hspells
  · convert spellsUnsigned_scientific negative hd _ using 3
    omega

/-- The text of a magnitude spells the very magnitude. -/
theorem spellsUnsigned_magnitude (negative : Bool) (x : Magnitude) :
    SpellsUnsigned negative (.float (.finite negative x)) x.text := by
  by_cases h : x.mantissa = 0
  · have hspells := spellsUnsigned_fraction negative (.inl rfl) areDigits_zero
    have hvalue : Digits.value (['0'] ++ ['0']) = 0 := rfl
    rw [hvalue, Binary64.ofDecimal, Magnitude.ofDecimal?_zero] at hspells
    rw [Magnitude.text, if_pos h, Magnitude.eq_zero_of_mantissa h]
    simpa using hspells
  · have hspells := spellsUnsigned_text negative (Magnitude.shortest_digits_ne_zero h)
    rw [Binary64.ofDecimal, Magnitude.ofDecimal?_shortest h] at hspells
    rwa [Magnitude.text, if_neg h]

end PropValidators.Json
