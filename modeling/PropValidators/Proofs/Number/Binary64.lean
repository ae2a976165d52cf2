import Mathlib.Tactic
import PropValidators.Number.Shortest
import PropValidators.Proofs.Number.Digits
/-!
A magnitude is the nearest one to itself, so its decimals read back as it: the shortest one that is
found as well as the one in full that closes the search.
-/
namespace PropValidators.Magnitude

/-- Stated for variables, as powers with large exponents must not be evaluated. -/
private theorem pow_pos_of_pos (b n : Nat) (h : 0 < b) : 0 < Nat.pow b n := Nat.pow_pos h

theorem unit_pos : 0 < unit := by
  apply pow_pos_of_pos
  omega

theorem roundDiv_mul_right {num den c : Nat} (hc : 0 < c) :
    roundDiv (num * c) (den * c) = roundDiv num den := by
  have hlt : 2 * (num % den * c) < den * c ↔ 2 * (num % den) < den := by
    rw [← Nat.mul_assoc, Nat.mul_lt_mul_right hc]
  have heq : 2 * (num % den * c) = den * c ↔ 2 * (num % den) = den := by
    rw [← Nat.mul_assoc, Nat.mul_left_inj (by omega)]
  simp only [roundDiv, Nat.mul_div_mul_right _ _ hc, Nat.mul_mod_mul_right, hlt, heq]

theorem roundDiv_mul_self (m : Nat) {den : Nat} (h : 0 < den) : roundDiv (m * den) den = m := by
  simp [roundDiv, Nat.mul_div_cancel _ h, h]

/-- The nearest magnitude depends on nothing but the quotient. -/
theorem nearest?_mul_right (num den : Nat) {c : Nat} (hc : 0 < c) :
    nearest? (num * c) (den * c) = nearest? num den := by
  have hround (shift : Nat) : roundDiv (num * c * unit) (den * c * Nat.pow 2 shift) =
      roundDiv (num * unit) (den * Nat.pow 2 shift) := by
    rw [Nat.mul_right_comm num c, Nat.mul_right_comm den c, roundDiv_mul_right hc]
  have hdiv : num * c * unit / (den * c) = num * unit / den := by
    rw [Nat.mul_right_comm, Nat.mul_div_mul_right _ _ hc]
  simp only [nearest?, hdiv, hround]

theorem ofParts?_self (x : Magnitude) : ofParts? x.mantissa x.shift = some x := by
  have h := And.intro x.mantissa_lt (And.intro x.shift_le x.normal)
  rw [ofParts?, dif_pos h]

/-- The units of a magnitude have as many binary digits as its shift leaves below the top. -/
theorem log2_units_sub (x : Magnitude) : x.units.log2 - 52 = x.shift := by
  have hlt : x.units < 2 ^ (x.shift + 53) := by
    rw [Nat.add_comm, pow_add]
    exact Nat.mul_lt_mul_of_pos_right x.mantissa_lt (Nat.pow_pos (by omega))
  rcases x.normal with hs | hm
  · have : x.units.log2 < 53 := by
      rw [hs] at hlt
      by_cases h0 : x.units = 0
      · rw [h0]; decide
      · exact (Nat.log2_lt h0).mpr hlt
    omega
  · have hge : 2 ^ (52 + x.shift) ≤ x.units := by
      rw [pow_add]
      exact Nat.mul_le_mul_right _ hm
    have h0 : x.units ≠ 0 := by
      have := Nat.pow_pos (show 0 < 2 by omega) (n := 52 + x.shift)
      omega
    have hlow := (Nat.le_log2 h0).mpr hge
    have hhigh := (Nat.log2_lt h0).mpr hlt
    omega

/-- A magnitude is the nearest one to its own value. -/
theorem nearest?_units (x : Magnitude) : nearest? x.units unit = some x := by
  have hround : roundDiv (x.units * unit) (unit * Nat.pow 2 x.shift) = x.mantissa := by
    rw [units, Nat.mul_assoc, Nat.mul_comm (Nat.pow 2 x.shift)]
    exact roundDiv_mul_self _ (Nat.mul_pos unit_pos (Nat.pow_pos (by omega)))
  have hne : x.mantissa ≠ Nat.pow 2 53 := Nat.ne_of_lt x.mantissa_lt
  simp only [nearest?, Nat.mul_div_cancel _ unit_pos, log2_units_sub, hround, if_neg hne,
    ofParts?_self]

/-! ### Decimals -/

theorem ofDecimal?_zero (exponent : Int) : ofDecimal? 0 exponent = some zero := by
  simp [ofDecimal?]

/-- A zero at the end of the digits says no more than one in the exponent. -/
theorem ofDecimal?_mul_ten (digits : Nat) (exponent : Int) :
    ofDecimal? (digits * 10) exponent = ofDecimal? digits (exponent + 1) := by
  by_cases h0 : digits = 0
  · subst h0
    rw [Nat.zero_mul, ofDecimal?_zero, ofDecimal?_zero]
  have hsize : exponent + ((Digits.ofNat (digits * 10)).length : Int) =
      exponent + 1 + (Digits.ofNat digits).length := by
    rw [Digits.length_ofNat_mul_ten h0]
    push_cast
    ring
  have hquotient : (if exponent < 0 then nearest? (digits * 10) (Nat.pow 10 exponent.natAbs)
      else nearest? (digits * 10 * Nat.pow 10 exponent.natAbs) 1) =
      if exponent + 1 < 0 then nearest? digits (Nat.pow 10 (exponent + 1).natAbs)
      else nearest? (digits * Nat.pow 10 (exponent + 1).natAbs) 1 := by
    rcases lt_trichotomy exponent (-1) with h | h | h
    · have hp : Nat.pow 10 exponent.natAbs = Nat.pow 10 (exponent + 1).natAbs * 10 := by
        rw [show exponent.natAbs = (exponent + 1).natAbs + 1 by omega]
        rfl
      rw [if_pos (by omega), if_pos (by omega), hp, nearest?_mul_right _ _ (by omega)]
    · subst h
      have hn := nearest?_mul_right digits 1 (show 0 < 10 by omega)
      simpa using hn
    · have hp : Nat.pow 10 (exponent + 1).natAbs = Nat.pow 10 exponent.natAbs * 10 := by
        rw [show (exponent + 1).natAbs = exponent.natAbs + 1 by omega]
        rfl
      rw [if_neg (by omega), if_neg (by omega), hp, Nat.mul_assoc, Nat.mul_comm 10]
  simp only [ofDecimal?, hsize, hquotient, Nat.mul_eq_zero, h0, OfNat.ofNat_ne_zero, or_self]

theorem ofDecimal?_mul_pow (digits k : Nat) (exponent : Int) :
    ofDecimal? (digits * 10 ^ k) exponent = ofDecimal? digits (exponent + k) := by
  induction k generalizing exponent with
  | zero => simp
  | succ k ih =>
    rw [pow_succ, ← Nat.mul_assoc, ofDecimal?_mul_ten, ih]
    push_cast
    congr 1
    ring

/-- Leaving out zeros at the end of a decimal does not change what it reads as. -/
theorem ofDecimal?_trimmed (fuel : Nat) (d : Decimal) :
    ofDecimal? (d.trimmed fuel).digits (d.trimmed fuel).exponent =
      ofDecimal? d.digits d.exponent := by
  induction fuel generalizing d with
  | zero => rfl
  | succ fuel ih =>
    rw [Decimal.trimmed]
    split
    · next h =>
      rw [ih, ← ofDecimal?_mul_ten, Nat.div_mul_cancel (Nat.dvd_of_mod_eq_zero h.2)]
    · rfl

private theorem pow_five_large : Nat.pow 10 750 ≤ Nat.pow 5 1074 := by decide +kernel

private theorem pow_five_small :
    Nat.pow 2 (53 + 2045) * Nat.pow 5 1074 ≤ Nat.pow 10 1383 := by decide +kernel

private theorem mul_pow_lt {m s a b : Nat} (hm : m < Nat.pow 2 a) (hs : s ≤ b) :
    m * Nat.pow 2 s < Nat.pow 2 (a + b) := by
  calc m * Nat.pow 2 s
      < Nat.pow 2 a * Nat.pow 2 s := Nat.mul_lt_mul_of_pos_right hm (pow_pos_of_pos 2 s (by omega))
    _ ≤ Nat.pow 2 a * Nat.pow 2 b := Nat.mul_le_mul_left _ (Nat.pow_le_pow_right (by omega) hs)
    _ = Nat.pow 2 (a + b) := (Nat.pow_add 2 a b).symm

private theorem pow_eq_mul {a b c n u : Nat} (hc : c = a * b) (hu : u = Nat.pow a n) :
    Nat.pow c n = u * Nat.pow b n := by
  rw [hc, hu]
  exact Nat.mul_pow a b n

theorem units_pos {x : Magnitude} (h : x.mantissa ≠ 0) : 0 < x.units :=
  Nat.mul_pos (Nat.pos_of_ne_zero h) (Nat.pow_pos (by omega))

/-- How many digits a product has, by bounds on its factors. -/
private theorem length_ofNat_mul {u p top low high : Nat} (hlow : 0 < low) (hhigh : 0 < high)
    (hu : 0 < u) (htop : u < top) (hp : Nat.pow 10 low ≤ p) (hmul : top * p ≤ Nat.pow 10 high) :
    low < (Digits.ofNat (u * p)).length ∧ (Digits.ofNat (u * p)).length ≤ high := by
  have hpos : 0 < p := (pow_pos_of_pos 10 low (by omega)).trans_le hp
  constructor
  · rw [← Nat.not_le, Digits.length_ofNat_le_iff hlow, Nat.not_lt]
    exact hp.trans (Nat.le_mul_of_pos_left p hu)
  · rw [Digits.length_ofNat_le_iff hhigh]
    exact (Nat.mul_lt_mul_of_pos_right htop hpos).trans_le hmul

/-- A magnitude over a power of ten reads back as it, if the digits are neither too few nor too many
to be read. -/
private theorem ofDecimal?_full {x : Magnitude} (h : x.mantissa ≠ 0) {p low high top n : Nat}
    (hn : 0 < n) (hten : Nat.pow 10 n = unit * p) (htop : x.units < top)
    (hlow : Nat.pow 10 low ≤ p) (hhigh : top * p ≤ Nat.pow 10 high)
    (hfew : n ≤ low + 324) (hmany : high ≤ n + 309) (hpos : 0 < low ∧ 0 < high) :
    ofDecimal? (x.units * p) (-(n : Int)) = some x := by
  have hlength := length_ofNat_mul hpos.1 hpos.2 (units_pos h) htop hlow hhigh
  have hp : 0 < p := (pow_pos_of_pos 10 low (by omega)).trans_le hlow
  have hdigits : x.units * p ≠ 0 := Nat.ne_of_gt (Nat.mul_pos (units_pos h) hp)
  have hquotient : nearest? (x.units * p) (Nat.pow 10 n) = some x := by
    rw [hten, nearest?_mul_right _ _ hp, nearest?_units]
  have hsize : ¬(x.units * p = 0 ∨ -(n : Int) + (Digits.ofNat (x.units * p)).length < -323) := by
    omega
  have hnatAbs : (-(n : Int)).natAbs = n := by omega
  simp only [ofDecimal?, if_neg hsize]
  rw [if_neg (by omega), if_pos (by omega), hnatAbs, hquotient]

private theorem pow_ten : Nat.pow 10 1074 = unit * Nat.pow 5 1074 := by
  have hunit : unit = Nat.pow 2 1074 := by
    unfold unit
    rfl
  -- Found by unification, which leaves the powers alone; stated in full they would be evaluated.
  apply pow_eq_mul _ hunit
  decide

private theorem units_lt_top (x : Magnitude) : x.units < Nat.pow 2 (53 + 2045) := by
  apply mul_pow_lt
  · exact x.mantissa_lt
  · exact x.shift_le

theorem ofDecimal?_exactDecimal {x : Magnitude} (h : x.mantissa ≠ 0) :
    ofDecimal? x.exactDecimal.digits x.exactDecimal.exponent = some x := by
  unfold exactDecimal
  apply ofDecimal?_full h _ pow_ten (units_lt_top x) pow_five_large pow_five_small <;> decide

/-- What is written is a decimal that has been tried, or the one in full. -/
theorem shortest_cases (x : Magnitude) :
    (∃ d, x.readsBack d = true ∧ x.shortest = d.trimmed 18) ∨ x.shortest = x.exactDecimal := by
  unfold shortest
  dsimp only
  split
  · next d hd => exact .inl ⟨d, List.find?_some hd, rfl⟩
  · exact .inr rfl

/-- The digits that are written for a positive magnitude read back as it. -/
theorem ofDecimal?_shortest {x : Magnitude} (h : x.mantissa ≠ 0) :
    ofDecimal? x.shortest.digits x.shortest.exponent = some x := by
  rcases x.shortest_cases with ⟨d, hd, heq⟩ | heq
  · rw [heq, ofDecimal?_trimmed]
    exact of_decide_eq_true hd
  · rw [heq]
    exact ofDecimal?_exactDecimal h

theorem shortest_digits_ne_zero {x : Magnitude} (h : x.mantissa ≠ 0) : x.shortest.digits ≠ 0 := by
  intro h0
  have hread := ofDecimal?_shortest h
  rw [h0, ofDecimal?_zero, Option.some.injEq] at hread
  exact h (congrArg mantissa hread).symm

theorem eq_zero_of_mantissa {x : Magnitude} (h : x.mantissa = 0) : x = zero := by
  have hs : x.shift = 0 := by
    rcases x.normal with hs | hm
    · exact hs
    · rw [h] at hm
      exact absurd hm (by decide)
  obtain ⟨m, s, _, _, _⟩ := x
  cases h
  cases hs
  rfl

end PropValidators.Magnitude
