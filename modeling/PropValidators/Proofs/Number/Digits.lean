import Mathlib.Tactic
import PropValidators.Number.Digits
/-!
Digits read back as the numbers that they were written for: decimal ones without leading zeros, and
hexadecimal ones of a fixed width.
-/
namespace PropValidators.Digits

private theorem isDigit_digit_below_ten : ∀ d < 10, (digit d).isDigit = true := by decide

private theorem toNat_digit_below_ten : ∀ d < 10, (digit d).toNat = 48 + d := by decide

private theorem hexValue?_digit_below_sixteen : ∀ d < 16, hexValue? (digit d) = some d := by decide

theorem isDigit_digit {d : Nat} (h : d < 10) : (digit d).isDigit = true :=
  isDigit_digit_below_ten d h

theorem toNat_digit {d : Nat} (h : d < 10) : (digit d).toNat = 48 + d :=
  toNat_digit_below_ten d h

theorem ofNat_of_lt {n : Nat} (h : n < 10) : ofNat n = [digit n] := by
  rw [ofNat]
  simp [h]

theorem ofNat_of_le {n : Nat} (h : 10 ≤ n) : ofNat n = ofNat (n / 10) ++ [digit (n % 10)] := by
  rw [ofNat]
  simp [Nat.not_lt.mpr h]

/-- A property of the digits of all numbers, by their last digit. -/
theorem ofNat_induction {P : Nat → Prop} (small : ∀ n < 10, P n)
    (large : ∀ n, 10 ≤ n → P (n / 10) → P n) (n : Nat) : P n := by
  induction n using Nat.strongRecOn with
  | ind n ih =>
    by_cases h : n < 10
    · exact small n h
    · exact large n (by omega) (ih (n / 10) (by omega))

theorem ofNat_ne_nil (n : Nat) : ofNat n ≠ [] := by
  induction n using ofNat_induction with
  | small n h => simp [ofNat_of_lt h]
  | large n h ih => simp [ofNat_of_le h]

theorem length_ofNat_pos (n : Nat) : 0 < (ofNat n).length :=
  List.length_pos_iff.mpr (ofNat_ne_nil n)

theorem isDigit_of_mem_ofNat {n : Nat} {c : Char} (h : c ∈ ofNat n) : c.isDigit = true := by
  induction n using ofNat_induction with
  | small n hn =>
    rw [ofNat_of_lt hn, List.mem_singleton] at h
    subst h
    exact isDigit_digit hn
  | large n hn ih =>
    rw [ofNat_of_le hn, List.mem_append, List.mem_singleton] at h
    rcases h with h | rfl
    · exact ih h
    · exact isDigit_digit (Nat.mod_lt n (by omega))

/-- The first digit of a positive number is not a zero. -/
theorem ofNat_eq_cons {n : Nat} (h : n ≠ 0) : ∃ d rest, ofNat n = d :: rest ∧ d ≠ '0' := by
  induction n using ofNat_induction with
  | small n hn =>
    refine ⟨digit n, [], ofNat_of_lt hn, ?_⟩
    intro h0
    have := toNat_digit hn
    rw [h0] at this
    change 48 = 48 + n at this
    omega
  | large n hn ih =>
    obtain ⟨d, rest, hd, hne⟩ := ih (by omega)
    exact ⟨d, rest ++ [digit (n % 10)], by simp [ofNat_of_le hn, hd], hne⟩

theorem value_append (xs ys : List Char) :
    value (xs ++ ys) = value xs * 10 ^ ys.length + value ys := by
  induction ys using List.reverseRecOn with
  | nil => simp [value]
  | append_singleton ys y ih =>
    have step (zs : List Char) : value (zs ++ [y]) = 10 * value zs + (y.toNat - 48) := by
      simp [value]
    rw [← List.append_assoc, step, ih, step, List.length_append, List.length_singleton, pow_succ]
    ring

theorem value_replicate_zero (k : Nat) : value (List.replicate k '0') = 0 := by
  induction k with
  | zero => rfl
  | succ k ih => rw [List.replicate_succ', value_append, ih]; rfl

@[simp] theorem value_ofNat (n : Nat) : value (ofNat n) = n := by
  induction n using ofNat_induction with
  | small n h => simp [ofNat_of_lt h, value, toNat_digit h]
  | large n h ih =>
    have hd := toNat_digit (Nat.mod_lt n (show 10 > 0 by omega))
    rw [ofNat_of_le h, value_append, ih]
    simp only [value, List.foldl_cons, List.foldl_nil, hd, List.length_singleton, pow_one]
    omega

theorem length_ofNat_le_iff {n k : Nat} (hk : 0 < k) : (ofNat n).length ≤ k ↔ n < 10 ^ k := by
  induction k generalizing n with
  | zero => omega
  | succ k ih =>
    by_cases h : n < 10
    · have h10 : 10 ≤ 10 ^ (k + 1) := by
        have hpow := Nat.one_le_pow k 10 (by omega)
        rw [pow_succ]
        omega
      simp only [ofNat_of_lt h, List.length_singleton]
      omega
    · rw [ofNat_of_le (by omega), List.length_append, List.length_singleton,
        Nat.add_le_add_iff_right]
      rcases Nat.eq_zero_or_pos k with rfl | hk
      · have := length_ofNat_pos (n / 10)
        omega
      · rw [ih hk, pow_succ]
        omega

theorem length_ofNat_mul_ten {n : Nat} (h : n ≠ 0) :
    (ofNat (n * 10)).length = (ofNat n).length + 1 := by
  rw [ofNat_of_le (by omega), List.length_append, List.length_singleton]
  rw [Nat.mul_div_cancel n (by omega)]

theorem hexNumber?_append_singleton (cs : List Char) (c : Char) :
    hexNumber? (cs ++ [c]) = (hexNumber? cs).bind fun n => (hexValue? c).map (16 * n + ·) := by
  simp [hexNumber?, List.foldlM_append]

/-- Hexadecimal digits of a number that fits into them read back as it. -/
theorem hexNumber?_hex {width n : Nat} (h : n < 16 ^ width) :
    hexNumber? (hex width n) = some n := by
  induction width generalizing n with
  | zero =>
    have hn : n = 0 := by omega
    rw [hn]
    rfl
  | succ width ih =>
    have hn : n / 16 < 16 ^ width := by
      rw [pow_succ] at h
      omega
    have hd := hexValue?_digit_below_sixteen (n % 16) (Nat.mod_lt n (by omega))
    rw [hex, hexNumber?_append_singleton, ih hn, Option.bind_some, hd, Option.map_some]
    congr 1
    omega

end PropValidators.Digits
