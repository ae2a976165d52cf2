import Mathlib.Data.List.TakeWhile
import Mathlib.Tactic
import PropValidators.Json.Reader
/-!
Numbers as a grammar that says what each of them stands for. They are read as this value, as far as
they go, wherever no other part of a number follows; and nothing else is read as a number.
-/
namespace PropValidators.Json

/-! ### Ends -/

/-- What can stand after a number without being taken for a part of it. -/
def EndsNumber (rest : List Char) : Prop :=
  ∀ c ∈ rest.head?, c.isDigit = false ∧ c ≠ '.' ∧ c ≠ 'e' ∧ c ≠ 'E'

/-- What can stand after digits without being another one. -/
def EndsDigits (rest : List Char) : Prop := ∀ c ∈ rest.head?, c.isDigit = false

/-- What can stand after a fraction, or where there is none, without being taken for one. -/
def EndsFraction (rest : List Char) : Prop := ∀ c ∈ rest.head?, c.isDigit = false ∧ c ≠ '.'

theorem EndsNumber.endsDigits {rest : List Char} (h : EndsNumber rest) : EndsDigits rest :=
  fun c hc => (h c hc).1

theorem EndsNumber.endsFraction {rest : List Char} (h : EndsNumber rest) : EndsFraction rest :=
  fun c hc => ⟨(h c hc).1, (h c hc).2.1⟩

theorem EndsFraction.endsDigits {rest : List Char} (h : EndsFraction rest) : EndsDigits rest :=
  fun c hc => (h c hc).1

theorem endsNumber_nil : EndsNumber [] := by simp [EndsNumber]

theorem endsDigits_cons {c : Char} (rest : List Char) (h : c.isDigit = false) :
    EndsDigits (c :: rest) := by
  simpa [EndsDigits] using h

theorem endsNumber_cons {c : Char} (rest : List Char)
    (h : c.isDigit = false ∧ c ≠ '.' ∧ c ≠ 'e' ∧ c ≠ 'E') : EndsNumber (c :: rest) := by
  simpa [EndsNumber] using h

/-! ### Digits -/

def AreDigits (cs : List Char) : Prop := cs ≠ [] ∧ ∀ c ∈ cs, c.isDigit = true

theorem AreDigits.exists_cons {digits : List Char} (h : AreDigits digits) :
    ∃ d more, digits = d :: more ∧ d.isDigit = true := by
  obtain ⟨d, more, rfl⟩ := List.exists_cons_of_ne_nil h.1
  exact ⟨d, more, rfl, h.2 d List.mem_cons_self⟩

theorem span_isDigit {digits rest : List Char} (hd : ∀ c ∈ digits, c.isDigit = true)
    (hr : EndsDigits rest) : (digits ++ rest).span Char.isDigit = (digits, rest) := by
  have htake : rest.takeWhile Char.isDigit = [] := by
    cases rest with
    | nil => rfl
    | cons c rest => simp [hr c rfl]
  have hdrop : rest.dropWhile Char.isDigit = rest := by
    cases rest with
    | nil => rfl
    | cons c rest => simp [hr c rfl]
  rw [List.span_eq_takeWhile_dropWhile, List.takeWhile_append_of_pos hd,
    List.dropWhile_append_of_pos hd, htake, hdrop, List.append_nil]

theorem span_isDigit_eq {cs digits rest : List Char}
    (h : cs.span Char.isDigit = (digits, rest)) :
    cs = digits ++ rest ∧ ∀ c ∈ digits, c.isDigit = true := by
  rw [List.span_eq_takeWhile_dropWhile] at h
  obtain ⟨rfl, rfl⟩ := Prod.mk.inj h
  exact ⟨List.takeWhile_append_dropWhile.symm, fun c hc => List.mem_takeWhile_imp hc⟩

/-- Digits that are read from a digit on are at least this one. -/
theorem span_isDigit_cons {c : Char} {cs digits rest : List Char} (hc : c.isDigit = true)
    (h : (c :: cs).span Char.isDigit = (digits, rest)) :
    c :: cs = digits ++ rest ∧ AreDigits digits ∧ digits.head? = some c := by
  obtain ⟨happend, hall⟩ := span_isDigit_eq h
  rw [List.span_eq_takeWhile_dropWhile, List.takeWhile_cons_of_pos hc] at h
  obtain ⟨rfl, -⟩ := Prod.mk.inj h
  exact ⟨happend, ⟨List.cons_ne_nil _ _, hall⟩, rfl⟩

/-! ### Whole parts -/

/-- Digits that can stand before a point: a zero alone, or any that start with another digit. -/
def IsWhole (whole : List Char) : Prop :=
  whole = ['0'] ∨ ∃ d digits, whole = d :: digits ∧ d ≠ '0' ∧ ∀ c ∈ whole, c.isDigit = true

theorem wholeDigits?_append {whole rest : List Char} (hw : IsWhole whole) (hr : EndsDigits rest) :
    wholeDigits? (whole ++ rest) = some (whole, rest) := by
  rcases hw with rfl | ⟨d, digits, rfl, hne, hall⟩
  · rfl
  · have hspan := span_isDigit hall hr
    have hd := hall d List.mem_cons_self
    rw [List.cons_append] at hspan ⊢
    unfold wholeDigits?
    split
    · next h => exact absurd (List.cons.inj h).1 hne
    · next h =>
      obtain ⟨rfl, rfl⟩ := List.cons.inj h
      rw [if_pos hd, hspan]
    · next h => exact absurd h (List.cons_ne_nil _ _)

theorem isWhole_of_wholeDigits? {cs whole rest : List Char}
    (h : wholeDigits? cs = some (whole, rest)) : IsWhole whole ∧ cs = whole ++ rest := by
  unfold wholeDigits? at h
  split at h
  · cases h
    exact ⟨.inl rfl, rfl⟩
  · next c cs hne =>
    split at h
    · next hdigit =>
      obtain ⟨happend, ⟨-, hall⟩, hhead⟩ := span_isDigit_cons hdigit (Option.some.inj h)
      obtain ⟨digits, rfl⟩ := List.head?_eq_some_iff.mp hhead
      exact ⟨.inr ⟨c, digits, rfl, hne, hall⟩, happend⟩
    · cases h
  · cases h

/-! ### Fractions -/

/-- A point and digits after it, or nothing where there are no digits. -/
def pointed (fraction : List Char) : List Char :=
  if fraction.isEmpty then [] else '.' :: fraction

theorem AreDigits.pointed_eq {fraction : List Char} (h : AreDigits fraction) :
    pointed fraction = '.' :: fraction := by
  simp [pointed, h.1]

theorem endsDigits_pointed (fraction : List Char) {rest : List Char} (hr : EndsDigits rest) :
    EndsDigits (pointed fraction ++ rest) := by
  unfold pointed
  split
  · exact hr
  · exact endsDigits_cons _ rfl

theorem fractionDigits_pointed {fraction rest : List Char} (hd : ∀ c ∈ fraction, c.isDigit = true)
    (hr : EndsFraction rest) : fractionDigits (pointed fraction ++ rest) = (fraction, rest) := by
  cases fraction with
  | nil =>
    change fractionDigits rest = ([], rest)
    unfold fractionDigits
    split
    · exact absurd rfl (hr '.' rfl).2
    · rfl
  | cons c cs =>
    have hspan := span_isDigit hd hr.endsDigits
    change fractionDigits ('.' :: c :: (cs ++ rest)) = (c :: cs, rest)
    rw [fractionDigits, if_pos (hd c List.mem_cons_self)]
    exact hspan

theorem pointed_of_fractionDigits {cs fraction rest : List Char}
    (h : fractionDigits cs = (fraction, rest)) :
    (∀ c ∈ fraction, c.isDigit = true) ∧ cs = pointed fraction ++ rest := by
  have hnone : (∀ c ∈ ([] : List Char), c.isDigit = true) ∧ cs = pointed [] ++ cs :=
    ⟨fun c hc => absurd hc List.not_mem_nil, rfl⟩
  unfold fractionDigits at h
  split at h
  · next c cs =>
    split at h
    · next hdigit =>
      obtain ⟨happend, hdigits, -⟩ := span_isDigit_cons hdigit h
      exact ⟨hdigits.2, by rw [happend, hdigits.pointed_eq, List.cons_append]⟩
    · cases h
      exact hnone
  · cases h
    exact hnone

/-! ### Exponents -/

/-- A mark, a sign that may be left out, and digits; and what they stand for. -/
inductive SpellsExponent : Int → List Char → Prop
  | intro (mark : Char) (sign : List Char) {digits : List Char} : mark ∈ ['e', 'E'] →
    sign ∈ [[], ['+'], ['-']] → AreDigits digits →
    SpellsExponent (if sign = ['-'] then -(Digits.value digits : Int) else Digits.value digits)
      (mark :: (sign ++ digits))

theorem signedDigits?_append {digits rest : List Char} (negative : Bool) (hd : AreDigits digits)
    (hr : EndsDigits rest) :
    signedDigits? negative (digits ++ rest) =
      some (if negative then -(Digits.value digits : Int) else Digits.value digits, rest) := by
  rw [signedDigits?, span_isDigit hd.2 hr]
  obtain ⟨c, cs, rfl⟩ := List.exists_cons_of_ne_nil hd.1
  rfl

theorem areDigits_of_signedDigits? {negative : Bool} {cs rest : List Char} {e : Int}
    (h : signedDigits? negative cs = some (e, rest)) :
    ∃ digits, AreDigits digits ∧ cs = digits ++ rest ∧
      e = if negative then -(Digits.value digits : Int) else Digits.value digits := by
  unfold signedDigits? at h
  split at h
  · cases h
  · next digits after hne hspan =>
    obtain ⟨rfl, rfl⟩ := Prod.mk.inj (Option.some.inj h)
    obtain ⟨happend, hall⟩ := span_isDigit_eq hspan
    exact ⟨digits, ⟨hne, hall⟩, happend, rfl⟩

theorem exponent?_of_head {rest : List Char} (h : ∀ c ∈ rest.head?, c ≠ 'e' ∧ c ≠ 'E') :
    exponent? rest = none := by
  cases rest with
  | nil => rfl
  | cons c rest => simp [exponent?, h c rfl]

theorem SpellsExponent.read {e : Int} {exponent rest : List Char} (h : SpellsExponent e exponent)
    (hr : EndsDigits rest) : exponent? (exponent ++ rest) = some (e, rest) := by
  obtain ⟨mark, sign, hmark, hsign, hdigits⟩ := h
  replace hmark : mark = 'e' ∨ mark = 'E' := by simpa using hmark
  simp only [List.mem_cons, List.not_mem_nil, or_false] at hsign
  rw [List.cons_append, List.append_assoc]
  rcases hsign with rfl | rfl | rfl
  · obtain ⟨d, more, rfl, hd⟩ := hdigits.exists_cons
    -- A digit is not taken for a sign.
    have hminus : d ≠ '-' := by
      rintro rfl
      exact absurd hd (by decide)
    have hplus : d ≠ '+' := by
      rintro rfl
      exact absurd hd (by decide)
    have hread := signedDigits?_append false hdigits hr
    rw [List.nil_append, exponent?, if_pos hmark, hread]
    · rfl
    · exact fun _ heq => hminus (List.cons.inj heq).1
    · exact fun _ heq => hplus (List.cons.inj heq).1
  · have hread := signedDigits?_append false hdigits hr
    simpa [exponent?, hmark] using hread
  · have hread := signedDigits?_append true hdigits hr
    simpa [exponent?, hmark] using hread

theorem spellsExponent_of_exponent? {cs rest : List Char} {e : Int}
    (h : exponent? cs = some (e, rest)) :
    ∃ exponent, SpellsExponent e exponent ∧ cs = exponent ++ rest := by
  -- Whichever sign is read, the digits after it end where the exponent does.
  have hsigned (sign : List Char) (hsign : sign ∈ [[], ['+'], ['-']]) {mark : Char}
      (hmark : mark ∈ ['e', 'E']) {cs : List Char}
      (h : signedDigits? (sign = ['-']) cs = some (e, rest)) :
      ∃ exponent, SpellsExponent e exponent ∧ mark :: (sign ++ cs) = exponent ++ rest := by
    obtain ⟨digits, hdigits, rfl, rfl⟩ := areDigits_of_signedDigits? h
    refine ⟨mark :: (sign ++ digits), ?_, by simp⟩
    simpa using SpellsExponent.intro mark sign hmark hsign hdigits
  unfold exponent? at h
  split at h
  · next mark cs =>
    split at h
    · next hmark =>
      replace hmark : mark ∈ ['e', 'E'] := by simpa using hmark
      split at h
      · exact hsigned ['-'] (by simp) hmark h
      · exact hsigned ['+'] (by simp) hmark h
      · exact hsigned [] (by simp) hmark h
    · cases h
  · cases h

theorem SpellsExponent.endsFraction {e : Int} {exponent : List Char}
    (h : SpellsExponent e exponent) (rest : List Char) : EndsFraction (exponent ++ rest) := by
  obtain ⟨mark, -, hmark, -, -⟩ := h
  simp only [List.mem_cons, List.not_mem_nil, or_false] at hmark
  rcases hmark with rfl | rfl <;> simp [EndsFraction]

/-! ### Numbers without a sign -/

/-- A number without its sign, and what it stands for: an integer unless it has a fraction or an
exponent. -/
inductive SpellsUnsigned (negative : Bool) : Json → List Char → Prop
  | int {whole : List Char} : IsWhole whole → SpellsUnsigned negative
    (.int (if negative then -(Digits.value whole : Int) else Digits.value whole)) whole
  | decimal {whole fraction : List Char} : IsWhole whole → AreDigits fraction →
    SpellsUnsigned negative
      (.float (.ofDecimal negative (Digits.value (whole ++ fraction)) (-fraction.length)))
      (whole ++ pointed fraction)
  | scaled {whole fraction exponent : List Char} {e : Int} : IsWhole whole →
    (∀ c ∈ fraction, c.isDigit = true) → SpellsExponent e exponent → SpellsUnsigned negative
      (.float (.ofDecimal negative (Digits.value (whole ++ fraction)) (e - fraction.length)))
      (whole ++ (pointed fraction ++ exponent))

variable {negative : Bool} {j : Json}

theorem SpellsUnsigned.read {cs rest : List Char} (h : SpellsUnsigned negative j cs)
    (hr : EndsNumber rest) : unsigned? negative (cs ++ rest) = some (j, rest) := by
  have hexponent := exponent?_of_head fun c hc => (hr c hc).2.2
  cases h with
  | int hw =>
    have hfraction : fractionDigits rest = ([], rest) :=
      fractionDigits_pointed (fun c hc => absurd hc List.not_mem_nil) hr.endsFraction
    simp [unsigned?, wholeDigits?_append hw hr.endsDigits, hfraction, hexponent]
  | @decimal _ fraction hw hd =>
    have hwhole := wholeDigits?_append hw (endsDigits_pointed fraction hr.endsDigits)
    have hfraction := fractionDigits_pointed hd.2 hr.endsFraction
    rw [List.append_assoc]
    simp [unsigned?, hwhole, hfraction, hexponent, hd.1]
  | @scaled _ fraction _ _ hw hd he =>
    have hend := he.endsFraction rest
    have hwhole := wholeDigits?_append hw (endsDigits_pointed fraction hend.endsDigits)
    have hfraction := fractionDigits_pointed hd hend
    rw [List.append_assoc, List.append_assoc]
    simp [unsigned?, hwhole, hfraction, he.read hr.endsDigits]

theorem spellsUnsigned_of_unsigned? {cs rest : List Char}
    (h : unsigned? negative cs = some (j, rest)) :
    ∃ number, SpellsUnsigned negative j number ∧ cs = number ++ rest := by
  unfold unsigned? at h
  split at h
  · cases h
  next whole afterWhole hwhole =>
  obtain ⟨hw, rfl⟩ := isWhole_of_wholeDigits? hwhole
  obtain ⟨hd, hfraction⟩ :=
    pointed_of_fractionDigits (Prod.mk.eta (p := fractionDigits afterWhole)).symm
  dsimp only at h
  split at h
  · next e afterExponent hexponent =>
    obtain ⟨exponent, he, hafter⟩ := spellsExponent_of_exponent? hexponent
    cases h
    refine ⟨_, .scaled hw hd he, ?_⟩
    rw [List.append_assoc, List.append_assoc, ← hafter, ← hfraction]
  · split at h
    · next hempty =>
      cases h
      have hnone := List.isEmpty_iff.mp hempty
      rw [hnone] at hfraction ⊢
      rw [List.append_nil]
      exact ⟨whole, .int hw, congrArg (whole ++ ·) hfraction⟩
    · next hne =>
      cases h
      refine ⟨_, .decimal hw ⟨by simpa using hne, hd⟩, ?_⟩
      rw [List.append_assoc, ← hfraction]

/-! ### Numbers with a sign -/

/-- A number without a sign starts with a digit. -/
theorem head_of_unsigned? {cs : List Char} {found : Json × List Char}
    (h : unsigned? negative cs = some found) : ∃ c rest, cs = c :: rest ∧ c.isDigit = true := by
  have hwhole : wholeDigits? cs ≠ none := by
    intro hnone
    simp [unsigned?, hnone] at h
  rcases cs with _ | ⟨c, rest⟩
  · exact absurd rfl hwhole
  · refine ⟨c, rest, rfl, ?_⟩
    by_contra hc
    apply hwhole
    unfold wholeDigits?
    split
    · next heq =>
      rw [(List.cons.inj heq).1] at hc
      exact absurd rfl hc
    · next heq =>
      rw [← (List.cons.inj heq).1, if_neg hc]
    · rfl

theorem readPlain_of_unsigned (limits : Limits) (level : Nat) {cs : List Char}
    {found : Json × List Char} (h : unsigned? false cs = some found) :
    readPlain limits level cs = admitted (found.1.overrun? limits level) found := by
  obtain ⟨c, rest, rfl, hc⟩ := head_of_unsigned? h
  unfold readPlain
  split
  case h_8 => simp only [h]
  all_goals
    next heq =>
    rw [(List.cons.inj heq).1] at hc
    exact absurd hc (by decide)

theorem readPlain_minus (limits : Limits) (level : Nat) {cs : List Char}
    {found : Json × List Char} (h : unsigned? true cs = some found) :
    readPlain limits level ('-' :: cs) = admitted (found.1.overrun? limits level) found := by
  obtain ⟨c, rest, rfl, hc⟩ := head_of_unsigned? h
  unfold readPlain
  split
  case h_6 heq =>
    rw [(List.cons.inj (List.cons.inj heq).2).1] at hc
    exact absurd hc (by decide)
  case h_7 heq =>
    rw [← (List.cons.inj heq).2]
    simp only [h]
  case h_8 hne => exact absurd rfl (hne _)
  all_goals
    next heq => exact absurd (List.cons.inj heq).1 (by decide)

end PropValidators.Json
