import PropValidators.Proofs.Json.RoundTrip
/-!
Standard JSON as a grammar, and the documents whose compact text is of that grammar: those without
an infinite number and without one that is not a number. For these the text has words that the
grammar does not know.
-/
namespace PropValidators

def Binary64.isFinite : Binary64 → Bool
  | finite .. => true
  | infinite _ | nan => false

namespace Json

/-! ### The grammar -/

def IsHexDigit (c : Char) : Prop :=
  c.isDigit = true ∨ ('a' ≤ c ∧ c ≤ 'f') ∨ ('A' ≤ c ∧ c ≤ 'F')

instance : DecidablePred IsHexDigit := fun _ => inferInstanceAs (Decidable (_ ∨ _))

/-- One character of a string literal: itself, or an escape. -/
inductive IsCharacter : List Char → Prop
  | plain {c : Char} : 0x20 ≤ c.toNat → c ≠ '"' → c ≠ '\\' → IsCharacter [c]
  | letter {c : Char} : c ∈ ['"', '\\', '/', 'b', 'f', 'n', 'r', 't'] → IsCharacter ['\\', c]
  | unit {digits : List Char} : digits.length = 4 → (∀ d ∈ digits, IsHexDigit d) →
    IsCharacter ('\\' :: 'u' :: digits)

inductive AreCharacters : List Char → Prop
  | nil : AreCharacters []
  | cons {cs ds : List Char} : IsCharacter cs → AreCharacters ds → AreCharacters (cs ++ ds)

/-- Nothing, or a point and digits. -/
def IsFraction (cs : List Char) : Prop := cs = [] ∨ ∃ digits, AreDigits digits ∧ cs = '.' :: digits

/-- Nothing, or a letter, a sign that may be left out, and digits. -/
def IsExponent (cs : List Char) : Prop :=
  cs = [] ∨ ∃ mark ∈ ['e', 'E'], ∃ sign ∈ [[], ['+'], ['-']], ∃ digits, AreDigits digits ∧
    cs = mark :: (sign ++ digits)

def IsUnsigned (cs : List Char) : Prop :=
  ∃ whole fraction exponent, IsWhole whole ∧ IsFraction fraction ∧ IsExponent exponent ∧
    cs = whole ++ fraction ++ exponent

def IsNumber (cs : List Char) : Prop := IsUnsigned cs ∨ ∃ ds, IsUnsigned ds ∧ cs = '-' :: ds

/-- The symbols of the grammar. A text is a value with blanks around it. -/
inductive Symbol where
  | text
  | value
  | items
  | member
  | members

/-- The texts that the grammar derives from its symbols. -/
inductive Derives : Symbol → List Char → Prop
  | text {before cs after : List Char} : AreBlank before → Derives .value cs → AreBlank after →
    Derives .text (before ++ cs ++ after)
  | null : Derives .value ['n', 'u', 'l', 'l']
  | true : Derives .value ['t', 'r', 'u', 'e']
  | false : Derives .value ['f', 'a', 'l', 's', 'e']
  | number {cs : List Char} : IsNumber cs → Derives .value cs
  | string {cs : List Char} : AreCharacters cs → Derives .value ('"' :: cs ++ ['"'])
  | emptyArray {blanks : List Char} : AreBlank blanks → Derives .value ('[' :: blanks ++ [']'])
  | array {cs : List Char} : Derives .items cs → Derives .value ('[' :: cs ++ [']'])
  | emptyObject {blanks : List Char} : AreBlank blanks → Derives .value ('{' :: blanks ++ ['}'])
  | object {cs : List Char} : Derives .members cs → Derives .value ('{' :: cs ++ ['}'])
  | lastItem {cs : List Char} : Derives .text cs → Derives .items cs
  | item {cs ds : List Char} : Derives .text cs → Derives .items ds →
    Derives .items (cs ++ ',' :: ds)
  | member {before name after cs : List Char} : AreBlank before → AreCharacters name →
    AreBlank after → Derives .text cs →
    Derives .member (before ++ ('"' :: name ++ ['"']) ++ after ++ ':' :: cs)
  | lastMember {cs : List Char} : Derives .member cs → Derives .members cs
  | moreMembers {cs ds : List Char} : Derives .member cs → Derives .members ds →
    Derives .members (cs ++ ',' :: ds)

def IsStandard (text : String) : Prop := Derives .text text.toList

mutual

/-- Whether every number of a document is finite. -/
def isFinite : Json → Bool
  | float x => x.isFinite
  | array items => itemsAreFinite items
  | object members => membersAreFinite members
  | _ => true

def itemsAreFinite : List Json → Bool
  | [] => true
  | item :: items => isFinite item && itemsAreFinite items

def membersAreFinite : List (JoinedText × Json) → Bool
  | [] => true
  | (_, value) :: members => isFinite value && membersAreFinite members

end

/-! ### Numbers -/

theorem SpellsExponent.isExponent {e : Int} {cs : List Char} (h : SpellsExponent e cs) :
    IsExponent cs := by
  obtain ⟨mark, sign, hmark, hsign, hdigits⟩ := h
  exact .inr ⟨mark, hmark, sign, hsign, _, hdigits, rfl⟩

theorem isFraction_pointed {fraction : List Char} (h : ∀ c ∈ fraction, c.isDigit = true) :
    IsFraction (pointed fraction) := by
  by_cases hne : fraction = []
  · exact .inl (by rw [hne]; rfl)
  · have hdigits : AreDigits fraction := ⟨hne, h⟩
    exact .inr ⟨fraction, hdigits, hdigits.pointed_eq⟩

/-- What stands for a number is of the grammar. -/
theorem SpellsUnsigned.isUnsigned {negative : Bool} {j : Json} {cs : List Char}
    (h : SpellsUnsigned negative j cs) : IsUnsigned cs := by
  cases h with
  | int hw => exact ⟨cs, [], [], hw, .inl rfl, .inl rfl, by simp⟩
  | decimal hw hd => exact ⟨_, _, [], hw, isFraction_pointed hd.2, .inl rfl, by simp⟩
  | scaled hw hd he => exact ⟨_, _, _, hw, isFraction_pointed hd, he.isExponent, by simp⟩

theorem isUnsigned_of_read {negative : Bool} {cs : List Char} {j : Json}
    (h : unsigned? negative (cs ++ []) = some (j, [])) : IsUnsigned cs := by
  obtain ⟨number, hnumber, heq⟩ := spellsUnsigned_of_unsigned? h
  rw [List.append_nil, List.append_nil] at heq
  exact heq ▸ hnumber.isUnsigned

theorem isNumber_ofInt (n : Int) : IsNumber (Digits.ofInt n) := by
  cases n with
  | ofNat n => exact .inl (spellsUnsigned_ofNat false n).isUnsigned
  | negSucc n =>
    exact .inr ⟨_, (spellsUnsigned_ofNat true (n + 1)).isUnsigned, rfl⟩

theorem isNumber_floatLiteral {x : Binary64} (h : x.isFinite = true) :
    IsNumber (floatLiteral x) := by
  rcases x with ⟨_ | _, x⟩ | _ | _
  · exact .inl (spellsUnsigned_magnitude false x).isUnsigned
  · exact .inr ⟨_, (spellsUnsigned_magnitude true x).isUnsigned, rfl⟩
  · cases h
  · cases h

/-! ### Strings -/

theorem isHexDigit_digit {d : Nat} (h : d < 16) : IsHexDigit (Digits.digit d) := by
  have hall : ∀ d < 16, IsHexDigit (Digits.digit d) := by decide
  exact hall d h

theorem isCharacter_escapeUnit (unit : Nat) : IsCharacter (escapeUnit unit) := by
  have hlt (n : Nat) : n % 16 < 16 := Nat.mod_lt n (by omega)
  refine .unit rfl fun d hd => ?_
  simp only [Digits.hex, List.nil_append, List.mem_append, List.mem_singleton] at hd
  rcases hd with ((rfl | rfl) | rfl) | rfl <;> exact isHexDigit_digit (hlt _)

theorem AreCharacters.single {cs : List Char} (h : IsCharacter cs) : AreCharacters cs := by
  simpa using AreCharacters.cons h .nil

theorem AreCharacters.append {cs ds : List Char} (hcs : AreCharacters cs)
    (hds : AreCharacters ds) : AreCharacters (cs ++ ds) := by
  induction hcs with
  | nil => exact hds
  | cons hc _ ih =>
    rw [List.append_assoc]
    exact .cons hc ih

theorem areCharacters_escape (p : CodePoint) : AreCharacters (escape p) := by
  cases p with
  | surrogate half => exact .single (isCharacter_escapeUnit _)
  | char c =>
    rw [escape]
    split
    · exact .single (.letter (by simp))
    next hquote =>
    split
    · exact .single (.letter (by simp))
    next hbackslash =>
    -- Five more characters are escaped by a letter.
    iterate 5 (split; · exact .single (.letter (by simp)))
    split
    · next hplain => exact .single (.plain hplain.1 hquote hbackslash)
    split
    · exact .single (isCharacter_escapeUnit _)
    · exact .cons (isCharacter_escapeUnit _) (.single (isCharacter_escapeUnit _))

/-- Between its quotes a literal has characters of the grammar only. -/
theorem areCharacters_flatMap_escape (t : Text) : AreCharacters (t.flatMap escape) := by
  induction t with
  | nil => exact .nil
  | cons p t ih =>
    rw [List.flatMap_cons]
    exact (areCharacters_escape p).append ih

/-! ### Standard texts spell documents -/

theorem IsExponent.spells {cs : List Char} (h : IsExponent cs) :
    cs = [] ∨ ∃ e, SpellsExponent e cs := by
  rcases h with rfl | ⟨mark, hmark, sign, hsign, digits, hdigits, rfl⟩
  · exact .inl rfl
  · exact .inr ⟨_, .intro mark sign hmark hsign hdigits⟩

theorem IsFraction.eq_pointed {cs : List Char} (h : IsFraction cs) :
    ∃ digits, (∀ c ∈ digits, c.isDigit = true) ∧ cs = pointed digits := by
  rcases h with rfl | ⟨digits, hdigits, rfl⟩
  · exact ⟨[], fun _ hc => absurd hc List.not_mem_nil, rfl⟩
  · exact ⟨digits, hdigits.2, hdigits.pointed_eq.symm⟩

theorem IsUnsigned.spells {cs : List Char} (h : IsUnsigned cs) (negative : Bool) :
    ∃ j, SpellsUnsigned negative j cs := by
  obtain ⟨whole, fraction, exponent, hwhole, hfraction, hexponent, rfl⟩ := h
  obtain ⟨digits, hdigits, rfl⟩ := hfraction.eq_pointed
  rcases hexponent.spells with rfl | ⟨e, he⟩
  · rw [List.append_nil]
    by_cases hne : digits = []
    · subst hne
      exact ⟨_, by simpa [pointed] using SpellsUnsigned.int hwhole⟩
    · exact ⟨_, .decimal hwhole ⟨hne, hdigits⟩⟩
  · rw [List.append_assoc]
    exact ⟨_, .scaled hwhole hdigits he⟩

theorem IsHexDigit.exists_hexValue? {c : Char} (h : IsHexDigit c) :
    ∃ d, Digits.hexValue? c = some d := by
  have hdigit (hc : c.isDigit = true) : '0' ≤ c ∧ c ≤ '9' := by
    simpa [Char.isDigit, Char.le_def] using hc
  unfold Digits.hexValue?
  split
  · exact ⟨_, rfl⟩
  next hdecimal =>
  split
  · exact ⟨_, rfl⟩
  next hsmall =>
  rcases h with hc | hc | hc
  · exact absurd (hdigit hc) hdecimal
  · exact absurd hc hsmall
  · exact ⟨_, if_pos hc⟩

theorem exists_hexNumber? {digits : List Char} (h : ∀ c ∈ digits, IsHexDigit c) :
    ∃ code, Digits.hexNumber? digits = some code := by
  induction digits using List.reverseRecOn with
  | nil => exact ⟨0, rfl⟩
  | append_singleton digits c ih =>
    obtain ⟨code, hcode⟩ := ih fun d hd => h d (List.mem_append_left _ hd)
    obtain ⟨d, hd⟩ := (h c (by simp)).exists_hexValue?
    rw [Digits.hexNumber?_append_singleton, hcode, hd]
    exact ⟨_, rfl⟩

theorem IsCharacter.spells {cs : List Char} (h : IsCharacter cs) : ∃ p, SpellsPiece p cs := by
  cases h with
  | plain hc hquote hbackslash => exact ⟨_, .plain hc hquote hbackslash⟩
  | letter hletter =>
    simp only [List.mem_cons, List.not_mem_nil, or_false] at hletter
    rcases hletter with rfl | rfl | rfl | rfl | rfl | rfl | rfl | rfl <;> exact ⟨_, .letter rfl⟩
  | unit hlength hdigits =>
    obtain ⟨code, hcode⟩ := exists_hexNumber? hdigits
    exact ⟨_, .unit hlength hcode⟩

theorem AreCharacters.spells {cs : List Char} (h : AreCharacters cs) : ∃ t, SpellsText t cs := by
  have hpieces : ∃ ps, SpellsPieces ps cs := by
    induction h with
    | nil => exact ⟨[], .nil⟩
    | cons hc _ ih =>
      obtain ⟨p, hp⟩ := hc.spells
      obtain ⟨ps, hps⟩ := ih
      exact ⟨p :: ps, .cons hp hps⟩
  obtain ⟨ps, hps⟩ := hpieces
  exact ⟨⟨joined ps, isJoined_joined ps⟩, ps, hps, rfl⟩

/-- Whether a text of a symbol spells something. -/
def Symbol.IsSpelled : Symbol → List Char → Prop
  | .text, cs => ∃ j, Spells (.text j) cs
  | .value, cs => ∃ j, Spells (.value j) cs
  | .items, cs => ∃ items, Spells (.items items) cs
  | .member, cs => ∃ name j, Spells (.member name j) cs
  | .members, cs => ∃ members, Spells (.members members) cs

theorem Derives.isSpelled {s : Symbol} {cs : List Char} (h : Derives s cs) : s.IsSpelled cs := by
  induction h with
  | text hbefore _ hafter ih =>
    obtain ⟨j, hj⟩ := ih
    exact ⟨j, by simpa using Spells.text hbefore hj hafter⟩
  | null => exact ⟨_, .null⟩
  | «true» => exact ⟨_, .true⟩
  | «false» => exact ⟨_, .false⟩
  | number h =>
    rcases h with h | ⟨ds, h, rfl⟩
    · obtain ⟨j, hj⟩ := h.spells Bool.false
      exact ⟨j, .number hj⟩
    · obtain ⟨j, hj⟩ := h.spells Bool.true
      exact ⟨j, .negative hj⟩
  | string h =>
    obtain ⟨t, ht⟩ := h.spells
    exact ⟨_, .string ht⟩
  | emptyArray h => exact ⟨_, .emptyArray h⟩
  | array _ ih =>
    obtain ⟨items, hitems⟩ := ih
    exact ⟨_, .array hitems⟩
  | emptyObject h => exact ⟨_, .emptyObject h⟩
  | object _ ih =>
    obtain ⟨members, hmembers⟩ := ih
    exact ⟨_, .object hmembers⟩
  | lastItem _ ih =>
    obtain ⟨j, hj⟩ := ih
    exact ⟨_, .lastItem hj⟩
  | item _ _ ih ihs =>
    obtain ⟨j, hj⟩ := ih
    obtain ⟨items, hitems⟩ := ihs
    exact ⟨_, .item hj hitems⟩
  | member hbefore hname hafter _ ih =>
    obtain ⟨name, hname⟩ := hname.spells
    obtain ⟨j, hj⟩ := ih
    exact ⟨name, j, by simpa using Spells.member hbefore hname hafter hj⟩
  | lastMember _ ih =>
    obtain ⟨name, j, hmember⟩ := ih
    exact ⟨_, .lastMember hmember⟩
  | moreMembers _ _ ih ihs =>
    obtain ⟨name, j, hmember⟩ := ih
    obtain ⟨members, hmembers⟩ := ihs
    exact ⟨_, .moreMembers hmember hmembers⟩

/-- Every text of standard JSON is read as a document. -/
theorem IsStandard.exists_read {text : String} (h : IsStandard text) :
    ∃ j, read .unlimited text = .ok j := by
  obtain ⟨j, hj⟩ := Derives.isSpelled h
  exact ⟨j, read_eq_ok.mpr ⟨hj, overrun?_unlimited 0 j⟩⟩

/-! ### Documents of finite numbers -/

theorem Derives.text_of_value {cs : List Char} (h : Derives .value cs) : Derives .text cs := by
  simpa using Derives.text areBlank_nil h areBlank_nil

theorem derives_member (name : JoinedText) {cs : List Char} (h : Derives .value cs) :
    Derives .member (literal name.points ++ ':' :: cs) := by
  simpa [literal] using
    Derives.member areBlank_nil (areCharacters_flatMap_escape name.points) areBlank_nil
      h.text_of_value

mutual

theorem derives_print : (j : Json) → j.isFinite = true → Derives .value (print j)
  | null, _ => .null
  | bool true, _ => .true
  | bool false, _ => .false
  | int n, _ => .number (isNumber_ofInt n)
  | float _, h => .number (isNumber_floatLiteral h)
  | string t, _ => .string (areCharacters_flatMap_escape t.points)
  | array [], _ => .emptyArray areBlank_nil
  | array (item :: items), h => .array (derives_printItems (item :: items) (by simp) h)
  | object [], _ => .emptyObject areBlank_nil
  | object (member :: members), h => .object (derives_printMembers (member :: members) (by simp) h)

theorem derives_printItems : (items : List Json) → items ≠ [] → itemsAreFinite items = true →
    Derives .items (printItems items)
  | [], hne, _ => absurd rfl hne
  | [item], _, h => by
    rw [itemsAreFinite, Bool.and_eq_true] at h
    exact .lastItem (derives_print item h.1).text_of_value
  | item :: next :: items, _, h => by
    rw [itemsAreFinite, Bool.and_eq_true] at h
    exact .item (derives_print item h.1).text_of_value
      (derives_printItems (next :: items) (by simp) h.2)

theorem derives_printMembers : (members : List (JoinedText × Json)) → members ≠ [] →
    membersAreFinite members = true → Derives .members (printMembers members)
  | [], hne, _ => absurd rfl hne
  | [(name, value)], _, h => by
    rw [membersAreFinite, Bool.and_eq_true] at h
    exact .lastMember (derives_member name (derives_print value h.1))
  | (name, value) :: next :: members, _, h => by
    rw [membersAreFinite, Bool.and_eq_true] at h
    exact .moreMembers (derives_member name (derives_print value h.1))
      (derives_printMembers (next :: members) (by simp) h.2)

end

/-! ### Characters outside of strings -/

/-- The characters of a text that stand outside of its string literals. -/
def unquoted : (within : Bool) → List Char → List Char
  | _, [] => []
  | false, '"' :: cs => unquoted true cs
  | false, c :: cs => c :: unquoted false cs
  | true, '"' :: cs => unquoted false cs
  | true, '\\' :: _ :: cs => unquoted true cs
  | true, _ :: cs => unquoted true cs

/-- A letter that starts a word for a number that is not finite. -/
def isMark (c : Char) : Bool := c = 'I' || c = 'N'

/-- Whether a mark stands outside of the string literals of a text, which is the same for the text
as a part of others. -/
def Shows (marked : Bool) (cs : List Char) : Prop :=
  ∃ shown, (∀ rest, unquoted false (cs ++ rest) = shown ++ unquoted false rest) ∧
    shown.any isMark = marked

theorem Shows.unique {a b : Bool} {cs : List Char} (ha : Shows a cs) (hb : Shows b cs) : a = b := by
  obtain ⟨shown, hshown, rfl⟩ := ha
  obtain ⟨shown', hshown', rfl⟩ := hb
  have heq : shown ++ [] = shown' ++ [] := (hshown []).symm.trans (hshown' [])
  rw [List.append_cancel_right heq]

theorem Shows.append {a b : Bool} {cs ds : List Char} (hcs : Shows a cs) (hds : Shows b ds) :
    Shows (a || b) (cs ++ ds) := by
  obtain ⟨shown, hshown, rfl⟩ := hcs
  obtain ⟨shown', hshown', rfl⟩ := hds
  refine ⟨shown ++ shown', fun rest => ?_, List.any_append⟩
  rw [List.append_assoc, hshown, hshown', List.append_assoc]

theorem unquoted_append {cs : List Char} (h : ∀ c ∈ cs, c ≠ '"') (rest : List Char) :
    unquoted false (cs ++ rest) = cs ++ unquoted false rest := by
  induction cs with
  | nil => rfl
  | cons c cs ih =>
    rw [List.forall_mem_cons] at h
    rw [List.cons_append, unquoted, ih h.2, List.cons_append]
    exact h.1

theorem unquoted_within {cs : List Char} (h : ∀ c ∈ cs, c ≠ '"' ∧ c ≠ '\\')
    (rest : List Char) : unquoted true (cs ++ rest) = unquoted true rest := by
  induction cs with
  | nil => rfl
  | cons c cs ih =>
    rw [List.forall_mem_cons] at h
    rw [List.cons_append, unquoted, ih h.2]
    · exact h.1.1
    · exact fun _ _ hc => absurd hc h.1.2

theorem IsHexDigit.ne {c : Char} (h : IsHexDigit c) : c ≠ '"' ∧ c ≠ '\\' := by
  constructor <;>
    · rintro rfl
      revert h
      decide

/-- A character of a string literal does not end it. -/
theorem unquoted_character {cs : List Char} (h : IsCharacter cs) (rest : List Char) :
    unquoted true (cs ++ rest) = unquoted true rest := by
  cases h with
  | plain _ hquote hbackslash => exact unquoted_within (by simp [hquote, hbackslash]) rest
  | letter _ => rfl
  | unit _ hdigits => exact unquoted_within (fun d hd => (hdigits d hd).ne) rest

theorem unquoted_literal {cs : List Char} (h : AreCharacters cs) (rest : List Char) :
    unquoted false ('"' :: cs ++ ['"'] ++ rest) = unquoted false rest := by
  have hend : unquoted true (cs ++ '"' :: rest) = unquoted false rest := by
    induction h with
    | nil => rfl
    | cons hc _ ih => rw [List.append_assoc, unquoted_character hc, ih]
  simpa [unquoted] using hend

theorem shows_literal {cs : List Char} (h : AreCharacters cs) :
    Shows false ('"' :: cs ++ ['"']) :=
  ⟨[], unquoted_literal h, rfl⟩

/-! ### What is shown by the grammar and by documents -/

/-- Whether a character neither starts a string literal nor is a mark. -/
def isQuiet (c : Char) : Bool := c != '"' && !isMark c

theorem shows_of_all {cs : List Char} (h : cs.all isQuiet = true) : Shows false cs := by
  have hall := List.all_eq_true.mp h
  simp only [isQuiet, Bool.and_eq_true, bne_iff_ne, Bool.not_eq_true'] at hall
  have hmark : cs.any isMark = false := List.any_eq_false.mpr fun c hc => by simp [(hall c hc).2]
  exact ⟨cs, unquoted_append fun c hc => (hall c hc).1, hmark⟩

theorem shows_comma : Shows false [','] := shows_of_all rfl

theorem shows_colon : Shows false [':'] := shows_of_all rfl

theorem Shows.brackets {b : Bool} {cs : List Char} (h : Shows b cs) :
    Shows b ('[' :: cs ++ [']']) := by
  have hopen : Shows false ['['] := shows_of_all rfl
  have hclose : Shows false [']'] := shows_of_all rfl
  simpa using (hopen.append h).append hclose

theorem Shows.braces {b : Bool} {cs : List Char} (h : Shows b cs) :
    Shows b ('{' :: cs ++ ['}']) := by
  have hopen : Shows false ['{'] := shows_of_all rfl
  have hclose : Shows false ['}'] := shows_of_all rfl
  simpa using (hopen.append h).append hclose

theorem shows_blank {cs : List Char} (h : AreBlank cs) : Shows false cs := by
  have hblank : [' ', '\t', '\n', '\r'].all isQuiet = true := rfl
  exact shows_of_all (List.all_eq_true.mpr fun c hc => List.all_eq_true.mp hblank c (h c hc))

/-- Whether numbers are written with a character. -/
def isNumeral (c : Char) : Bool := c.isDigit || ['.', 'e', 'E', '+', '-'].contains c

theorem isQuiet_of_isNumeral {c : Char} (h : isNumeral c = true) : isQuiet c = true := by
  by_contra hc
  simp only [isQuiet, isMark, Bool.and_eq_true, bne_iff_ne, Bool.not_eq_true', Bool.or_eq_false_iff,
    decide_eq_false_iff_not, not_and_or, not_not] at hc
  rcases hc with rfl | rfl | rfl <;> cases h

theorem all_isNumeral {cs : List Char} (h : ∀ c ∈ cs, c.isDigit = true) :
    cs.all isNumeral = true :=
  List.all_eq_true.mpr fun c hc => by rw [isNumeral, h c hc, Bool.true_or]

theorem IsUnsigned.isNumeral {cs : List Char} (h : IsUnsigned cs) : cs.all isNumeral = true := by
  obtain ⟨whole, fraction, exponent, hwhole, hfraction, hexponent, rfl⟩ := h
  rw [List.all_append, List.all_append, Bool.and_eq_true, Bool.and_eq_true]
  refine ⟨⟨?_, ?_⟩, ?_⟩
  · rcases hwhole with rfl | ⟨d, digits, rfl, -, hall⟩
    · rfl
    · exact all_isNumeral hall
  · rcases hfraction with rfl | ⟨digits, hdigits, rfl⟩
    · rfl
    · exact (all_isNumeral hdigits.2 :)
  · rcases hexponent with rfl | ⟨mark, hmark, sign, hsign, digits, hdigits, rfl⟩
    · rfl
    · have hdigits := all_isNumeral hdigits.2
      simp only [List.mem_cons, List.not_mem_nil, or_false] at hmark hsign
      rcases hmark with rfl | rfl <;> rcases hsign with rfl | rfl | rfl <;> exact hdigits

theorem IsNumber.isNumeral {cs : List Char} (h : IsNumber cs) : cs.all isNumeral = true := by
  rcases h with h | ⟨ds, h, rfl⟩
  · exact h.isNumeral
  · exact h.isNumeral

theorem shows_number {cs : List Char} (h : IsNumber cs) : Shows false cs :=
  shows_of_all (List.all_eq_true.mpr fun c hc =>
    isQuiet_of_isNumeral (List.all_eq_true.mp h.isNumeral c hc))

/-- No text of the grammar shows a mark. -/
theorem shows_of_derives {s : Symbol} {cs : List Char} (h : Derives s cs) : Shows false cs := by
  induction h with
  | text hbefore _ hafter ih =>
    exact ((shows_blank hbefore).append ih).append (shows_blank hafter)
  | null | «true» | «false» => exact shows_of_all rfl
  | number h => exact shows_number h
  | string h => exact shows_literal h
  | emptyArray h => exact (shows_blank h).brackets
  | array _ ih => exact ih.brackets
  | emptyObject h => exact (shows_blank h).braces
  | object _ ih => exact ih.braces
  | lastItem _ ih | lastMember _ ih => exact ih
  | item _ _ ih ihs | moreMembers _ _ ih ihs => exact ih.append (shows_comma.append ihs)
  | member hbefore hname hafter _ ih =>
    exact (((shows_blank hbefore).append (shows_literal hname)).append
      (shows_blank hafter)).append (shows_colon.append ih)

theorem shows_floatLiteral (x : Binary64) : Shows (!x.isFinite) (floatLiteral x) := by
  cases h : x.isFinite with
  | true => exact shows_number (isNumber_floatLiteral h)
  | false =>
    rcases x with _ | ⟨_ | _⟩ | _
    · cases h
    · exact ⟨"Infinity".toList, fun _ => rfl, rfl⟩
    · exact ⟨"-Infinity".toList, fun _ => rfl, rfl⟩
    · exact ⟨"NaN".toList, fun _ => rfl, rfl⟩

theorem shows_name (name : JoinedText) {b : Bool} {cs : List Char} (h : Shows b cs) :
    Shows b (literal name.points ++ ':' :: cs) := by
  simpa [literal] using
    (shows_literal (areCharacters_flatMap_escape name.points)).append (shows_colon.append h)

mutual

/-- The text of a document shows a mark exactly if a number of it is not finite. -/
theorem shows_print : (j : Json) → Shows (!j.isFinite) (print j)
  | null | bool true | bool false => shows_of_all rfl
  | int n => shows_number (isNumber_ofInt n)
  | float x => shows_floatLiteral x
  | string t => shows_literal (areCharacters_flatMap_escape t.points)
  | array items => (shows_printItems items).brackets
  | object members => (shows_printMembers members).braces

theorem shows_printItems : (items : List Json) → Shows (!itemsAreFinite items) (printItems items)
  | [] => shows_of_all rfl
  | [item] => by simpa [itemsAreFinite, printItems] using shows_print item
  | item :: next :: items => by
    rw [itemsAreFinite, Bool.not_and]
    exact (shows_print item).append (shows_comma.append (shows_printItems (next :: items)))

theorem shows_printMembers : (members : List (JoinedText × Json)) →
    Shows (!membersAreFinite members) (printMembers members)
  | [] => shows_of_all rfl
  | [(name, value)] => by
    simpa [membersAreFinite, printMembers] using shows_name name (shows_print value)
  | (name, value) :: next :: members => by
    rw [membersAreFinite, Bool.not_and]
    exact (shows_name name (shows_print value)).append
      (shows_comma.append (shows_printMembers (next :: members)))

end

/-- The compact text of a document is standard JSON exactly if all of its numbers are finite. -/
theorem isStandard_compact_iff (j : Json) : IsStandard j.compact ↔ j.isFinite = true := by
  rw [IsStandard, compact, String.toList_ofList]
  refine ⟨fun h => ?_, fun h => (derives_print j h).text_of_value⟩
  have hmark : (!j.isFinite) = false := (shows_print j).unique (shows_of_derives h)
  simpa using hmark

end Json

end PropValidators
