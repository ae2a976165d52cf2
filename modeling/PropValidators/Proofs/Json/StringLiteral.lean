import Mathlib.Tactic
import PropValidators.Json.Printer
import PropValidators.Json.Reader
import PropValidators.Proofs.Number.Digits
/-!
String literals as a grammar of pieces. They are read as these up to the closing quote, and nothing
else is. Every text has a literal, in which some code points are escaped, also as two code units,
and none ends the literal early.
-/
namespace PropValidators.Json

/-! ### Pieces -/

/-- A piece of a string literal as it may be written: a character as it is or by a letter, or a code
unit by its number. -/
inductive SpellsPiece : Piece → List Char → Prop
  | plain {c : Char} : 0x20 ≤ c.toNat → c ≠ '"' → c ≠ '\\' → SpellsPiece (.char c) [c]
  | letter {letter c : Char} : unescaped? letter = some c →
    SpellsPiece (.char c) ['\\', letter]
  | unit {digits : List Char} {code : Nat} : digits.length = 4 →
    Digits.hexNumber? digits = some code → SpellsPiece (.unit code) ('\\' :: 'u' :: digits)

inductive SpellsPieces : List Piece → List Char → Prop
  | nil : SpellsPieces [] []
  | cons {p : Piece} {ps : List Piece} {cs ds : List Char} : SpellsPiece p cs →
    SpellsPieces ps ds → SpellsPieces (p :: ps) (cs ++ ds)

/-- What stands between the quotes of a literal for a text. -/
def SpellsText (t : JoinedText) (cs : List Char) : Prop :=
  ∃ ps, SpellsPieces ps cs ∧ joined ps = t.points

theorem SpellsPieces.single {p : Piece} {cs : List Char} (h : SpellsPiece p cs) :
    SpellsPieces [p] cs := by
  simpa using SpellsPieces.cons h .nil

theorem SpellsPieces.append {ps qs : List Piece} {cs ds : List Char} (hcs : SpellsPieces ps cs)
    (hds : SpellsPieces qs ds) : SpellsPieces (ps ++ qs) (cs ++ ds) := by
  induction hcs with
  | nil => exact hds
  | cons hpiece _ ih =>
    rw [List.append_assoc]
    exact .cons hpiece ih

/-! ### Reading -/

/-- A piece is read where another character stands after it. -/
theorem SpellsPiece.read {p : Piece} {cs : List Char} (h : SpellsPiece p cs) (start : List Char)
    (e : Char) (rest : List Char) : pieces start (cs ++ e :: rest) =
      (pieces start (e :: rest)).map fun r => (p :: r.1, r.2) := by
  cases h with
  | plain hc hquote hbackslash =>
    rw [List.singleton_append, pieces]
    · exact if_neg (by omega)
    all_goals
      intros
      simp_all
  | @letter letter c hletter =>
    have hu : letter ≠ 'u' := by
      rintro rfl
      cases hletter
    rw [List.cons_append, List.singleton_append, pieces, hletter]
    · exact fun _ _ _ _ _ _ heq => absurd heq hu
    · exact fun heq => absurd heq hu
  | unit hlength hcode =>
    obtain ⟨d₁, d₂, d₃, d₄, rfl⟩ := List.length_eq_four.mp hlength
    simp only [List.cons_append, List.nil_append]
    rw [pieces, hcode]

theorem SpellsPieces.read {ps : List Piece} {cs : List Char} (h : SpellsPieces ps cs)
    (start rest : List Char) : pieces start (cs ++ '"' :: rest) = .ok (ps, rest) := by
  induction h with
  | nil => rw [List.nil_append, pieces]
  | @cons _ _ _ ds hpiece _ ih =>
    -- A piece is read up to the next character, and the closing quote is always one.
    obtain ⟨e, after, hafter⟩ : ∃ e after, ds ++ '"' :: rest = e :: after :=
      List.exists_cons_of_ne_nil (by simp)
    rw [List.append_assoc, hafter, hpiece.read, ← hafter, ih]
    rfl

theorem SpellsText.read {t : JoinedText} {cs : List Char} (h : SpellsText t cs)
    (start rest : List Char) : readText start (cs ++ '"' :: rest) = .ok (t, rest) := by
  obtain ⟨ps, hspells, hjoined⟩ := h
  have ht : (⟨joined ps, isJoined_joined ps⟩ : JoinedText) = t := JoinedText.points_inj.mp hjoined
  rw [readText, hspells.read]
  exact congrArg (fun t => Except.ok (t, rest)) ht

/-- A piece and what is read after it are read together. -/
theorem SpellsPiece.cons_found {p : Piece} {cs more rest : List Char} {ps : List Piece}
    {found : Except Refusal (List Piece × List Char)} (hpiece : SpellsPiece p cs)
    (hmore : ∀ {qs}, found = .ok (qs, rest) →
      ∃ body, SpellsPieces qs body ∧ more = body ++ '"' :: rest)
    (h : (found.map fun (qs, rest) => (p :: qs, rest)) = .ok (ps, rest)) :
    ∃ body, SpellsPieces ps body ∧ cs ++ more = body ++ '"' :: rest := by
  cases found with
  | error e => cases h
  | ok r =>
    cases h
    obtain ⟨body, hspells, rfl⟩ := hmore rfl
    exact ⟨cs ++ body, .cons hpiece hspells, (List.append_assoc ..).symm⟩

/-- What is read up to the closing quote is pieces. -/
theorem spellsPieces_of_pieces {start cs rest : List Char} {ps : List Piece}
    (h : pieces start cs = .ok (ps, rest)) :
    ∃ body, SpellsPieces ps body ∧ cs = body ++ '"' :: rest := by
  fun_induction pieces start cs generalizing ps with
  | case1 | case3 | case5 | case6 | case8 | case9 => cases h
  | case2 =>
    cases h
    exact ⟨[], .nil, rfl⟩
  | case4 a b c d e more code hcode ih => exact (SpellsPiece.unit rfl hcode).cons_found ih h
  | case7 letter more _ _ c hletter ih => exact (SpellsPiece.letter hletter).cons_found ih h
  | case10 c more hquote _ _ _ _ hlow ih =>
    have hbackslash : c ≠ '\\' := by
      rintro rfl
      cases more <;> simp_all
    exact (SpellsPiece.plain (by omega) hquote hbackslash).cons_found ih h

theorem spellsText_of_readText {start cs rest : List Char} {t : JoinedText}
    (h : readText start cs = .ok (t, rest)) :
    ∃ body, SpellsText t body ∧ cs = body ++ '"' :: rest := by
  unfold readText at h
  cases hpieces : pieces start cs with
  | error e =>
    rw [hpieces] at h
    cases h
  | ok found =>
    rw [hpieces] at h
    cases h
    obtain ⟨body, hspells, hbody⟩ := spellsPieces_of_pieces hpieces
    exact ⟨body, ⟨_, hspells, rfl⟩, hbody⟩

/-! ### Characters -/

theorem toNat_lt (c : Char) : c.toNat < 0x110000 := by
  have := c.valid
  simp only [UInt32.isValidChar, Nat.isValidChar] at this
  change c.val.toNat < _
  omega

theorem toNat_not_surrogate (c : Char) : ¬(0xD800 ≤ c.toNat ∧ c.toNat < 0xE000) := by
  have := c.valid
  simp only [UInt32.isValidChar, Nat.isValidChar] at this
  change ¬(0xD800 ≤ c.val.toNat ∧ c.val.toNat < 0xE000)
  omega

theorem ofNat_toNat (p : CodePoint) : CodePoint.ofNat p.toNat = p := by
  cases p with
  | char c =>
    rw [CodePoint.ofNat, CodePoint.toNat, dif_neg (toNat_not_surrogate c), Char.ofNat_toNat]
  | surrogate half =>
    have hhalf := half.isLt
    rw [CodePoint.ofNat, CodePoint.toNat, dif_pos (by omega)]
    simp

theorem ofPair?_toNat {c : Char} (h : 0x10000 ≤ c.toNat) :
    ofPair? (0xD800 + (c.toNat - 0x10000) / 0x400) (0xDC00 + (c.toNat - 0x10000) % 0x400) =
      some c := by
  have hlt := toNat_lt c
  rw [ofPair?, if_pos (by omega), Option.some.injEq]
  convert Char.ofNat_toNat c using 2
  omega

/-- A low code unit is joined with none after it. -/
theorem head?_joined_of_low {low : Nat} (hlow : 0xDC00 ≤ low) (more : List Piece) :
    (joined (.unit low :: more)).head? = some (.ofNat low) := by
  cases more with
  | nil => simp [joined]
  | cons piece more =>
    cases piece with
    | char c => simp [joined]
    | unit next =>
      have hnone : ofPair? low next = none := by
        rw [ofPair?, if_neg]
        omega
      rw [joined, hnone]
      rfl

/-- Only the halves of a surrogate pair are joined. -/
theorem halves_of_ofPair? {p : CodePoint} {low : Nat} {c : Char}
    (h : ofPair? p.toNat low = some c) :
    0xDC00 ≤ low ∧ p.isHigh = true ∧ (CodePoint.ofNat low).isLow = true := by
  unfold ofPair? at h
  split at h
  · next hrange =>
    refine ⟨hrange.2.2.1, ?_, ?_⟩
    · cases p with
      | char c =>
        have hc := toNat_not_surrogate c
        simp only [CodePoint.toNat] at hrange
        omega
      | surrogate half =>
        simp only [CodePoint.toNat] at hrange
        simp only [CodePoint.isHigh, decide_eq_true_eq, Fin.lt_def]
        omega
    · rw [CodePoint.ofNat, dif_pos (by omega)]
      simp only [CodePoint.isLow, decide_eq_true_eq, Fin.le_def]
      omega
  · cases h

/-- A code point that is written as a code unit is joined with none after it, unless the two would
be a pair. -/
theorem joined_unit_toNat {p : CodePoint} {more : List Piece}
    (h : Text.isJoined (p :: joined more) = true) :
    joined (.unit p.toNat :: more) = p :: joined more := by
  cases more with
  | nil => simp [joined, ofNat_toNat]
  | cons piece more =>
    cases piece with
    | char d => simp [joined, ofNat_toNat]
    | unit low =>
      cases hpair : ofPair? p.toNat low with
      | none => rw [joined, hpair, ofNat_toNat]
      | some c =>
        obtain ⟨hlow, hp, hq⟩ := halves_of_ofPair? hpair
        obtain ⟨rest, hrest⟩ := List.head?_eq_some_iff.mp (head?_joined_of_low hlow more)
        rw [hrest, Text.isJoined, hp, hq] at h
        cases h

/-- Pieces that stand for a code point: its escape is written with them, and joined they are it. -/
structure StandsFor (ps : List Piece) (p : CodePoint) : Prop where
  spells : SpellsPieces ps (escape p)
  joined : ∀ more, Text.isJoined (p :: joined more) = true →
    joined (ps ++ more) = p :: joined more

theorem spellsPiece_escapeUnit {n : Nat} (h : n < 0x10000) : SpellsPiece (.unit n) (escapeUnit n) :=
  .unit rfl (Digits.hexNumber?_hex h)

theorem standsFor_char {c : Char} {cs : List Char} (h : SpellsPiece (.char c) cs)
    (he : escape (.char c) = cs) : StandsFor [.char c] (.char c) where
  spells := he ▸ .single h
  joined more _ := by simp [Json.joined]

theorem standsFor_unit {p : CodePoint} (hp : p.toNat < 0x10000)
    (he : escape p = escapeUnit p.toNat) : StandsFor [.unit p.toNat] p where
  spells := he ▸ .single (spellsPiece_escapeUnit hp)
  joined _ h := joined_unit_toNat h

theorem standsFor_pair {c : Char} {high low : Nat} (hhigh : high < 0x10000) (hlow : low < 0x10000)
    (hpair : ofPair? high low = some c)
    (he : escape (.char c) = escapeUnit high ++ escapeUnit low) :
    StandsFor [.unit high, .unit low] (.char c) where
  spells := he ▸ .cons (spellsPiece_escapeUnit hhigh) (.single (spellsPiece_escapeUnit hlow))
  joined more _ := by simp [Json.joined, hpair]

/-- Every character has pieces that stand for it, whichever way it is escaped. -/
theorem exists_standsFor_char (c : Char) : ∃ ps, StandsFor ps (.char c) := by
  by_cases h1 : c = '"'
  · subst h1
    exact ⟨_, standsFor_char (.letter rfl) rfl⟩
  by_cases h2 : c = '\\'
  · subst h2
    exact ⟨_, standsFor_char (.letter rfl) rfl⟩
  by_cases h3 : c = '\n'
  · subst h3
    exact ⟨_, standsFor_char (.letter rfl) rfl⟩
  by_cases h4 : c = '\r'
  · subst h4
    exact ⟨_, standsFor_char (.letter rfl) rfl⟩
  by_cases h5 : c = '\t'
  · subst h5
    exact ⟨_, standsFor_char (.letter rfl) rfl⟩
  by_cases h6 : c = '\x08'
  · subst h6
    exact ⟨_, standsFor_char (.letter rfl) rfl⟩
  by_cases h7 : c = '\x0c'
  · subst h7
    exact ⟨_, standsFor_char (.letter rfl) rfl⟩
  by_cases h8 : 0x20 ≤ c.toNat ∧ c.toNat ≤ 0x7E
  · have he : escape (.char c) = [c] := by
      simp only [escape, h1, h2, h3, h4, h5, h6, h7, h8, and_self, if_true, if_false]
    exact ⟨_, standsFor_char (.plain h8.1 h1 h2) he⟩
  by_cases h9 : c.toNat < 0x10000
  · have he : escape (.char c) = escapeUnit c.toNat := by
      simp only [escape, h1, h2, h3, h4, h5, h6, h7, h8, h9, if_true, if_false]
    exact ⟨_, standsFor_unit h9 he⟩
  · have hlt := toNat_lt c
    have he : escape (.char c) = escapeUnit (0xD800 + (c.toNat - 0x10000) / 0x400) ++
        escapeUnit (0xDC00 + (c.toNat - 0x10000) % 0x400) := by
      simp only [escape, h1, h2, h3, h4, h5, h6, h7, h8, h9, if_false]
    exact ⟨_, standsFor_pair (by omega) (by omega) (ofPair?_toNat (Nat.le_of_not_lt h9)) he⟩

theorem exists_standsFor (p : CodePoint) : ∃ ps, StandsFor ps p := by
  cases p with
  | char c => exact exists_standsFor_char c
  | surrogate half =>
    have hlt : 0xD800 + half.val < 0x10000 := by omega
    exact ⟨_, standsFor_unit hlt rfl⟩

theorem exists_spellsPieces {t : Text} (h : t.isJoined = true) :
    ∃ ps, SpellsPieces ps (t.flatMap escape) ∧ joined ps = t := by
  induction t with
  | nil => exact ⟨[], .nil, rfl⟩
  | cons p t ih =>
    obtain ⟨ps, hspells, hjoined⟩ := ih (Text.isJoined_of_cons h)
    obtain ⟨qs, hqs⟩ := exists_standsFor p
    refine ⟨qs ++ ps, hqs.spells.append hspells, ?_⟩
    rw [hqs.joined ps (hjoined.symm ▸ h), hjoined]

/-- A text is spelled by the escapes of its code points. -/
theorem spellsText_escape (t : JoinedText) : SpellsText t (t.points.flatMap escape) :=
  exists_spellsPieces t.joined

end PropValidators.Json
