import PropValidators.Proofs.Json.Standard
/-!
The string literals of a compact text, found by nothing but quotes and backslashes: they are those
of the names and strings of the document, in order, and no blank stands outside of them.
-/
namespace PropValidators.Json

/-! ### Literals of a text and strings of a document -/

/-- The contents of the string literals of a text, which starts within one if its contents so far
are given. A backslash keeps the character after it from closing the literal. -/
def literals : (within : Option (List Char)) → List Char → List (List Char)
  | _, [] => []
  | none, '"' :: cs => literals (some []) cs
  | none, _ :: cs => literals none cs
  | some contents, '"' :: cs => contents :: literals none cs
  | some contents, '\\' :: c :: cs => literals (some (contents ++ ['\\', c])) cs
  | some contents, c :: cs => literals (some (contents ++ [c])) cs

/-- The text that the contents of a literal stand for, if they are those of a literal. -/
def contentsText? (contents : List Char) : Option JoinedText :=
  match readText [] (contents ++ ['"']) with
  | .ok (t, []) => some t
  | _ => none

mutual

/-- The names of members and the strings of a document, in the order of its text. -/
def strings : Json → List JoinedText
  | string t => [t]
  | array items => stringsOfItems items
  | object members => stringsOfMembers members
  | _ => []

def stringsOfItems : List Json → List JoinedText
  | [] => []
  | item :: items => strings item ++ stringsOfItems items

def stringsOfMembers : List (JoinedText × Json) → List JoinedText
  | [] => []
  | (name, value) :: members => name :: (strings value ++ stringsOfMembers members)

end

theorem SpellsText.contentsText? {t : JoinedText} {contents : List Char}
    (h : SpellsText t contents) :
    contentsText? contents = some t := by
  rw [Json.contentsText?, h.read]

/-! ### Scanning -/

theorem literals_outside {cs : List Char} (h : ∀ c ∈ cs, c ≠ '"') (rest : List Char) :
    literals none (cs ++ rest) = literals none rest := by
  induction cs with
  | nil => rfl
  | cons c cs ih =>
    rw [List.forall_mem_cons] at h
    rw [List.cons_append, literals, ih h.2]
    exact h.1

theorem literals_within {cs : List Char} (h : ∀ c ∈ cs, c ≠ '"' ∧ c ≠ '\\')
    (contents rest : List Char) :
    literals (some contents) (cs ++ rest) = literals (some (contents ++ cs)) rest := by
  induction cs generalizing contents with
  | nil => rw [List.nil_append, List.append_nil]
  | cons c cs ih =>
    rw [List.forall_mem_cons] at h
    rw [List.cons_append, literals, ih h.2, List.append_assoc, List.singleton_append]
    · exact h.1.1
    · exact fun _ _ hc => absurd hc h.1.2

/-- A character of a string literal, escaped or not, does not close it. -/
theorem literals_character {cs : List Char} (h : IsCharacter cs) (contents rest : List Char) :
    literals (some contents) (cs ++ rest) = literals (some (contents ++ cs)) rest := by
  cases h with
  | plain _ hquote hbackslash => exact literals_within (by simp [hquote, hbackslash]) contents rest
  | letter _ => rw [List.cons_append, List.singleton_append, literals]
  | @unit digits _ hdigits =>
    have hmore := literals_within (fun d hd => (hdigits d hd).ne) (contents ++ ['\\', 'u']) rest
    rw [List.cons_append, List.cons_append, literals, hmore, List.append_assoc]
    rfl

theorem literals_characters {cs : List Char} (h : AreCharacters cs) (contents rest : List Char) :
    literals (some contents) (cs ++ '"' :: rest) = (contents ++ cs) :: literals none rest := by
  induction h generalizing contents with
  | nil => rw [List.nil_append, literals, List.append_nil]
  | cons hc _ ih => rw [List.append_assoc, literals_character hc, ih, List.append_assoc]

/-! ### Parts of a compact text -/

/-- A part of a text that starts and ends outside of literals: what stands outside has no blank, and
the literals stand for the given texts, in order. -/
def Splits (texts : List JoinedText) (cs : List Char) : Prop :=
  ∃ shown contents, (∀ c ∈ shown, isBlank c = false) ∧
    contents.map contentsText? = texts.map some ∧
    ∀ rest, unquoted false (cs ++ rest) = shown ++ unquoted false rest ∧
      literals none (cs ++ rest) = contents ++ literals none rest

theorem Splits.append {ts us : List JoinedText} {cs ds : List Char} (hcs : Splits ts cs)
    (hds : Splits us ds) : Splits (ts ++ us) (cs ++ ds) := by
  obtain ⟨shown, contents, hblank, htexts, hscan⟩ := hcs
  obtain ⟨shown', contents', hblank', htexts', hscan'⟩ := hds
  refine ⟨shown ++ shown', contents ++ contents', ?_, ?_, fun rest => ?_⟩
  · exact List.forall_mem_append.mpr ⟨hblank, hblank'⟩
  · rw [List.map_append, List.map_append, htexts, htexts']
  · obtain ⟨hunquoted, hliterals⟩ := hscan (ds ++ rest)
    obtain ⟨hunquoted', hliterals'⟩ := hscan' rest
    rw [List.append_assoc, hunquoted, hunquoted', hliterals, hliterals', List.append_assoc,
      List.append_assoc]
    exact ⟨rfl, rfl⟩

/-- Whether a character neither starts a literal nor is a blank. -/
def isBare (c : Char) : Bool := c != '"' && !isBlank c

theorem splits_of_all {cs : List Char} (h : cs.all isBare = true) : Splits [] cs := by
  have hall := List.all_eq_true.mp h
  simp only [isBare, Bool.and_eq_true, bne_iff_ne, Bool.not_eq_true'] at hall
  have hquote : ∀ c ∈ cs, c ≠ '"' := fun c hc => (hall c hc).1
  exact ⟨cs, [], fun c hc => (hall c hc).2, rfl,
    fun rest => ⟨unquoted_append hquote rest, literals_outside hquote rest⟩⟩

theorem splits_comma : Splits [] [','] := splits_of_all rfl

theorem splits_colon : Splits [] [':'] := splits_of_all rfl

theorem Splits.brackets {ts : List JoinedText} {cs : List Char} (h : Splits ts cs) :
    Splits ts ('[' :: cs ++ [']']) := by
  have hopen : Splits [] ['['] := splits_of_all rfl
  have hclose : Splits [] [']'] := splits_of_all rfl
  simpa using (hopen.append h).append hclose

theorem Splits.braces {ts : List JoinedText} {cs : List Char} (h : Splits ts cs) :
    Splits ts ('{' :: cs ++ ['}']) := by
  have hopen : Splits [] ['{'] := splits_of_all rfl
  have hclose : Splits [] ['}'] := splits_of_all rfl
  simpa using (hopen.append h).append hclose

theorem splits_literal (t : JoinedText) : Splits [t] (literal t.points) := by
  have hcharacters := areCharacters_flatMap_escape t.points
  have htext : [t.points.flatMap escape].map contentsText? = [t].map some := by
    rw [List.map_singleton, (spellsText_escape t).contentsText?, List.map_singleton]
  refine ⟨[], [t.points.flatMap escape], by simp, htext, fun rest => ?_⟩
  refine ⟨unquoted_literal hcharacters rest, ?_⟩
  simpa [literal, literals] using literals_characters hcharacters [] rest

/-! ### Documents -/

theorem isBare_of_isNumeral {c : Char} (h : isNumeral c = true) : isBare c = true := by
  by_contra hc
  simp only [isBare, isBlank, Bool.and_eq_true, bne_iff_ne, Bool.not_eq_true', Bool.or_eq_false_iff,
    decide_eq_false_iff_not, not_and_or, not_not] at hc
  rcases hc with rfl | ((rfl | rfl) | rfl) | rfl <;> cases h

theorem splits_number {cs : List Char} (h : IsNumber cs) : Splits [] cs :=
  splits_of_all (List.all_eq_true.mpr fun c hc =>
    isBare_of_isNumeral (List.all_eq_true.mp h.isNumeral c hc))

theorem splits_floatLiteral (x : Binary64) : Splits [] (floatLiteral x) := by
  cases h : x.isFinite with
  | true => exact splits_number (isNumber_floatLiteral h)
  | false =>
    rcases x with _ | ⟨_ | _⟩ | _
    · cases h
    all_goals exact splits_of_all rfl

theorem splits_member (name : JoinedText) {texts : List JoinedText} {cs : List Char}
    (h : Splits texts cs) : Splits (name :: texts) (literal name.points ++ ':' :: cs) :=
  (splits_literal name).append (splits_colon.append h)

mutual

/-- The text of a document splits into its strings and what stands between them. -/
theorem splits_print : (j : Json) → Splits j.strings (print j)
  | null | bool true | bool false => splits_of_all rfl
  | int n => splits_number (isNumber_ofInt n)
  | float x => splits_floatLiteral x
  | string t => splits_literal t
  | array items => (splits_printItems items).brackets
  | object members => (splits_printMembers members).braces

theorem splits_printItems : (items : List Json) → Splits (stringsOfItems items) (printItems items)
  | [] => splits_of_all rfl
  | [item] => by simpa [stringsOfItems, printItems] using splits_print item
  | item :: next :: items =>
    (splits_print item).append (splits_comma.append (splits_printItems (next :: items)))

theorem splits_printMembers : (members : List (JoinedText × Json)) →
    Splits (stringsOfMembers members) (printMembers members)
  | [] => splits_of_all rfl
  | [(name, value)] => by
    simpa [stringsOfMembers, printMembers] using splits_member name (splits_print value)
  | (name, value) :: next :: members =>
    (splits_member name (splits_print value)).append
      (splits_comma.append (splits_printMembers (next :: members)))

end

/-- Outside of the literals of a compact text there is no blank, and the literals stand for the
names and strings of the document. -/
theorem literals_compact (j : Json) :
    (∀ c ∈ unquoted false j.compact.toList, isBlank c = false) ∧
      (literals none j.compact.toList).map contentsText? = j.strings.map some := by
  obtain ⟨shown, contents, hblank, htexts, hscan⟩ := splits_print j
  obtain ⟨hunquoted, hliterals⟩ := hscan []
  rw [List.append_nil] at hunquoted hliterals
  rw [compact, String.toList_ofList, hunquoted, hliterals]
  simp only [unquoted, literals, List.append_nil]
  exact ⟨hblank, htexts⟩

/-- A quote, a line break and a character above U+FFFF stand in one literal. -/
example : literals none (print (.array [.ofString "\"\n😀", .ofString "]"])) =
    ["\\\"\\n\\ud83d\\ude00".toList, "]".toList] := by
  cbv

end PropValidators.Json
