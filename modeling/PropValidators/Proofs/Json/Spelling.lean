import PropValidators.Proofs.Json.Numeral
import PropValidators.Proofs.Json.StringLiteral
/-!
JSON as a grammar that says which document each text spells, and that reading finds exactly this
one, unless it does not keep the limits. Besides standard JSON there are words for numbers that are
not finite.
-/
namespace PropValidators.Json

/-! ### The grammar -/

def AreBlank (cs : List Char) : Prop := ∀ c ∈ cs, c ∈ [' ', '\t', '\n', '\r']

/-- What is spelled by a part of a text. A text is a value with blanks around it. -/
inductive Phrase where
  | text (document : Json)
  | value (document : Json)
  | items (items : List Json)
  | member (name : JoinedText) (value : Json)
  | members (members : List (JoinedText × Json))

inductive Spells : Phrase → List Char → Prop
  | text {j : Json} {before cs after : List Char} : AreBlank before → Spells (.value j) cs →
    AreBlank after → Spells (.text j) (before ++ (cs ++ after))
  | null : Spells (.value .null) ['n', 'u', 'l', 'l']
  | true : Spells (.value (.bool true)) ['t', 'r', 'u', 'e']
  | false : Spells (.value (.bool false)) ['f', 'a', 'l', 's', 'e']
  | notNumber : Spells (.value (.float .nan)) ['N', 'a', 'N']
  | infinite : Spells (.value (.float (.infinite false))) ['I', 'n', 'f', 'i', 'n', 'i', 't', 'y']
  | negativeInfinite :
    Spells (.value (.float (.infinite true))) ['-', 'I', 'n', 'f', 'i', 'n', 'i', 't', 'y']
  | number {j : Json} {cs : List Char} : SpellsUnsigned false j cs → Spells (.value j) cs
  | negative {j : Json} {cs : List Char} : SpellsUnsigned true j cs → Spells (.value j) ('-' :: cs)
  | string {t : JoinedText} {cs : List Char} : SpellsText t cs →
    Spells (.value (.string t)) ('"' :: (cs ++ ['"']))
  | emptyArray {blanks : List Char} : AreBlank blanks →
    Spells (.value (.array [])) ('[' :: (blanks ++ [']']))
  | array {items : List Json} {cs : List Char} : Spells (.items items) cs →
    Spells (.value (.array items)) ('[' :: (cs ++ [']']))
  | emptyObject {blanks : List Char} : AreBlank blanks →
    Spells (.value (.object [])) ('{' :: (blanks ++ ['}']))
  | object {members : List (JoinedText × Json)} {cs : List Char} : Spells (.members members) cs →
    Spells (.value (.object members)) ('{' :: (cs ++ ['}']))
  | lastItem {j : Json} {cs : List Char} : Spells (.text j) cs → Spells (.items [j]) cs
  | item {j : Json} {items : List Json} {cs ds : List Char} : Spells (.text j) cs →
    Spells (.items items) ds → Spells (.items (j :: items)) (cs ++ ',' :: ds)
  | member {name : JoinedText} {j : Json} {before cs after ds : List Char} : AreBlank before →
    SpellsText name cs → AreBlank after → Spells (.text j) ds →
    Spells (.member name j) (before ++ '"' :: (cs ++ '"' :: (after ++ ':' :: ds)))
  | lastMember {name : JoinedText} {j : Json} {cs : List Char} : Spells (.member name j) cs →
    Spells (.members [(name, j)]) cs
  | moreMembers {name : JoinedText} {j : Json} {members : List (JoinedText × Json)}
      {cs ds : List Char} :
    Spells (.member name j) cs → Spells (.members members) ds →
    Spells (.members ((name, j) :: members)) (cs ++ ',' :: ds)

/-! ### Blanks -/

theorem areBlank_nil : AreBlank [] := fun _ hc => absurd hc List.not_mem_nil

theorem isBlank_of_mem {c : Char} (h : c ∈ [' ', '\t', '\n', '\r']) : isBlank c = true := by
  simp only [List.mem_cons, List.not_mem_nil, or_false] at h
  rcases h with rfl | rfl | rfl | rfl <;> rfl

theorem skipBlanks_cons {c : Char} (rest : List Char) (h : isBlank c = false) :
    skipBlanks (c :: rest) = c :: rest := by
  simp [skipBlanks, h]

theorem skipBlanks_append {blanks : List Char} (h : AreBlank blanks) (rest : List Char) :
    skipBlanks (blanks ++ rest) = skipBlanks rest :=
  List.dropWhile_append_of_pos fun c hc => isBlank_of_mem (h c hc)

theorem exists_areBlank_skipBlanks (cs : List Char) :
    ∃ blanks, AreBlank blanks ∧ cs = blanks ++ skipBlanks cs := by
  refine ⟨cs.takeWhile isBlank, fun c hc => ?_, List.takeWhile_append_dropWhile.symm⟩
  have hblank := List.mem_takeWhile_imp hc
  simpa [isBlank, or_assoc] using hblank

/-! ### What is read is spelled -/

theorem admitted_eq_ok {α : Type} {overrun : Option Overrun} {a b : α} :
    admitted overrun a = .ok b ↔ overrun = none ∧ a = b := by
  cases overrun <;> simp [admitted]

theorem spells_of_readPlain {limits : Limits} {level : Nat} {cs rest : List Char} {j : Json}
    (h : readPlain limits level cs = .ok (j, rest)) :
    ∃ value, Spells (.value j) value ∧ cs = value ++ rest := by
  unfold readPlain at h
  split at h
  case h_1 => cases h; exact ⟨_, .null, rfl⟩
  case h_2 => cases h; exact ⟨_, .true, rfl⟩
  case h_3 => cases h; exact ⟨_, .false, rfl⟩
  case h_4 => cases h; exact ⟨_, .notNumber, rfl⟩
  case h_5 => cases h; exact ⟨_, .infinite, rfl⟩
  case h_6 => cases h; exact ⟨_, .negativeInfinite, rfl⟩
  case h_7 =>
    split at h
    · next found hfound =>
      obtain ⟨-, rfl⟩ := admitted_eq_ok.mp h
      obtain ⟨number, hnumber, rfl⟩ := spellsUnsigned_of_unsigned? hfound
      exact ⟨_, .negative hnumber, rfl⟩
    · cases h
  case h_8 =>
    split at h
    · next found hfound =>
      obtain ⟨-, rfl⟩ := admitted_eq_ok.mp h
      obtain ⟨number, hnumber, rfl⟩ := spellsUnsigned_of_unsigned? hfound
      exact ⟨_, .number hnumber, rfl⟩
    · cases h

/-- With as much fuel, whatever is read is spelled by what is left out of the rest. Blanks may stand
before items and members, as they are skipped before reading. -/
structure FindsSpelled (limits : Limits) (fuel : Nat) : Prop where
  value {level : Nat} {cs rest : List Char} {j : Json} :
    readValue limits level fuel cs = .ok (j, rest) →
    ∃ value, Spells (.value j) value ∧ cs = value ++ rest
  items {level : Nat} {cs rest : List Char} {items : List Json} :
    readItems limits level fuel cs = .ok (items, rest) →
    ∃ body, (∀ before, AreBlank before → Spells (.items items) (before ++ body)) ∧
      cs = body ++ ']' :: rest
  members {level : Nat} {cs rest : List Char} {members : List (JoinedText × Json)} :
    readMembers limits level fuel cs = .ok (members, rest) →
    ∃ body, (∀ before, AreBlank before → Spells (.members members) (before ++ body)) ∧
      cs = body ++ '}' :: rest

theorem findsSpelled_zero (limits : Limits) : FindsSpelled limits 0 where
  value h := by cases h
  items h := by cases h
  members h := by cases h

theorem exists_of_bind_ok {α β : Type} {x : Except Refusal α} {f : α → Except Refusal β} {b : β}
    (h : x >>= f = .ok b) : ∃ a, x = .ok a ∧ f a = .ok b := by
  cases x with
  | error e => cases h
  | ok a => exact ⟨a, rfl, h⟩

namespace FindsSpelled

variable {limits : Limits} {level fuel : Nat} {cs rest : List Char}

theorem value_succ (hfuel : FindsSpelled limits fuel) {j : Json}
    (h : readValue limits level (fuel + 1) cs = .ok (j, rest)) :
    ∃ value, Spells (.value j) value ∧ cs = value ++ rest := by
  unfold readValue at h
  split at h
  · obtain ⟨found, htext, hfound⟩ := exists_of_bind_ok h
    cases hfound
    obtain ⟨body, hspells, rfl⟩ := spellsText_of_readText htext
    exact ⟨_, .string hspells, by simp⟩
  · next inner =>
    obtain ⟨blanks, hblanks, hinner⟩ := exists_areBlank_skipBlanks inner
    split at h
    case isFalse => cases h
    split at h
    · next hskip =>
      cases h
      exact ⟨_, .emptyArray hblanks, by rw [hinner, hskip]; simp⟩
    · obtain ⟨found, hitems, hfound⟩ := exists_of_bind_ok h
      cases hfound
      obtain ⟨body, hspells, hbody⟩ := hfuel.items hitems
      exact ⟨_, .array (hspells blanks hblanks), by rw [hinner, hbody]; simp⟩
  · next inner =>
    obtain ⟨blanks, hblanks, hinner⟩ := exists_areBlank_skipBlanks inner
    split at h
    case isFalse => cases h
    split at h
    · next hskip =>
      cases h
      exact ⟨_, .emptyObject hblanks, by rw [hinner, hskip]; simp⟩
    · obtain ⟨found, hmembers, hfound⟩ := exists_of_bind_ok h
      cases hfound
      obtain ⟨body, hspells, hbody⟩ := hfuel.members hmembers
      exact ⟨_, .object (hspells blanks hblanks), by rw [hinner, hbody]; simp⟩
  · exact spells_of_readPlain h

theorem items_succ (hfuel : FindsSpelled limits fuel) {items : List Json}
    (h : readItems limits level (fuel + 1) cs = .ok (items, rest)) :
    ∃ body, (∀ before, AreBlank before → Spells (.items items) (before ++ body)) ∧
      cs = body ++ ']' :: rest := by
  rw [readItems] at h
  obtain ⟨⟨item, afterItem⟩, hitem, hrest⟩ := exists_of_bind_ok h
  obtain ⟨value, hspells, rfl⟩ := hfuel.value hitem
  obtain ⟨after, hafter, hskipped⟩ := exists_areBlank_skipBlanks afterItem
  dsimp only at hrest
  split at hrest
  · next hskip =>
    cases hrest
    refine ⟨value ++ after, fun before hbefore => .lastItem (.text hbefore hspells hafter), ?_⟩
    rw [hskipped, hskip, List.append_assoc]
  · next more hskip =>
    obtain ⟨found, hmore, hfound⟩ := exists_of_bind_ok hrest
    cases hfound
    obtain ⟨blanks, hblanks, hmoreBlanks⟩ := exists_areBlank_skipBlanks more
    obtain ⟨body, hbody, hend⟩ := hfuel.items hmore
    refine ⟨value ++ (after ++ ',' :: (blanks ++ body)), fun before hbefore => ?_, ?_⟩
    · have hboth := Spells.item (.text hbefore hspells hafter) (hbody blanks hblanks)
      simpa using hboth
    · rw [hskipped, hskip, hmoreBlanks, hend]
      simp
  · cases hrest

theorem members_succ (hfuel : FindsSpelled limits fuel) {members : List (JoinedText × Json)}
    (h : readMembers limits level (fuel + 1) cs = .ok (members, rest)) :
    ∃ body, (∀ before, AreBlank before → Spells (.members members) (before ++ body)) ∧
      cs = body ++ '}' :: rest := by
  unfold readMembers at h
  split at h
  case h_2 => cases h
  next afterQuote =>
  obtain ⟨⟨name, afterName⟩, hname, hcolon⟩ := exists_of_bind_ok h
  obtain ⟨contents, hcontents, rfl⟩ := spellsText_of_readText hname
  obtain ⟨gap, hgap, hskippedGap⟩ := exists_areBlank_skipBlanks afterName
  dsimp only at hcolon
  split at hcolon
  case h_2 => cases hcolon
  next afterColon hskipColon =>
  obtain ⟨⟨value, afterValue⟩, hvalue, hrest⟩ := exists_of_bind_ok hcolon
  obtain ⟨lead, hlead, hskippedLead⟩ := exists_areBlank_skipBlanks afterColon
  obtain ⟨written, hspells, hwritten⟩ := hfuel.value hvalue
  obtain ⟨after, hafter, hskipped⟩ := exists_areBlank_skipBlanks afterValue
  have hmember {before : List Char} (hbefore : AreBlank before) :=
    Spells.member hbefore hcontents hgap (.text hlead hspells hafter)
  rw [hskippedGap, hskipColon, hskippedLead, hwritten]
  dsimp only at hrest
  split at hrest
  · next hskip =>
    cases hrest
    refine ⟨_, fun before hbefore => .lastMember (hmember hbefore), ?_⟩
    rw [hskipped, hskip]
    simp
  · next more hskip =>
    obtain ⟨found, hmore, hfound⟩ := exists_of_bind_ok hrest
    cases hfound
    obtain ⟨blanks, hblanks, hmoreBlanks⟩ := exists_areBlank_skipBlanks more
    obtain ⟨body, hbody, hend⟩ := hfuel.members hmore
    refine ⟨'"' :: (contents ++ '"' :: (gap ++ ':' :: (lead ++ (written ++ after)))) ++
      ',' :: (blanks ++ body), fun before hbefore => ?_, ?_⟩
    · have hboth := Spells.moreMembers (hmember hbefore) (hbody blanks hblanks)
      simpa using hboth
    · rw [hskipped, hskip, hmoreBlanks, hend]
      simp
  · cases hrest

end FindsSpelled

theorem findsSpelled (limits : Limits) : (fuel : Nat) → FindsSpelled limits fuel
  | 0 => findsSpelled_zero limits
  | fuel + 1 =>
    have h := findsSpelled limits fuel
    ⟨h.value_succ, h.items_succ, h.members_succ⟩

/-! ### What can stand around a value -/

/-- What stands after a text inside of another one. -/
def EndsText (rest : List Char) : Prop := ∀ c ∈ rest.head?, c ∈ [',', ']', '}']

theorem endsText_cons {c : Char} (rest : List Char) (h : c ∈ [',', ']', '}']) :
    EndsText (c :: rest) := by
  simpa [EndsText] using h

theorem EndsText.skipBlanks {rest : List Char} (h : EndsText rest) : skipBlanks rest = rest := by
  cases rest with
  | nil => rfl
  | cons c rest =>
    have hc := h c rfl
    simp only [List.mem_cons, List.not_mem_nil, or_false] at hc
    rcases hc with rfl | rfl | rfl <;> rfl

/-- Neither a blank nor what ends a text is taken for a part of a number. -/
theorem EndsText.endsNumber {after rest : List Char} (h : EndsText rest) (hafter : AreBlank after) :
    EndsNumber (after ++ rest) := by
  cases after with
  | nil =>
    intro c hc
    have hc := h c hc
    simp only [List.mem_cons, List.not_mem_nil, or_false] at hc
    rcases hc with rfl | rfl | rfl <;> decide
  | cons c after =>
    have hc := hafter c List.mem_cons_self
    simp only [List.mem_cons, List.not_mem_nil, or_false] at hc
    exact endsNumber_cons _ (by rcases hc with rfl | rfl | rfl | rfl <;> decide)

/-- What the text of a value can start with: nothing that ends a list or stands before a value. -/
def StartsValue (cs : List Char) : Prop :=
  ∃ c rest, cs = c :: rest ∧ isBlank c = false ∧ c ≠ ']' ∧ c ≠ '}' ∧ c ≠ '\ufeff'

theorem startsValue_cons {c : Char} (rest : List Char)
    (h : isBlank c = false ∧ c ≠ ']' ∧ c ≠ '}' ∧ c ≠ '\ufeff') : StartsValue (c :: rest) :=
  ⟨c, rest, rfl, h⟩

theorem startsValue_of_isDigit {c : Char} (rest : List Char) (h : c.isDigit = true) :
    StartsValue (c :: rest) := by
  refine startsValue_cons rest ⟨?_, ?_, ?_, ?_⟩
  · by_contra hb
    simp only [isBlank, Bool.not_eq_false, Bool.or_eq_true, decide_eq_true_eq] at hb
    rcases hb with ((rfl | rfl) | rfl) | rfl <;> exact absurd h (by decide)
  all_goals
    rintro rfl
    exact absurd h (by decide)

/-- A number without a sign starts with a digit. -/
theorem SpellsUnsigned.head_plain {negative : Bool} {j : Json} {cs : List Char}
    (h : SpellsUnsigned negative j cs) : ∀ c ∈ cs.head?, c ≠ '"' ∧ c ≠ '[' ∧ c ≠ '{' := by
  have hread := h.read endsNumber_nil
  rw [List.append_nil] at hread
  obtain ⟨c, rest, rfl, hc⟩ := head_of_unsigned? hread
  intro d hd
  cases hd
  refine ⟨?_, ?_, ?_⟩ <;>
    · rintro rfl
      exact absurd hc (by decide)

theorem SpellsUnsigned.startsValue {negative : Bool} {j : Json} {cs : List Char}
    (h : SpellsUnsigned negative j cs) : StartsValue cs := by
  have hread := h.read endsNumber_nil
  rw [List.append_nil] at hread
  obtain ⟨c, rest, rfl, hc⟩ := head_of_unsigned? hread
  exact startsValue_of_isDigit rest hc

section Steps

variable (limits : Limits) (level fuel : Nat)

/-- A value that is no string, array or object is read as a plain one. -/
theorem readValue_plain {cs : List Char} (h : ∀ c ∈ cs.head?, c ≠ '"' ∧ c ≠ '[' ∧ c ≠ '{') :
    readValue limits level (fuel + 1) cs = readPlain limits level cs := by
  rw [readValue]
  · intro rest heq
    rw [heq] at h
    exact (h '"' rfl).1 rfl
  · intro rest heq
    rw [heq] at h
    exact (h '[' rfl).2.1 rfl
  · intro rest heq
    rw [heq] at h
    exact (h '{' rfl).2.2 rfl

theorem StartsValue.append {cs : List Char} (h : StartsValue cs) (rest : List Char) :
    StartsValue (cs ++ rest) := by
  obtain ⟨c, more, rfl, hc⟩ := h
  exact startsValue_cons (more ++ rest) hc

theorem StartsValue.skipBlanks {cs : List Char} (h : StartsValue cs) : skipBlanks cs = cs := by
  obtain ⟨c, rest, rfl, hc, -⟩ := h
  exact skipBlanks_cons rest hc

/-- A first item is no closing bracket, so the array is read item by item. -/
theorem readValue_array {cs : List Char} (h : StartsValue (skipBlanks cs)) :
    readValue limits level (fuel + 1) ('[' :: cs) =
      if limits.allowNesting (level + 1) then
        (readItems limits (level + 1) fuel (skipBlanks cs)).map fun r => (.array r.1, r.2)
      else .error (.overrun .nesting) := by
  obtain ⟨c, rest, heq, -, hbracket, -⟩ := h
  rw [readValue, heq]
  refine if_congr Iff.rfl ?_ rfl
  split
  · next h => exact absurd (List.cons.inj h).1 hbracket
  · cases readItems limits (level + 1) fuel (c :: rest) <;> rfl

theorem readValue_object {cs : List Char} (h : StartsValue (skipBlanks cs)) :
    readValue limits level (fuel + 1) ('{' :: cs) =
      if limits.allowNesting (level + 1) then
        (readMembers limits (level + 1) fuel (skipBlanks cs)).map fun r => (.object r.1, r.2)
      else .error (.overrun .nesting) := by
  obtain ⟨c, rest, heq, -, -, hbrace, -⟩ := h
  rw [readValue, heq]
  refine if_congr Iff.rfl ?_ rfl
  split
  · next h => exact absurd (List.cons.inj h).1 hbrace
  · cases readMembers limits (level + 1) fuel (c :: rest) <;> rfl

end Steps

/-! ### What is spelled is read

The induction is on the spelling. Fuel that exceeds the length of the text is enough for a value;
items and members take one more, as each of them starts with a step of its own. A limit that the
document does not keep is met in place of it. -/

section Reads

variable (limits : Limits)

/-- What stands before `rest` is read as a value, up to blanks on either side of it. -/
def ReadsText (level fuel : Nat) (j : Json) (cs rest : List Char) : Prop :=
  ∃ after, readValue limits level fuel (skipBlanks cs) =
    admitted (j.overrun? limits level) (j, after) ∧ skipBlanks after = rest

/-- What stands before `rest` is read as a name and a value, up to blanks. -/
def ReadsMember (level fuel : Nat) (name : JoinedText) (j : Json) (cs rest : List Char) : Prop :=
  ∃ contents gap afterColon, skipBlanks cs = '"' :: contents ∧
    (∀ start, readText start contents = .ok (name, gap)) ∧ skipBlanks gap = ':' :: afterColon ∧
    ReadsText limits level fuel j afterColon rest

/-- A phrase is read, with enough fuel, wherever nothing after it is taken for a part of it. -/
def Phrase.IsRead : Phrase → List Char → Prop
  | .text j, cs => ∀ level fuel rest, cs.length < fuel → EndsText rest →
    StartsValue (skipBlanks (cs ++ rest)) ∧ ReadsText limits level fuel j (cs ++ rest) rest
  | .value j, cs => StartsValue cs ∧ ∀ level fuel rest, cs.length < fuel → EndsNumber rest →
    readValue limits level fuel (cs ++ rest) = admitted (j.overrun? limits level) (j, rest)
  | .items js, cs => ∀ level fuel rest, cs.length + 1 < fuel →
    StartsValue (skipBlanks (cs ++ ']' :: rest)) ∧
      readItems limits level fuel (skipBlanks (cs ++ ']' :: rest)) =
        admitted (overrunOfItems? limits level js) (js, rest)
  | .member name j, cs => ∀ level fuel rest, cs.length < fuel → EndsText rest →
    StartsValue (skipBlanks (cs ++ rest)) ∧ ReadsMember limits level fuel name j (cs ++ rest) rest
  | .members ms, cs => ∀ level fuel rest, cs.length + 1 < fuel →
    StartsValue (skipBlanks (cs ++ '}' :: rest)) ∧
      readMembers limits level fuel (skipBlanks (cs ++ '}' :: rest)) =
        admitted (overrunOfMembers? limits level ms) (ms, rest)

variable {limits} {level fuel : Nat} {cs more rest : List Char} {j : Json} {name : JoinedText}

theorem readItems_last (h : ReadsText limits level fuel j cs (']' :: rest)) :
    readItems limits level (fuel + 1) (skipBlanks cs) =
      admitted (overrunOfItems? limits level [j]) ([j], rest) := by
  obtain ⟨after, hvalue, hafter⟩ := h
  rw [readItems, hvalue, overrunOfItems?, overrunOfItems?, Option.or_none]
  cases j.overrun? limits level with
  | some o => rfl
  | none =>
    simp only [admitted, bind, Except.bind, hafter]
    rfl

theorem readItems_more {items : List Json} (h : ReadsText limits level fuel j cs (',' :: more))
    (hmore : readItems limits level fuel (skipBlanks more) =
      admitted (overrunOfItems? limits level items) (items, rest)) :
    readItems limits level (fuel + 1) (skipBlanks cs) =
      admitted (overrunOfItems? limits level (j :: items)) (j :: items, rest) := by
  obtain ⟨after, hvalue, hafter⟩ := h
  rw [readItems, hvalue, overrunOfItems?]
  cases j.overrun? limits level with
  | some o => rfl
  | none =>
    simp only [admitted, bind, Except.bind, hafter, hmore, Option.none_or]
    cases overrunOfItems? limits level items <;> rfl

theorem readMembers_last (h : ReadsMember limits level fuel name j cs ('}' :: rest)) :
    readMembers limits level (fuel + 1) (skipBlanks cs) =
      admitted (overrunOfMembers? limits level [(name, j)]) ([(name, j)], rest) := by
  obtain ⟨contents, gap, afterColon, hcs, hname, hcolon, after, hvalue, hafter⟩ := h
  rw [hcs, overrunOfMembers?, overrunOfMembers?, Option.or_none]
  simp only [readMembers, hname, bind, Except.bind, hcolon, hvalue]
  cases j.overrun? limits level with
  | some o => rfl
  | none =>
    simp only [admitted, hafter]
    rfl

theorem readMembers_more {members : List (JoinedText × Json)}
    (h : ReadsMember limits level fuel name j cs (',' :: more))
    (hmore : readMembers limits level fuel (skipBlanks more) =
      admitted (overrunOfMembers? limits level members) (members, rest)) :
    readMembers limits level (fuel + 1) (skipBlanks cs) =
      admitted (overrunOfMembers? limits level ((name, j) :: members))
        ((name, j) :: members, rest) := by
  obtain ⟨contents, gap, afterColon, hcs, hname, hcolon, after, hvalue, hafter⟩ := h
  rw [hcs, overrunOfMembers?]
  simp only [readMembers, hname, bind, Except.bind, hcolon, hvalue]
  cases j.overrun? limits level with
  | some o => rfl
  | none =>
    simp only [admitted, hafter, hmore, Option.none_or]
    cases overrunOfMembers? limits level members <;> rfl

/-- A value is read wherever its text is read with one step at least. -/
theorem isRead_value (hstart : StartsValue cs)
    (h : ∀ level fuel rest, cs.length ≤ fuel → EndsNumber rest →
      readValue limits level (fuel + 1) (cs ++ rest) =
        admitted (j.overrun? limits level) (j, rest)) :
    (Phrase.value j).IsRead limits cs := by
  refine ⟨hstart, fun level fuel rest hfuel hrest => ?_⟩
  cases fuel with
  | zero => exact absurd hfuel (Nat.not_lt_zero _)
  | succ fuel => exact h level fuel rest (by omega) hrest

/-- What is read as a plain value is read as a value. -/
theorem isRead_plain (hstart : StartsValue cs)
    (hplain : ∀ c ∈ cs.head?, c ≠ '"' ∧ c ≠ '[' ∧ c ≠ '{')
    (h : ∀ level rest, EndsNumber rest →
      readPlain limits level (cs ++ rest) = admitted (j.overrun? limits level) (j, rest)) :
    (Phrase.value j).IsRead limits cs := by
  refine isRead_value hstart fun level fuel rest _ hrest => ?_
  obtain ⟨c, more, rfl, -⟩ := hstart
  rw [readValue_plain limits level fuel (by exact hplain), h level rest hrest]

theorem isRead_string {t : JoinedText} (h : SpellsText t cs) :
    (Phrase.value (.string t)).IsRead limits ('"' :: (cs ++ ['"'])) := by
  refine isRead_value (startsValue_cons _ (by decide)) fun level fuel rest _ _ => ?_
  simp only [List.cons_append, List.append_assoc, List.nil_append, readValue, h.read, bind,
    Except.bind]
  rfl

theorem isRead_emptyArray {blanks : List Char} (h : AreBlank blanks) :
    (Phrase.value (.array [])).IsRead limits ('[' :: (blanks ++ [']'])) := by
  refine isRead_value (startsValue_cons _ (by decide)) fun level fuel rest _ _ => ?_
  simp only [List.cons_append, List.append_assoc, List.nil_append, readValue, skipBlanks_append h,
    overrun?]
  cases limits.allowNesting (level + 1) <;> rfl

theorem isRead_array {items : List Json} (h : (Phrase.items items).IsRead limits cs) :
    (Phrase.value (.array items)).IsRead limits ('[' :: (cs ++ [']'])) := by
  refine isRead_value (startsValue_cons _ (by decide)) fun level fuel rest hfuel _ => ?_
  simp only [List.length_cons, List.length_append, List.length_nil] at hfuel
  obtain ⟨hstart, hitems⟩ := h (level + 1) fuel rest (by omega)
  simp only [List.cons_append, List.append_assoc, List.nil_append]
  rw [readValue_array limits level fuel hstart, hitems, overrun?]
  cases limits.allowNesting (level + 1) with
  | false => rfl
  | true => cases overrunOfItems? limits (level + 1) items <;> rfl

theorem isRead_emptyObject {blanks : List Char} (h : AreBlank blanks) :
    (Phrase.value (.object [])).IsRead limits ('{' :: (blanks ++ ['}'])) := by
  refine isRead_value (startsValue_cons _ (by decide)) fun level fuel rest _ _ => ?_
  simp only [List.cons_append, List.append_assoc, List.nil_append, readValue, skipBlanks_append h,
    overrun?]
  cases limits.allowNesting (level + 1) <;> rfl

theorem isRead_object {members : List (JoinedText × Json)}
    (h : (Phrase.members members).IsRead limits cs) :
    (Phrase.value (.object members)).IsRead limits ('{' :: (cs ++ ['}'])) := by
  refine isRead_value (startsValue_cons _ (by decide)) fun level fuel rest hfuel _ => ?_
  simp only [List.length_cons, List.length_append, List.length_nil] at hfuel
  obtain ⟨hstart, hmembers⟩ := h (level + 1) fuel rest (by omega)
  simp only [List.cons_append, List.append_assoc, List.nil_append]
  rw [readValue_object limits level fuel hstart, hmembers, overrun?]
  cases limits.allowNesting (level + 1) with
  | false => rfl
  | true => cases overrunOfMembers? limits (level + 1) members <;> rfl

theorem isRead_text {before after : List Char} (hbefore : AreBlank before) (hafter : AreBlank after)
    (h : (Phrase.value j).IsRead limits cs) :
    (Phrase.text j).IsRead limits (before ++ (cs ++ after)) := by
  intro level fuel rest hfuel hrest
  obtain ⟨hstart, hread⟩ := h
  simp only [List.length_append] at hfuel
  have hskip : skipBlanks ((before ++ (cs ++ after)) ++ rest) = cs ++ (after ++ rest) := by
    rw [List.append_assoc, skipBlanks_append hbefore, List.append_assoc]
    exact (hstart.append _).skipBlanks
  refine ⟨hskip ▸ hstart.append _, after ++ rest, ?_, ?_⟩
  · rw [hskip]
    exact hread level fuel _ (by omega) (hrest.endsNumber hafter)
  · rw [skipBlanks_append hafter, hrest.skipBlanks]

theorem isRead_lastItem (h : (Phrase.text j).IsRead limits cs) :
    (Phrase.items [j]).IsRead limits cs := by
  rintro level (_ | fuel) rest hfuel
  · cases hfuel
  · obtain ⟨hstart, hread⟩ := h level fuel (']' :: rest) (by omega) (endsText_cons _ (by decide))
    exact ⟨hstart, readItems_last hread⟩

theorem isRead_item {items : List Json} {ds : List Char} (h : (Phrase.text j).IsRead limits cs)
    (hitems : (Phrase.items items).IsRead limits ds) :
    (Phrase.items (j :: items)).IsRead limits (cs ++ ',' :: ds) := by
  rintro level (_ | fuel) rest hfuel
  · cases hfuel
  · simp only [List.length_append, List.length_cons] at hfuel
    have hmore := (hitems level fuel rest (by omega)).2
    obtain ⟨hstart, hread⟩ :=
      h level fuel (',' :: (ds ++ ']' :: rest)) (by omega) (endsText_cons _ (by decide))
    rw [List.append_assoc, List.cons_append]
    exact ⟨hstart, readItems_more hread hmore⟩

theorem isRead_member {before after ds : List Char} (hbefore : AreBlank before)
    (hname : SpellsText name cs) (hafter : AreBlank after) (h : (Phrase.text j).IsRead limits ds) :
    (Phrase.member name j).IsRead limits
      (before ++ '"' :: (cs ++ '"' :: (after ++ ':' :: ds))) := by
  intro level fuel rest hfuel hrest
  simp only [List.length_append, List.length_cons] at hfuel
  have hskip : skipBlanks (before ++ '"' :: (cs ++ '"' :: (after ++ ':' :: ds)) ++ rest) =
      '"' :: (cs ++ '"' :: (after ++ ':' :: (ds ++ rest))) := by
    simp only [List.append_assoc, List.cons_append, skipBlanks_append hbefore]
    rfl
  refine ⟨hskip ▸ startsValue_cons _ (by decide), _, _, ds ++ rest, hskip,
    fun start => hname.read start _, ?_, (h level fuel rest (by omega) hrest).2⟩
  rw [skipBlanks_append hafter]
  rfl

theorem isRead_lastMember (h : (Phrase.member name j).IsRead limits cs) :
    (Phrase.members [(name, j)]).IsRead limits cs := by
  rintro level (_ | fuel) rest hfuel
  · cases hfuel
  · obtain ⟨hstart, hread⟩ := h level fuel ('}' :: rest) (by omega) (endsText_cons _ (by decide))
    exact ⟨hstart, readMembers_last hread⟩

theorem isRead_moreMembers {members : List (JoinedText × Json)} {ds : List Char}
    (h : (Phrase.member name j).IsRead limits cs)
    (hmembers : (Phrase.members members).IsRead limits ds) :
    (Phrase.members ((name, j) :: members)).IsRead limits (cs ++ ',' :: ds) := by
  rintro level (_ | fuel) rest hfuel
  · cases hfuel
  · simp only [List.length_append, List.length_cons] at hfuel
    have hmore := (hmembers level fuel rest (by omega)).2
    obtain ⟨hstart, hread⟩ :=
      h level fuel (',' :: (ds ++ '}' :: rest)) (by omega) (endsText_cons _ (by decide))
    rw [List.append_assoc, List.cons_append]
    exact ⟨hstart, readMembers_more hread hmore⟩

end Reads

theorem isRead_of_spells (limits : Limits) {p : Phrase} {cs : List Char} (h : Spells p cs) :
    p.IsRead limits cs := by
  induction h with
  | text hbefore _ hafter ih => exact isRead_text hbefore hafter ih
  | null | «true» | «false» | notNumber | infinite | negativeInfinite =>
    exact isRead_plain (startsValue_cons _ (by decide)) (by simp) fun _ _ _ => rfl
  | number h =>
    exact isRead_plain h.startsValue h.head_plain fun level _ hrest =>
      readPlain_of_unsigned limits level (h.read hrest)
  | negative h =>
    exact isRead_plain (startsValue_cons _ (by decide)) (by simp) fun level _ hrest =>
      readPlain_minus limits level (h.read hrest)
  | string h => exact isRead_string h
  | emptyArray h => exact isRead_emptyArray h
  | array _ ih => exact isRead_array ih
  | emptyObject h => exact isRead_emptyObject h
  | object _ ih => exact isRead_object ih
  | lastItem _ ih => exact isRead_lastItem ih
  | item _ _ ih ihs => exact isRead_item ih ihs
  | member hbefore hname hafter _ ih => exact isRead_member hbefore hname hafter ih
  | lastMember _ ih => exact isRead_lastMember ih
  | moreMembers _ _ ih ihs => exact isRead_moreMembers ih ihs

/-! ### Documents -/

variable {limits : Limits} {cs : List Char} {j : Json}

theorem spells_of_readDocument (h : readDocument limits cs = .ok j) : Spells (.text j) cs := by
  unfold readDocument at h
  split at h
  · cases h
  obtain ⟨⟨value, rest⟩, hvalue, hrest⟩ := exists_of_bind_ok h
  obtain ⟨before, hbefore, hcs⟩ := exists_areBlank_skipBlanks cs
  obtain ⟨written, hspells, hwritten⟩ := (findsSpelled limits _).value hvalue
  obtain ⟨after, hafter, hskipped⟩ := exists_areBlank_skipBlanks rest
  dsimp only at hrest
  split at hrest
  · next hskip =>
    cases hrest
    rw [hskip, List.append_nil] at hskipped
    rw [hcs, hwritten, hskipped]
    exact .text hbefore hspells hafter
  · cases hrest

theorem readDocument_of_spells (limits : Limits) (h : Spells (.text j) cs) :
    readDocument limits cs = admitted (j.overrun? limits 0) j := by
  obtain ⟨hstart, after, hvalue, hafter⟩ :=
    isRead_of_spells limits h 0 (cs.length + 1) [] (Nat.lt_succ_self _) nofun
  rw [List.append_nil] at hstart hvalue
  unfold readDocument
  split
  -- No document starts with a byte order mark.
  · obtain ⟨c, rest, hskip, -, -, -, hbom⟩ := hstart
    rw [skipBlanks_cons _ (by decide)] at hskip
    exact absurd (List.cons.inj hskip).1.symm hbom
  · rw [hvalue]
    cases j.overrun? limits 0 with
    | some o => rfl
    | none =>
      simp only [admitted, bind, Except.bind, hafter]
      rfl

/-- A text is read as the document that it spells if this keeps the limits, and as no other. -/
theorem read_eq_ok {text : String} :
    read limits text = .ok j ↔ Spells (.text j) text.toList ∧ j.overrun? limits 0 = none := by
  have hread : read limits text = .ok j ↔ readDocument limits text.toList = .ok j := by
    rw [read]
    cases readDocument limits text.toList <;> simp [Except.mapError]
  rw [hread]
  constructor
  · intro h
    have hspells := spells_of_readDocument h
    rw [readDocument_of_spells limits hspells] at h
    exact ⟨hspells, (admitted_eq_ok.mp h).1⟩
  · rintro ⟨hspells, hkept⟩
    rw [readDocument_of_spells limits hspells, hkept]
    rfl

/-- A document that does not keep the limits breaks its reading off. -/
theorem read_of_overrun {text : String} {o : Overrun} (h : Spells (.text j) text.toList)
    (hoverrun : j.overrun? limits 0 = some o) : read limits text = .error (.overrun o) := by
  rw [read, readDocument_of_spells limits h, hoverrun]
  rfl

end PropValidators.Json
