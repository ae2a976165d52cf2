/-!
Text as sequences of code points. Unlike a `String`, a text can hold half of a surrogate pair on
its own, as escapes in JSON and YAML can write it.
-/
namespace PropValidators

/-- One code point: a character, or the surrogate `0xD800 + half`. -/
inductive CodePoint where
  | char (c : Char)
  | surrogate (half : Fin 0x800)
  deriving DecidableEq, Repr

abbrev Text := List CodePoint

namespace CodePoint

def toNat : CodePoint → Nat
  | char c => c.toNat
  | surrogate half => 0xD800 + half

def toChar? : CodePoint → Option Char
  | char c => some c
  | surrogate _ => none

/-- The code point of a number below `0x110000`. -/
def ofNat (code : Nat) : CodePoint :=
  if h : 0xD800 ≤ code ∧ code < 0xE000 then surrogate ⟨code - 0xD800, by omega⟩
  else char (Char.ofNat code)

/-- Whether a code point can be the first half of a surrogate pair. -/
def isHigh : CodePoint → Bool
  | char _ => false
  | surrogate half => half < 0x400

/-- Whether a code point can be the second half of a surrogate pair. -/
def isLow : CodePoint → Bool
  | char _ => false
  | surrogate half => 0x400 ≤ half

end CodePoint

namespace Text

def ofChars (cs : List Char) : Text := cs.map .char

def ofString (s : String) : Text := ofChars s.toList

instance : Coe String Text := ⟨ofString⟩

def toChars? (t : Text) : Option (List Char) := t.mapM CodePoint.toChar?

/-- The string of a text without surrogates. -/
def toString? (t : Text) : Option String := t.toChars?.map String.ofList

/-- Whether no two code points in a row are the halves of a pair. -/
def isJoined : Text → Bool
  | first :: second :: rest => !(first.isHigh && second.isLow) && isJoined (second :: rest)
  | _ => true

theorem isJoined_cons {p : CodePoint} {t : Text} (ht : t.isJoined = true)
    (h : ∀ q, t.head? = some q → ¬(p.isHigh = true ∧ q.isLow = true)) :
    isJoined (p :: t) = true := by
  cases t with
  | nil => rfl
  | cons q t =>
    have hq : (p.isHigh && q.isLow) = false := by simpa using h q rfl
    simp [isJoined, hq, ht]

theorem isJoined_of_cons {p : CodePoint} {t : Text} (h : isJoined (p :: t) = true) :
    t.isJoined = true := by
  cases t with
  | nil => rfl
  | cons q t => exact (Bool.and_eq_true_iff.mp h).2

theorem isJoined_ofChars (cs : List Char) : (ofChars cs).isJoined = true := by
  induction cs with
  | nil => rfl
  | cons c cs ih => exact isJoined_cons ih fun _ _ h => by cases h.1

end Text

/-- A text in which every surrogate pair is written as the one character it stands for. -/
structure JoinedText where
  points : Text
  joined : points.isJoined = true
  deriving DecidableEq, Repr

namespace JoinedText

def ofString (s : String) : JoinedText := ⟨.ofString s, Text.isJoined_ofChars s.toList⟩

instance : Coe String JoinedText := ⟨ofString⟩

instance : Inhabited JoinedText := ⟨""⟩

@[simp] theorem points_ofString (s : String) : (ofString s).points = Text.ofString s := rfl

@[simp] theorem points_inj {s t : JoinedText} : s.points = t.points ↔ s = t :=
  ⟨fun h => by cases s; cases t; cases h; rfl, fun h => h ▸ rfl⟩

end JoinedText

end PropValidators
