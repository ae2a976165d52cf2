import PropValidators.Keyed
import PropValidators.Limits
import PropValidators.Number.Binary64
import PropValidators.Text.Basic
/-!
JSON documents. Objects keep their members in document order with repeated names, and integers
are kept apart from other numbers.
-/
namespace PropValidators

inductive Json where
  | null
  | bool (value : Bool)
  | int (value : Int)
  | float (value : Binary64)
  | string (text : JoinedText)
  | array (items : List Json)
  | object (members : List (JoinedText × Json))

namespace Json

instance : Inhabited Json := ⟨null⟩

/-- A member of an object that is written under a given name. -/
def member (name : String) (value : Json) : JoinedText × Json := (name, value)

def ofString (s : String) : Json := string s

mutual

/-- The number of arrays and objects on the longest way into a document. -/
def depth : Json → Nat
  | array items => depthOfItems items + 1
  | object members => depthOfMembers members + 1
  | _ => 0

def depthOfItems : List Json → Nat
  | [] => 0
  | item :: items => max (depth item) (depthOfItems items)

def depthOfMembers : List (JoinedText × Json) → Nat
  | [] => 0
  | (_, value) :: members => max (depth value) (depthOfMembers members)

end

mutual

/-- The number of arrays and objects with something in them on the longest way into a document. -/
def filledDepth : Json → Nat
  | array [] | object [] => 0
  | array items => filledDepthOfItems items + 1
  | object members => filledDepthOfMembers members + 1
  | _ => 0

def filledDepthOfItems : List Json → Nat
  | [] => 0
  | item :: items => max (filledDepth item) (filledDepthOfItems items)

def filledDepthOfMembers : List (JoinedText × Json) → Nat
  | [] => 0
  | (_, value) :: members => max (filledDepth value) (filledDepthOfMembers members)

end

mutual

/-- The number of characters of the longest integer in a document. -/
def integerLength : Json → Nat
  | int n => (Digits.ofInt n).length
  | array items => integerLengthOfItems items
  | object members => integerLengthOfMembers members
  | _ => 0

def integerLengthOfItems : List Json → Nat
  | [] => 0
  | item :: items => max (integerLength item) (integerLengthOfItems items)

def integerLengthOfMembers : List (JoinedText × Json) → Nat
  | [] => 0
  | (_, value) :: members => max (integerLength value) (integerLengthOfMembers members)

end

mutual

/-- The first limit that a document does not keep inside `level` arrays and objects, in the order
of its text. -/
def overrun? (limits : Limits) (level : Nat) : Json → Option Overrun
  | int n => if limits.allowDigits (Digits.ofNat n.natAbs).length then none else some .digits
  | array items =>
    if limits.allowNesting (level + 1) then overrunOfItems? limits (level + 1) items
    else some .nesting
  | object members =>
    if limits.allowNesting (level + 1) then overrunOfMembers? limits (level + 1) members
    else some .nesting
  | _ => none

def overrunOfItems? (limits : Limits) (level : Nat) : List Json → Option Overrun
  | [] => none
  | item :: items => (overrun? limits level item).or (overrunOfItems? limits level items)

def overrunOfMembers? (limits : Limits) (level : Nat) : List (JoinedText × Json) → Option Overrun
  | [] => none
  | (_, value) :: members =>
    (overrun? limits level value).or (overrunOfMembers? limits level members)

end

mutual

/-- Whether no string or member name of a document holds a surrogate. -/
def isScalarText : Json → Bool
  | string text => text.points.toChars?.isSome
  | array items => itemsAreScalarText items
  | object members => membersAreScalarText members
  | _ => true

def itemsAreScalarText : List Json → Bool
  | [] => true
  | item :: items => isScalarText item && itemsAreScalarText items

def membersAreScalarText : List (JoinedText × Json) → Bool
  | [] => true
  | (name, value) :: members =>
    name.points.toChars?.isSome && isScalarText value && membersAreScalarText members

end

end Json

end PropValidators
