import PropValidators.Json.Basic
import PropValidators.Number.Shortest
import PropValidators.Text.Quoted
/-!
JSON documents as messages show them: words for constants, strings between quotes, members
without repetition, and a blank after every comma and colon.
-/
namespace PropValidators.Json

def separated (separator : List Char) : List (List Char) → List Char
  | [] => []
  | [part] => part
  | part :: parts => part ++ separator ++ separated separator parts

mutual

/-- A document as messages show it. -/
def displayChars : Json → List Char
  | null => "None".toList
  | bool b => if b then "True".toList else "False".toList
  | int n => Digits.ofInt n
  | float x => x.text
  | string t => Quoted.text t.points
  | array items => '[' :: separated [',', ' '] (displayItems items) ++ [']']
  | object members =>
    let entries := (Keyed.settled (displayMembers members)).map fun (name, value) =>
      Quoted.text name.points ++ ':' :: ' ' :: value
    '{' :: separated [',', ' '] entries ++ ['}']

def displayItems : List Json → List (List Char)
  | [] => []
  | item :: items => displayChars item :: displayItems items

def displayMembers : List (JoinedText × Json) → List (JoinedText × List Char)
  | [] => []
  | (name, value) :: members => (name, displayChars value) :: displayMembers members

end

def display (j : Json) : String := String.ofList j.displayChars

end PropValidators.Json
