import PropValidators.Number.Digits
/-!
Dates and times of day as YAML scalars write them.
-/
namespace PropValidators.Yaml

/-- A date, with a time of day and an offset from universal time if they are written. -/
structure Timestamp where
  year : Nat
  month : Nat
  day : Nat
  hour : Nat
  minute : Nat
  second : Nat
  /-- Minutes from universal time in either direction. -/
  offset : Nat

namespace Timestamp

/-- Between `least` and `most` digits at the front, as many as there are, and the rest. -/
def digits? (least most : Nat) (cs : List Char) : Option (Nat × List Char) :=
  let found := (cs.take most).takeWhile Char.isDigit
  if found.length < least then none else some (Digits.value found, cs.drop found.length)

def after? (c : Char) : List Char → Option (List Char)
  | [] => none
  | x :: rest => if x = c then some rest else none

def isSpaceOrTab (c : Char) : Bool := c = ' ' || c = '\t'

def afterSeparator? : List Char → Option (List Char)
  | [] => none
  | c :: rest =>
    if c = 'T' ∨ c = 't' then some rest
    else if isSpaceOrTab c then some (rest.dropWhile isSpaceOrTab)
    else none

def afterFraction : List Char → List Char
  | '.' :: rest => rest.dropWhile Char.isDigit
  | cs => cs

def offset? (cs : List Char) : Option Nat :=
  if cs.isEmpty then some 0
  else
    match cs.dropWhile isSpaceOrTab with
    | ['Z'] => some 0
    | c :: rest => do
      if c = '+' ∨ c = '-' then
        let (hours, rest) ← digits? 1 2 rest
        if rest.isEmpty then return hours * 60
        let (minutes, rest) ← digits? 2 2 (← after? ':' rest)
        if rest.isEmpty then return hours * 60 + minutes else none
      else none
    | [] => none

/-- The timestamp that a text writes. A date alone has two digits for month and day if it is to be
recognised as one by its form. -/
def read? (byForm : Bool) (cs : List Char) : Option Timestamp := do
  let (year, rest) ← digits? 4 4 cs
  let (month, rest) ← digits? 1 2 (← after? '-' rest)
  let (day, rest) ← digits? 1 2 (← after? '-' rest)
  if rest.isEmpty then
    if byForm && cs.length ≠ 10 then none else return ⟨year, month, day, 0, 0, 0, 0⟩
  else
    let (hour, rest) ← digits? 1 2 (← afterSeparator? rest)
    let (minute, rest) ← digits? 2 2 (← after? ':' rest)
    let (second, rest) ← digits? 2 2 (← after? ':' rest)
    let offset ← offset? (afterFraction rest)
    return ⟨year, month, day, hour, minute, second, offset⟩

def isLeapYear (year : Nat) : Bool := year % 4 = 0 && (year % 100 ≠ 0 || year % 400 = 0)

def daysOf (year month : Nat) : Nat :=
  match month with
  | 2 => if isLeapYear year then 29 else 28
  | 4 | 6 | 9 | 11 => 30
  | 1 | 3 | 5 | 7 | 8 | 10 | 12 => 31
  | _ => 0

/-- Whether there is such a date, time and offset. -/
def isPossible (t : Timestamp) : Bool :=
  1 ≤ t.year && 1 ≤ t.day && t.day ≤ daysOf t.year t.month && t.hour < 24 && t.minute < 60 &&
    t.second < 60 && t.offset < 24 * 60

end Timestamp

end PropValidators.Yaml
