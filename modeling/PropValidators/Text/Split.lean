/-!
Text split at a character: the parts between its places, empty ones included.
-/
namespace PropValidators.Split

/-- The parts of a text before, between and after the places of a character. -/
def parts (c : Char) : List Char → List (List Char)
  | [] => [[]]
  | x :: rest =>
    match parts c rest with
    | [] => [[]]
    | first :: others => if x = c then [] :: first :: others else (x :: first) :: others

end PropValidators.Split
