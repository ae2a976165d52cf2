/-!
Characters as octets and back. An octet sequence stands for characters only in their shortest form,
and surrogates have none.
-/
namespace PropValidators.Utf8

def encodeChar (c : Char) : List UInt8 :=
  let n := c.toNat
  if n < 0x80 then [.ofNat n]
  else if n < 0x800 then [.ofNat (0xC0 + n / 0x40), .ofNat (0x80 + n % 0x40)]
  else if n < 0x10000 then
    [.ofNat (0xE0 + n / 0x1000), .ofNat (0x80 + n / 0x40 % 0x40), .ofNat (0x80 + n % 0x40)]
  else
    [.ofNat (0xF0 + n / 0x40000), .ofNat (0x80 + n / 0x1000 % 0x40),
      .ofNat (0x80 + n / 0x40 % 0x40), .ofNat (0x80 + n % 0x40)]

def encode (cs : List Char) : List UInt8 := cs.flatMap encodeChar

/-- The six bits that a trailing octet adds. -/
def trailing? (b : UInt8) : Option Nat :=
  if 0x80 ≤ b ∧ b < 0xC0 then some (b.toNat - 0x80) else none

/-- The character of a two-octet form. -/
def two? (a b : UInt8) : Option Char := do
  let b ← trailing? b
  if 0xC2 ≤ a ∧ a < 0xE0 then some (Char.ofNat ((a.toNat - 0xC0) * 0x40 + b)) else none

def three? (a b c : UInt8) : Option Char := do
  let b ← trailing? b
  let c ← trailing? c
  let n := (a.toNat - 0xE0) * 0x1000 + b * 0x40 + c
  if 0xE0 ≤ a ∧ a < 0xF0 ∧ 0x800 ≤ n ∧ ¬(0xD800 ≤ n ∧ n < 0xE000) then some (Char.ofNat n)
  else none

def four? (a b c d : UInt8) : Option Char := do
  let b ← trailing? b
  let c ← trailing? c
  let d ← trailing? d
  let n := (a.toNat - 0xF0) * 0x40000 + b * 0x1000 + c * 0x40 + d
  if 0xF0 ≤ a ∧ a < 0xF8 ∧ 0x10000 ≤ n ∧ n < 0x110000 then some (Char.ofNat n) else none

/-- The characters that octets stand for, if they stand for any. -/
def decode? : List UInt8 → Option (List Char)
  | [] => some []
  | a :: rest =>
    if a < 0x80 then (decode? rest).map (Char.ofNat a.toNat :: ·)
    else
      match rest with
      | [] => none
      | b :: rest =>
        match two? a b with
        | some char => (decode? rest).map (char :: ·)
        | none =>
          match rest with
          | [] => none
          | c :: rest =>
            match three? a b c with
            | some char => (decode? rest).map (char :: ·)
            | none =>
              match rest with
              | [] => none
              | d :: rest =>
                match four? a b c d with
                | some char => (decode? rest).map (char :: ·)
                | none => none

/-- Lines that end in a line feed only: a carriage return, with or without a line feed after it,
counts as one. -/
def unifyLines : List Char → List Char
  | [] => []
  | '\r' :: '\n' :: rest => '\n' :: unifyLines rest
  | c :: rest => (if c = '\r' then '\n' else c) :: unifyLines rest

end PropValidators.Utf8
