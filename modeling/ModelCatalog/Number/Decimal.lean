import ModelCatalog.Number.Range

namespace ModelCatalog.Decimal

/-- The character of a digit below ten. -/
def digit (d : Nat) : Char :=
  Char.ofNat (48 + d)

/-- The decimal digits of a number, without leading zeros. -/
def natural (n : Nat) : List Char :=
  if n < 10 then [digit n] else natural (n / 10) ++ [digit (n % 10)]

def integer : Int → List Char
  | .ofNat n => natural n
  | .negSucc n => '-' :: natural (n + 1)

/-- The decimal digits of a number, filled up with zeros on the left to at least `width`. -/
def padded (width n : Nat) : List Char :=
  List.replicate (width - (natural n).length) '0' ++ natural n

/-- The number that a list of digits denotes; leading zeros are harmless. -/
def value (digits : List Char) : Nat :=
  digits.foldl (fun n c => 10 * n + (c.toNat - 48)) 0

/-- Reads one or more digits, at most `most` of them, and gives back the rest of the text. -/
def read? (most : Nat) (s : List Char) : Option (Nat × List Char) :=
  let digits := (s.take most).takeWhile Char.isDigit
  if digits = [] then none else some (value digits, s.drop digits.length)

/-- Reads as many digits as stand at the front of the text, and at least one. -/
def readAll? (s : List Char) : Option (Nat × List Char) :=
  read? s.length s

/-- Reads a whole text as an integer of the range: at most one sign, where `-` is a sign only if the
range has negative numbers, then digits and nothing else. -/
def inRange? (r : Range) (s : List Char) : Option Int :=
  let (negative, digits) :=
    match s with
    | '+' :: rest => (false, rest)
    | '-' :: rest => if r.least < 0 then (true, rest) else (false, s)
    | _ => (false, s)
  if digits ≠ [] ∧ digits.all Char.isDigit then
    let i : Int := if negative then -(value digits) else value digits
    if r.has i then some i else none
  else none

def toText (i : Int) : String :=
  String.ofList (integer i)

theorem natural_ne_nil (n : Nat) : natural n ≠ [] := by
  rw [natural]
  split <;> simp

end ModelCatalog.Decimal
