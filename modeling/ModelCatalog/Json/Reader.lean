import ModelCatalog.Json.Quoted
import ModelCatalog.Json.Value
import ModelCatalog.Number.Decimal

namespace ModelCatalog.Json

def isSpace (c : Char) : Bool :=
  c == ' ' || c == '\t' || c == '\n' || c == '\r'

def skipSpace (s : List Char) : List Char :=
  s.dropWhile isSpace

/-- Splits off the digits at the front. -/
def digits (s : List Char) : List Char × List Char :=
  (s.takeWhile Char.isDigit, s.dropWhile Char.isDigit)

/-- The part of a number from its point on, which needs digits after the point. -/
def fraction? : List Char → Option (List Char × List Char)
  | '.' :: rest =>
    let (ds, rest) := digits rest
    if ds = [] then none else some ('.' :: ds, rest)
  | s => some ([], s)

def exponent? : List Char → Option (List Char × List Char)
  | e :: rest =>
    if e = 'e' ∨ e = 'E' then
      let (sign, rest) :=
        match rest with
        | '+' :: rest => (['+'], rest)
        | '-' :: rest => (['-'], rest)
        | rest => ([], rest)
      let (ds, rest) := digits rest
      if ds = [] then none else some (e :: sign ++ ds, rest)
    else some ([], e :: rest)
  | [] => some ([], [])

/-- The whole part of a number has no leading zero. -/
def number? (s : List Char) : Option (Value × List Char) := do
  let (negative, body) := match s with
    | '-' :: rest => (true, rest)
    | s => (false, s)
  let (whole, rest) := digits body
  if whole = [] ∨ (whole.length ≠ 1 ∧ whole.head? = some '0') then none
  let (fraction, rest) ← fraction? rest
  let (exponent, rest) ← exponent? rest
  let n := Decimal.value whole
  if fraction = [] ∧ exponent = [] ∧ ¬ (negative ∧ n = 0) then
    return (.integer (if negative then -(n : Int) else n), rest)
  else
    return (.real (s.take (s.length - rest.length)), rest)

def word? (word : List Char) (v : Value) (s : List Char) : Option (Value × List Char) :=
  if word.isPrefixOf s then some (v, s.drop word.length) else none

mutual

/-- Reads one value, spaces before it included. Nesting is bounded by `fuel`. -/
def value? (fuel : Nat) (s : List Char) : Option (Value × List Char) :=
  match fuel with
  | 0 => none
  | fuel + 1 =>
    match skipSpace s with
    | '"' :: rest => (unquote? rest).map fun (text, rest) => (.string text, rest)
    | '[' :: rest =>
      match skipSpace rest with
      | ']' :: rest => some (.array [], rest)
      | rest => (elements? fuel rest).map fun (elements, rest) => (.array elements, rest)
    | '\x7b' :: rest =>
      match skipSpace rest with
      | '\x7d' :: rest => some (.object [], rest)
      | rest => (members? fuel rest).map fun (members, rest) => (.object members, rest)
    | 'n' :: rest => word? ['u', 'l', 'l'] .null rest
    | 't' :: rest => word? ['r', 'u', 'e'] (.boolean true) rest
    | 'f' :: rest => word? ['a', 'l', 's', 'e'] (.boolean false) rest
    | s => number? s

def elements? (fuel : Nat) (s : List Char) : Option (List Value × List Char) :=
  match fuel with
  | 0 => none
  | fuel + 1 => do
    let (v, rest) ← value? fuel s
    match skipSpace rest with
    | ',' :: rest => (elements? fuel rest).map fun (vs, rest) => (v :: vs, rest)
    | ']' :: rest => some ([v], rest)
    | _ => none

def members? (fuel : Nat) (s : List Char) : Option (List (Option String × Value) × List Char) :=
  match fuel with
  | 0 => none
  | fuel + 1 => do
    let '"' :: rest := skipSpace s | none
    let (key, rest) ← unquote? rest
    let ':' :: rest := skipSpace rest | none
    let (v, rest) ← value? fuel rest
    match skipSpace rest with
    | ',' :: rest => (members? fuel rest).map fun (more, rest) => ((key, v) :: more, rest)
    | '\x7d' :: rest => some ([(key, v)], rest)
    | _ => none

end

/-- Reads a whole text as one value. Every value, element or member takes at least one character,
so two units of fuel for each character are enough. -/
def read? (s : String) : Option Value := do
  let chars := s.toList
  let (v, rest) ← value? (2 * chars.length + 2) chars
  if skipSpace rest = [] then some v else none

end ModelCatalog.Json
