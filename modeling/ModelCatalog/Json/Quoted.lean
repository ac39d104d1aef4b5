import ModelCatalog.Text.Percent

namespace ModelCatalog.Json

open Percent (hexDigit hexValue)

/-- A control character without a short escape is written as `\u00` and two lower-case hexadecimal
digits. -/
def escape (c : Char) : List Char :=
  match c with
  | '"' => ['\\', '"']
  | '\\' => ['\\', '\\']
  | '\x08' => ['\\', 'b']
  | '\x0c' => ['\\', 'f']
  | '\n' => ['\\', 'n']
  | '\r' => ['\\', 'r']
  | '\t' => ['\\', 't']
  | _ =>
    if c.toNat < 32 then
      ['\\', 'u', '0', '0', hexDigit (c.toNat / 16), (hexDigit (c.toNat % 16)).toLower]
    else [c]

def quote (s : String) : List Char :=
  '"' :: s.toList.flatMap escape ++ ['"']

/-- What one piece between the quotes stands for: a character, or the code of a `\u` escape. -/
inductive Piece where
  | char (c : Char)
  | code (n : Nat)

def code? (a b c d : Char) : Option Nat := do
  return 4096 * (← hexValue a) + 256 * (← hexValue b) + 16 * (← hexValue c) + (← hexValue d)

/-- Reads up to the closing quote. A control character may not stand there as it is. -/
def pieces? : List Char → Option (List Piece × List Char)
  | [] => none
  | '"' :: rest => some ([], rest)
  | '\\' :: 'u' :: a :: b :: c :: d :: rest => do
    let n ← code? a b c d
    let (more, rest) ← pieces? rest
    return (.code n :: more, rest)
  | '\\' :: e :: rest => do
    let c ← match e with
      | '"' => some '"'
      | '\\' => some '\\'
      | '/' => some '/'
      | 'b' => some '\x08'
      | 'f' => some '\x0c'
      | 'n' => some '\n'
      | 'r' => some '\r'
      | 't' => some '\t'
      | _ => none
    let (more, rest) ← pieces? rest
    return (.char c :: more, rest)
  | c :: rest =>
    if c.toNat < 32 ∨ c = '\\' then none
    else do
      let (more, rest) ← pieces? rest
      return (.char c :: more, rest)

/-- The text of the pieces, if every code is a character or belongs to a surrogate pair. -/
def assemble? : List Piece → Option (List Char)
  | [] => some []
  | .char c :: rest => (assemble? rest).map (c :: ·)
  | .code high :: rest =>
    if 0xD800 ≤ high ∧ high < 0xDC00 then
      match rest with
      | .code low :: rest =>
        if 0xDC00 ≤ low ∧ low < 0xE000 then
          let c := Char.ofNat (0x10000 + 0x400 * (high - 0xD800) + (low - 0xDC00))
          (assemble? rest).map (c :: ·)
        else none
      | _ => none
    else if 0xDC00 ≤ high ∧ high < 0xE000 then none
    else (assemble? rest).map (Char.ofNat high :: ·)

/-- Reads what follows an opening quote. -/
def unquote? (s : List Char) : Option (Option String × List Char) :=
  (pieces? s).map fun (pieces, rest) => ((assemble? pieces).map String.ofList, rest)

end ModelCatalog.Json
