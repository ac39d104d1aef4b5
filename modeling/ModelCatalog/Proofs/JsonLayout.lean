import Mathlib.Data.List.Basic
import ModelCatalog.Proofs.JsonText

namespace ModelCatalog.Json

open Percent (hexDigit)

/-- The characters that are escaped by one letter, each with its letter. -/
def shortEscapes : List (Char × Char) :=
  [('"', '"'), ('\\', '\\'), ('\x08', 'b'), ('\x0c', 'f'), ('\n', 'n'), ('\r', 'r'), ('\t', 't')]

/-- How a character stands between quotes. Control characters without a letter of their own are escaped by the four
digits of their code. -/
def spelled (c : Char) : String :=
  match shortEscapes.lookup c with
  | some letter => String.ofList ['\\', letter]
  | none =>
    if c.toNat < 32 then String.ofList ('\\' :: 'u' :: (Nat.toDigits 16 c.toNat).leftpad 4 '0')
    else String.ofList [c]

def quoted (s : String) : String :=
  "\"" ++ String.join (s.toList.map spelled) ++ "\""

/-- The same block, with a comma at the end of its last line. -/
def continued : List String → List String
  | [] => []
  | [line] => [line ++ ","]
  | line :: more => line :: continued more

/-- Blocks one below the other, with commas between them. -/
def separated : List (List String) → List String
  | [] => []
  | [block] => block
  | block :: more => continued block ++ separated more

/-- Blocks between two brackets, which stand on lines of their own unless there is nothing between them. What is
between them is indented by two spaces. -/
def bracketed (opening closing : String) : List (List String) → List String
  | [] => [opening ++ closing]
  | blocks => opening :: (separated blocks).map ("  " ++ ·) ++ [closing]

mutual

/-- The lines on which a value is laid out. -/
def lines : Value → List String
  | .null => ["null"]
  | .boolean b => [toString b]
  | .integer i => [toString i]
  | .real literal => [String.ofList literal]
  | .string s => [quoted (s.getD "")]
  | .array elements => bracketed "[" "]" (elementBlocks elements)
  | .object members => bracketed "\x7b" "\x7d" (memberBlocks members)

def elementBlocks : List Value → List (List String)
  | [] => []
  | v :: vs => lines v :: elementBlocks vs

/-- Each value under its key, which stands on the first of its lines. -/
def memberBlocks : List (Option String × Value) → List (List String)
  | [] => []
  | (key, v) :: ms => (lines v).modifyHead (quoted (key.getD "") ++ ": " ++ ·) :: memberBlocks ms

end

/-- A value as it is shown to people. -/
def shown (v : Value) : String :=
  "\n".intercalate (lines v)

variable {v : Value} {vs : List Value} {ms : List (Option String × Value)} {block more : List String}
  {blocks : List (List String)} {gap : List Char} {level : Nat}

theorem toDigits_control :
    ∀ n < 32, (Nat.toDigits 16 n).leftpad 4 '0' = ['0', '0', hexDigit (n / 16), (hexDigit (n % 16)).toLower] := by
  decide

theorem toList_spelled (c : Char) : (spelled c).toList = escape c := by
  unfold escape
  split
  case h_8 h₁ h₂ h₃ h₄ h₅ h₆ h₇ =>
    have unlisted : shortEscapes.lookup c = none := by
      simp only [shortEscapes, List.lookup_cons, beq_false_of_ne h₁, beq_false_of_ne h₂, beq_false_of_ne h₃,
        beq_false_of_ne h₄, beq_false_of_ne h₅, beq_false_of_ne h₆, beq_false_of_ne h₇, List.lookup_nil]
    simp only [spelled, unlisted]
    split
    · rename_i control
      rw [String.toList_ofList, toDigits_control _ control]
    · exact String.toList_ofList
  all_goals rfl

/-- The characters of some lines with a gap between each two of them. -/
def joined (gap : List Char) (lines : List String) : List Char :=
  gap.intercalate (lines.map String.toList)

end ModelCatalog.Json
