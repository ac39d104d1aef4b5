import ModelCatalog.Json.Quoted
import ModelCatalog.Json.Value
import ModelCatalog.Number.Decimal

namespace ModelCatalog.Json

/-- A new line, indented by two spaces for each level. -/
def newline (level : Nat) : List Char :=
  '\n' :: List.replicate (2 * level) ' '

mutual

/-- The form for people: one element or member a line, and `[]` or an empty pair of braces where
there are none. A string without a text is printed as the empty string. -/
def pretty (level : Nat) : Value → List Char
  | .null => ['n', 'u', 'l', 'l']
  | .boolean true => ['t', 'r', 'u', 'e']
  | .boolean false => ['f', 'a', 'l', 's', 'e']
  | .integer i => Decimal.integer i
  | .real literal => literal
  | .string s => quote (s.getD "")
  | .array [] => ['[', ']']
  | .array (v :: vs) =>
    '[' :: newline (level + 1) ++ pretty (level + 1) v ++ prettyRest (level + 1) vs ++
      newline level ++ [']']
  | .object [] => ['\x7b', '\x7d']
  | .object (m :: ms) =>
    '\x7b' :: newline (level + 1) ++ prettyMember (level + 1) m ++ prettyMembers (level + 1) ms ++
      newline level ++ ['\x7d']

def prettyRest (level : Nat) : List Value → List Char
  | [] => []
  | v :: vs => ',' :: newline level ++ pretty level v ++ prettyRest level vs

def prettyMember (level : Nat) : Option String × Value → List Char
  | (key, v) => quote (key.getD "") ++ ':' :: ' ' :: pretty level v

def prettyMembers (level : Nat) : List (Option String × Value) → List Char
  | [] => []
  | m :: ms => ',' :: newline level ++ prettyMember level m ++ prettyMembers level ms

end

def print (v : Value) : String :=
  String.ofList (pretty 0 v)

end ModelCatalog.Json
