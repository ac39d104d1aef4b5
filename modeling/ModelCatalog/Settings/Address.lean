import ModelCatalog.Number.Decimal
import ModelCatalog.Text.Percent
import ModelCatalog.Text.Search

namespace ModelCatalog.Address

/-- A number from 0 to 255 without leading zeros. -/
def isOctet (s : List Char) : Bool :=
  s ≠ [] && s.length ≤ 3 && s.all Char.isDigit && (s.length = 1 || s.head? ≠ some '0') &&
    Decimal.value s ≤ 255

/-- Four octets with points between them. -/
def isV4 (s : List Char) : Bool :=
  let parts := splitAll '.' s
  parts.length = 4 && parts.all isOctet

/-- One to four hexadecimal digits. -/
def isGroup (s : List Char) : Bool :=
  s ≠ [] && s.length ≤ 4 && s.all fun c => (Percent.hexValue c).isSome

/-- The number of groups with colons between them, where a four-octet address at the end, if it may
stand there, counts as two. -/
def groups? (v4AtEnd : Bool) (s : List Char) : Option Nat :=
  if s = [] then some 0
  else
    let parts := splitAll ':' s
    let last := parts.getLast?.getD []
    if !parts.dropLast.all isGroup then none
    else if isGroup last then some parts.length
    else if v4AtEnd && isV4 last then some (parts.length + 1)
    else none

/-- Eight groups, or fewer with a double colon in place of the others. -/
def isV6 (s : List Char) : Bool :=
  match splitFirst [':', ':'] s with
  | none => groups? true s = some 8
  | some (head, tail) =>
    match groups? false head, groups? true tail with
    | some m, some n => m + n ≤ 7
    | _, _ => false

def isAddress (s : List Char) : Bool :=
  isV4 s || isV6 s

end ModelCatalog.Address
