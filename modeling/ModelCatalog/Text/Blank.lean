namespace ModelCatalog

/-- The white space of Unicode, 25 code points. A "blank" is one of them throughout this library. -/
def isBlank (c : Char) : Bool :=
  let n := c.toNat
  (0x09 ≤ n && n ≤ 0x0D) || n == 0x20 || n == 0x85 || n == 0xA0 || n == 0x1680 ||
    (0x2000 ≤ n && n ≤ 0x200A) || n == 0x2028 || n == 0x2029 || n == 0x202F || n == 0x205F ||
    n == 0x3000

def skipBlanks (s : List Char) : List Char :=
  s.dropWhile isBlank

def dropTrailingBlanks (s : List Char) : List Char :=
  (s.reverse.dropWhile isBlank).reverse

end ModelCatalog
