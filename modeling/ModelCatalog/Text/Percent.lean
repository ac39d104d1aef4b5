namespace ModelCatalog.Percent

def hexDigit (d : Nat) : Char :=
  Char.ofNat (if d < 10 then 48 + d else 55 + d)

/-- The value of a hexadecimal digit of either case. -/
def hexValue (c : Char) : Option Nat :=
  if '0' ≤ c ∧ c ≤ '9' then some (c.toNat - 48)
  else if 'A' ≤ c ∧ c ≤ 'F' then some (c.toNat - 55)
  else if 'a' ≤ c ∧ c ≤ 'f' then some (c.toNat - 87)
  else none

/-- The characters that stand for themselves: ASCII letters, digits and four marks. -/
def isUnreserved (c : Char) : Bool :=
  c.isAlphanum || c == '-' || c == '.' || c == '_' || c == '~'

def triple (b : UInt8) : List Char :=
  ['%', hexDigit (b.toNat / 16), hexDigit (b.toNat % 16)]

def encodeChar (c : Char) : List Char :=
  if isUnreserved c then [c] else (String.utf8EncodeChar c).flatMap triple

/-- Writes every byte of the UTF-8 form as a triple `%XX`, unreserved characters apart. -/
def encode (s : List Char) : List Char :=
  s.flatMap encodeChar

/-- The bytes behind a text with triples; a `%` without two hexadecimal digits stands for itself. -/
def decode : List Char → List UInt8
  | [] => []
  | '%' :: a :: b :: rest =>
    match hexValue a, hexValue b with
    | some x, some y => UInt8.ofNat (16 * x + y) :: decode rest
    | _, _ => String.utf8EncodeChar '%' ++ decode (a :: b :: rest)
  | c :: rest => String.utf8EncodeChar c ++ decode rest

/-- The text behind a text with triples, if its bytes are UTF-8. -/
def decodeText? (s : List Char) : Option (List Char) :=
  (String.fromUTF8? (ByteArray.mk (decode s).toArray)).map String.toList

end ModelCatalog.Percent
