import ModelCatalog.Text.Percent

namespace ModelCatalog.Percent

/-- The digits in which a byte is written. -/
def upperDigits : List Char :=
  ['0', '1', '2', '3', '4', '5', '6', '7', '8', '9', 'A', 'B', 'C', 'D', 'E', 'F']

/-- A text of unreserved characters and of triples, each a percent sign and two digits. -/
inductive Encoded : List Char → Prop
  | nil : Encoded []
  | plain {c : Char} {rest : List Char} (unreserved : isUnreserved c = true) (more : Encoded rest) : Encoded (c :: rest)
  | triple {high low : Char} {rest : List Char} (first : high ∈ upperDigits) (second : low ∈ upperDigits)
    (more : Encoded rest) : Encoded ('%' :: high :: low :: rest)

variable {s rest : List Char} {c : Char} {bytes : List UInt8}

theorem Encoded.append (encoded : Encoded s) (more : Encoded rest) : Encoded (s ++ rest) := by
  induction encoded with
  | nil => exact more
  | plain unreserved _ ih => exact .plain unreserved ih
  | triple first second _ ih => exact .triple first second ih

theorem hexDigit_mem : ∀ d < 16, hexDigit d ∈ upperDigits := by
  decide

theorem hexValue_hexDigit : ∀ d < 16, hexValue (hexDigit d) = some d := by
  decide

theorem encoded_triples (bytes : List UInt8) : Encoded (bytes.flatMap triple) := by
  induction bytes with
  | nil => exact .nil
  | cons b more ih =>
    have bound := b.toNat_lt
    exact .triple (hexDigit_mem _ (by omega)) (hexDigit_mem _ (by omega)) ih

theorem encoded_encode (s : List Char) : Encoded (encode s) := by
  induction s with
  | nil => exact .nil
  | cons c more ih =>
    rw [encode, List.flatMap_cons]
    refine Encoded.append ?_ ih
    rw [encodeChar]
    split
    · rename_i unreserved
      exact .plain unreserved .nil
    · exact encoded_triples _

theorem decode_triple (b : UInt8) (rest : List Char) : decode (triple b ++ rest) = b :: decode rest := by
  have bound := b.toNat_lt
  have whole : 16 * (b.toNat / 16) + b.toNat % 16 = b.toNat := Nat.div_add_mod ..
  simp [triple, decode, hexValue_hexDigit (b.toNat / 16) (by omega), hexValue_hexDigit (b.toNat % 16) (by omega), whole]

theorem decode_triples : decode (bytes.flatMap triple ++ rest) = bytes ++ decode rest := by
  induction bytes with
  | nil => rfl
  | cons b more ih => rw [List.flatMap_cons, List.append_assoc, decode_triple, ih, List.cons_append]

theorem decode_cons (other : c ≠ '%') : decode (c :: rest) = String.utf8EncodeChar c ++ decode rest := by
  rw [decode.eq_def]
  split
  · contradiction
  · rename_i same
    cases same
    contradiction
  · rename_i same
    cases same
    rfl

/-- What is written is read back byte by byte, whatever follows. -/
theorem decode_encode (s rest : List Char) :
    decode (encode s ++ rest) = s.flatMap String.utf8EncodeChar ++ decode rest := by
  induction s with
  | nil => rfl
  | cons c more ih =>
    rw [encode, List.flatMap_cons, List.append_assoc, List.flatMap_cons, List.append_assoc, ← ih, encodeChar]
    split
    · rename_i unreserved
      have other : c ≠ '%' := by
        rintro rfl
        exact absurd unreserved (by decide)
      exact decode_cons other
    · exact decode_triples

theorem toByteArray_decode_encode (s : List Char) : (decode (encode s)).toByteArray = s.utf8Encode := by
  have whole := decode_encode s []
  rw [List.append_nil] at whole
  rw [whole, decode, List.append_nil]
  rfl

theorem encode_inj {s s' : List Char} : encode s = encode s' ↔ s = s' := by
  refine ⟨fun same => ?_, congrArg encode⟩
  have bytes := congrArg (fun text => (decode text).toByteArray) same
  simp only [toByteArray_decode_encode] at bytes
  have read := congrArg ByteArray.utf8Decode? bytes
  simpa using read

end ModelCatalog.Percent
