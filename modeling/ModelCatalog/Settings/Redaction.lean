import ModelCatalog.Text.Search

namespace ModelCatalog

/-- A URL with its password masked. The password reaches from the first colon after the scheme to
the last `@`; a URL without one is left as it is. There is no answer if the last `@` stands in the
scheme, because then the credentials would end before they begin. -/
def redactChars (url : List Char) : Option (List Char) :=
  match splitFirst [':', '/', '/'] url with
  | none => some url
  | some (scheme, rest) =>
    match splitLast '@' rest with
    | none => if '@' ∈ scheme then none else some url
    | some (credentials, address) =>
      match splitFirst [':'] credentials with
      | none => some url
      | some (user, _) =>
        some (scheme ++ [':', '/', '/'] ++ user ++ [':', '*', '*', '*', '@'] ++ address)

def redact (url : String) : Option String :=
  (redactChars url.toList).map String.ofList

end ModelCatalog
