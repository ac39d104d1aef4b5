import ModelCatalog.CatalogError
import ModelCatalog.Settings.Address
import ModelCatalog.Text.Blank

namespace ModelCatalog.ConnectionText

/-- A parameter of a connection: its keyword and its value. -/
abbrev Setting := List Char × List Char

def oneOf (words : List String) (value : List Char) : Bool :=
  words.contains (String.ofList value)

def isNumber (r : Range) (value : List Char) : Bool :=
  (Decimal.inRange? r value).isSome

/-- Whether a keyword is known and its value is one that it may have. -/
def isKnown (setting : Setting) : Bool :=
  let value := setting.2
  match String.ofList setting.1 with
  | "user" | "password" | "dbname" | "options" | "application_name" | "host" => true
  | "sslmode" => oneOf ["disable", "prefer", "require"] value
  | "sslnegotiation" => oneOf ["postgres", "direct"] value
  | "hostaddr" => (splitAll ',' value).all Address.isAddress
  | "port" => (splitAll ',' value).all fun n => n = [] || isNumber .unsigned16 n
  | "connect_timeout" | "tcp_user_timeout" => isNumber .signed64 value
  | "keepalives_idle" | "keepalives_interval" => isNumber .signed64 value
  | "keepalives" => isNumber .unsigned64 value
  | "keepalives_retries" => isNumber .unsigned32 value
  | "target_session_attrs" => oneOf ["any", "read-write", "read-only"] value
  | "channel_binding" => oneOf ["disable", "prefer", "require"] value
  | "load_balance_hosts" => oneOf ["disable", "random"] value
  | _ => false

/-- A value without quotes ends at a blank and is not empty; a backslash takes the next character
as it is. -/
def bareValue : List Char → List Char × List Char
  | [] => ([], [])
  | '\\' :: c :: rest => let (v, rest) := bareValue rest; (c :: v, rest)
  | '\\' :: [] => ([], [])
  | c :: rest =>
    if isBlank c then ([], c :: rest)
    else let (v, rest) := bareValue rest; (c :: v, rest)

/-- A value in quotes, read up to the closing quote. -/
def quotedValue? : List Char → Option (List Char × List Char)
  | [] => none
  | '\'' :: rest => some ([], rest)
  | '\\' :: c :: rest => (quotedValue? rest).map fun (v, rest) => (c :: v, rest)
  | '\\' :: [] => none
  | c :: rest => (quotedValue? rest).map fun (v, rest) => (c :: v, rest)

def value? : List Char → Option (List Char × List Char)
  | '\'' :: rest => quotedValue? rest
  | s =>
    let (v, rest) := bareValue s
    if v = [] then none else some (v, rest)

/-- One `keyword = value` from the front of the text; `none` inside if no keyword stands there,
which ends the text whatever follows. -/
def word? (s : List Char) : Option (Option (Setting × List Char)) :=
  let s := skipBlanks s
  let isPart (c : Char) : Bool := !isBlank c && c != '='
  let keyword := s.takeWhile isPart
  if keyword = [] then some none
  else
    match skipBlanks (s.dropWhile isPart) with
    | '=' :: rest => (value? (skipBlanks rest)).map fun (v, rest) => some ((keyword, v), rest)
    | _ => none

/-- The settings of a text of keywords and values. Each takes at least one character. -/
def words? (s : List Char) : Option (List Setting) :=
  go s.length s
where
  go : Nat → List Char → Option (List Setting)
    | 0, _ => some []
    | fuel + 1, s => do
      match ← word? s with
      | none => return []
      | some (setting, rest) => return setting :: (← go fuel rest)

/-- The text before the first character that is one of the marks, and the text from there on. -/
def upTo (marks : List Char) (s : List Char) : List Char × List Char :=
  (s.takeWhile (!marks.contains ·), s.dropWhile (!marks.contains ·))

/-- A host is a path, or has to be a text once it is decoded. -/
def host? (s : List Char) : Option Unit :=
  if (Percent.decode s).head? = some 47 then some () else (Percent.decodeText? s).map fun _ => ()

/-- One host, perhaps with a number after a colon. An address in brackets may hold colons. -/
def endpoint? (s : List Char) : Option Setting := do
  let (host, number) ← match s with
    | '[' :: rest => do
      let (host, rest) ← splitFirst [']'] rest
      match rest with
      | [] => some (host, none)
      | ':' :: number => some (host, some number)
      | _ => none
    | s =>
      match splitFirst [':'] s with
      | some (host, number) => some (host, some number)
      | none => some (s, none)
  host? host
  return ("port".toList, ← Percent.decodeText? (number.getD "5432".toList))

/-- The settings after the question mark of a URL, each with an equals sign. -/
def query? (s : List Char) : Option (List Setting) :=
  go s.length s
where
  go : Nat → List Char → Option (List Setting)
    | 0, _ | _, [] => some []
    | fuel + 1, s => do
      let (keyword, rest) ← splitFirst ['='] s
      let keyword ← Percent.decodeText? keyword
      let (value, rest) := (splitFirst ['&'] rest).getD (rest, [])
      if keyword = "host".toList then
        host? value
        go fuel rest
      else
        return (keyword, ← Percent.decodeText? value) :: (← go fuel rest)

/-- The settings of a URL without its scheme. -/
def url? (s : List Char) : Option (List Setting) := do
  let rest ← match splitFirst ['@'] s with
    | none => some s
    | some (credentials, rest) =>
      (Percent.decodeText? (upTo [':'] credentials).1).map fun _ => rest
  let (hosts, rest) := upTo ['/', '?'] rest
  let endpoints ← if hosts = [] then some [] else (splitAll ',' hosts).mapM endpoint?
  let (path, rest) := upTo ['?'] rest
  let database ← match path with
    | [] | ['/'] => some []
    | _ :: name => (Percent.decodeText? name).map fun name => [("dbname".toList, name)]
  return endpoints ++ database ++ (← query? (rest.drop 1))

/-- The settings of a connection text, which is a URL or a list of keywords and values. -/
def read? (s : String) : Option (List Setting) := do
  let settings ←
    if s.startsWith "postgres://" then url? (s.toList.drop 11)
    else if s.startsWith "postgresql://" then url? (s.toList.drop 13)
    else words? s.toList
  if settings.all isKnown then some settings else none

/-- A text to connect with names a database. Of several, the last one counts. -/
def check (s : String) : Except StorageFault Unit :=
  match read? s with
  | none => .error .connectionText
  | some settings =>
    match settings.reverse.lookup "dbname".toList with
    | none => .error .databaseMissing
    | some [] => .error .databaseEmpty
    | some _ => .ok ()

end ModelCatalog.ConnectionText
