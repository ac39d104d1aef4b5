namespace ModelCatalog

/-- A schema name is a lower-case identifier of ASCII letters, digits and underscores, at most 63
long and not starting with a digit, so that it needs no quotes wherever it is written. -/
def isIdentifier (s : String) : Bool :=
  match s.toList with
  | [] => false
  | c :: rest =>
    (c.isLower || c == '_') && rest.all (fun c => c.isLower || c.isDigit || c == '_') &&
      rest.length ≤ 62

/-- Why the server refuses to make a schema with a well-formed name. -/
inductive SchemaRefusal where
  | serverPrefix
  | keyword
  | unfinished
deriving DecidableEq, Repr

namespace SchemaRefusal

/-- The words that the server's grammar keeps for itself where a schema name is expected. -/
def keywords : List String :=
  ["all", "analyse", "analyze", "and", "any", "array", "as", "asc", "asymmetric", "binary", "both",
    "case", "cast", "check", "collate", "collation", "column", "concurrently", "constraint",
    "create", "cross", "current_catalog", "current_date", "current_role", "current_schema",
    "current_time", "current_timestamp", "current_user", "default", "deferrable", "desc",
    "distinct", "do", "else", "end", "except", "false", "fetch", "for", "foreign", "freeze", "from",
    "full", "grant", "group", "having", "ilike", "in", "initially", "inner", "intersect", "into",
    "is", "isnull", "join", "lateral", "leading", "left", "like", "limit", "localtime",
    "localtimestamp", "natural", "not", "notnull", "null", "offset", "on", "only", "or", "order",
    "outer", "overlaps", "placing", "primary", "references", "returning", "right", "select",
    "session_user", "similar", "some", "symmetric", "system_user", "table", "tablesample", "then",
    "to", "trailing", "true", "union", "unique", "user", "using", "variadic", "verbose", "when",
    "where", "window", "with"]

/-- The word `authorization` starts another form of the command, which then ends too early. -/
def of? (name : String) : Option SchemaRefusal :=
  if name = "authorization" then some unfinished
  else if keywords.contains name then some keyword
  else if name.startsWith "pg_" then some serverPrefix
  else none

def message (name : String) : SchemaRefusal → String
  | serverPrefix =>
    s!"unacceptable schema name \"{name}\" - The prefix \"pg_\" is reserved for system schemas."
  | keyword => s!"syntax error at or near \"{name}\""
  | unfinished => "syntax error at end of input"

end SchemaRefusal

end ModelCatalog
