import ModelCatalog.Number.Decimal
import ModelCatalog.Settings.Redaction
import ModelCatalog.Text.Blank
import ModelCatalog.Text.Percent

namespace ModelCatalog

/-- How to reach the database and where to write logs. -/
structure Settings where
  databaseUrl : String
  schema : Option String := none
  maxConnections : Nat := 10
  timeoutSeconds : Nat := 5
  logDirectory : Option String := none
deriving DecidableEq, Repr

inductive SettingsError where
  | noConnections
deriving DecidableEq, Repr

def SettingsError.message : SettingsError → String
  | noConnections => "MAX_CONNECTIONS must be at least 1"

namespace Settings

/-- The URL made of its parts. Only the password is percent-encoded. -/
def urlOf (user password host number name : String) : String :=
  "postgres://" ++ user ++ ":" ++ String.ofList (Percent.encode password.toList) ++ "@" ++ host ++
    ":" ++ number ++ "/" ++ name

/-- A number of the range, or the default if the variable is missing or is no such number. -/
def numberOr (default : Nat) (r : Range) (text : Option String) : Nat :=
  match text.bind fun s => Decimal.inRange? r s.toList with
  | some i => i.toNat
  | none => default

/-- The settings that a set of variables describes. -/
def ofVariables (lookup : String → Option String) : Except SettingsError Settings := do
  let part (name default : String) : String := (lookup name).getD default
  let databaseUrl := (lookup "DATABASE_URL").getD <|
    urlOf (part "DB_USER" "submarine") (part "DB_PASSWORD" "password") (part "DB_HOST" "localhost")
      (part "DB_PORT" "5432") (part "DB_NAME" "submarine")
  let maxConnections := numberOr 10 .unsigned32 (lookup "MAX_CONNECTIONS")
  if maxConnections = 0 then throw .noConnections
  else return {
    databaseUrl := databaseUrl
    schema := (lookup "MODEL_REGISTRY_SCHEMA").filter fun s => !s.toList.all isBlank
    maxConnections := maxConnections
    timeoutSeconds := numberOr 5 .unsigned64 (lookup "POOL_TIMEOUT_SECS")
    logDirectory := lookup "LOG_DIR" }

/-- The URL as it may be shown. -/
def shownUrl (s : Settings) : Option String :=
  redact s.databaseUrl

end Settings

end ModelCatalog
