import ModelCatalog.CommandLine.Arguments
import ModelCatalog.CommandLine.Folder
import ModelCatalog.Entry.Wire
import ModelCatalog.Json.Printer
import ModelCatalog.Settings.Connection
import ModelCatalog.Settings.EnvFile
import ModelCatalog.Time.Rfc3339

namespace ModelCatalog.CommandLine

/-- How a run of the program ends. There is no error text where the wording is the argument
reader's own. -/
structure Outcome where
  code : Nat
  out : String
  err : Option String
deriving DecidableEq, Repr

/-- A database server at a URL, with the tables of each schema that has them. -/
structure Server where
  url : String
  schemas : List (String × Tables)
deriving Repr

/-- All that a run of the program finds and leaves behind. On a server that is `homeless` the default schema was
dropped. -/
structure World where
  server : Server
  environment : Environment
  envFile : Option String
  folder : Folder
  homeless : Bool := false
deriving Repr

namespace World

/-- The schema in which the settings look for the tables. -/
def schemaOf (s : Settings) : String :=
  homeSchema s.schema

def database (w : World) (s : Settings) : Database :=
  if s.databaseUrl = w.server.url then
    match w.server.schemas.lookup (schemaOf s) with
    | some tables => .live tables
    | none => if w.homeless ∧ s.schema = none then .homeless else .dropped
  else .unreachable

/-- The world once the database that the settings name has become this one. -/
def withDatabase (w : World) (s : Settings) (db : Database) : World :=
  match db with
  | .live tables =>
    let others := w.server.schemas.filter fun entry => entry.1 ≠ schemaOf s
    { w with server.schemas := (schemaOf s, tables) :: others }
  | .dropped | .homeless | .unreachable => w

end World

def programVersion : String :=
  "model-registry 0.1.0"

def json (v : Json.Value) : String :=
  Json.print v

/-- What a command prints when it succeeds. -/
def confirmation (call : Call) : Answer → String
  | .model m => json m.toJson
  | .models ms => json (.array (ms.map Model.toJson))
  | .version v => json v.toJson
  | .versions vs => json (.array (vs.map Version.toJson))
  | .uri s => s
  | .done =>
    match call with
    | .deleteModel name => s!"Deleted registered model '{name}'"
    | .deleteVersion key =>
      "Deleted version " ++ Decimal.toText key.number ++ s!" of registered model '{key.model}'"
    | _ => ""

def printed (line : String) : Outcome :=
  ⟨0, line ++ "\n", some ""⟩

def failed (message : String) : Outcome :=
  ⟨1, "", some ("Error: " ++ message ++ "\n")⟩

/-- The program breaks off in the middle. -/
def brokenOff : Outcome :=
  ⟨101, "", none⟩

/-- The file for the logs of a day. -/
def logName (now : Instant) : String :=
  "model-registry.log." ++ String.ofList (Rfc3339.dateText now.day)

/-- Runs a command on a database that has answered. -/
def perform (s : Settings) (now : Instant) (db : Database) : Command → Outcome × Database
  | .init =>
    match db.ensure s.schema with
    | .ok db => (printed "Registry schema is ready", db)
    | .error e => (failed e.message, db)
  | .perform call =>
    match db.perform? call now with
    | some (.ok answer, db) => (printed (confirmation call answer), db)
    | some (.error e, db) => (failed e.message, db)
    | none => (brokenOff, db)

/-- Connects and runs a command. Where the URL cannot be shown the program breaks off. -/
def connected (w : World) (s : Settings) (now : Instant) (command : Command) : Outcome × World :=
  let db := w.database s
  match s.connect? (db ≠ .unreachable) with
  | none => (brokenOff, w)
  | some (.error e) => (failed e.message, w)
  | some (.ok _) =>
    let (outcome, db) := perform s now db command
    (outcome, w.withDatabase s db)

/-- Runs the program. The environment file is read first, then the settings, then the folder for
logs is made, then the arguments are read, and only then is the database connected. -/
def run (w : World) (now : Instant) (args : List String) : Outcome × World :=
  match w.envFile.elim (some w.environment) w.environment.withFile? with
  | none => (brokenOff, w)
  | some environment =>
    match Settings.ofVariables environment.value? with
    | .error e => (failed e.message, w)
    | .ok s =>
      let (folder, writable) :=
        s.logDirectory.elim (w.folder, true) fun path => w.folder.makeFile path (logName now)
      let w := { w with folder := folder }
      if writable then
        match read args with
        | .error .version => (printed programVersion, w)
        | .error .help => (⟨0, "", some ""⟩, w)
        | .error .refused => (⟨2, "", none⟩, w)
        | .ok command => connected w s now command
      else (brokenOff, w)

end ModelCatalog.CommandLine
