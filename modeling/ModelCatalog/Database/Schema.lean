import ModelCatalog.Database.Tables

namespace ModelCatalog

/-- What a connection finds: no server, a server without the catalog's tables, or the tables. A server is
`homeless` for a catalog without a schema of its own once the default schema itself was dropped. -/
inductive Database where
  | unreachable
  | homeless
  | dropped
  | live (tables : Tables)
deriving DecidableEq, Repr

/-- The name under which errors speak of the catalog's database. -/
def databaseName : String :=
  "registry"

/-- A dedicated schema needs a well-formed name. -/
def checkSchema : Option String → Except CatalogError Unit
  | none => .ok ()
  | some name => demand (isIdentifier name) (.argument (.schemaName name))

/-- The schema that holds the tables. Without a dedicated one that is the server's default. -/
def homeSchema (schema : Option String) : String :=
  schema.getD "public"

namespace Database

/-- The rows a database holds; none without a connection or without the tables. -/
def tables : Database → Tables
  | live t => t
  | _ => .empty

def hasTables : Database → Bool
  | live _ => true
  | _ => false

/-- The database with other rows in its tables, if it has any. -/
def store (t : Tables) : Database → Database
  | live _ => live t
  | db => db

/-- The server answers, whether or not there are tables. -/
def reach : Database → Except CatalogError Unit
  | unreachable => .error (.unreachable databaseName)
  | _ => .ok ()

/-- Makes the schema and the tables as far as they are missing. The default schema is never made. -/
def ensure (schema : Option String) (db : Database) : Except CatalogError Database := do
  checkSchema schema
  db.reach
  refuseIf <| schema.bind fun name =>
    (SchemaRefusal.of? name).map fun refusal => .storage (.schemaRefused name refusal)
  match schema, db with
  | _, live t => return live t
  | none, homeless => throw (.storage .noSchema)
  | _, _ => return live .empty

/-- What a catalog's database is once its own schema was dropped. -/
def bare (own : Option String) : Database :=
  if own.isSome then dropped else homeless

/-- Drops a dedicated schema with all that is in it. Without one nothing is ever dropped, and the tables of a
catalog that has its own in another schema stay. -/
def drop (own dedicated : Option String) (db : Database) : Except CatalogError Database := do
  checkSchema dedicated
  let name ← expect dedicated (.argument .noDedicatedSchema)
  db.reach
  match SchemaRefusal.of? name with
  | some .keyword | some .unfinished => throw (.storage (.schemaKept name))
  | _ => return if name = homeSchema own then bare own else db

end Database

end ModelCatalog
