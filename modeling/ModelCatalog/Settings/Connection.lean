import ModelCatalog.Database.Schema
import ModelCatalog.Settings.Basic
import ModelCatalog.Settings.ConnectionText

namespace ModelCatalog

/-- A pool of connections that are made when they are asked for. -/
structure Pool where
  size : Nat
  maxSize : Nat
deriving DecidableEq, Repr

namespace Settings

/-- Makes a pool without connecting. The schema name is checked before the connection text. -/
def pool (s : Settings) : Except CatalogError Pool := do
  checkSchema s.schema
  match ConnectionText.check s.databaseUrl with
  | .error fault => throw (.storage fault)
  | .ok () => return ⟨0, s.maxConnections⟩

/-- Makes a pool and asks the server for an answer. There is none if the URL cannot be shown, as
the error would have to. -/
def connect? (s : Settings) (answers : Bool) : Option (Except CatalogError Pool) :=
  match s.pool with
  | .error e => some (.error e)
  | .ok pool => s.shownUrl.map fun url => if answers then .ok pool else .error (.unreachable url)

end Settings

end ModelCatalog
