import ModelCatalog.Catalog.Call

namespace ModelCatalog

/-- A catalog in use: the schema it was opened for, its time source and what its database is. -/
structure Catalog where
  schema : Option String
  clock : Clock
  database : Database
deriving Repr

/-- All that can be done with a catalog in use. `writeDataset` and `writeCounter` set a column
directly, past the operations. -/
inductive Event where
  | call (c : Call)
  | ping
  | ensureSchema
  | dropSchema (schema : Option String)
  | setClock (t : Instant)
  | writeDataset (key : VersionKey) (dataset : Option String)
  | writeCounter (name : String) (number : Int)
  | snapshot
deriving DecidableEq, Repr

inductive Reply where
  | done
  | answer (a : Answer)
  | time (t : Instant)
  | rows (n : Nat)
  | snapshot (entries : List (Model × List Version))
deriving DecidableEq, Repr

/-- What comes of an event: a reply, a refusal, or nothing where it breaks off. -/
abbrev Response := Option (Except CatalogError Reply)

namespace Catalog

/-- Runs an operation under the catalog's clock. -/
def run {α : Type} (c : Catalog) (operation : Except CatalogError (Operation α)) :
    Except CatalogError α × Catalog :=
  let (result, database) := c.database.answer operation c.clock.reading
  (result, { c with database := database })

/-- Makes a call under the catalog's clock. One that breaks off leaves the catalog as it is. -/
def call? (c : Catalog) (call : Call) : Option (Except CatalogError Answer) × Catalog :=
  match c.database.perform? call c.clock.reading with
  | some (result, database) => (some result, { c with database := database })
  | none => (none, c)

/-- All models, each with all its versions. -/
def snapshot (c : Catalog) : Except CatalogError (List (Model × List Version)) := do
  let models ← (c.run (Operation.listModels none [])).1
  models.mapM fun m => do
    return (m, ← (c.run (Operation.listVersions m.name [])).1)

/-- All models with all their versions, unless one of their times cannot be read. -/
def snapshot? (c : Catalog) : Option (Except CatalogError (List (Model × List Version))) :=
  match c.snapshot with
  | .error e => some (.error e)
  | .ok entries =>
    let times := entries.flatMap fun (m, vs) => m.times ++ vs.flatMap Version.times
    if times.all Instant.representable then some (.ok entries) else none

def withDatabase (c : Catalog) (result : Except CatalogError Database) : Response × Catalog :=
  match result with
  | .ok database => (some (.ok .done), { c with database := database })
  | .error e => (some (.error e), c)

def step (c : Catalog) : Event → Response × Catalog
  | .call call => (c.call? call).map (·.map (·.map .answer)) id
  | .ping => (some (c.database.reach.map fun _ => .done), c)
  | .ensureSchema => c.withDatabase (c.database.ensure c.schema)
  | .dropSchema schema => c.withDatabase (c.database.drop c.schema schema)
  | .setClock t =>
    let clock := Clock.showing t
    (some (.ok (.time clock.reading)), { c with clock := clock })
  | .writeDataset key dataset =>
    (c.run (.ok fun _ => Versions.setDataset key dataset)).map (some <| ·.map .rows) id
  | .writeCounter name number =>
    (c.run (.ok fun _ => Models.setCounter name number)).map (some <| ·.map .rows) id
  | .snapshot => (c.snapshot?.map (·.map .snapshot), c)

/-- Runs events one after the other; one that fails or breaks off does not end the sequence. -/
def steps (c : Catalog) : List Event → List Response × Catalog
  | [] => ([], c)
  | e :: rest =>
    let (response, c) := c.step e
    let (responses, c) := c.steps rest
    (response :: responses, c)

/-- The replies to a sequence of events, if none of them breaks off. -/
def replies? (c : Catalog) (events : List Event) : Option (List (Except CatalogError Reply)) :=
  (c.steps events).1.mapM id

end Catalog

end ModelCatalog
