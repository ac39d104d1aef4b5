import ModelCatalog.Database.Models
import ModelCatalog.Database.Schema
import ModelCatalog.Database.Tags
import ModelCatalog.Database.Versions

namespace ModelCatalog

/-- A transaction that takes the time at which it runs. The catalog makes one from the arguments of
a call, or refuses them; the arguments alone decide which of the two. -/
abbrev Operation (α : Type) := Instant → Transaction α

namespace Operation

def requireModelName (name : String) : Except CatalogError Unit :=
  demand (!name.isEmpty) (.argument .emptyModelName)

def requireTag (tag : String) : Except CatalogError Unit :=
  demand (!tag.isEmpty) (.argument .emptyTag)

/-- The tags of a list at their first occurrences, none of which may be empty. -/
def creationTags (tags : List String) : Except CatalogError (List String) :=
  go [] tags
where
  go (seen : List String) : List String → Except CatalogError (List String)
    | [] => .ok []
    | tag :: rest => do
      requireTag tag
      if seen.contains tag then go seen rest
      else return tag :: (← go (tag :: seen) rest)

/-- The texts of a list at their first occurrences. -/
def distinct (tags : List String) : List String :=
  (tags.foldl (fun seen tag => if seen.contains tag then seen else tag :: seen) []).reverse

def stageOf (text : String) : Except CatalogError Stage :=
  expect (Stage.ofText? text) (.argument (.unknownStage text))

/-- The model of this name, with its tags. -/
def fetchModel (name : String) : Transaction Model := do
  let r ← Models.find name
  return (← get).modelEntry r

def fetchVersion (key : VersionKey) : Transaction Version := do
  let r ← Versions.find key
  return (← get).versionEntry r

end Operation

/-- Runs an operation. The refusal of arguments comes first, then the lack of a connection. A transaction that
fails is rolled back, whatever its statements had changed by then. -/
def Database.answer {α : Type} (operation : Except CatalogError (Operation α)) (now : Instant)
    (db : Database) : Except CatalogError α × Database :=
  match operation, db.reach with
  | .error e, _ => (.error e, db)
  | .ok _, .error e => (.error e, db)
  | .ok run, .ok () =>
    match run now db.hasTables db.tables with
    | .ok a t => (.ok a, db.store t)
    | .error e _ => (.error e, db)

end ModelCatalog
