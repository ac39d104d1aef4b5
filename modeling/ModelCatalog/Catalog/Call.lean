import ModelCatalog.Catalog.Labels
import ModelCatalog.Catalog.Lookup
import ModelCatalog.Catalog.Registration
import ModelCatalog.Catalog.Versioning

namespace ModelCatalog

/-- A call of one of the catalog's operations, with its arguments. -/
inductive Call where
  | createModel (name : String) (description : Option String) (tags : List String)
  | getModel (name : String)
  | describeModel (name description : String)
  | renameModel (name newName : String)
  | deleteModel (name : String)
  | listModels (filter : Option String) (tags : List String)
  | tagModel (name tag : String)
  | untagModel (name tag : String)
  | createVersion (name : String) (draft : VersionDraft)
  | getVersion (key : VersionKey)
  | describeVersion (key : VersionKey) (description : String)
  | moveVersion (key : VersionKey) (stage : String)
  | deleteVersion (key : VersionKey)
  | listVersions (name : String) (tags : List String)
  | versionUri (key : VersionKey)
  | tagVersion (key : VersionKey) (tag : String)
  | untagVersion (key : VersionKey) (tag : String)
deriving DecidableEq, Repr

/-- What a successful call answers. -/
inductive Answer where
  | done
  | model (m : Model)
  | models (ms : List Model)
  | version (v : Version)
  | versions (vs : List Version)
  | uri (s : String)
deriving DecidableEq, Repr

def Answer.times : Answer → List Instant
  | model m => m.times
  | models ms => ms.flatMap Model.times
  | version v => v.times
  | versions vs => vs.flatMap Version.times
  | done | uri _ => []

def Answer.isReadable (a : Answer) : Bool :=
  a.times.all Instant.representable

/-- An operation with its value made into an answer. -/
def Operation.answering {α : Type} (f : α → Answer) :
    Except CatalogError (Operation α) → Except CatalogError (Operation Answer)
  | .error e => .error e
  | .ok run => .ok fun now => f <$> run now

namespace Call

open Operation (answering) in
/-- The operation that a call asks for, or the refusal of its arguments. -/
def operation? : Call → Except CatalogError (Operation Answer)
  | createModel name description tags =>
    answering .model (Operation.createModel name description tags)
  | getModel name => answering .model (Operation.getModel name)
  | describeModel name description => answering .model (Operation.describeModel name description)
  | renameModel name newName => answering .model (Operation.renameModel name newName)
  | deleteModel name => answering (fun _ => .done) (Operation.deleteModel name)
  | listModels filter tags => answering .models (Operation.listModels filter tags)
  | tagModel name tag => answering (fun _ => .done) (Operation.tagModel name tag)
  | untagModel name tag => answering (fun _ => .done) (Operation.untagModel name tag)
  | createVersion name draft => answering .version (Operation.createVersion name draft)
  | getVersion key => answering .version (Operation.getVersion key)
  | describeVersion key description =>
    answering .version (Operation.describeVersion key description)
  | moveVersion key stage => answering .version (Operation.moveVersion key stage)
  | deleteVersion key => answering (fun _ => .done) (Operation.deleteVersion key)
  | listVersions name tags => answering .versions (Operation.listVersions name tags)
  | versionUri key => answering .uri (Operation.versionUri key)
  | tagVersion key tag => answering (fun _ => .done) (Operation.tagVersion key tag)
  | untagVersion key tag => answering (fun _ => .done) (Operation.untagVersion key tag)

end Call

def Database.call (c : Call) (now : Instant) (db : Database) :
    Except CatalogError Answer × Database :=
  db.answer c.operation? now

/-- A call of which the answer is read. That breaks off, and nothing is changed, if a time in it
cannot be read back from where it is stored: a leap second may fall into the year after the last. -/
def Database.perform? (c : Call) (now : Instant) (db : Database) :
    Option (Except CatalogError Answer × Database) :=
  match db.call c now with
  | (.error e, after) => some (.error e, after)
  | (.ok answer, after) => if answer.isReadable then some (.ok answer, after) else none

end ModelCatalog
