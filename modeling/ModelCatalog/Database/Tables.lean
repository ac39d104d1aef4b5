import ModelCatalog.CatalogError
import ModelCatalog.Entry.Model
import ModelCatalog.Entry.Version

namespace ModelCatalog

/-- A row of the model table. The counter is the highest version number handed out so far. -/
structure ModelRow where
  name : String
  createdAt : Timestamp
  updatedAt : Timestamp
  description : Option String
  counter : Int
deriving DecidableEq, Repr

structure VersionRow where
  key : VersionKey
  id : String
  user : String
  experiment : String
  modelType : String
  stage : Stage
  createdAt : Timestamp
  updatedAt : Timestamp
  dataset : Option String
  description : Option String
deriving DecidableEq, Repr

/-- One tag of an owner. The tags of an owner are read in the order of their positions. -/
structure TagRow (κ : Type) where
  owner : κ
  tag : String
  position : Int
deriving DecidableEq, Repr

/-- The rows of the catalog. Models own tags by name, versions by name and number. -/
structure Tables where
  models : List ModelRow
  modelTags : List (TagRow String)
  versions : List VersionRow
  versionTags : List (TagRow VersionKey)
deriving DecidableEq, Repr

def Tables.empty : Tables :=
  ⟨[], [], [], []⟩

namespace TagRow

variable {κ : Type} [DecidableEq κ]

/-- The tags of an owner, in the order in which they are read. -/
def read (owner : κ) (rows : List (TagRow κ)) : List String :=
  ((rows.filter (·.owner = owner)).mergeSort (·.position ≤ ·.position)).map (·.tag)

def has (owner : κ) (tag : String) (rows : List (TagRow κ)) : Bool :=
  rows.any fun r => r.owner = owner && r.tag = tag

/-- The position in front of all tags of an owner. -/
def front (owner : κ) (rows : List (TagRow κ)) : Int :=
  (((rows.filter (·.owner = owner)).map (·.position)).min?).getD 0 - 1

def count (owner : κ) (wanted : List String) (rows : List (TagRow κ)) : Nat :=
  rows.countP fun r => r.owner = owner && wanted.contains r.tag

def remove (owner : κ) (tag : String) (rows : List (TagRow κ)) : List (TagRow κ) :=
  rows.filter fun r => !(r.owner = owner && r.tag = tag)

def removeOwners (gone : κ → Bool) (rows : List (TagRow κ)) : List (TagRow κ) :=
  rows.filter fun r => !gone r.owner

def rekey (move : κ → κ) (rows : List (TagRow κ)) : List (TagRow κ) :=
  rows.map fun r => { r with owner := move r.owner }

/-- A row that would get the key of a row that stays where it is. -/
def clash? (move : κ → κ) (rows : List (TagRow κ)) : Option (TagRow κ) :=
  rows.find? fun r =>
    move r.owner ≠ r.owner &&
      rows.any fun s => move s.owner = s.owner && s.owner = move r.owner && s.tag = r.tag

end TagRow

/-- The model that a row and its tags stand for. -/
def ModelRow.entry (r : ModelRow) (tags : List String) : Model where
  name := r.name
  createdAt := r.createdAt.instant
  updatedAt := r.updatedAt.instant
  description := r.description
  tags := tags

def VersionRow.entry (r : VersionRow) (tags : List String) : Version where
  model := r.key.model
  number := r.key.number
  id := r.id
  user := r.user
  experiment := r.experiment
  modelType := r.modelType
  stage := r.stage
  createdAt := r.createdAt.instant
  updatedAt := r.updatedAt.instant
  dataset := r.dataset
  description := r.description
  tags := tags

namespace Tables

def model? (name : String) (t : Tables) : Option ModelRow :=
  t.models.find? (·.name = name)

def version? (key : VersionKey) (t : Tables) : Option VersionRow :=
  t.versions.find? (·.key = key)

def hasModel (name : String) (t : Tables) : Bool :=
  t.models.any (·.name = name)

def hasVersion (key : VersionKey) (t : Tables) : Bool :=
  t.versions.any (·.key = key)

/-- Changes the row of one model. -/
def updateModel (name : String) (f : ModelRow → ModelRow) (t : Tables) : Tables :=
  { t with models := t.models.map fun r => if r.name = name then f r else r }

/-- Changes the row of one version. -/
def updateVersion (key : VersionKey) (f : VersionRow → VersionRow) (t : Tables) : Tables :=
  { t with versions := t.versions.map fun r => if r.key = key then f r else r }

def modelEntry (t : Tables) (r : ModelRow) : Model :=
  r.entry (TagRow.read r.name t.modelTags)

def versionEntry (t : Tables) (r : VersionRow) : Version :=
  r.entry (TagRow.read r.key t.versionTags)

/-- The reference of some row to a row that is not there. -/
def dangling? (t : Tables) : Option (Relation × RowKey) :=
  let tag := t.modelTags.find? fun r => !t.hasModel r.owner
  let version := t.versions.find? fun r => !t.hasModel r.key.model
  let versionTag := t.versionTags.find? fun r => !t.hasVersion r.owner
  match tag, version, versionTag with
  | some r, _, _ => some (.modelTags, .model r.owner)
  | none, some r, _ => some (.versions, .model r.key.model)
  | none, none, some r => some (.versionTags, .version r.owner)
  | none, none, none => none

end Tables

end ModelCatalog
