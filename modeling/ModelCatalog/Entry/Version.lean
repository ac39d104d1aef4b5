import ModelCatalog.Entry.Stage
import ModelCatalog.Number.Decimal
import ModelCatalog.Time.Instant

namespace ModelCatalog

/-- The name of a model and the number of one of its versions. -/
structure VersionKey where
  model : String
  number : Int
deriving DecidableEq, Repr

/-- A numbered snapshot of a registered model. `id` comes from outside, for instance from the run
that produced it. -/
structure Version where
  model : String
  number : Int
  id : String
  user : String
  experiment : String
  modelType : String
  stage : Stage
  createdAt : Instant
  updatedAt : Instant
  dataset : Option String
  description : Option String
  tags : List String
deriving DecidableEq, Repr

/-- What the caller supplies for a new version. Number, stage and times are assigned to it. -/
structure VersionDraft where
  id : String
  user : String
  experiment : String
  modelType : String
  description : Option String := none
  tags : List String := []
deriving DecidableEq, Repr

/-- Where the artifact of a version lies. -/
def artifactUri (id model : String) (number : Int) : String :=
  "s3://submarine/registry/" ++ id ++ "/" ++ model ++ "/" ++ Decimal.toText number

def Version.times (v : Version) : List Instant :=
  [v.createdAt, v.updatedAt]

def Version.uri (v : Version) : String :=
  artifactUri v.id v.model v.number

end ModelCatalog
