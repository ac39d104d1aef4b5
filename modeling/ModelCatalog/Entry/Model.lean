import ModelCatalog.Time.Instant

namespace ModelCatalog

/-- A registered model: the named home of its versions. The newest tag comes first, the tags given
at creation come last and in the order given. -/
structure Model where
  name : String
  createdAt : Instant
  updatedAt : Instant
  description : Option String
  tags : List String
deriving DecidableEq, Repr

def Model.times (m : Model) : List Instant :=
  [m.createdAt, m.updatedAt]

end ModelCatalog
