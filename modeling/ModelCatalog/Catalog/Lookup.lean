import ModelCatalog.Catalog.Operation

namespace ModelCatalog.Operation

def getModel (name : String) : Except CatalogError (Operation Model) :=
  .ok fun _ => fetchModel name

/-- The models whose name contains the filter and that carry every one of the tags. -/
def listModels (filter : Option String) (tags : List String) :
    Except CatalogError (Operation (List Model)) :=
  .ok fun _ => do
    let rows ← Models.select filter (distinct tags)
    let t ← get
    return rows.map t.modelEntry

def getVersion (key : VersionKey) : Except CatalogError (Operation Version) :=
  .ok fun _ => fetchVersion key

/-- The versions of a model that carry every one of the tags; none if there is no such model. -/
def listVersions (name : String) (tags : List String) :
    Except CatalogError (Operation (List Version)) :=
  .ok fun _ => do
    let rows ← Versions.select name (distinct tags)
    let t ← get
    return rows.map t.versionEntry

/-- Where the artifact of a version lies. Only the id is looked up. -/
def versionUri (key : VersionKey) : Except CatalogError (Operation String) :=
  .ok fun _ => do
    let r ← Versions.find key
    return artifactUri r.id key.model key.number

end ModelCatalog.Operation
