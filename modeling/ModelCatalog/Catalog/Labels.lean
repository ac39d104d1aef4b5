import ModelCatalog.Catalog.Operation

namespace ModelCatalog.Operation

def modelOwner (name : String) : String :=
  s!"registered model '{name}'"

def versionOwner (key : VersionKey) : String :=
  "version " ++ Decimal.toText key.number ++ s!" of registered model '{key.model}'"

/-- Puts a tag in front of the model's tags. A tag that is there already changes nothing. -/
def tagModel (name tag : String) : Except CatalogError (Operation Unit) := do
  requireTag tag
  return fun now => do
    let _ ← Models.find name
    if ← ModelTags.prepend name tag then Models.touch name now.stored

def untagModel (name tag : String) : Except CatalogError (Operation Unit) := do
  requireTag tag
  return fun now => do
    let _ ← Models.find name
    demand (← ModelTags.remove name tag) (.tagNotFound (modelOwner name) tag)
    Models.touch name now.stored

/-- Puts a tag in front of the version's tags. A tag that is there already changes nothing. -/
def tagVersion (key : VersionKey) (tag : String) : Except CatalogError (Operation Unit) := do
  requireTag tag
  return fun now => do
    let _ ← Versions.find key
    if ← VersionTags.prepend key tag then
      Versions.touch key now.stored
      Models.touch key.model now.stored

def untagVersion (key : VersionKey) (tag : String) : Except CatalogError (Operation Unit) := do
  requireTag tag
  return fun now => do
    let _ ← Versions.find key
    demand (← VersionTags.remove key tag) (.tagNotFound (versionOwner key) tag)
    Versions.touch key now.stored
    Models.touch key.model now.stored

end ModelCatalog.Operation
