import ModelCatalog.Catalog.Operation

namespace ModelCatalog.Operation

def createModel (name : String) (description : Option String) (tags : List String) :
    Except CatalogError (Operation Model) := do
  requireModelName name
  let tags ← creationTags tags
  return fun now => do
    demand (← Models.insert name now.stored description) (.modelExists name)
    ModelTags.insertAll name 0 tags
    return ⟨name, now, now, description, tags⟩

def describeModel (name description : String) : Except CatalogError (Operation Model) :=
  .ok fun now => do
    Models.describe name description now.stored
    fetchModel name

/-- A key that is taken means that a model of the new name exists. -/
def unlessTaken {α : Type} (newName : String) (run : Transaction α) : Transaction α := fun there t =>
  match run there t with
  | .error (.storage (.duplicate _)) t' => .error (.modelExists newName) t'
  | result => result

/-- Gives a model another name and takes its tags, versions and version tags along. While the four
tables are changed one by one, references are not checked. -/
def renameModel (name newName : String) : Except CatalogError (Operation Model) := do
  requireModelName newName
  demand (name ≠ newName) (.argument (.sameModelName name))
  return fun now => do
    let _ ← Models.find name
    demand (← Models.find? newName).isNone (.modelExists newName)
    unlessTaken newName (Models.rename name newName now.stored)
    ModelTags.rekey name newName
    Versions.rekey name newName
    VersionTags.rekey name newName
    let model ← fetchModel newName
    checkReferences (← get)
    return model

/-- Deletes a model together with its versions and all tags. -/
def deleteModel (name : String) : Except CatalogError (Operation Unit) :=
  .ok fun _ => do
    let _ ← Models.find name
    VersionTags.deleteModel name
    Versions.deleteModel name
    ModelTags.deleteModel name
    Models.delete name

end ModelCatalog.Operation
