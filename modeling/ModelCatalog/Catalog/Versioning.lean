import ModelCatalog.Catalog.Operation

namespace ModelCatalog.Operation

/-- Creates the next version of a model. Numbers start at 1 and are never handed out twice, because
the counter stays when a version is deleted. -/
def createVersion (name : String) (draft : VersionDraft) :
    Except CatalogError (Operation Version) := do
  let tags ← creationTags draft.tags
  return fun now => do
    let number ← Models.nextNumber name now.stored
    let key : VersionKey := ⟨name, number⟩
    Versions.insert key draft now.stored
    VersionTags.insertAll key 0 tags
    return {
      model := name, number := number, id := draft.id, user := draft.user
      experiment := draft.experiment, modelType := draft.modelType, stage := .initial
      createdAt := now, updatedAt := now, dataset := none, description := draft.description
      tags := tags }

def describeVersion (key : VersionKey) (description : String) :
    Except CatalogError (Operation Version) :=
  .ok fun now => do
    Versions.describe key description now.stored
    Models.touch key.model now.stored
    fetchVersion key

/-- Moves a version to another stage. The text is checked before any row is looked at. -/
def moveVersion (key : VersionKey) (stage : String) : Except CatalogError (Operation Version) := do
  let stage ← stageOf stage
  return fun now => do
    Versions.move key stage now.stored
    Models.touch key.model now.stored
    fetchVersion key

def deleteVersion (key : VersionKey) : Except CatalogError (Operation Unit) :=
  .ok fun now => do
    let _ ← Versions.find key
    VersionTags.delete key
    Versions.delete key
    Models.touch key.model now.stored

end ModelCatalog.Operation
