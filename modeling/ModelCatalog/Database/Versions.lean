import ModelCatalog.Database.Transaction

namespace ModelCatalog.Versions

/-- Adds a row for a new version in the initial stage. -/
def insert (key : VersionKey) (draft : VersionDraft) (now : Timestamp) : Transaction Unit := do
  statement .versions [.text key.model, .text draft.id, .text draft.user, .text draft.experiment,
    .text draft.modelType, .time now, .time now, .texts draft.description.toList]
  let name ← fit nameWidth key.model
  let id ← fit labelWidth draft.id
  let user ← fit labelWidth draft.user
  let experiment ← fit labelWidth draft.experiment
  let modelType ← fit labelWidth draft.modelType
  let description ← fitOptional descriptionWidth draft.description
  let key := VersionKey.mk name key.number
  let t ← get
  demandFree (t.hasVersion key) (.version key)
  demandParent (t.hasModel name) .versions (.model name)
  set { t with versions := t.versions ++
    [VersionRow.mk key id user experiment modelType .initial now now none description] }

def find? (key : VersionKey) : Transaction (Option VersionRow) := do
  statement .versions [.text key.model]
  return (← get).version? key

/-- The row with this key, which has to be there. -/
def find (key : VersionKey) : Transaction VersionRow := do
  expect (← find? key) (.versionNotFound key)

/-- Changes the row with this key, which has to be there. -/
def change (key : VersionKey) (f : VersionRow → VersionRow) : Transaction Unit := do
  let t ← get
  demand (t.hasVersion key) (.versionNotFound key)
  set (t.updateVersion key f)

def touch (key : VersionKey) (now : Timestamp) : Transaction Unit := do
  statement .versions [.text key.model, .time now]
  change key fun r => { r with updatedAt := now }

def describe (key : VersionKey) (description : String) (now : Timestamp) : Transaction Unit := do
  statement .versions [.text key.model, .text description, .time now]
  let description ← fit descriptionWidth description
  change key fun r => { r with description := some description, updatedAt := now }

def move (key : VersionKey) (stage : Stage) (now : Timestamp) : Transaction Unit := do
  statement .versions [.text key.model, .time now]
  change key fun r => { r with stage := stage, updatedAt := now }

/-- Sets the dataset and answers the number of rows that changed. -/
def setDataset (key : VersionKey) (dataset : Option String) : Transaction Nat := do
  statement .versions [.text key.model, .texts dataset.toList]
  let dataset ← fitOptional datasetWidth dataset
  let t ← get
  set (t.updateVersion key fun r => { r with dataset := dataset })
  return t.versions.countP (·.key = key)

/-- The key of a version once its model has another name. -/
def moved (name newName : String) (key : VersionKey) : VersionKey :=
  if key.model = name then { key with model := newName } else key

/-- Moves the rows of one model to another name. -/
def rekey (name newName : String) : Transaction Unit := do
  statement .versions [.text name, .text newName]
  let newName ← fit nameWidth newName
  let t ← get
  let clash := t.versions.find? fun r =>
    moved name newName r.key ≠ r.key && t.hasVersion (moved name newName r.key)
  demandNoClash (clash.map fun r => .version (moved name newName r.key))
  let rows := t.versions.map fun r => { r with key := moved name newName r.key }
  set { t with versions := rows }

/-- Deletes the rows whose key is picked, unless tags still refer to them. -/
def deleteWhere (picked : VersionKey → Bool) : Transaction Unit := do
  let t ← get
  let held := t.versions.find? fun r => picked r.key && t.versionTags.any (·.owner = r.key)
  refuseIf (held.map fun r => .storage (.referenced (.version r.key) .versionTags))
  set { t with versions := t.versions.filter fun r => !picked r.key }

def delete (key : VersionKey) : Transaction Unit := do
  statement .versions [.text key.model]
  deleteWhere (· = key)

def deleteModel (name : String) : Transaction Unit := do
  statement .versions [.text name]
  deleteWhere (·.model = name)

/-- The rows of a model that have as many of the wanted tags as there are, in the order of their
numbers. -/
def select (name : String) (wanted : List String) : Transaction (List VersionRow) := do
  statement .versions [.text name, .texts wanted]
  let t ← get
  let rows := t.versions.filter fun r =>
    r.key.model = name && TagRow.count r.key wanted t.versionTags = wanted.length
  return rows.mergeSort (·.key.number ≤ ·.key.number)

end ModelCatalog.Versions
