import Mathlib.Tactic.Simps.Basic
import ModelCatalog.Database.Tags
import ModelCatalog.Proofs.RowLookup
import ModelCatalog.Proofs.TagRows

namespace ModelCatalog

/-- The row of a model that has just been registered. -/
@[simps] def ModelRow.registered (name : String) (now : Timestamp) (description : Option String) : ModelRow where
  name := cut nameWidth name
  createdAt := now
  updatedAt := now
  description := description.map (cut descriptionWidth)
  counter := 0

/-- The key under which a version is stored. -/
def VersionKey.stored (key : VersionKey) : VersionKey :=
  ⟨cut nameWidth key.model, key.number⟩

/-- The row of a version that has just been created. -/
@[simps] def VersionRow.drafted (key : VersionKey) (draft : VersionDraft) (now : Timestamp) : VersionRow where
  key := key.stored
  id := cut labelWidth draft.id
  user := cut labelWidth draft.user
  experiment := cut labelWidth draft.experiment
  modelType := cut labelWidth draft.modelType
  stage := .initial
  createdAt := now
  updatedAt := now
  dataset := none
  description := draft.description.map (cut descriptionWidth)

namespace Tables

variable {t : Tables} {name newName tag : String} {key : VersionKey} {now : Timestamp}

@[simps] def addModel (row : ModelRow) (t : Tables) : Tables :=
  { t with models := t.models ++ [row] }

@[simps] def addVersion (row : VersionRow) (t : Tables) : Tables :=
  { t with versions := t.versions ++ [row] }

@[simps] def addModelTags (rows : List (TagRow String)) (t : Tables) : Tables :=
  { t with modelTags := t.modelTags ++ rows }

@[simps] def addVersionTags (rows : List (TagRow VersionKey)) (t : Tables) : Tables :=
  { t with versionTags := t.versionTags ++ rows }

@[simps] def removeModelTag (name tag : String) (t : Tables) : Tables :=
  { t with modelTags := TagRow.remove name tag t.modelTags }

@[simps] def removeVersionTag (key : VersionKey) (tag : String) (t : Tables) : Tables :=
  { t with versionTags := TagRow.remove key tag t.versionTags }

def touchModel (name : String) (now : Timestamp) (t : Tables) : Tables :=
  t.updateModel name fun r => { r with updatedAt := now }

def touchVersion (key : VersionKey) (now : Timestamp) (t : Tables) : Tables :=
  t.updateVersion key fun r => { r with updatedAt := now }

def describeModel (name text : String) (now : Timestamp) (t : Tables) : Tables :=
  t.updateModel name fun r => { r with description := some (cut descriptionWidth text), updatedAt := now }

def describeVersion (key : VersionKey) (text : String) (now : Timestamp) (t : Tables) : Tables :=
  t.updateVersion key fun r => { r with description := some (cut descriptionWidth text), updatedAt := now }

def moveVersion (key : VersionKey) (stage : Stage) (now : Timestamp) (t : Tables) : Tables :=
  t.updateVersion key fun r => { r with stage := stage, updatedAt := now }

/-- The tables once a model has counted one version further. -/
def countVersion (name : String) (now : Timestamp) (t : Tables) : Tables :=
  t.updateModel name fun r => { r with counter := r.counter + 1, updatedAt := now }

def writeDataset (key : VersionKey) (dataset : Option String) (t : Tables) : Tables :=
  t.updateVersion key fun r => { r with dataset := dataset.map (cut datasetWidth) }

def writeCounter (name : String) (number : Int) (t : Tables) : Tables :=
  t.updateModel name fun r => { r with counter := number }

/-- The tables without a model and all that belongs to it. -/
@[simps] def withoutModel (name : String) (t : Tables) : Tables where
  models := t.models.filter (·.name ≠ name)
  modelTags := TagRow.removeOwners (· = name) t.modelTags
  versions := t.versions.filter (·.key.model ≠ name)
  versionTags := TagRow.removeOwners (·.model = name) t.versionTags

/-- The tables without a version and its tags. -/
@[simps] def withoutVersion (key : VersionKey) (t : Tables) : Tables :=
  { t with
    versions := t.versions.filter (·.key ≠ key)
    versionTags := TagRow.removeOwners (· = key) t.versionTags }

@[simps! modelTags versions versionTags]
def rekeyModel (name newName : String) (now : Timestamp) (t : Tables) : Tables :=
  t.updateModel name fun r => { r with name := newName, updatedAt := now }

@[simps] def rekeyModelTags (name newName : String) (t : Tables) : Tables :=
  { t with modelTags := TagRow.rekey (ModelTags.moved name newName) t.modelTags }

@[simps] def rekeyVersions (name newName : String) (t : Tables) : Tables :=
  { t with versions := t.versions.map fun r => { r with key := Versions.moved name newName r.key } }

@[simps] def rekeyVersionTags (name newName : String) (t : Tables) : Tables :=
  { t with versionTags := TagRow.rekey (Versions.moved name newName) t.versionTags }

/-- The tables once a model has another name in all of them. -/
def renamed (name newName : String) (now : Timestamp) (t : Tables) : Tables :=
  (((t.rekeyModel name newName now).rekeyModelTags name newName).rekeyVersions name newName).rekeyVersionTags
    name newName

theorem moved_model : (Versions.moved name newName key).model = ModelTags.moved name newName key.model := by
  unfold Versions.moved ModelTags.moved
  split <;> rfl

theorem moved_number : (Versions.moved name newName key).number = key.number := by
  unfold Versions.moved
  split <;> rfl

theorem moved_ne_name {other : String} (differ : newName ≠ name) : ModelTags.moved name newName other ≠ name := by
  unfold ModelTags.moved
  split
  · exact differ
  · assumption

theorem moved_eq_newName_iff {other : String} (new : other ≠ newName) :
    ModelTags.moved name newName other = newName ↔ other = name := by
  unfold ModelTags.moved
  split <;> simp_all

theorem moved_eq_other_iff {other owner : String} (old : owner ≠ name) (new : owner ≠ newName) :
    ModelTags.moved name newName other = owner ↔ other = owner := by
  unfold ModelTags.moved
  split
  · subst other
    exact ⟨fun same => absurd same.symm new, fun same => absurd same.symm old⟩
  · exact Iff.rfl

theorem moved_key_eq_iff {old : VersionKey} : Versions.moved name newName old = key ↔
    ModelTags.moved name newName old.model = key.model ∧ old.number = key.number := by
  constructor
  · intro same
    subst same
    exact ⟨moved_model.symm, moved_number.symm⟩
  · intro both
    obtain ⟨model, number⟩ := both
    rw [← moved_model] at model
    rw [← moved_number] at number
    exact congrArg₂ VersionKey.mk model number

theorem renamed_models : (t.renamed name newName now).models =
    t.models.map fun r => if r.name = name then { r with name := newName, updatedAt := now } else r :=
  rfl

theorem renamed_modelTags : (t.renamed name newName now).modelTags =
    TagRow.rekey (ModelTags.moved name newName) t.modelTags :=
  rfl

theorem renamed_versions : (t.renamed name newName now).versions =
    t.versions.map fun r => { r with key := Versions.moved name newName r.key } :=
  rfl

theorem renamed_versionTags : (t.renamed name newName now).versionTags =
    TagRow.rekey (Versions.moved name newName) t.versionTags :=
  rfl

theorem names_renamed : (t.renamed name newName now).names = t.names.map (ModelTags.moved name newName) := by
  simp only [names, renamed, rekeyVersionTags_models, rekeyVersions_models, rekeyModelTags_models, rekeyModel,
    updateModel, List.map_map, Function.comp_def, ModelTags.moved]
  congr 1
  funext r
  split <;> rfl

theorem keys_renamed : (t.renamed name newName now).keys = t.keys.map (Versions.moved name newName) := by
  simp only [keys, renamed, rekeyVersionTags_versions, rekeyVersions_versions, rekeyModelTags_versions,
    rekeyModel_versions, List.map_map, Function.comp_def]

@[simp] theorem keys_rekeyModel : (t.rekeyModel name newName now).keys = t.keys :=
  rfl

@[simp] theorem keys_rekeyModelTags : (t.rekeyModelTags name newName).keys = t.keys :=
  rfl

@[simp] theorem names_addModel {row : ModelRow} : (t.addModel row).names = t.names ++ [row.name] :=
  List.map_append

@[simp] theorem names_addVersion {row : VersionRow} : (t.addVersion row).names = t.names :=
  rfl

@[simp] theorem keys_addVersion {row : VersionRow} : (t.addVersion row).keys = t.keys ++ [row.key] :=
  List.map_append

theorem model?_addModel {row : ModelRow} (new : row.name ∉ t.names) (other : String) :
    (t.addModel row).model? other = if other = row.name then some row else t.model? other := by
  rw [model?, addModel_models, List.find?_append, List.find?_singleton]
  by_cases same : other = row.name
  · subst same
    have absent : t.models.find? (·.name = row.name) = none := find?_key_eq_none_iff.mpr new
    rw [absent, if_pos rfl, if_pos (decide_eq_true rfl), Option.none_or]
  · rw [if_neg same, if_neg (by simpa using Ne.symm same), Option.or_none]
    rfl

theorem version?_addVersion {row : VersionRow} (new : row.key ∉ t.keys) :
    (t.addVersion row).version? row.key = some row := by
  have absent : t.versions.find? (·.key = row.key) = none := find?_key_eq_none_iff.mpr new
  rw [version?, addVersion_versions, List.find?_append, absent, List.find?_singleton, if_pos (decide_eq_true rfl),
    Option.none_or]

@[simp] theorem names_addModelTags {rows : List (TagRow String)} : (t.addModelTags rows).names = t.names :=
  rfl

@[simp] theorem names_addVersionTags {rows : List (TagRow VersionKey)} :
    (t.addVersionTags rows).names = t.names :=
  rfl

@[simp] theorem keys_addVersionTags {rows : List (TagRow VersionKey)} : (t.addVersionTags rows).keys = t.keys :=
  rfl

@[simp] theorem names_removeModelTag : (t.removeModelTag name tag).names = t.names :=
  rfl

@[simp] theorem names_removeVersionTag : (t.removeVersionTag key tag).names = t.names :=
  rfl

@[simp] theorem names_withoutVersion : (t.withoutVersion key).names = t.names :=
  rfl

@[simp] theorem keys_removeVersionTag : (t.removeVersionTag key tag).keys = t.keys :=
  rfl

@[simp] theorem names_touchModel {name : String} : (t.touchModel name now).names = t.names :=
  names_updateModel fun _ => rfl

@[simp] theorem keys_touchModel : (t.touchModel name now).keys = t.keys :=
  rfl

@[simp] theorem names_touchVersion : (t.touchVersion key now).names = t.names :=
  rfl

@[simp] theorem keys_touchVersion : (t.touchVersion key now).keys = t.keys :=
  keys_updateVersion fun _ => rfl

@[simp] theorem names_describeModel {text : String} : (t.describeModel name text now).names = t.names :=
  names_updateModel fun _ => rfl

@[simp] theorem names_describeVersion {text : String} : (t.describeVersion key text now).names = t.names :=
  rfl

@[simp] theorem keys_describeVersion {text : String} : (t.describeVersion key text now).keys = t.keys :=
  keys_updateVersion fun _ => rfl

@[simp] theorem keys_moveVersion {stage : Stage} : (t.moveVersion key stage now).keys = t.keys :=
  keys_updateVersion fun _ => rfl

@[simp] theorem names_moveVersion {stage : Stage} : (t.moveVersion key stage now).names = t.names :=
  rfl

@[simp] theorem keys_writeDataset {dataset : Option String} : (t.writeDataset key dataset).keys = t.keys :=
  keys_updateVersion fun _ => rfl

@[simp] theorem names_writeCounter {number : Int} : (t.writeCounter name number).names = t.names :=
  names_updateModel fun _ => rfl

@[simp] theorem names_countVersion : (t.countVersion name now).names = t.names :=
  names_updateModel fun _ => rfl

@[simp] theorem keys_countVersion : (t.countVersion name now).keys = t.keys :=
  rfl

@[simp] theorem countVersion_versions : (t.countVersion name now).versions = t.versions :=
  rfl

@[simp] theorem countVersion_versionTags : (t.countVersion name now).versionTags = t.versionTags :=
  rfl

theorem names_withoutModel : (t.withoutModel name).names = t.names.filter (· ≠ name) := by
  simp only [names, withoutModel_models, List.filter_map, Function.comp_def]

theorem keys_withoutModel : (t.withoutModel name).keys = t.keys.filter (·.model ≠ name) := by
  simp only [keys, withoutModel_versions, List.filter_map, Function.comp_def]

theorem keys_withoutVersion : (t.withoutVersion key).keys = t.keys.filter (· ≠ key) := by
  simp only [keys, withoutVersion_versions, List.filter_map, Function.comp_def]

end Tables

end ModelCatalog
