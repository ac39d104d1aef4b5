import ModelCatalog.Database.Models
import ModelCatalog.Proofs.TableEdits
import ModelCatalog.Proofs.TransactionRun

namespace ModelCatalog

open Parameter (holdsZero)

variable {t t' : Tables} {name newName tag text : String} {key : VersionKey} {now : Timestamp} {u : Unit}

attribute [local simp] demandNumber demandFree demandParent demandUnused demandNoClash and_assoc

namespace Models

@[simp] theorem insert_ok {description : Option String} {new : Bool} :
    (insert name now description).on t = .ok (new, t') ↔
      holdsZero name = false ∧ now.isStorable = true ∧ (∀ d ∈ description, holdsZero d = false) ∧
      fits nameWidth name = true ∧ (∀ d ∈ description, fits descriptionWidth d = true) ∧
      (cut nameWidth name ∈ t.names ∧ new = false ∧ t' = t ∨
        cut nameWidth name ∉ t.names ∧ new = true ∧ t' = t.addModel (.registered name now description)) := by
  simp [insert, and_comm (b := new = true), Tables.addModel, ModelRow.registered]

@[simp] theorem find?_ok {row : Option ModelRow} :
    (find? name).on t = .ok (row, t') ↔ holdsZero name = false ∧ t' = t ∧ row = t.model? name := by
  simp [find?]

@[simp] theorem find_ok {row : ModelRow} :
    (find name).on t = .ok (row, t') ↔ holdsZero name = false ∧ t.model? name = some row ∧ t' = t := by
  simp [find]

@[simp] theorem change_ok {f : ModelRow → ModelRow} :
    (change name f).on t = .ok (u, t') ↔ name ∈ t.names ∧ t' = t.updateModel name f := by
  simp [change]

@[simp] theorem touch_ok :
    (touch name now).on t = .ok (u, t') ↔
      holdsZero name = false ∧ now.isStorable = true ∧ name ∈ t.names ∧
      t' = t.touchModel name now := by
  simp [touch, Tables.touchModel]

@[simp] theorem describe_ok :
    (describe name text now).on t = .ok (u, t') ↔
      holdsZero name = false ∧ holdsZero text = false ∧ now.isStorable = true ∧
      fits descriptionWidth text = true ∧ name ∈ t.names ∧
      t' = t.describeModel name text now := by
  simp [describe, Tables.describeModel]

@[simp] theorem nextNumber_ok {number : Int} :
    (nextNumber name now).on t = .ok (number, t') ↔
      holdsZero name = false ∧ now.isStorable = true ∧ ∃ r, t.model? name = some r ∧
      Range.signed32.has number = true ∧ number = r.counter + 1 ∧
      t' = t.countVersion name now := by
  simp [nextNumber, Tables.countVersion]
  intro _ _
  constructor
  · intro run
    obtain ⟨r, found, room, _, rfl, rfl⟩ := run
    exact ⟨r, found, room, rfl, rfl⟩
  · intro run
    obtain ⟨r, found, room, rfl, rfl⟩ := run
    exact ⟨r, found, room, Tables.mem_names_of_model? found, rfl, rfl⟩

@[simp] theorem setCounter_ok {number : Int} {n : Nat} :
    (setCounter name number).on t = .ok (n, t') ↔
      holdsZero name = false ∧ t' = t.writeCounter name number ∧ n = t.models.countP (·.name = name) := by
  simp [setCounter, Tables.writeCounter]

@[simp] theorem rename_ok :
    (rename name newName now).on t = .ok (u, t') ↔
      holdsZero name = false ∧ holdsZero newName = false ∧ now.isStorable = true ∧
      fits nameWidth newName = true ∧
      (∀ r ∈ t.models, r.name ≠ name → r.name ≠ cut nameWidth newName) ∧ name ∈ t.names ∧
      t' = t.rekeyModel name (cut nameWidth newName) now := by
  simp [rename, Tables.rekeyModel]

@[simp] theorem delete_ok :
    (delete name).on t = .ok (u, t') ↔
      holdsZero name = false ∧ (∀ r ∈ t.modelTags, r.owner ≠ name) ∧
      (∀ v ∈ t.versions, v.key.model ≠ name) ∧
      t' = { t with models := t.models.filter (·.name ≠ name) } := by
  simp [delete]

@[simp] theorem select_ok {filter : Option String} {wanted : List String} {rows : List ModelRow} :
    (select filter wanted).on t = .ok (rows, t') ↔
      (∀ s ∈ filter, holdsZero s = false) ∧ (∀ s ∈ wanted, holdsZero s = false) ∧ t' = t ∧
      rows = (t.models.filter fun r => filter.all (occursIn · r.name) &&
        TagRow.count r.name wanted t.modelTags = wanted.length).mergeSort (·.name ≤ ·.name) := by
  simp [select]

end Models

namespace Versions

@[simp] theorem insert_ok {draft : VersionDraft} :
    (insert key draft now).on t = .ok (u, t') ↔
      holdsZero key.model = false ∧ holdsZero draft.id = false ∧ holdsZero draft.user = false ∧
      holdsZero draft.experiment = false ∧ holdsZero draft.modelType = false ∧ now.isStorable = true ∧
      (∀ d ∈ draft.description, holdsZero d = false) ∧
      fits nameWidth key.model = true ∧ fits labelWidth draft.id = true ∧
      fits labelWidth draft.user = true ∧ fits labelWidth draft.experiment = true ∧
      fits labelWidth draft.modelType = true ∧
      (∀ d ∈ draft.description, fits descriptionWidth d = true) ∧
      key.stored ∉ t.keys ∧ cut nameWidth key.model ∈ t.names ∧
      t' = t.addVersion (.drafted key draft now) := by
  simp [insert, Tables.addVersion, VersionRow.drafted, VersionKey.stored]

@[simp] theorem find?_ok {row : Option VersionRow} :
    (find? key).on t = .ok (row, t') ↔ holdsZero key.model = false ∧ t' = t ∧ row = t.version? key := by
  simp [find?]

@[simp] theorem find_ok {row : VersionRow} :
    (find key).on t = .ok (row, t') ↔ holdsZero key.model = false ∧ t.version? key = some row ∧ t' = t := by
  simp [find]

@[simp] theorem change_ok {f : VersionRow → VersionRow} :
    (change key f).on t = .ok (u, t') ↔ key ∈ t.keys ∧ t' = t.updateVersion key f := by
  simp [change]

@[simp] theorem touch_ok :
    (touch key now).on t = .ok (u, t') ↔
      holdsZero key.model = false ∧ now.isStorable = true ∧ key ∈ t.keys ∧
      t' = t.touchVersion key now := by
  simp [touch, Tables.touchVersion]

@[simp] theorem describe_ok :
    (describe key text now).on t = .ok (u, t') ↔
      holdsZero key.model = false ∧ holdsZero text = false ∧ now.isStorable = true ∧
      fits descriptionWidth text = true ∧ key ∈ t.keys ∧
      t' = t.describeVersion key text now := by
  simp [describe, Tables.describeVersion]

@[simp] theorem move_ok {stage : Stage} :
    (move key stage now).on t = .ok (u, t') ↔
      holdsZero key.model = false ∧ now.isStorable = true ∧ key ∈ t.keys ∧
      t' = t.moveVersion key stage now := by
  simp [move, Tables.moveVersion]

@[simp] theorem setDataset_ok {dataset : Option String} {n : Nat} :
    (setDataset key dataset).on t = .ok (n, t') ↔
      holdsZero key.model = false ∧ (∀ d ∈ dataset, holdsZero d = false) ∧
      (∀ d ∈ dataset, fits datasetWidth d = true) ∧
      t' = t.writeDataset key dataset ∧ n = t.versions.countP (·.key = key) := by
  simp [setDataset, Tables.writeDataset]

@[simp] theorem rekey_ok :
    (rekey name newName).on t = .ok (u, t') ↔
      holdsZero name = false ∧ holdsZero newName = false ∧ fits nameWidth newName = true ∧
      (∀ r ∈ t.versions, moved name (cut nameWidth newName) r.key ≠ r.key →
        moved name (cut nameWidth newName) r.key ∉ t.keys) ∧
      t' = t.rekeyVersions name (cut nameWidth newName) := by
  simp [rekey, Tables.rekeyVersions]

@[simp] theorem deleteWhere_ok {picked : VersionKey → Bool} :
    (deleteWhere picked).on t = .ok (u, t') ↔
      (∀ r ∈ t.versions, picked r.key = true → ∀ s ∈ t.versionTags, s.owner ≠ r.key) ∧
      t' = { t with versions := t.versions.filter fun r => !picked r.key } := by
  simp [deleteWhere]

@[simp] theorem delete_ok :
    (delete key).on t = .ok (u, t') ↔
      holdsZero key.model = false ∧
      (∀ r ∈ t.versions, r.key = key → ∀ s ∈ t.versionTags, s.owner ≠ r.key) ∧
      t' = { t with versions := t.versions.filter (·.key ≠ key) } := by
  simp [delete]

@[simp] theorem deleteModel_ok :
    (deleteModel name).on t = .ok (u, t') ↔
      holdsZero name = false ∧
      (∀ r ∈ t.versions, r.key.model = name → ∀ s ∈ t.versionTags, s.owner ≠ r.key) ∧
      t' = { t with versions := t.versions.filter (·.key.model ≠ name) } := by
  simp [deleteModel]

@[simp] theorem select_ok {wanted : List String} {rows : List VersionRow} :
    (select name wanted).on t = .ok (rows, t') ↔
      holdsZero name = false ∧ (∀ s ∈ wanted, holdsZero s = false) ∧ t' = t ∧
      rows = (t.versions.filter fun r => r.key.model = name &&
        TagRow.count r.key wanted t.versionTags = wanted.length).mergeSort
          (·.key.number ≤ ·.key.number) := by
  simp [select]

end Versions

namespace ModelTags

variable {position : Int}

@[simp] theorem insert_ok :
    (insert name tag position).on t = .ok (u, t') ↔
      holdsZero name = false ∧ holdsZero tag = false ∧ fits nameWidth name = true ∧
      fits tagWidth tag = true ∧
      (cut nameWidth name, cut tagWidth tag) ∉ TagRow.labels t.modelTags ∧
      cut nameWidth name ∈ t.names ∧
      t' = t.addModelTags [⟨cut nameWidth name, cut tagWidth tag, position⟩] := by
  simp [insert, Tables.addModelTags]

@[simp] theorem prepend_ok {new : Bool} :
    (prepend name tag).on t = .ok (new, t') ↔
      holdsZero name = false ∧ holdsZero tag = false ∧
      Range.signed32.has (TagRow.front name t.modelTags) = true ∧
      fits nameWidth name = true ∧ fits tagWidth tag = true ∧
      ((cut nameWidth name, cut tagWidth tag) ∈ TagRow.labels t.modelTags ∧ new = false ∧ t' = t ∨
        (cut nameWidth name, cut tagWidth tag) ∉ TagRow.labels t.modelTags ∧
        cut nameWidth name ∈ t.names ∧ new = true ∧ t' = t.addModelTags
          [⟨cut nameWidth name, cut tagWidth tag, TagRow.front name t.modelTags⟩]) := by
  simp [prepend, and_comm (b := new = true), Tables.addModelTags]

@[simp] theorem remove_ok {there : Bool} :
    (remove name tag).on t = .ok (there, t') ↔
      holdsZero name = false ∧ holdsZero tag = false ∧
      t' = t.removeModelTag name tag ∧ there = TagRow.has name tag t.modelTags := by
  simp [remove, Tables.removeModelTag]

@[simp] theorem deleteModel_ok :
    (deleteModel name).on t = .ok (u, t') ↔
      holdsZero name = false ∧
      t' = { t with modelTags := TagRow.removeOwners (· = name) t.modelTags } := by
  simp [deleteModel]

@[simp] theorem rekey_ok :
    (rekey name newName).on t = .ok (u, t') ↔
      holdsZero name = false ∧ holdsZero newName = false ∧ fits nameWidth newName = true ∧
      TagRow.clash? (moved name (cut nameWidth newName)) t.modelTags = none ∧
      t' = t.rekeyModelTags name (cut nameWidth newName) := by
  simp [rekey, Tables.rekeyModelTags]

end ModelTags

namespace VersionTags

variable {position : Int}

@[simp] theorem insert_ok :
    (insert key tag position).on t = .ok (u, t') ↔
      holdsZero key.model = false ∧ holdsZero tag = false ∧ fits nameWidth key.model = true ∧
      fits tagWidth tag = true ∧
      (key.stored, cut tagWidth tag) ∉ TagRow.labels t.versionTags ∧ key.stored ∈ t.keys ∧
      t' = t.addVersionTags [⟨key.stored, cut tagWidth tag, position⟩] := by
  simp [insert, Tables.addVersionTags, VersionKey.stored]

@[simp] theorem prepend_ok {new : Bool} :
    (prepend key tag).on t = .ok (new, t') ↔
      holdsZero key.model = false ∧ holdsZero tag = false ∧
      Range.signed32.has (TagRow.front key t.versionTags) = true ∧
      fits nameWidth key.model = true ∧ fits tagWidth tag = true ∧
      ((key.stored, cut tagWidth tag) ∈ TagRow.labels t.versionTags ∧ new = false ∧ t' = t ∨
        (key.stored, cut tagWidth tag) ∉ TagRow.labels t.versionTags ∧ key.stored ∈ t.keys ∧
        new = true ∧ t' = t.addVersionTags
          [⟨key.stored, cut tagWidth tag, TagRow.front key t.versionTags⟩]) := by
  simp [prepend, and_comm (b := new = true), Tables.addVersionTags, VersionKey.stored]

@[simp] theorem remove_ok {there : Bool} :
    (remove key tag).on t = .ok (there, t') ↔
      holdsZero key.model = false ∧ holdsZero tag = false ∧
      t' = t.removeVersionTag key tag ∧ there = TagRow.has key tag t.versionTags := by
  simp [remove, Tables.removeVersionTag]

@[simp] theorem delete_ok :
    (delete key).on t = .ok (u, t') ↔
      holdsZero key.model = false ∧
      t' = { t with versionTags := TagRow.removeOwners (· = key) t.versionTags } := by
  simp [delete]

@[simp] theorem deleteModel_ok :
    (deleteModel name).on t = .ok (u, t') ↔
      holdsZero name = false ∧
      t' = { t with versionTags := TagRow.removeOwners (·.model = name) t.versionTags } := by
  simp [deleteModel]

@[simp] theorem rekey_ok :
    (rekey name newName).on t = .ok (u, t') ↔
      holdsZero name = false ∧ holdsZero newName = false ∧ fits nameWidth newName = true ∧
      TagRow.clash? (Versions.moved name (cut nameWidth newName)) t.versionTags = none ∧
      t' = t.rekeyVersionTags name (cut nameWidth newName) := by
  simp [rekey, Tables.rekeyVersionTags]

end VersionTags

section InsertAll

variable {tags : List String} {start : Nat}

/-- Tags are written one after the other, for an owner that has to be there if there is any. -/
@[simp] theorem ModelTags.insertAll_ok :
    (ModelTags.insertAll name start tags).on t = .ok (u, t') ↔
      (tags ≠ [] → holdsZero name = false ∧ fits nameWidth name = true ∧ cut nameWidth name ∈ t.names) ∧
      TagRow.Addable (cut nameWidth name) t.modelTags tags ∧
      t' = t.addModelTags (TagRow.listed (cut nameWidth name) start tags) := by
  induction tags generalizing start t with
  | nil => simp [ModelTags.insertAll, TagRow.listed, Tables.addModelTags]
  | cons tag rest ih =>
    simp only [ModelTags.insertAll, Transaction.bind_ok, ModelTags.insert_ok, ih, exists_const, TagRow.listed]
    constructor
    · intro run
      obtain ⟨_, ⟨clean, cleanTag, room, roomTag, free, there, rfl⟩, -, good, rfl⟩ := run
      refine ⟨fun _ => ⟨clean, room, there⟩, TagRow.addable_cons_iff.mpr ⟨cleanTag, roomTag, free, good⟩, ?_⟩
      simp only [Tables.addModelTags, List.append_assoc, List.singleton_append]
    · intro run
      obtain ⟨owner, good, rfl⟩ := run
      obtain ⟨clean, room, there⟩ := owner (List.cons_ne_nil _ _)
      obtain ⟨cleanTag, roomTag, free, later⟩ := TagRow.addable_cons_iff.mp good
      refine ⟨_, ⟨clean, cleanTag, room, roomTag, free, there, rfl⟩, fun _ => ⟨clean, room, there⟩, later, ?_⟩
      simp only [Tables.addModelTags, List.append_assoc, List.singleton_append]

@[simp] theorem VersionTags.insertAll_ok :
    (VersionTags.insertAll key start tags).on t = .ok (u, t') ↔
      (tags ≠ [] → holdsZero key.model = false ∧ fits nameWidth key.model = true ∧ key.stored ∈ t.keys) ∧
      TagRow.Addable key.stored t.versionTags tags ∧
      t' = t.addVersionTags (TagRow.listed key.stored start tags) := by
  induction tags generalizing start t with
  | nil => simp [VersionTags.insertAll, TagRow.listed, Tables.addVersionTags]
  | cons tag rest ih =>
    simp only [VersionTags.insertAll, Transaction.bind_ok, VersionTags.insert_ok, ih, exists_const, TagRow.listed]
    constructor
    · intro run
      obtain ⟨_, ⟨clean, cleanTag, room, roomTag, free, there, rfl⟩, -, good, rfl⟩ := run
      refine ⟨fun _ => ⟨clean, room, there⟩, TagRow.addable_cons_iff.mpr ⟨cleanTag, roomTag, free, good⟩, ?_⟩
      simp only [Tables.addVersionTags, List.append_assoc, List.singleton_append]
    · intro run
      obtain ⟨owner, good, rfl⟩ := run
      obtain ⟨clean, room, there⟩ := owner (List.cons_ne_nil _ _)
      obtain ⟨cleanTag, roomTag, free, later⟩ := TagRow.addable_cons_iff.mp good
      refine ⟨_, ⟨clean, cleanTag, room, roomTag, free, there, rfl⟩, fun _ => ⟨clean, room, there⟩, later, ?_⟩
      simp only [Tables.addVersionTags, List.append_assoc, List.singleton_append]

end InsertAll

end ModelCatalog
