import ModelCatalog.Database.Models
import ModelCatalog.Proofs.TableEdits
import ModelCatalog.Proofs.TransactionRun

namespace ModelCatalog

section Checks

variable {α β : Type}

theorem ok_bind {a : α} {f : α → Except CatalogError β} : Except.ok a >>= f = f a :=
  rfl

theorem error_bind {e : CatalogError} {f : α → Except CatalogError β} : Except.error e >>= f = .error e :=
  rfl

theorem pure_eq {a : α} : (pure a : Except CatalogError α) = .ok a :=
  rfl

/-- What follows a check matters only where the check is passed. -/
theorem bind_congr_ok {x : Except CatalogError α} {f g : α → Except CatalogError β}
    (same : ∀ a, x = .ok a → f a = g a) : x >>= f = x >>= g := by
  cases x with
  | error e => rfl
  | ok a => exact same a rfl

theorem demand_true {e : CatalogError} : demand true e = .ok () :=
  rfl

theorem demand_false {e : CatalogError} : demand false e = .error e :=
  rfl

theorem expect_none {e : CatalogError} : expect (none : Option α) e = .error e :=
  rfl

theorem expect_some {a : α} {e : CatalogError} : expect (some a) e = .ok a :=
  rfl

/-- A parameter without a fault makes no difference to the ones after it. -/
theorem given_cons_of_good {p : Parameter} {ps : List Parameter} (good : p.fault? = none) :
    given (p :: ps) = given ps := by
  simp only [given, List.findSome?_cons, good]

end Checks

namespace Tables

/-- The models whose name contains a text and that carry all of the wanted tags, by name. -/
def listedModels (filter : Option String) (wanted : List String) (t : Tables) : List Model :=
  let rows := t.models.filter fun r =>
    filter.all (occursIn · r.name) && TagRow.count r.name wanted t.modelTags = wanted.length
  (rows.mergeSort (·.name ≤ ·.name)).map t.modelEntry

/-- The versions of a model that carry all of the wanted tags, by number. -/
def listedVersions (name : String) (wanted : List String) (t : Tables) : List Version :=
  let rows := t.versions.filter fun r =>
    r.key.model = name && TagRow.count r.key wanted t.versionTags = wanted.length
  (rows.mergeSort (·.key.number ≤ ·.key.number)).map t.versionEntry

end Tables

namespace Transaction

variable {α β : Type} {t : Tables}

theorem pure_on {a : α} : (pure a : Transaction α).on t = .ok (a, t) :=
  rfl

theorem map_on {f : α → β} {x : Transaction α} : (f <$> x).on t = x.on t >>= fun (a, s) => .ok (f a, s) := by
  rw [← bind_pure_comp, bind_on]
  rfl

theorem get_on : (get : Transaction Tables).on t = .ok (t, t) :=
  rfl

theorem set_on {s : Tables} : (set s : Transaction PUnit).on t = .ok (.unit, s) :=
  rfl

theorem modify_on {f : Tables → Tables} : (modify f : Transaction PUnit).on t = .ok (.unit, f t) :=
  rfl

theorem ite_on {c : Prop} [Decidable c] {x y : Transaction α} :
    (if c then x else y).on t = if c then x.on t else y.on t := by
  split <;> rfl

end Transaction

variable {t : Tables} {name newName tag text : String} {key : VersionKey} {now : Timestamp}

attribute [local simp] Transaction.bind_on Transaction.pure_on Transaction.map_on
  Transaction.lift_on Transaction.statement_on Transaction.get_on Transaction.set_on Transaction.modify_on
  Transaction.ite_on ok_bind error_bind pure_eq

attribute [local simp] demandFree demandParent demandUnused demandNoClash

namespace Models

theorem insert_on {description : Option String} : (insert name now description).on t = do
    given [.text name, .time now, .time now, .texts description.toList]
    let stored ← fit nameWidth name
    let _ ← fitOptional descriptionWidth description
    return if t.hasModel stored then (false, t) else (true, t.addModel (.registered name now description)) := by
  simp [insert]
  refine bind_congr_ok fun _ _ => bind_congr_ok fun _ room => bind_congr_ok fun _ roomText => ?_
  obtain ⟨-, rfl⟩ := fit_ok.mp room
  obtain ⟨-, rfl⟩ := fitOptional_ok.mp roomText
  split <;> rfl

theorem find?_on : (find? name).on t = do
    given [.text name]
    return (t.model? name, t) := by
  simp [find?]

theorem find_on : (find name).on t = do
    given [.text name]
    let r ← expect (t.model? name) (.modelNotFound name)
    return (r, t) := by
  simp [find, find?]

theorem touch_on : (touch name now).on t = do
    given [.text name, .time now]
    demand (t.hasModel name) (.modelNotFound name)
    return ((), t.touchModel name now) := by
  simp [touch, change, Tables.touchModel]

theorem describe_on : (describe name text now).on t = do
    given [.text name, .text text, .time now]
    let _ ← fit descriptionWidth text
    demand (t.hasModel name) (.modelNotFound name)
    return ((), t.describeModel name text now) := by
  simp [describe, change, Tables.describeModel]
  refine bind_congr_ok fun _ _ => bind_congr_ok fun _ room => ?_
  obtain ⟨-, rfl⟩ := fit_ok.mp room
  rfl

theorem nextNumber_on : (nextNumber name now).on t = do
    given [.text name, .time now]
    let r ← expect (t.model? name) (.modelNotFound name)
    demandNumber (r.counter + 1)
    return (r.counter + 1, t.countVersion name now) := by
  simp [nextNumber, change, Tables.countVersion, demandNumber]
  refine bind_congr_ok fun _ _ => bind_congr_ok fun r found => bind_congr_ok fun _ _ => ?_
  rw [Tables.hasModel_iff.mpr (Tables.mem_names_of_model? (expect_eq_ok.mp found))]
  rfl

theorem rename_on : (rename name newName now).on t = do
    given [.text name, .text newName, .time now]
    let stored ← fit nameWidth newName
    demandFree (t.models.any fun r => r.name ≠ name && r.name = stored) (.model stored)
    demand (t.hasModel name) (.modelNotFound name)
    return ((), t.rekeyModel name stored now) := by
  simp [rename, change, Tables.rekeyModel]

theorem setCounter_on {number : Int} : (setCounter name number).on t = do
    given [.text name]
    return (t.models.countP (·.name = name), t.writeCounter name number) := by
  simp [setCounter, Tables.writeCounter]

end Models

namespace Versions

theorem insert_on {draft : VersionDraft} : (insert key draft now).on t = do
    given [.text key.model, .text draft.id, .text draft.user, .text draft.experiment,
      .text draft.modelType, .time now, .time now, .texts draft.description.toList]
    let _ ← fit nameWidth key.model
    let _ ← fit labelWidth draft.id
    let _ ← fit labelWidth draft.user
    let _ ← fit labelWidth draft.experiment
    let _ ← fit labelWidth draft.modelType
    let _ ← fitOptional descriptionWidth draft.description
    demandFree (t.hasVersion key.stored) (.version key.stored)
    demandParent (t.hasModel key.stored.model) .versions (.model key.stored.model)
    return ((), t.addVersion (.drafted key draft now)) := by
  simp [insert]
  refine bind_congr_ok fun _ _ => bind_congr_ok fun _ room => bind_congr_ok fun _ roomId =>
    bind_congr_ok fun _ roomUser => bind_congr_ok fun _ roomExperiment => bind_congr_ok fun _ roomType =>
    bind_congr_ok fun _ roomText => ?_
  obtain ⟨-, rfl⟩ := fit_ok.mp room
  obtain ⟨-, rfl⟩ := fit_ok.mp roomId
  obtain ⟨-, rfl⟩ := fit_ok.mp roomUser
  obtain ⟨-, rfl⟩ := fit_ok.mp roomExperiment
  obtain ⟨-, rfl⟩ := fit_ok.mp roomType
  obtain ⟨-, rfl⟩ := fitOptional_ok.mp roomText
  rfl

theorem find_on : (find key).on t = do
    given [.text key.model]
    let r ← expect (t.version? key) (.versionNotFound key)
    return (r, t) := by
  simp [find, find?]

theorem setDataset_on {dataset : Option String} : (setDataset key dataset).on t = do
    given [.text key.model, .texts dataset.toList]
    let _ ← fitOptional datasetWidth dataset
    return (t.versions.countP (·.key = key), t.writeDataset key dataset) := by
  simp [setDataset]
  refine bind_congr_ok fun _ _ => bind_congr_ok fun _ room => ?_
  obtain ⟨-, rfl⟩ := fitOptional_ok.mp room
  rfl

theorem touch_on : (touch key now).on t = do
    given [.text key.model, .time now]
    demand (t.hasVersion key) (.versionNotFound key)
    return ((), t.touchVersion key now) := by
  simp [touch, change, Tables.touchVersion]

theorem describe_on : (describe key text now).on t = do
    given [.text key.model, .text text, .time now]
    let _ ← fit descriptionWidth text
    demand (t.hasVersion key) (.versionNotFound key)
    return ((), t.describeVersion key text now) := by
  simp [describe, change, Tables.describeVersion]
  refine bind_congr_ok fun _ _ => bind_congr_ok fun _ room => ?_
  obtain ⟨-, rfl⟩ := fit_ok.mp room
  rfl

theorem move_on {stage : Stage} : (move key stage now).on t = do
    given [.text key.model, .time now]
    demand (t.hasVersion key) (.versionNotFound key)
    return ((), t.moveVersion key stage now) := by
  simp [move, change, Tables.moveVersion]

end Versions

namespace ModelTags

variable {position : Int}

theorem insert_on : (insert name tag position).on t = do
    given [.text name, .text tag]
    let owner ← fit nameWidth name
    let stored ← fit tagWidth tag
    demandFree (TagRow.has owner stored t.modelTags) (.modelTag owner stored)
    demandParent (t.hasModel owner) .modelTags (.model owner)
    return ((), t.addModelTags [⟨owner, stored, position⟩]) := by
  simp [insert, Tables.addModelTags]

theorem prepend_on : (prepend name tag).on t = do
    given [.text name, .text tag]
    demandNumber (TagRow.front name t.modelTags)
    let owner ← fit nameWidth name
    let stored ← fit tagWidth tag
    if TagRow.has owner stored t.modelTags then return (false, t)
    else
      demandParent (t.hasModel owner) .modelTags (.model owner)
      return (true, t.addModelTags [⟨owner, stored, TagRow.front name t.modelTags⟩]) := by
  simp [prepend, demandNumber, Tables.addModelTags]

theorem remove_on : (remove name tag).on t = do
    given [.text name, .text tag]
    return (TagRow.has name tag t.modelTags, t.removeModelTag name tag) := by
  simp [remove, Tables.removeModelTag]

end ModelTags

namespace VersionTags

variable {position : Int}

theorem insert_on : (insert key tag position).on t = do
    given [.text key.model, .text tag]
    let _ ← fit nameWidth key.model
    let stored ← fit tagWidth tag
    demandFree (TagRow.has key.stored stored t.versionTags) (.versionTag key.stored stored)
    demandParent (t.hasVersion key.stored) .versionTags (.version key.stored)
    return ((), t.addVersionTags [⟨key.stored, stored, position⟩]) := by
  simp [insert]
  refine bind_congr_ok fun _ _ => bind_congr_ok fun _ room => ?_
  obtain ⟨-, rfl⟩ := fit_ok.mp room
  rfl

theorem prepend_on : (prepend key tag).on t = do
    given [.text key.model, .text tag]
    demandNumber (TagRow.front key t.versionTags)
    let _ ← fit nameWidth key.model
    let stored ← fit tagWidth tag
    if TagRow.has key.stored stored t.versionTags then return (false, t)
    else
      demandParent (t.hasVersion key.stored) .versionTags (.version key.stored)
      return (true, t.addVersionTags [⟨key.stored, stored, TagRow.front key t.versionTags⟩]) := by
  simp [prepend, demandNumber]
  refine bind_congr_ok fun _ _ => bind_congr_ok fun _ _ => bind_congr_ok fun _ room => ?_
  obtain ⟨-, rfl⟩ := fit_ok.mp room
  rfl

theorem remove_on : (remove key tag).on t = do
    given [.text key.model, .text tag]
    return (TagRow.has key tag t.versionTags, t.removeVersionTag key tag) := by
  simp [remove, Tables.removeVersionTag]

end VersionTags

/-- The checks of tags that are written one after the other for an owner who has some already. -/
def TagRow.vet (key : String → RowKey) (seen : List String) : List String → Except CatalogError Unit
  | [] => .ok ()
  | tag :: rest => do
    given [.text tag]
    let stored ← fit tagWidth tag
    demandFree (seen.contains stored) (key stored)
    vet key (stored :: seen) rest

section InsertAll

variable {tags : List String} {start : Nat}

theorem ModelTags.insertAll_on (seen : List String) (clean : Parameter.holdsZero name = false)
    (room : fits nameWidth name = true) (there : cut nameWidth name ∈ t.names)
    (known : ∀ tag, (cut nameWidth name, tag) ∈ TagRow.labels t.modelTags ↔ tag ∈ seen) :
    (insertAll name start tags).on t = do
      TagRow.vet (.modelTag (cut nameWidth name)) seen tags
      return ((), t.addModelTags (TagRow.listed (cut nameWidth name) start tags)) := by
  induction tags generalizing start t seen with
  | nil => simp [insertAll, TagRow.vet, TagRow.listed, Tables.addModelTags]
  | cons tag rest ih =>
    have fitted : fit nameWidth name = .ok (cut nameWidth name) := fit_ok.mpr ⟨room, rfl⟩
    simp only [insertAll, Transaction.bind_on, insert_on, TagRow.vet, bind_assoc, pure_eq, ok_bind, fitted,
      given_cons_of_good (Parameter.fault?_text.mpr clean)]
    refine bind_congr_ok fun _ _ => bind_congr_ok fun stored roomTag => ?_
    obtain ⟨-, rfl⟩ := fit_ok.mp roomTag
    have old : TagRow.has (cut nameWidth name) (cut tagWidth tag) t.modelTags =
        seen.contains (cut tagWidth tag) := by
      rw [Bool.eq_iff_iff, TagRow.has_iff, List.contains_iff_mem, known]
    rw [old]
    refine bind_congr_ok fun _ _ => ?_
    have later := @ih (t.addModelTags [⟨cut nameWidth name, cut tagWidth tag, Range.wrap32 start⟩]) (start + 1)
      (cut tagWidth tag :: seen) there fun other => by
        simp [← known, or_comm, TagRow.labels, eq_comm]
    rw [demandParent, Tables.hasModel_iff.mpr there, demand_true, ok_bind, later]
    simp only [TagRow.listed, Tables.addModelTags, List.append_assoc, List.singleton_append, pure_eq]

theorem VersionTags.insertAll_on (seen : List String) (clean : Parameter.holdsZero key.model = false)
    (room : fits nameWidth key.model = true) (there : key.stored ∈ t.keys)
    (known : ∀ tag, (key.stored, tag) ∈ TagRow.labels t.versionTags ↔ tag ∈ seen) :
    (insertAll key start tags).on t = do
      TagRow.vet (.versionTag key.stored) seen tags
      return ((), t.addVersionTags (TagRow.listed key.stored start tags)) := by
  induction tags generalizing start t seen with
  | nil => simp [insertAll, TagRow.vet, TagRow.listed, Tables.addVersionTags]
  | cons tag rest ih =>
    have fitted : fit nameWidth key.model = .ok (cut nameWidth key.model) := fit_ok.mpr ⟨room, rfl⟩
    simp only [insertAll, Transaction.bind_on, insert_on, TagRow.vet, bind_assoc, pure_eq, ok_bind, fitted,
      given_cons_of_good (Parameter.fault?_text.mpr clean)]
    refine bind_congr_ok fun _ _ => bind_congr_ok fun stored roomTag => ?_
    obtain ⟨-, rfl⟩ := fit_ok.mp roomTag
    have old : TagRow.has key.stored (cut tagWidth tag) t.versionTags = seen.contains (cut tagWidth tag) := by
      rw [Bool.eq_iff_iff, TagRow.has_iff, List.contains_iff_mem, known]
    rw [old]
    refine bind_congr_ok fun _ _ => ?_
    have later := @ih (t.addVersionTags [⟨key.stored, cut tagWidth tag, Range.wrap32 start⟩]) (start + 1)
      (cut tagWidth tag :: seen) there fun other => by
        simp [← known, or_comm, TagRow.labels, eq_comm]
    rw [demandParent, Tables.hasVersion_iff.mpr there, demand_true, ok_bind, later]
    simp only [TagRow.listed, Tables.addVersionTags, List.append_assoc, List.singleton_append, pure_eq]

end InsertAll

end ModelCatalog
