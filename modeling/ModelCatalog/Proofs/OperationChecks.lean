import ModelCatalog.Proofs.CallEdits
import ModelCatalog.Proofs.DatabaseRun
import ModelCatalog.Proofs.DistinctTags
import ModelCatalog.Proofs.RenamedRows
import ModelCatalog.Proofs.StatementChecks

namespace ModelCatalog

open Parameter (holdsZero)

/-- The checks of what a caller supplies for a new version, its tags apart. -/
def VersionDraft.vet (draft : VersionDraft) : Except CatalogError Unit := do
  given [.text draft.id, .text draft.user, .text draft.experiment, .text draft.modelType,
    .texts draft.description.toList]
  let _ ← fit labelWidth draft.id
  let _ ← fit labelWidth draft.user
  let _ ← fit labelWidth draft.experiment
  let _ ← fit labelWidth draft.modelType
  let _ ← fitOptional descriptionWidth draft.description

theorem Tables.demand_hasModel {t : Tables} {name : String} {e : CatalogError} :
    demand (t.hasModel name) e = expect (t.model? name) e >>= fun _ => .ok () := by
  cases found : t.model? name with
  | none =>
    rw [hasModel_eq_false_iff.mpr (model?_eq_none_iff.mp found)]
    rfl
  | some r =>
    rw [hasModel_iff.mpr (mem_names_of_model? found)]
    rfl

theorem Tables.demand_hasVersion {t : Tables} {key : VersionKey} {e : CatalogError} :
    demand (t.hasVersion key) e = expect (t.version? key) e >>= fun _ => .ok () := by
  cases found : t.version? key with
  | none =>
    rw [hasVersion_eq_false_iff.mpr (version?_eq_none_iff.mp found)]
    rfl
  | some r =>
    rw [hasVersion_iff.mpr (mem_keys_of_version? found)]
    rfl

/-- Touching a row that is there can only fail for the time. -/
theorem Models.touch_there {t : Tables} {name : String} {now : Timestamp} (there : name ∈ t.names)
    (clean : (Parameter.text name).fault? = none) : (touch name now).on t = do
      given [.time now]
      return ((), t.touchModel name now) := by
  rw [touch_on, given_cons_of_good clean, Tables.hasModel_iff.mpr there]
  rfl

theorem Versions.touch_there {t : Tables} {key : VersionKey} {now : Timestamp} (there : key ∈ t.keys)
    (clean : (Parameter.text key.model).fault? = none) : (touch key now).on t = do
      given [.time now]
      return ((), t.touchVersion key now) := by
  rw [touch_on, given_cons_of_good clean, Tables.hasVersion_iff.mpr there]
  rfl

/-- Touching a version and its model, both of which are there, can only fail for the time. -/
theorem touch_both {t : Tables} {key : VersionKey} {now : Timestamp} (there : key ∈ t.keys)
    (owned : key.model ∈ t.names) (clean : (Parameter.text key.model).fault? = none) :
    ((Versions.touch key now).on t >>= fun (_, s) => (Models.touch key.model now).on s) = do
      given [.time now]
      return ((), (t.touchVersion key now).touchModel key.model now) := by
  rw [Versions.touch_there there clean, bind_assoc]
  refine bind_congr_ok fun _ timely => ?_
  refine (Models.touch_there (t := t.touchVersion key now) (by simpa using owned) clean).trans ?_
  rw [timely]
  rfl

/-- No tags are left behind by an owner that is gone. -/
theorem TagRow.Sound.mem_owners {κ : Type} {owners : List κ} {rows : List (TagRow κ)} {owner : κ} {tag : String}
    (sound : Sound owners rows) (labelled : (owner, tag) ∈ labels rows) : owner ∈ owners := by
  obtain ⟨r, member, same⟩ := List.mem_map.mp labelled
  have owned : r.owner = owner := congrArg Prod.fst same
  exact owned ▸ sound.owned r member

theorem TagRow.Sound.stored_tag {κ : Type} {owners : List κ} {rows : List (TagRow κ)} {owner : κ} {tag : String}
    (sound : Sound owners rows) (labelled : (owner, tag) ∈ labels rows) : tag ≠ "" ∧ Stored tagWidth tag := by
  obtain ⟨r, member, same⟩ := List.mem_map.mp labelled
  have text : r.tag = tag := congrArg Prod.snd same
  exact text ▸ ⟨sound.named r member, sound.stored r member⟩

namespace Operation

variable {α : Type} {t : Tables} {name newName tag text : String} {key : VersionKey} {now : Instant}

/-- What comes of an operation on tables that are there. -/
def attempt (operation : Except CatalogError (Operation α)) (now : Instant) (t : Tables) :
    Except CatalogError (α × Tables) := do
  ((← operation) now).on t

theorem attempt_eq_ok {operation : Except CatalogError (Operation α)} {a : α} {t' : Tables} :
    attempt operation now t = .ok (a, t') ↔ Succeeds operation now t a t' :=
  bind_eq_ok

theorem attempt_answering {f : α → Answer} {operation : Except CatalogError (Operation α)} :
    attempt (answering f operation) now t = attempt operation now t >>= fun (a, s) => .ok (f a, s) := by
  cases operation with
  | error e => rfl
  | ok run => exact Transaction.map_on

attribute [local simp] Transaction.bind_on Transaction.pure_on Transaction.map_on
  Transaction.lift_on Transaction.statement_on Transaction.get_on Transaction.set_on Transaction.modify_on
  Transaction.ite_on ok_bind error_bind pure_eq attempt Models.find_on Models.find?_on
  Versions.find_on

theorem attempt_getModel : attempt (getModel name) now t = do
    given [.text name]
    let r ← expect (t.model? name) (.modelNotFound name)
    return (t.modelEntry r, t) := by
  simp [getModel, fetchModel]

theorem attempt_getVersion : attempt (getVersion key) now t = do
    given [.text key.model]
    let r ← expect (t.version? key) (.versionNotFound key)
    return (t.versionEntry r, t) := by
  simp [getVersion, fetchVersion]

theorem attempt_versionUri : attempt (versionUri key) now t = do
    given [.text key.model]
    let r ← expect (t.version? key) (.versionNotFound key)
    return (artifactUri r.id key.model key.number, t) := by
  simp [versionUri]

theorem attempt_listModels {filter : Option String} {tags : List String} :
    attempt (listModels filter tags) now t = do
      given [.texts filter.toList, .texts (distinct tags)]
      return (t.listedModels filter (distinct tags), t) := by
  simp [listModels, Models.select, Tables.listedModels]

theorem attempt_listVersions {tags : List String} :
    attempt (listVersions name tags) now t = do
      given [.text name, .texts (distinct tags)]
      return (t.listedVersions name (distinct tags), t) := by
  simp [listVersions, Versions.select, Tables.listedVersions]

theorem attempt_createModel (sound : t.Sound) {description : Option String} {tags : List String} :
    attempt (createModel name description tags) now t = do
      requireModelName name
      let tags ← creationTags tags
      given [.text name, .time now.stored, .time now.stored, .texts description.toList]
      let owner ← fit nameWidth name
      let _ ← fitOptional descriptionWidth description
      demand (!t.hasModel owner) (.modelExists name)
      TagRow.vet (.modelTag owner) [] tags
      return (⟨name, now, now, description, tags⟩,
        (t.addModel (.registered name now.stored description)).addModelTags (TagRow.listed owner 0 tags)) := by
  simp [createModel, Models.insert_on]
  refine bind_congr_ok fun _ _ => bind_congr_ok fun tags _ => bind_congr_ok fun _ read =>
    bind_congr_ok fun owner room => bind_congr_ok fun _ _ => ?_
  obtain ⟨fitting, rfl⟩ := fit_ok.mp room
  have clean : holdsZero name = false := by simp_all
  by_cases taken : cut nameWidth name ∈ t.names
  · rw [Tables.hasModel_iff.mpr taken, if_pos taken]
    rfl
  have free : t.hasModel (cut nameWidth name) = false := Tables.hasModel_eq_false_iff.mpr taken
  rw [free, if_neg taken]
  simp only [demand_true, ok_bind, Bool.not_false]
  rw [ModelTags.insertAll_on [] clean fitting]
  · simp
  · simp
  · intro tag
    exact iff_of_false (fun left => taken (sound.modelTags.mem_owners left)) List.not_mem_nil

theorem attempt_describeModel : attempt (describeModel name text) now t = do
    given [.text name, .text text, .time now.stored]
    let _ ← fit descriptionWidth text
    let r ← expect (t.model? name) (.modelNotFound name)
    return (t.modelEntry { r with description := some (cut descriptionWidth text), updatedAt := now.stored },
      t.describeModel name text now.stored) := by
  simp [describeModel, Models.describe_on, fetchModel, Tables.demand_hasModel]
  refine bind_congr_ok fun _ read => bind_congr_ok fun _ _ => bind_congr_ok fun r found => ?_
  have again : given [.text name] = .ok () := by simp_all
  have changed : (t.describeModel name text now.stored).model? name =
      some { r with description := some (cut descriptionWidth text), updatedAt := now.stored } := by
    rw [Tables.describeModel]
    exact Tables.model?_changed (fun _ => by rfl) (expect_eq_ok.mp found)
  rw [again, changed]
  rfl

theorem attempt_deleteModel : attempt (deleteModel name) now t = do
    given [.text name]
    let _ ← expect (t.model? name) (.modelNotFound name)
    return ((), t.withoutModel name) := by
  simp [deleteModel]
  refine bind_congr_ok fun _ read => bind_congr_ok fun r found => ?_
  have there := Tables.mem_names_of_model? (expect_eq_ok.mp found)
  have whole : attempt (deleteModel name) now t = .ok ((), t.withoutModel name) :=
    attempt_eq_ok.mpr (deleteModel_succeeds.mpr ⟨by simpa using read, there, rfl⟩)
  simpa [-given_ok, -expect_eq_ok, deleteModel, read, found] using whole

theorem attempt_tagModel (sound : t.Sound) : attempt (tagModel name tag) now t = do
    requireTag tag
    given [.text name]
    let _ ← expect (t.model? name) (.modelNotFound name)
    given [.text tag]
    demandNumber (TagRow.front name t.modelTags)
    let stored ← fit tagWidth tag
    if TagRow.has name stored t.modelTags then return ((), t)
    else
      given [.time now.stored]
      return ((),
        (t.addModelTags [⟨name, stored, TagRow.front name t.modelTags⟩]).touchModel name now.stored) := by
  simp [tagModel, ModelTags.prepend_on]
  refine bind_congr_ok fun _ _ => bind_congr_ok fun _ read => bind_congr_ok fun r found => ?_
  have clean : (Parameter.text name).fault? = none := by simpa using read
  have there := Tables.mem_names_of_model? (expect_eq_ok.mp found)
  have uncut := sound.stored_name there
  have fitted : fit nameWidth name = .ok name := fit_ok.mpr ⟨uncut.fits, uncut.cut_eq.symm⟩
  rw [given_cons_of_good clean, fitted]
  refine bind_congr_ok fun _ _ => bind_congr_ok fun _ _ => ?_
  rw [ok_bind]
  refine bind_congr_ok fun stored _ => ?_
  split
  · rfl
  · have present : t.hasModel name = true := Tables.hasModel_iff.mpr there
    rw [demandParent, present, demand_true, ok_bind, ok_bind, if_pos rfl]
    exact Models.touch_there there clean

theorem attempt_untagModel : attempt (untagModel name tag) now t = do
    requireTag tag
    given [.text name]
    let _ ← expect (t.model? name) (.modelNotFound name)
    given [.text tag]
    demand (TagRow.has name tag t.modelTags) (.tagNotFound (modelOwner name) tag)
    given [.time now.stored]
    return ((), (t.removeModelTag name tag).touchModel name now.stored) := by
  simp [untagModel, ModelTags.remove_on]
  refine bind_congr_ok fun _ _ => bind_congr_ok fun _ read => bind_congr_ok fun r found => ?_
  have clean : (Parameter.text name).fault? = none := by simpa using read
  have there := Tables.mem_names_of_model? (expect_eq_ok.mp found)
  rw [given_cons_of_good clean]
  exact bind_congr_ok fun _ _ => bind_congr_ok fun _ _ => Models.touch_there there clean

theorem attempt_createVersion (sound : t.Sound) {draft : VersionDraft} :
    attempt (createVersion name draft) now t = do
      let tags ← creationTags draft.tags
      given [.text name, .time now.stored]
      let r ← expect (t.model? name) (.modelNotFound name)
      demandNumber (r.counter + 1)
      draft.vet
      demandFree (t.hasVersion ⟨name, r.counter + 1⟩) (.version ⟨name, r.counter + 1⟩)
      TagRow.vet (.versionTag ⟨name, r.counter + 1⟩) [] tags
      return (⟨name, r.counter + 1, draft.id, draft.user, draft.experiment, draft.modelType, .initial, now, now,
          none, draft.description, tags⟩,
        ((t.countVersion name now.stored).addVersion
          (.drafted ⟨name, r.counter + 1⟩ draft now.stored)).addVersionTags
          (TagRow.listed ⟨name, r.counter + 1⟩ 0 tags)) := by
  simp [createVersion, Models.nextNumber_on, Versions.insert_on, VersionDraft.vet]
  refine bind_congr_ok fun tags _ => bind_congr_ok fun _ read => bind_congr_ok fun r found =>
    bind_congr_ok fun _ _ => ?_
  have clean : (Parameter.text name).fault? = none := by simp_all
  have timely : (Parameter.time now.stored).fault? = none := by simp_all
  have there := Tables.mem_names_of_model? (expect_eq_ok.mp found)
  have uncut := sound.stored_name there
  have key : (VersionKey.mk name (r.counter + 1)).stored = ⟨name, r.counter + 1⟩ := VersionKey.stored_eq uncut
  have fitted : fit nameWidth name = .ok name := fit_ok.mpr ⟨uncut.fits, uncut.cut_eq.symm⟩
  have present : (t.countVersion name now.stored).hasModel name = true := by simpa using there
  rw [fitted, key]
  simp only [given, List.findSome?_cons, clean, timely, ok_bind]
  refine bind_congr_ok fun _ _ => bind_congr_ok fun _ _ => bind_congr_ok fun _ _ => bind_congr_ok fun _ _ =>
    bind_congr_ok fun _ _ => bind_congr_ok fun _ _ => bind_congr_ok fun _ new => ?_
  have new : (⟨name, r.counter + 1⟩ : VersionKey) ∉ t.keys := by simpa [demandFree] using new
  rw [demandParent, present, demand_true, ok_bind, VersionTags.insertAll_on []]
  · rw [key]
    simp
  · simpa using clean
  · exact uncut.fits
  · simp [key]
  · intro tag
    rw [key]
    exact iff_of_false (fun left => new (sound.versionTags.mem_owners left)) List.not_mem_nil

theorem attempt_describeVersion (sound : t.Sound) : attempt (describeVersion key text) now t = do
    given [.text key.model, .text text, .time now.stored]
    let _ ← fit descriptionWidth text
    let r ← expect (t.version? key) (.versionNotFound key)
    return (t.versionEntry { r with description := some (cut descriptionWidth text), updatedAt := now.stored },
      (t.describeVersion key text now.stored).touchModel key.model now.stored) := by
  simp [describeVersion, Versions.describe_on, Models.touch_on, fetchVersion, Tables.demand_hasVersion]
  refine bind_congr_ok fun _ read => bind_congr_ok fun _ _ => bind_congr_ok fun r found => ?_
  have again : given [.text key.model] = .ok () := by simp_all
  have touching : given [.text key.model, .time now.stored] = .ok () := by simp_all
  have found := expect_eq_ok.mp found
  have present : (t.describeVersion key text now.stored).hasModel key.model = true := by
    simpa using sound.owned key (Tables.mem_keys_of_version? found)
  have changed : ((t.describeVersion key text now.stored).touchModel key.model now.stored).version? key =
      some { r with description := some (cut descriptionWidth text), updatedAt := now.stored } := by
    change (t.describeVersion key text now.stored).version? key = _
    rw [Tables.describeVersion]
    exact Tables.version?_changed (fun _ => by rfl) found
  rw [touching, present, again, changed]
  rfl

theorem attempt_moveVersion (sound : t.Sound) : attempt (moveVersion key text) now t = do
    let stage ← stageOf text
    given [.text key.model, .time now.stored]
    let r ← expect (t.version? key) (.versionNotFound key)
    return (t.versionEntry { r with stage := stage, updatedAt := now.stored },
      (t.moveVersion key stage now.stored).touchModel key.model now.stored) := by
  simp [moveVersion, Versions.move_on, Models.touch_on, fetchVersion, Tables.demand_hasVersion]
  refine bind_congr_ok fun stage _ => bind_congr_ok fun _ read => bind_congr_ok fun r found => ?_
  have again : given [.text key.model] = .ok () := by simp_all
  have found := expect_eq_ok.mp found
  have present : (t.moveVersion key stage now.stored).hasModel key.model = true := by
    simpa using sound.owned key (Tables.mem_keys_of_version? found)
  have changed : ((t.moveVersion key stage now.stored).touchModel key.model now.stored).version? key =
      some { r with stage := stage, updatedAt := now.stored } := by
    change (t.moveVersion key stage now.stored).version? key = _
    rw [Tables.moveVersion]
    exact Tables.version?_changed (fun _ => by rfl) found
  rw [read, present, again, changed]
  rfl

theorem attempt_deleteVersion (sound : t.Sound) : attempt (deleteVersion key) now t = do
    given [.text key.model]
    let _ ← expect (t.version? key) (.versionNotFound key)
    given [.time now.stored]
    return ((), (t.withoutVersion key).touchModel key.model now.stored) := by
  simp [deleteVersion]
  refine bind_congr_ok fun _ read => bind_congr_ok fun r found => ?_
  have clean : (Parameter.text key.model).fault? = none := by simpa using read
  have owned := sound.owned key (Tables.mem_keys_of_version? (expect_eq_ok.mp found))
  have untagged : (VersionTags.delete key).on t =
      .ok ((), { t with versionTags := TagRow.removeOwners (· = key) t.versionTags }) :=
    VersionTags.delete_ok.mpr ⟨by simpa using read, rfl⟩
  have gone : (Versions.delete key).on { t with versionTags := TagRow.removeOwners (· = key) t.versionTags } =
      .ok ((), t.withoutVersion key) :=
    Versions.delete_ok.mpr ⟨by simpa using read, by simp +contextual, rfl⟩
  rw [untagged, ok_bind, gone, ok_bind]
  exact Models.touch_there owned clean

theorem attempt_tagVersion (sound : t.Sound) : attempt (tagVersion key tag) now t = do
    requireTag tag
    given [.text key.model]
    let _ ← expect (t.version? key) (.versionNotFound key)
    given [.text tag]
    demandNumber (TagRow.front key t.versionTags)
    let stored ← fit tagWidth tag
    if TagRow.has key stored t.versionTags then return ((), t)
    else
      given [.time now.stored]
      return ((), ((t.addVersionTags [⟨key, stored, TagRow.front key t.versionTags⟩]).touchVersion key
        now.stored).touchModel key.model now.stored) := by
  simp [tagVersion, VersionTags.prepend_on]
  refine bind_congr_ok fun _ _ => bind_congr_ok fun _ read => bind_congr_ok fun r found => ?_
  have clean : (Parameter.text key.model).fault? = none := by simpa using read
  have there := Tables.mem_keys_of_version? (expect_eq_ok.mp found)
  have uncut := sound.stored_key there
  have fitted : fit nameWidth key.model = .ok key.model := fit_ok.mpr ⟨uncut.fits, uncut.cut_eq.symm⟩
  rw [given_cons_of_good clean, fitted, VersionKey.stored_eq uncut]
  refine bind_congr_ok fun _ _ => bind_congr_ok fun _ _ => ?_
  rw [ok_bind]
  refine bind_congr_ok fun stored _ => ?_
  split
  · rfl
  · have present : t.hasVersion key = true := Tables.hasVersion_iff.mpr there
    rw [demandParent, present, demand_true, ok_bind, ok_bind, if_pos rfl]
    exact touch_both there (sound.owned key there) clean

theorem attempt_untagVersion (sound : t.Sound) : attempt (untagVersion key tag) now t = do
    requireTag tag
    given [.text key.model]
    let _ ← expect (t.version? key) (.versionNotFound key)
    given [.text tag]
    demand (TagRow.has key tag t.versionTags) (.tagNotFound (versionOwner key) tag)
    given [.time now.stored]
    return ((), ((t.removeVersionTag key tag).touchVersion key now.stored).touchModel key.model now.stored) := by
  simp [untagVersion, VersionTags.remove_on]
  refine bind_congr_ok fun _ _ => bind_congr_ok fun _ read => bind_congr_ok fun r found => ?_
  have clean : (Parameter.text key.model).fault? = none := by simpa using read
  have there := Tables.mem_keys_of_version? (expect_eq_ok.mp found)
  rw [given_cons_of_good clean]
  exact bind_congr_ok fun _ _ => bind_congr_ok fun _ _ => touch_both there (sound.owned key there) clean

theorem isNone_model? : (t.model? name).isNone = !t.hasModel name := by
  rw [Bool.eq_iff_iff, Option.isNone_iff_eq_none, Tables.model?_eq_none_iff, Bool.not_eq_true',
    ← Bool.not_eq_true, Tables.hasModel_iff]

/-- Once the model is found, its new name may only be one that no other model has. -/
theorem unlessTaken_rename {now : Timestamp} (clean : holdsZero name = false)
    (cleanNew : holdsZero newName = false) (there : name ∈ t.names) :
    (unlessTaken newName (Models.rename name newName now)).on t = do
      given [.time now]
      let stored ← fit nameWidth newName
      demand (stored = name || !t.hasModel stored) (.modelExists newName)
      return ((), t.rekeyModel name stored now) := by
  have present : t.hasModel name = true := Tables.hasModel_iff.mpr there
  have taken : ∀ stored, (t.models.any fun r => r.name ≠ name && r.name = stored) =
      !(decide (stored = name) || !t.hasModel stored) := by
    intro stored
    rw [Bool.eq_iff_iff]
    simp only [Tables.names, List.any_eq_true, Bool.and_eq_true, decide_eq_true_eq, Bool.not_or, Bool.not_not,
      Bool.not_eq_true', decide_eq_false_iff_not, Tables.hasModel_iff, List.mem_map]
    constructor
    · intro other
      obtain ⟨r, member, away, rfl⟩ := other
      exact ⟨away, r, member, rfl⟩
    · intro other
      obtain ⟨away, r, member, rfl⟩ := other
      exact ⟨r, member, away, rfl⟩
  have run : (Models.rename name newName now).on t = do
      given [.time now]
      let stored ← fit nameWidth newName
      demand (stored = name || !t.hasModel stored) (.storage (.duplicate (.model stored)))
      return ((), t.rekeyModel name stored now) := by
    rw [Models.rename_on, given_cons_of_good (Parameter.fault?_text.mpr clean),
      given_cons_of_good (Parameter.fault?_text.mpr cleanNew), present]
    refine bind_congr_ok fun _ _ => bind_congr_ok fun stored _ => ?_
    rw [demandFree, taken, Bool.not_not]
    rfl
  rw [unlessTaken_on, run]
  by_cases timely : now.isStorable = true
  · have read : given [.time now] = .ok () := by simpa using timely
    rw [read]
    by_cases room : fits nameWidth newName = true
    · have fitted : fit nameWidth newName = .ok (cut nameWidth newName) := fit_ok.mpr ⟨room, rfl⟩
      rw [fitted]
      simp only [ok_bind]
      cases decide (cut nameWidth newName = name) || !t.hasModel (cut nameWidth newName) <;> rfl
    · simp [fit, room]
  · simp [given, Parameter.fault?, timely, refuseIf]

theorem attempt_renameModel (sound : t.Sound) : attempt (renameModel name newName) now t = do
    requireModelName newName
    demand (name ≠ newName) (.argument (.sameModelName name))
    given [.text name]
    let r ← expect (t.model? name) (.modelNotFound name)
    given [.text newName]
    demand (!t.hasModel newName) (.modelExists newName)
    given [.time now.stored]
    let stored ← fit nameWidth newName
    demand (stored = name || !t.hasModel stored) (.modelExists newName)
    demand (stored = newName) (.modelNotFound newName)
    return (({ r with name := newName, updatedAt := now.stored } : ModelRow).entry (TagRow.read name t.modelTags),
      t.renamed name newName now.stored) := by
  simp [renameModel, isNone_model?, fetchModel]
  refine bind_congr_ok fun _ filled => bind_congr_ok fun _ differ => bind_congr_ok fun _ read =>
    bind_congr_ok fun r found => bind_congr_ok fun _ readNew => bind_congr_ok fun _ free => ?_
  have clean : holdsZero name = false := by simpa using read
  have cleanNew : holdsZero newName = false := by simpa using readNew
  have there := Tables.mem_names_of_model? (expect_eq_ok.mp found)
  have new : newName ∉ t.names := by simpa using free
  rw [unlessTaken_rename clean cleanNew there]
  simp
  refine bind_congr_ok fun _ timely => bind_congr_ok fun stored room => bind_congr_ok fun _ apart => ?_
  obtain ⟨fitting, rfl⟩ := fit_ok.mp room
  -- Whether the new name is taken has been seen, so that the tables of what the model owns are free of it.
  have apart : cut nameWidth newName ≠ name → cut nameWidth newName ∉ t.names := fun away there => by
    simp [away, there] at apart
  have tags : (ModelTags.rekey name newName).on (t.rekeyModel name (cut nameWidth newName) now.stored) = .ok ((), _) :=
    ModelTags.rekey_ok.mpr ⟨clean, cleanNew, fitting, sound.clash?_modelTags apart, rfl⟩
  have versions : (Versions.rekey name newName).on ((t.rekeyModel name (cut nameWidth newName)
      now.stored).rekeyModelTags name (cut nameWidth newName)) = .ok ((), _) :=
    Versions.rekey_ok.mpr ⟨clean, cleanNew, fitting, fun r _ away => sound.moved_notMem_keys apart away, rfl⟩
  have versionTags : (VersionTags.rekey name newName).on (((t.rekeyModel name (cut nameWidth newName)
      now.stored).rekeyModelTags name (cut nameWidth newName)).rekeyVersions name (cut nameWidth newName)) =
      .ok ((), t.renamed name (cut nameWidth newName) now.stored) :=
    VersionTags.rekey_ok.mpr ⟨clean, cleanNew, fitting, sound.clash?_versionTags apart, rfl⟩
  rw [tags, ok_bind, versions, ok_bind, versionTags, ok_bind, readNew, ok_bind]
  by_cases uncut : cut nameWidth newName = newName
  · have stored : Stored nameWidth newName := uncut ▸ stored_cut cleanNew
    have differ : newName ≠ name := Ne.symm (by simpa using differ)
    have whole : checkReferences (t.renamed name newName now.stored) = .ok () := by
      rw [checkReferences, (sound.renamed (by simpa using filled) stored new).dangling?_eq_none]
      rfl
    have moved : (t.renamed name newName now.stored).model? newName = _ :=
      Tables.model?_renamed_new new differ (expect_eq_ok.mp found)
    rw [uncut, moved, expect_some, ok_bind, whole, Tables.modelEntry, Tables.read_modelTags_renamed sound new]
    simp [demand_true]
  · have missing : (t.renamed name (cut nameWidth newName) now.stored).model? newName = none := by
      by_contra there
      obtain ⟨s, there⟩ := Option.ne_none_iff_exists'.mp there
      exact uncut (Tables.renamed_uncut new there)
    rw [missing, expect_none, error_bind]
    simp [uncut, demand_false]

end Operation

namespace Database

variable {t : Tables} {name : String} {key : VersionKey} {now : Instant}

/-- What is answered from tables that are there, and what becomes of them. -/
theorem answer_live_eq {α : Type} {operation : Except CatalogError (Operation α)} :
    (live t).answer operation now =
      match Operation.attempt operation now t with
      | .ok (a, t') => (.ok a, .live t')
      | .error e => (.error e, .live t) := by
  cases operation with
  | error e => rfl
  | ok run => exact answer_live

theorem call_eq_ok_iff {call : Call} {a : Answer} {db : Database} : (live t).call call now = (.ok a, db) ↔
    ∃ t', Operation.Succeeds call.operation? now t a t' ∧ db = .live t' := by
  rw [Database.call, answer_live_eq]
  constructor
  · intro answered
    split at answered
    · rename_i b t' run
      cases answered
      exact ⟨t', Operation.attempt_eq_ok.mp run, rfl⟩
    · exact absurd (congrArg Prod.fst answered) nofun
  · intro served
    obtain ⟨t', done, rfl⟩ := served
    rw [Operation.attempt_eq_ok.mpr done]

/-- What is answered to a call from tables that are there. -/
theorem call_live {call : Call} :
    ((live t).call call now).1 = (Operation.attempt call.operation? now t).map Prod.fst := by
  rw [Database.call, answer_live_eq]
  cases Operation.attempt call.operation? now t <;> rfl

/-- A call is answered with what its operation gives, made into an answer. -/
theorem call_live_answering {α : Type} {call : Call} {f : α → Answer} {operation : Except CatalogError (Operation α)}
    (asked : call.operation? = Operation.answering f operation) : (live t).call call now =
      match Operation.attempt operation now t with
      | .ok (a, t') => (.ok (f a), .live t')
      | .error e => (.error e, .live t) := by
  rw [Database.call, answer_live_eq, asked, Operation.attempt_answering]
  cases Operation.attempt operation now t <;> rfl

theorem getModel_answer : ((live t).call (.getModel name) now).1 = do
    given [.text name]
    let m ← expect ((t.model? name).map t.modelEntry) (.modelNotFound name)
    return .model m := by
  rw [call_live, Call.operation?, Operation.attempt_answering, Operation.attempt_getModel]
  cases given [.text name] <;> cases t.model? name <;> rfl

theorem getVersion_answer : ((live t).call (.getVersion key) now).1 = do
    given [.text key.model]
    let v ← expect ((t.version? key).map t.versionEntry) (.versionNotFound key)
    return .version v := by
  rw [call_live, Call.operation?, Operation.attempt_answering, Operation.attempt_getVersion]
  cases given [.text key.model] <;> cases t.version? key <;> rfl

theorem getModel_live (clean : holdsZero name = false) : ((live t).call (.getModel name) now).1 =
    (expect (t.model? name) (.modelNotFound name)).map fun r => .model (t.modelEntry r) := by
  have read : given [.text name] = .ok () := by simpa using clean
  rw [getModel_answer, read]
  cases t.model? name <;> rfl

theorem getVersion_live (clean : holdsZero key.model = false) : ((live t).call (.getVersion key) now).1 =
    (expect (t.version? key) (.versionNotFound key)).map fun r => .version (t.versionEntry r) := by
  have read : given [.text key.model] = .ok () := by simpa using clean
  rw [getVersion_answer, read]
  cases t.version? key <;> rfl

theorem versionUri_live (clean : holdsZero key.model = false) :
    ((live t).call (.versionUri key) now).1 = (expect (t.version? key) (.versionNotFound key)).map fun r =>
      .uri (artifactUri r.id key.model key.number) := by
  have read : given [.text key.model] = .ok () := by simpa using clean
  rw [call_live, Call.operation?, Operation.attempt_answering, Operation.attempt_versionUri, read]
  cases t.version? key <;> rfl

theorem listVersions_live {tags : List String} (clean : holdsZero name = false)
    (cleanTags : ∀ tag ∈ Operation.distinct tags, holdsZero tag = false) :
    ((live t).call (.listVersions name tags) now).1 =
      .ok (.versions (t.listedVersions name (Operation.distinct tags))) := by
  have read : given [.text name, .texts (Operation.distinct tags)] = .ok () := by
    simpa using And.intro clean cleanTags
  rw [call_live, Call.operation?, Operation.attempt_answering, Operation.attempt_listVersions, read]
  rfl

theorem listAllVersions_live (clean : holdsZero name = false) :
    ((live t).call (.listVersions name []) now).1 = .ok (.versions (t.listedVersions name [])) :=
  listVersions_live clean fun _ kept => absurd kept List.not_mem_nil

end Database

end ModelCatalog
