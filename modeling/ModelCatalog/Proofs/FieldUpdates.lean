import ModelCatalog.Proofs.Numbering
import ModelCatalog.Proofs.ReadBack
import ModelCatalog.Proofs.RefusalOrder
import ModelCatalog.Proofs.StageTexts

namespace ModelCatalog

open Operation (attempt)
open Parameter (holdsZero)

def Model.touched (m : Model) (now : Instant) : Model :=
  { m with updatedAt := now.stored.instant }

def Model.described (m : Model) (text : String) (now : Instant) : Model :=
  { m with description := some (cut descriptionWidth text), updatedAt := now.stored.instant }

def Version.described (v : Version) (text : String) (now : Instant) : Version :=
  { v with description := some (cut descriptionWidth text), updatedAt := now.stored.instant }

def Version.moved (v : Version) (stage : Stage) (now : Instant) : Version :=
  { v with stage := stage, updatedAt := now.stored.instant }

/-- The grounds to refuse a description, for the model of this name or for one of its versions. Whether it is there is
looked at last. -/
def describeGrounds (name text : String) (now : Instant) (missing : Ground) : List Ground :=
  [⟨holdsZero name, .storage .zeroCharacter⟩,
    ⟨holdsZero text, .storage .zeroCharacter⟩,
    ⟨now.isEarly, .storage .timeOutOfRange⟩,
    ⟨!fits descriptionWidth text, .argument (.tooLong descriptionWidth)⟩,
    missing]

namespace Tables

def noModel (t : Tables) (name : String) : Ground :=
  ⟨!t.hasModel name, .modelNotFound name⟩

def noVersion (t : Tables) (key : VersionKey) : Ground :=
  ⟨!t.hasVersion key, .versionNotFound key⟩

/-- The grounds to refuse another stage for a version. The text is read before anything else. -/
def moveGrounds (t : Tables) (key : VersionKey) (text : String) (now : Instant) : List Ground :=
  [⟨(Stage.ofText? text).isNone, .argument (.unknownStage text)⟩,
    ⟨holdsZero key.model, .storage .zeroCharacter⟩,
    ⟨now.isEarly, .storage .timeOutOfRange⟩,
    t.noVersion key]

end Tables

theorem Operation.isNone_version? {t : Tables} {key : VersionKey} : (t.version? key).isNone = !t.hasVersion key := by
  rw [Bool.eq_iff_iff, Option.isNone_iff_eq_none, Tables.version?_eq_none_iff, Bool.not_eq_true',
    ← Bool.not_eq_true, Tables.hasVersion_iff]

namespace Governs

variable {α β : Type} {t : Tables} {name text : String} {key : VersionKey} {now : Instant} {missing : Ground}

theorem description {x : Except CatalogError β} {f : β → Except CatalogError α} {good : α → Prop} {any : β → Prop}
    (look : Governs [missing] x any) (done : ∀ b, x = .ok b → ∃ a, f b = .ok a ∧ good a) :
    Governs (describeGrounds name text now missing) (do
      given [.text name, .text text, .time now.stored]
      let _ ← ModelCatalog.fit descriptionWidth text
      x >>= f) good := by
  simp only [given_cons_cons, bind_assoc]
  exact check Governs.text fun _ _ => check Governs.text fun _ _ => check time fun _ _ => check fit fun _ _ =>
    last look done

theorem describeModel : Governs (describeGrounds name text now (t.noModel name))
    (attempt (Operation.describeModel name text) now t) fun (m, t') => ∃ r, t.model? name = some r ∧
      m = (t.modelEntry r).described text now ∧ t' = t.describeModel name text now.stored := by
  rw [Operation.attempt_describeModel]
  exact description (expect Operation.isNone_model?.symm) fun r known => ⟨_, rfl, r, expect_eq_ok.mp known, rfl, rfl⟩

theorem describeVersion (sound : t.Sound) : Governs (describeGrounds key.model text now (t.noVersion key))
    (attempt (Operation.describeVersion key text) now t) fun (v, t') => ∃ r, t.version? key = some r ∧
      v = (t.versionEntry r).described text now ∧
      t' = (t.describeVersion key text now.stored).touchModel key.model now.stored := by
  rw [Operation.attempt_describeVersion sound]
  exact description (expect Operation.isNone_version?.symm) fun r known => ⟨_, rfl, r, expect_eq_ok.mp known, rfl, rfl⟩

theorem moveVersion (sound : t.Sound) : Governs (t.moveGrounds key text now)
    (attempt (Operation.moveVersion key text) now t) fun (v, t') => ∃ r stage, t.version? key = some r ∧
      Stage.ofText? text = some stage ∧ v = (t.versionEntry r).moved stage now ∧
      t' = (t.moveVersion key stage now.stored).touchModel key.model now.stored := by
  rw [Operation.attempt_moveVersion sound]
  simp only [given_cons_cons, bind_assoc]
  -- No row is looked up for a text that is no stage, and there is no further text in the statement.
  exact check (expect rfl) fun stage meant => check Governs.text fun _ _ => check time fun _ _ =>
    last (expect Operation.isNone_version?.symm) fun r known =>
      ⟨_, rfl, r, stage, expect_eq_ok.mp known, expect_eq_ok.mp meant, rfl, rfl⟩

end Governs

def Answer.onModel (f : Model → Model) : Answer → Answer
  | .model m => .model (f m)
  | a => a

def Answer.onVersion (g : Version → Version) : Answer → Answer
  | .version v => .version (g v)
  | a => a

namespace Database

/-- Tables of which the models and the versions are answered with these changes. No tag and no counter is different. -/
structure Revised (t t' : Tables) (model : String → Model → Model)
    (version : VersionKey → Version → Version) : Prop where
  models : ∀ name now, ((live t').call (.getModel name) now).1 =
    ((live t).call (.getModel name) now).1.map (Answer.onModel (model name))
  versions : ∀ key now, ((live t').call (.getVersion key) now).1 =
    ((live t).call (.getVersion key) now).1.map (Answer.onVersion (version key))
  counters : t'.counters = t.counters
  modelTags : t'.modelTags = t.modelTags
  versionTags : t'.versionTags = t.versionTags

variable {t t' t'' : Tables} {name text : String} {key : VersionKey} {now : Instant}
  {f f' : String → Model → Model} {g g' : VersionKey → Version → Version}

theorem getModel_revised (entry : ∀ name, (t'.model? name).map t'.modelEntry =
    ((t.model? name).map t.modelEntry).map (f name)) (name : String) (now : Instant) :
    ((live t').call (.getModel name) now).1 = ((live t).call (.getModel name) now).1.map (Answer.onModel (f name)) := by
  rw [getModel_answer, getModel_answer, entry]
  cases given [.text name] <;> cases (t.model? name).map t.modelEntry <;> rfl

theorem getVersion_revised (entry : ∀ key, (t'.version? key).map t'.versionEntry =
    ((t.version? key).map t.versionEntry).map (g key)) (key : VersionKey) (now : Instant) :
    ((live t').call (.getVersion key) now).1 =
      ((live t).call (.getVersion key) now).1.map (Answer.onVersion (g key)) := by
  rw [getVersion_answer, getVersion_answer, entry]
  cases given [.text key.model] <;> cases (t.version? key).map t.versionEntry <;> rfl

theorem Revised.trans (first : Revised t t' f g) (second : Revised t' t'' f' g') :
    Revised t t'' (fun name => f' name ∘ f name) fun key => g' key ∘ g key where
  models name now := by
    rw [second.models, first.models]
    rcases ((live t).call (.getModel name) now).1 with e | a
    · rfl
    · cases a <;> rfl
  versions key now := by
    rw [second.versions, first.versions]
    rcases ((live t).call (.getVersion key) now).1 with e | a
    · rfl
    · cases a <;> rfl
  counters := second.counters.trans first.counters
  modelTags := second.modelTags.trans first.modelTags
  versionTags := second.versionTags.trans first.versionTags

theorem Revised.getModel_eq (revised : Revised t t' f g) (kept : f name = id) :
    ((live t').call (.getModel name) now).1 = ((live t).call (.getModel name) now).1 := by
  rw [revised.models, kept]
  rcases ((live t).call (.getModel name) now).1 with e | a
  · rfl
  · cases a <;> rfl

theorem Revised.getVersion_eq (revised : Revised t t' f g) (kept : g key = id) :
    ((live t').call (.getVersion key) now).1 = ((live t).call (.getVersion key) now).1 := by
  rw [revised.versions, kept]
  rcases ((live t).call (.getVersion key) now).1 with e | a
  · rfl
  · cases a <;> rfl

theorem revised_updateModel {f : ModelRow → ModelRow} {change : Model → Model} (keeps : ∀ r, (f r).name = r.name)
    (counts : ∀ r, (f r).counter = r.counter) (changed : ∀ r tags, (f r).entry tags = change (r.entry tags)) :
    Revised t (t.updateModel name f) (Function.update (fun _ => id) name change) fun _ => id where
  models := getModel_revised fun other => by
    rw [Tables.model?_updateModel keeps, Function.update_apply]
    split
    · rw [Option.map_map, Option.map_map]
      refine Option.map_congr fun r _ => ?_
      simp only [Function.comp_apply, Tables.modelEntry, keeps, changed]
      rfl
    · rw [Option.map_id, id]
      rfl
  versions := getVersion_revised fun key => by
    rw [Option.map_id, id]
    rfl
  counters := Tables.counters_updateModel keeps counts
  modelTags := rfl
  versionTags := rfl

theorem revised_touchModel : Revised t (t.touchModel name now.stored)
    (Function.update (fun _ => id) name (·.touched now)) fun _ => id :=
  revised_updateModel (fun _ => rfl) (fun _ => rfl) fun _ _ => rfl

theorem revised_updateVersion {g : VersionRow → VersionRow} {change : Version → Version}
    (keeps : ∀ r, (g r).key = r.key) (changed : ∀ r tags, (g r).entry tags = change (r.entry tags)) :
    Revised t (t.updateVersion key g) (fun _ => id) (Function.update (fun _ => id) key change) where
  models := getModel_revised fun other => by
    rw [Option.map_id, id]
    rfl
  versions := getVersion_revised fun other => by
    rw [Tables.version?_updateVersion keeps, Function.update_apply]
    split
    · rw [Option.map_map, Option.map_map]
      refine Option.map_congr fun r _ => ?_
      simp only [Function.comp_apply, Tables.versionEntry, keeps, changed]
      rfl
    · rw [Option.map_id, id]
      rfl
  counters := rfl
  modelTags := rfl
  versionTags := rfl

theorem isReadable_model_eq {m : Model} :
    (Answer.model m).isReadable = (m.createdAt.representable && m.updatedAt.representable) := by
  rw [Bool.eq_iff_iff, isReadable_model, Bool.and_eq_true]

theorem isReadable_version_eq {v : Version} :
    (Answer.version v).isReadable = (v.createdAt.representable && v.updatedAt.representable) := by
  rw [Bool.eq_iff_iff, isReadable_version, Bool.and_eq_true]

/-- What an update of a model answers and leaves: the model with this change, and all others as they were. -/
structure UpdatesModel (t t' : Tables) (name : String) (change : Model → Model) (now : Instant)
    (a : Answer) : Prop where
  revised : Revised t t' (Function.update (fun _ => id) name change) fun _ => id
  answered : ∃ m, (live t).call (.getModel name) now = (.ok (.model m), live t) ∧ a = .model (change m) ∧
    a.isReadable = (m.createdAt.representable && now.stored.instant.representable)

/-- What an update of a version answers and leaves: the version with this change, its model with the time of it, and
all others as they were. -/
structure UpdatesVersion (t t' : Tables) (key : VersionKey) (change : Version → Version) (now : Instant)
    (a : Answer) : Prop where
  revised : Revised t t' (Function.update (fun _ => id) key.model (·.touched now))
    (Function.update (fun _ => id) key change)
  answered : ∃ v, (live t).call (.getVersion key) now = (.ok (.version v), live t) ∧ a = .version (change v) ∧
    a.isReadable = (v.createdAt.representable && now.stored.instant.representable)

theorem updatesModel (sound : t.Sound) {r : ModelRow} (found : t.model? name = some r) :
    UpdatesModel t (t.describeModel name text now.stored) name (·.described text now) now
      (.model ((t.modelEntry r).described text now)) where
  revised := revised_updateModel (fun _ => rfl) (fun _ => rfl) fun _ _ => rfl
  answered :=
    have clean := (sound.stored_name (Tables.mem_names_of_model? found)).clean
    ⟨t.modelEntry r, call_getModel clean found, rfl, isReadable_model_eq⟩

theorem updatesVersion (sound : t.Sound) {r : VersionRow} (found : t.version? key = some r)
    {g : VersionRow → VersionRow} {change : Version → Version} (keeps : ∀ r, (g r).key = r.key)
    (changed : ∀ r tags, (g r).entry tags = change (r.entry tags)) (made : ∀ v, (change v).createdAt = v.createdAt)
    (new : ∀ v, (change v).updatedAt = now.stored.instant) :
    UpdatesVersion t ((t.updateVersion key g).touchModel key.model now.stored) key change now
      (.version (change (t.versionEntry r))) where
  revised := (revised_updateVersion keeps changed).trans revised_touchModel
  answered := by
    have clean := (sound.stored_key (Tables.mem_keys_of_version? found)).clean
    refine ⟨t.versionEntry r, call_getVersion clean found, rfl, ?_⟩
    rw [isReadable_version_eq, made, new]

variable {allowed : Event → Prop}

/-- A description or a stage is refused on the first ground that holds. If none holds, it is all that is different about
its model or its version, besides the time, and the model of a version has that time too. A version that is there may
get to any stage from any other. -/
theorem updates_settled (reached : (live t).Reached allowed) (now : Instant) :
    (∀ name text, Settles t (.describeModel name text) now (describeGrounds name text now (t.noModel name))
      fun a t' => t' = t.describeModel name text now.stored ∧
        UpdatesModel t t' name (·.described text now) now a) ∧
    (∀ key text, Settles t (.describeVersion key text) now (describeGrounds key.model text now (t.noVersion key))
      fun a t' => t' = (t.describeVersion key text now.stored).touchModel key.model now.stored ∧
        UpdatesVersion t t' key (·.described text now) now a) ∧
    (∀ key text, Settles t (.moveVersion key text) now (t.moveGrounds key text now)
      fun a t' => ∃ stage, Stage.ofText? text = some stage ∧
        t' = (t.moveVersion key stage now.stored).touchModel key.model now.stored ∧
        UpdatesVersion t t' key (·.moved stage now) now a) ∧
    ∀ key ∈ t.keys, now.isEarly = false → ∀ stage : Stage,
      Ground.first? (t.moveGrounds key stage.name now) = none := by
  have sound : t.Sound := reached.sound
  refine ⟨fun name text => ?_, fun key text => ?_, fun key text => ?_, fun key there timely stage => ?_⟩
  · refine (settles rfl .describeModel).imp fun a t' _ made => ?_
    obtain ⟨_, ⟨r, found, rfl, rfl⟩, rfl⟩ := made
    exact ⟨rfl, updatesModel sound found⟩
  · refine (settles rfl (.describeVersion sound)).imp fun a t' _ made => ?_
    obtain ⟨_, ⟨r, found, rfl, rfl⟩, rfl⟩ := made
    exact ⟨rfl, updatesVersion sound found (fun _ => rfl) (fun _ _ => rfl) (fun _ => rfl) fun _ => rfl⟩
  · refine (settles rfl (.moveVersion sound)).imp fun a t' _ made => ?_
    obtain ⟨_, ⟨r, stage, found, meant, rfl, rfl⟩, rfl⟩ := made
    exact ⟨stage, meant, rfl, updatesVersion sound found (fun _ => rfl) (fun _ _ => rfl) (fun _ => rfl) fun _ => rfl⟩
  · have clean := (sound.stored_key there).clean
    have present := Tables.hasVersion_iff.mpr there
    simp [Ground.first?, Tables.moveGrounds, Tables.noVersion, Stage.ofText?_name, clean, timely, present]

theorem shelf_updates_settled :
    let now := Catalog.opened.clock.reading
    let t := shelf.tables
    let key : VersionKey := ⟨"a", 1⟩
    (live t).Reached Event.KeepsCounters ∧ key ∈ t.keys ∧ now.isEarly = false ∧
      (∃ v t', (live t).perform? (.moveVersion key Stage.production.name) now = some (.ok (.version v), live t') ∧
        v.stage = .production ∧ v.tags = ["z"] ∧ ((live t').call (.getVersion key) now).1 = .ok (.version v)) ∧
      (∃ m t', (live t).perform? (.describeModel "b" "new") now = some (.ok (.model m), live t') ∧
        m.description = some "new" ∧ m.tags = ["x"] ∧
        ((live t').call (.getModel "a") now).1 = ((live t).call (.getModel "a") now).1 ∧
        ((live t').call (.getVersion key) now).1 = ((live t).call (.getVersion key) now).1) ∧
      (live t).perform? (.describeVersion ⟨"b", 1⟩ "new") now = some (.error (.versionNotFound ⟨"b", 1⟩), live t) ∧
      (live t).perform? (.moveVersion ⟨"b", 1⟩ "new") now =
        some (.error (.argument (.unknownStage "new")), live t) := by
  intro now t key
  have same : shelf = live t := by decide
  have reached : (live t).Reached Event.KeepsCounters := same ▸ reached_shelf
  have there : key ∈ t.keys := by decide
  have timely : now.isEarly = false := by decide
  have stamped : (now.stored.instant.representable && now.stored.instant.representable) = true := by decide
  have row : t.version? key =
      some ⟨key, "run", "user", "trial", "tree", .initial, now.stored, now.stored, none, none⟩ := by decide
  have other : t.model? "b" = some ⟨"b", now.stored, now.stored, none, 0⟩ := by decide
  obtain ⟨describeModel, describeVersion, move, free⟩ := updates_settled reached now
  have moves : ∃ v t',
      (live t).perform? (.moveVersion key Stage.production.name) now = some (.ok (.version v), live t') ∧
      v.stage = .production ∧ v.tags = ["z"] ∧ ((live t').call (.getVersion key) now).1 = .ok (.version v) := by
    obtain ⟨_, t', ⟨stage, meant, -, revised, v, found, rfl, readable⟩, -, performed⟩ :=
      (move key Stage.production.name).served (free key there timely .production)
    obtain rfl : stage = .production := Option.some.inj (meant.symm.trans (Stage.ofText?_name .production))
    cases found.symm.trans (call_getVersion (by decide) row)
    have read := revised.versions key now
    rw [found, Function.update_self] at read
    exact ⟨_, t', performed.trans (if_pos (readable.trans stamped)), rfl, by decide +kernel, read⟩
  have describes : ∃ m t', (live t).perform? (.describeModel "b" "new") now = some (.ok (.model m), live t') ∧
      m.description = some "new" ∧ m.tags = ["x"] ∧
      ((live t').call (.getModel "a") now).1 = ((live t).call (.getModel "a") now).1 ∧
      ((live t').call (.getVersion key) now).1 = ((live t).call (.getVersion key) now).1 := by
    obtain ⟨_, t', ⟨-, revised, m, found, rfl, readable⟩, -, performed⟩ :=
      (describeModel "b" "new").served (by decide)
    cases found.symm.trans (call_getModel (by decide) other)
    exact ⟨_, t', performed.trans (if_pos (readable.trans stamped)), rfl, by decide +kernel,
      revised.getModel_eq (Function.update_of_ne (by decide) _ _), revised.getVersion_eq rfl⟩
  exact ⟨reached, there, timely, moves, describes, (describeVersion ⟨"b", 1⟩ "new").refused _ (by decide),
    (move ⟨"b", 1⟩ "new").refused _ (by decide)⟩

/-- In the leap second before the first storable day a description can be given. To a model whose times cannot be read
back it cannot, although nothing stands against it; and there a version cannot be moved. -/
theorem updates_unanswered :
    let early : Instant := ⟨Date.toDays ⟨-4713, 11, 24⟩ * 86400 - 1, 1500000000, by decide, by decide⟩
    let last : Instant := ⟨Date.toDays ⟨Instant.greatestYear + 1, 1, 1⟩ * 86400 - 1, 1500000000, by decide, by decide⟩
    let now := Catalog.opened.clock.reading
    let late := (Catalog.opened.steps [.setClock last, .call (.createModel "a" none []),
      .call (.createVersion "a" ⟨"run", "user", "trial", "tree", none, []⟩)]).2.database
    shelf.Reached Event.KeepsCounters ∧ early.day = ⟨-4713, 11, 23⟩ ∧
      (∃ m after, shelf.perform? (.describeModel "b" "new") early = some (.ok (.model m), after)) ∧
      late.Reached Event.KeepsCounters ∧ late.tables.keys = [⟨"a", 1⟩] ∧
      Ground.first? (describeGrounds "a" "new" now (late.tables.noModel "a")) = none ∧
      late.perform? (.describeModel "a" "new") now = none ∧
      late.perform? (.moveVersion ⟨"a", 1⟩ "PRODUCTION") now = none := by
  intro early last now late
  have reached : late.Reached Event.KeepsCounters :=
    ⟨Catalog.opened, _, Catalog.fresh_opened, by simp [Event.KeepsCounters], rfl⟩
  refine ⟨reached_shelf, by decide,
    ⟨⟨"b", now, early.folded, some "new", ["x"]⟩, (shelf.call (.describeModel "b" "new") early).2, by decide +kernel⟩,
    reached, by decide, by decide, by decide +kernel, by decide +kernel⟩

end Database

end ModelCatalog
