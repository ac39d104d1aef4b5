import ModelCatalog.Proofs.ReadBack
import ModelCatalog.Proofs.RefusalOrder

namespace ModelCatalog

open TagRow (Accounts)

/-- An account is right about the tags of all owners that are there. -/
structure Tables.Tagged (lists : TagLists) (t : Tables) : Prop where
  sound : t.Sound
  models : Accounts t.names t.modelTags lists.models
  versions : Accounts t.keys t.versionTags lists.versions

namespace Tables.Tagged

variable {lists : TagLists} {t t' : Tables} {name newName tag : String} {key : VersionKey} {now : Timestamp} {l : TagList}

theorem models_renamed (tagged : t.Tagged lists) (there : name ∈ t.names) (new : newName ∉ t.names) :
    Accounts (t.renamed name newName now).names (t.renamed name newName now).modelTags
      (Function.update (Function.update lists.models newName (lists.models name)) name none) := by
  have differ : newName ≠ name := fun same => new (same ▸ there)
  intro owner
  rw [names_renamed, renamed_modelTags, Function.update_apply, Function.update_apply]
  by_cases old : owner = name
  · subst owner
    rw [if_pos rfl]
    change name ∉ t.names.map _
    simpa using fun _ _ => moved_ne_name differ
  rw [if_neg old]
  by_cases moved : owner = newName
  · subst owner
    rw [if_pos rfl]
    refine (tagged.models name).rekey tagged.sound.modelTags fun other member => ?_
    exact moved_eq_newName_iff fun same => new (same ▸ member)
  · rw [if_neg moved]
    exact (tagged.models owner).rekey tagged.sound.modelTags fun _ _ => moved_eq_other_iff old moved

theorem versions_renamed (tagged : t.Tagged lists) (there : name ∈ t.names) (new : newName ∉ t.names) :
    Accounts (t.renamed name newName now).keys (t.renamed name newName now).versionTags fun key =>
      if key.model = name then none else if key.model = newName then lists.versions ⟨name, key.number⟩
      else lists.versions key := by
  have differ : newName ≠ name := fun same => new (same ▸ there)
  intro key
  rw [keys_renamed, renamed_versionTags]
  beta_reduce
  by_cases old : key.model = name
  · rw [if_pos old]
    change key ∉ t.keys.map _
    rw [List.mem_map]
    rintro ⟨other, -, same⟩
    exact moved_ne_name differ ((moved_key_eq_iff.mp same).1.trans old)
  rw [if_neg old]
  by_cases moved : key.model = newName
  · rw [if_pos moved]
    refine (tagged.versions ⟨name, key.number⟩).rekey tagged.sound.versionTags fun other member => ?_
    have apart : other.model ≠ newName := fun same => new (same ▸ tagged.sound.owned other member)
    rw [moved_key_eq_iff, moved, moved_eq_newName_iff apart]
    exact VersionKey.mk.injEq .. ▸ Iff.rfl
  · rw [if_neg moved]
    refine (tagged.versions key).rekey tagged.sound.versionTags fun other _ => ?_
    rw [moved_key_eq_iff, moved_eq_other_iff old moved]
    exact VersionKey.mk.injEq .. ▸ Iff.rfl

theorem models_afterEdit {call : Call} {a : Answer} (tagged : t.Tagged lists) (edit : t.Edit now call a t') :
    Accounts t'.names t'.modelTags (Ledger.tags.note lists call a).models := by
  have known := tagged.models
  cases edit with
  | @read call a reads =>
    cases call with
    | getModel | getVersion | versionUri | listModels | listVersions => exact known
    | _ => exact absurd reads nofun
  | createModel row new =>
    rw [names_addModelTags, names_addModel, addModelTags_modelTags, addModel_modelTags, ModelRow.registered_name]
    exact known.addOwner tagged.sound.modelTags new
  | describeModel =>
    rw [names_describeModel]
    exact known
  | renameModel there new => exact tagged.models_renamed there new
  | @deleteModel name =>
    rw [names_withoutModel, withoutModel_modelTags]
    refine (known.removeOwners fun _ => decide_not).congr fun owner => ?_
    simp only [Ledger.tags, Function.update_apply, decide_eq_true_eq]
  | tagModelAgain there old => exact known.tagged_again old
  | tagModel there new =>
    rw [names_touchModel, names_addModelTags]
    exact known.tagged new
  | untagModel there =>
    rw [names_touchModel, names_removeModelTag]
    exact known.untagged tagged.sound.modelTags.unique
  | createVersion =>
    rw [names_addVersionTags, names_addVersion, names_countVersion]
    exact known
  | describeVersion | moveVersion | deleteVersion | tagVersion | untagVersion =>
    rw [names_touchModel]
    exact known
  | tagVersionAgain => exact known

theorem versions_afterEdit {call : Call} {a : Answer} (tagged : t.Tagged lists) (edit : t.Edit now call a t') :
    Accounts t'.keys t'.versionTags (Ledger.tags.note lists call a).versions := by
  have known := tagged.versions
  cases edit with
  | @read call a reads =>
    cases call with
    | getModel | getVersion | versionUri | listModels | listVersions => exact known
    | _ => exact absurd reads nofun
  | createModel | describeModel | tagModelAgain | tagModel | untagModel => exact known
  | renameModel there new => exact tagged.versions_renamed there new
  | @deleteModel name =>
    rw [keys_withoutModel, withoutModel_versionTags]
    refine (known.removeOwners fun _ => decide_not).congr fun key => ?_
    simp only [Ledger.tags, decide_eq_true_eq]
  | @createVersion name draft r v member named room new filled _ row number =>
    have key : (VersionRow.drafted ⟨name, r.counter + 1⟩ draft now).key = ⟨name, r.counter + 1⟩ :=
      tagged.sound.drafted_key member named
    rw [keys_addVersionTags, keys_addVersion, key, keys_countVersion, addVersionTags_versionTags,
      addVersion_versionTags, countVersion_versionTags]
    change Accounts _ _ (Function.update lists.versions ⟨name, v.number⟩ _)
    rw [number]
    exact known.addOwner tagged.sound.versionTags new
  | describeVersion =>
    rw [keys_touchModel, keys_describeVersion]
    exact known
  | moveVersion =>
    rw [keys_touchModel, keys_moveVersion]
    exact known
  | @deleteVersion key =>
    rw [keys_touchModel, keys_withoutVersion]
    refine (known.removeOwners fun owner => decide_not (p := owner = key)).congr fun owner => ?_
    simp only [Ledger.tags, Function.update_apply, decide_eq_true_eq]
  | tagVersionAgain there old => exact known.tagged_again old
  | tagVersion there new =>
    rw [keys_touchModel, keys_touchVersion, keys_addVersionTags]
    exact known.tagged new
  | untagVersion there =>
    rw [keys_touchModel, keys_touchVersion, keys_removeVersionTag]
    exact known.untagged tagged.sound.versionTags.unique

theorem afterEdit {call : Call} {a : Answer} (tagged : t.Tagged lists) (edit : t.Edit now call a t') :
    t'.Tagged (Ledger.tags.note lists call a) where
  sound := tagged.sound.afterEdit edit
  models := tagged.models_afterEdit edit
  versions := tagged.versions_afterEdit edit

theorem afterTurn {home : String} {now : Instant} {e : Event} {r : Reply} (tagged : t.Tagged lists)
    (turn : t.Turn now e r t') : t'.Tagged (Ledger.tags.next home lists (e, some (.ok r))) := by
  have sound := tagged.sound.afterTurn turn
  cases turn with
  | call done => exact tagged.afterEdit (tagged.sound.edit done)
  | dataset done =>
    obtain ⟨-, -, -, rfl, -⟩ := Versions.setDataset_ok.mp done
    refine ⟨sound, tagged.models, ?_⟩
    rw [keys_writeDataset]
    exact tagged.versions
  | counter done =>
    obtain ⟨-, rfl, -⟩ := Models.setCounter_ok.mp done
    refine ⟨sound, ?_, tagged.versions⟩
    rw [names_writeCounter]
    exact tagged.models

end Tables.Tagged

/-- What is to be found in a database where the tags are as an account of them tells. -/
structure Database.Reports (db : Database) (now : Instant) (lists : TagLists) : Prop where
  getModel : ∀ name l, lists.models name = some l →
    ∃ m, db.Answers (.getModel name) now (.model m) db ∧ m.name = name ∧ l.Told m.tags
  noModel : ∀ name a, lists.models name = none → (db.call (.getModel name) now).1 ≠ .ok a
  getVersion : ∀ key l, lists.versions key = some l → ∃ v, db.Answers (.getVersion key) now (.version v) db ∧
    v.model = key.model ∧ v.number = key.number ∧ l.Told v.tags
  noVersion : ∀ key a, lists.versions key = none → (db.call (.getVersion key) now).1 ≠ .ok a
  listModels : ∀ filter wanted ms, (db.call (.listModels filter wanted) now).1 = .ok (.models ms) →
    ∀ m ∈ ms, ∃ l, lists.models m.name = some l ∧ l.Told m.tags
  listVersions : ∀ name wanted vs, (db.call (.listVersions name wanted) now).1 = .ok (.versions vs) →
    ∀ v ∈ vs, ∃ l, lists.versions ⟨v.model, v.number⟩ = some l ∧ l.Told v.tags
  tagModelAgain : ∀ name tag l a after, lists.models name = some l → cut tagWidth tag ∈ l.tags →
    db.call (.tagModel name tag) now = (.ok a, after) → after = db
  tagVersionAgain : ∀ key tag l a after, lists.versions key = some l → cut tagWidth tag ∈ l.tags →
    db.call (.tagVersion key tag) now = (.ok a, after) → after = db
  untagModel : ∀ name tag, (∃ after, db.Answers (.untagModel name tag) now .done after) ↔
    (∃ l, lists.models name = some l ∧ tag ∈ l.tags) ∧ now.isEarly = false
  untagVersion : ∀ key tag, (∃ after, db.Answers (.untagVersion key tag) now .done after) ↔
    (∃ l, lists.versions key = some l ∧ tag ∈ l.tags) ∧ now.isEarly = false
  distinctModel : ∀ name l, lists.models name = some l → l.tags.Nodup
  distinctVersion : ∀ key l, lists.versions key = some l → l.tags.Nodup

namespace Database

variable {db : Database} {now : Instant} {lists : TagLists} {name tag : String} {key : VersionKey} {l : TagList}

section Reports

variable (tagged : db.tables.Tagged lists)
include tagged

theorem model_reported (entry : lists.models name = some l) :
    ∃ m, db.Answers (.getModel name) now (.model m) db ∧ m.name = name ∧ l.Told m.tags := by
  obtain ⟨there, tells⟩ := tagged.models.told entry
  obtain ⟨r, found⟩ := Tables.exists_model?_iff.mpr there
  have named := Tables.name_of_model? found
  refine ⟨_, (answers_getModel_iff tagged.sound).mpr ⟨r, found, rfl⟩, named, ?_⟩
  rw [← named] at tells
  exact tells.told

theorem version_reported (entry : lists.versions key = some l) : ∃ v, db.Answers (.getVersion key) now (.version v) db ∧
    v.model = key.model ∧ v.number = key.number ∧ l.Told v.tags := by
  obtain ⟨there, tells⟩ := tagged.versions.told entry
  obtain ⟨r, found⟩ := Tables.exists_version?_iff.mpr there
  have keyed := Tables.key_of_version? found
  refine ⟨_, (answers_getVersion_iff tagged.sound).mpr ⟨r, found, rfl⟩, congrArg VersionKey.model keyed,
    congrArg VersionKey.number keyed, ?_⟩
  rw [← keyed] at tells
  exact tells.told

theorem model_unreported {a : Answer} (entry : lists.models name = none) :
    (db.call (.getModel name) now).1 ≠ .ok a := by
  intro answered
  simp only [call_ok_iff, Call.operation?, Operation.succeeds_answering, Operation.getModel_succeeds] at answered
  obtain ⟨-, -, m, ⟨-, rfl, r, found, -⟩, -⟩ := answered
  exact tagged.models.eq_none_iff.mp entry (Tables.mem_names_of_model? found)

theorem version_unreported {a : Answer} (entry : lists.versions key = none) :
    (db.call (.getVersion key) now).1 ≠ .ok a := by
  intro answered
  simp only [call_ok_iff, Call.operation?, Operation.succeeds_answering, Operation.getVersion_succeeds] at answered
  obtain ⟨-, -, v, ⟨-, rfl, r, found, -⟩, -⟩ := answered
  exact tagged.versions.eq_none_iff.mp entry (Tables.mem_keys_of_version? found)

theorem models_reported {filter : Option String} {wanted : List String} {ms : List Model}
    (listed : (db.call (.listModels filter wanted) now).1 = .ok (.models ms)) {m : Model} (member : m ∈ ms) :
    ∃ l, lists.models m.name = some l ∧ l.Told m.tags := by
  simp only [call_ok_iff, Call.operation?, Operation.succeeds_answering] at listed
  obtain ⟨-, t', ms', done, same⟩ := listed
  cases same
  obtain ⟨-, -, -, rfl⟩ := Operation.listModels_succeeds.mp done
  obtain ⟨r, picked, rfl⟩ := List.mem_map.mp member
  have there := List.mem_of_mem_filter (List.mem_mergeSort.mp picked)
  exact tagged.models.exists_told (List.mem_map_of_mem there)

theorem versions_reported {wanted : List String} {vs : List Version}
    (listed : (db.call (.listVersions name wanted) now).1 = .ok (.versions vs)) {v : Version} (member : v ∈ vs) :
    ∃ l, lists.versions ⟨v.model, v.number⟩ = some l ∧ l.Told v.tags := by
  simp only [call_ok_iff, Call.operation?, Operation.succeeds_answering] at listed
  obtain ⟨-, t', vs', done, same⟩ := listed
  cases same
  obtain ⟨-, -, -, rfl⟩ := Operation.listVersions_succeeds.mp done
  obtain ⟨r, picked, rfl⟩ := List.mem_map.mp member
  have there := List.mem_of_mem_filter (List.mem_mergeSort.mp picked)
  exact tagged.versions.exists_told (List.mem_map_of_mem there)

theorem tagModel_again (entry : lists.models name = some l) (old : cut tagWidth tag ∈ l.tags) {a : Answer}
    {after : Database} (called : db.call (.tagModel name tag) now = (.ok a, after)) : after = db := by
  obtain ⟨t, t', rfl, done, same⟩ := call_of_ok (congrArg Prod.fst called)
  rw [called] at same
  obtain rfl : after = live t' := same
  have label := (tagged.models.told entry).2.mem_iff.mp old
  cases tagged.sound.edit done with
  | read | tagModelAgain => rfl
  | tagModel there new => exact absurd label new

theorem tagVersion_again (entry : lists.versions key = some l) (old : cut tagWidth tag ∈ l.tags) {a : Answer}
    {after : Database} (called : db.call (.tagVersion key tag) now = (.ok a, after)) : after = db := by
  obtain ⟨t, t', rfl, done, same⟩ := call_of_ok (congrArg Prod.fst called)
  rw [called] at same
  obtain rfl : after = live t' := same
  have label := (tagged.versions.told entry).2.mem_iff.mp old
  cases tagged.sound.edit done with
  | read | tagVersionAgain => rfl
  | tagVersion there new => exact absurd label new

/-- A tag can be taken away from a model exactly if it is one of its tags as it stands, and the time can be stored. -/
theorem untagModel_iff : (∃ after, db.Answers (.untagModel name tag) now .done after) ↔
    (∃ l, lists.models name = some l ∧ tag ∈ l.tags) ∧ now.isEarly = false := by
  rw [exists_answers_iff, tagged.models.tag_iff tagged.sound.modelTags, ← Instant.isStorable_stored_iff]
  simp only [call_ok_iff, Call.operation?, Operation.succeeds_answering, Operation.untagModel_succeeds]
  constructor
  · rintro ⟨-, t', u, ⟨-, -, -, -, label, storable, -⟩, -⟩
    exact ⟨label, storable⟩
  · rintro ⟨label, storable⟩
    have there := tagged.sound.modelTags.mem_owners label
    have clean := (tagged.sound.stored_name there).clean
    obtain ⟨filled, text⟩ := tagged.sound.modelTags.stored_tag label
    exact ⟨live_of_name there, _, (), ⟨filled, clean, there, text.clean, label, storable, rfl⟩, trivial⟩

theorem untagVersion_iff : (∃ after, db.Answers (.untagVersion key tag) now .done after) ↔
    (∃ l, lists.versions key = some l ∧ tag ∈ l.tags) ∧ now.isEarly = false := by
  rw [exists_answers_iff, tagged.versions.tag_iff tagged.sound.versionTags, ← Instant.isStorable_stored_iff]
  simp only [call_ok_iff, Call.operation?, Operation.succeeds_answering, Operation.untagVersion_succeeds]
  constructor
  · rintro ⟨-, t', u, ⟨-, -, -, -, label, storable, -⟩, -⟩
    exact ⟨label, storable⟩
  · rintro ⟨label, storable⟩
    have there := tagged.sound.versionTags.mem_owners label
    have clean := (tagged.sound.stored_key there).clean
    have model := tagged.sound.owned key there
    obtain ⟨filled, text⟩ := tagged.sound.versionTags.stored_tag label
    exact ⟨live_of_key there, _, (), ⟨filled, clean, there, text.clean, label, storable, model, rfl⟩, trivial⟩

end Reports

end Database

namespace Catalog

variable {c : Catalog}

theorem tagged_steps (fresh : c.Fresh) (events : List Event) :
    (c.steps events).2.database.tables.Tagged (Ledger.tags.after c events) :=
  Ledger.tags.after_holds (fun lists t => t.Tagged lists) (fun _ => True)
    ⟨.empty, fun _ => List.not_mem_nil, fun _ => List.not_mem_nil⟩ (fun _ tagged turn => tagged.afterTurn turn) fresh
    fun _ _ => trivial

/-- The tags of a model or a version are an ordered set, the newest first: at any point of any session, what is found
is what follows from the calls that succeeded. -/
theorem reports_history (fresh : c.Fresh) (events : List Event) (now : Instant) :
    (c.steps events).2.database.Reports now (Ledger.tags.after c events) := by
  have tagged := tagged_steps fresh events
  exact {
    getModel := fun _ _ entry => Database.model_reported tagged entry
    noModel := fun _ _ entry => Database.model_unreported tagged entry
    getVersion := fun _ _ entry => Database.version_reported tagged entry
    noVersion := fun _ _ entry => Database.version_unreported tagged entry
    listModels := fun _ _ _ listed _ member => Database.models_reported tagged listed member
    listVersions := fun _ _ _ listed _ member => Database.versions_reported tagged listed member
    tagModelAgain := fun _ _ _ _ _ entry old called => Database.tagModel_again tagged entry old called
    tagVersionAgain := fun _ _ _ _ _ entry old called => Database.tagVersion_again tagged entry old called
    untagModel := fun _ _ => Database.untagModel_iff tagged
    untagVersion := fun _ _ => Database.untagVersion_iff tagged
    distinctModel := fun _ _ entry => (tagged.models.told entry).2.nodup tagged.sound.modelTags.unique
    distinctVersion := fun _ _ entry => (tagged.versions.told entry).2.nodup tagged.sound.versionTags.unique }

/-- Tags are taken away, put back and put twice before the model is renamed. -/
def relabelling : List Event :=
  [.call (.createModel "a" none ["x", "y", "x"]),
    .call (.createVersion "a" ⟨"run", "user", "trial", "tree", none, ["z"]⟩),
    .call (.tagModel "a" "w"), .call (.untagModel "a" "x"), .call (.tagModel "a" "x"), .call (.tagModel "a" "w"),
    .call (.tagVersion ⟨"a", 1⟩ "v"), .call (.renameModel "a" "b"), .call (.untagVersion ⟨"b", 1⟩ "z")]

theorem tags_of_relabelling :
    let db := (opened.steps relabelling).2.database
    let now := opened.clock.reading
    opened.Fresh ∧
      (∃ m, db.Answers (.getModel "b") now (.model m) db ∧ m.name = "b" ∧ m.tags = ["x", "w", "y"]) ∧
      (∃ v, db.Answers (.getVersion ⟨"b", 1⟩) now (.version v) db ∧ v.model = "b" ∧ v.number = 1 ∧ v.tags = ["v"]) ∧
      (∃ after, db.Answers (.untagModel "b" "w") now .done after) ∧
      ¬∃ after, db.Answers (.untagVersion ⟨"b", 1⟩ "z") now .done after := by
  intro db now
  have reports : db.Reports now (Ledger.tags.after opened relabelling) := reports_history fresh_opened relabelling now
  have model : (Ledger.tags.after opened relabelling).models "b" = some ⟨["x", "w", "y"], true⟩ := by decide +kernel
  have version : (Ledger.tags.after opened relabelling).versions ⟨"b", 1⟩ = some ⟨["v"], true⟩ := by decide +kernel
  obtain ⟨m, answersModel, named, toldModel⟩ := reports.getModel "b" _ model
  obtain ⟨v, answersVersion, of, number, toldVersion⟩ := reports.getVersion ⟨"b", 1⟩ _ version
  refine ⟨fresh_opened, ⟨m, answersModel, named, toldModel.order rfl⟩,
    ⟨v, answersVersion, of, number, toldVersion.order rfl⟩, ?_, fun untagged => ?_⟩
  · exact (reports.untagModel "b" "w").mpr ⟨⟨_, model, by decide⟩, by decide⟩
  · obtain ⟨⟨l, entry, member⟩, -⟩ := (reports.untagVersion ⟨"b", 1⟩ "z").mp untagged
    rw [version] at entry
    cases entry
    exact absurd member (by decide)

open Database (crowd)

/-- In the leap second before the first storable day a tag can be taken away. Tags past the last position are not read
in their order, although all of their positions are integers of 32 bits. -/
theorem untagged_before_calendar :
    let early : Instant := ⟨Date.toDays ⟨-4713, 11, 24⟩ * 86400 - 1, 1500000000, by decide, by decide⟩
    let labelled := (opened.steps [.call (.createModel "a" none ["x"]), .setClock early]).2
    let noon := (Clock.showing (.ofSeconds 43200)).reading
    (labelled.clock.reading.day = ⟨-4713, 11, 23⟩ ∧
      (labelled.step (.call (.untagModel "a" "x"))).1 = some (.ok (.answer .done))) ∧
    ∃ after read, opened.database.perform? (.createModel "a" none crowd) noon =
        some (.ok (.model ⟨"a", noon, noon, none, crowd⟩), after) ∧
      (∀ r ∈ after.tables.modelTags, Range.signed32.has r.position = true) ∧
      after.perform? (.getModel "a") noon = some (.ok (.model ⟨"a", noon, noon, none, read⟩), after) ∧
      read ≠ crowd.map (cut tagWidth) := by
  intro early labelled noon
  refine ⟨by decide +kernel, ?_⟩
  have many : 2147483648 < crowd.length := by
    rw [Database.length_crowd]
    decide
  obtain ⟨after, read, created, reads, lost⟩ := @Database.order_lost crowd (.ofSeconds 43200) Database.nodup_crowd
    Database.named_crowd Database.addable_crowd many rfl (by decide) (by decide)
  refine ⟨after, read, created, ?_, reads, lost⟩
  obtain ⟨t, t', live, rfl, done, -⟩ := Database.performed created
  cases live
  simp only [Call.operation?, Operation.succeeds_answering] at done
  obtain ⟨m, done, -⟩ := done
  obtain ⟨-, -, -, -, -, -, -, -, -, rfl, -⟩ := Operation.createModel_succeeds.mp done
  intro r member
  rw [Database.tables, Tables.addModelTags_modelTags, Tables.addModel_modelTags, List.mem_append] at member
  obtain ⟨n, place⟩ := TagRow.exists_position_listed (member.resolve_left List.not_mem_nil)
  rw [place]
  exact Range.has_wrap32 n

end Catalog

end ModelCatalog
