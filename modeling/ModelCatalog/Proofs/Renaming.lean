import ModelCatalog.Proofs.AlikeSessions
import ModelCatalog.Proofs.Creation

namespace ModelCatalog

attribute [ext] Tables

namespace Tables

variable {t : Tables} {name newName : String} {now later : Timestamp}

theorem modelEntry_renamed (sound : t.Sound) (new : newName ∉ t.names) {r : ModelRow}
    (found : t.model? name = some r) :
    (t.renamed name newName now).modelEntry { r with name := newName, updatedAt := now } =
      { t.modelEntry r with name := newName, updatedAt := now.instant } := by
  rw [modelEntry, read_modelTags_renamed sound new, modelEntry, name_of_model? found]
  rfl

/-- The versions are listed under the new name as they were under the old one. -/
theorem listedVersions_renamed (sound : t.Sound) (new : newName ∉ t.names) :
    (t.renamed name newName now).listedVersions newName [] =
      (t.listedVersions name []).map fun v => { v with model := newName } := by
  have rows : ((t.renamed name newName now).versions.filter (·.key.model = newName)) =
      (t.versions.filter (·.key.model = name)).map fun r =>
        { r with key := Versions.moved name newName r.key } := by
    have back : ∀ r ∈ t.versions, (Versions.moved name newName r.key).model = newName ↔ r.key.model = name := by
      intro r member
      rw [moved_model, moved_eq_newName_iff ((sound.rows_apart new).2.2.1 r member)]
    exact SameRows.filter_moved back
  have sorted := List.map_mergeSort (l := t.versions.filter (·.key.model = name))
    (f := fun r => { r with key := Versions.moved name newName r.key })
    (r := fun r s => decide (r.key.number ≤ s.key.number)) (s := fun r s => decide (r.key.number ≤ s.key.number))
    fun r _ s _ => by simp only [moved_number]
  rw [listedVersions_nil, listedVersions_nil, rows, ← sorted, List.map_map, List.map_map]
  refine List.map_congr_left fun r member => ?_
  have here : r.key.model = name := by simpa using (List.mem_filter.mp (List.mem_mergeSort.mp member)).2
  have moved : Versions.moved name newName r.key = ⟨newName, r.key.number⟩ := by rw [Versions.moved, if_pos here]
  have old : (⟨name, r.key.number⟩ : VersionKey) = r.key := by rw [← here]
  simp only [Function.comp_apply, versionEntry, moved, read_versionTags_renamed sound new, old]
  rfl

theorem notMem_keys_renamed (sound : t.Sound) (new : newName ∉ t.names) (differ : newName ≠ name) {number : Int} :
    ⟨newName, number⟩ ∉ (t.renamed name newName now).keys ↔ ⟨name, number⟩ ∉ t.keys := by
  rw [← version?_eq_none_iff, ← version?_eq_none_iff, version?_renamed sound new differ, if_neg differ,
    if_pos rfl, Option.map_eq_none_iff]

/-- Under a name that is free a model can be taken away and brought back. -/
theorem renamed_renamed (sound : t.Sound) (new : newName ∉ t.names) :
    (t.renamed name newName now).renamed newName name later = t.touchModel name later := by
  obtain ⟨models, modelTags, versions, versionTags⟩ := sound.rows_apart new
  have back : ∀ owner, owner ≠ newName →
      ModelTags.moved newName name (ModelTags.moved name newName owner) = owner := by
    intro owner away
    unfold ModelTags.moved
    split <;> simp_all
  have backKey : ∀ key : VersionKey, key.model ≠ newName →
      Versions.moved newName name (Versions.moved name newName key) = key := by
    intro key away
    rw [moved_key_eq_iff, moved_model, moved_number]
    exact ⟨back key.model away, rfl⟩
  have restored : ((t.renamed name newName now).renamed newName name later).models =
      (t.touchModel name later).models := by
    rw [renamed_models, renamed_models, List.map_map]
    refine List.map_congr_left fun r member => ?_
    by_cases here : r.name = name
    · subst here
      simp
    · simp [here, models r member]
  have ownTags : ((t.renamed name newName now).renamed newName name later).modelTags = t.modelTags := by
    rw [renamed_modelTags, renamed_modelTags, TagRow.rekey, TagRow.rekey, List.map_map]
    refine (List.map_congr_left fun r member => ?_).trans (List.map_id _)
    simp only [Function.comp_apply, back r.owner (modelTags r member), id]
  have children : ((t.renamed name newName now).renamed newName name later).versions = t.versions := by
    rw [renamed_versions, renamed_versions, List.map_map]
    refine (List.map_congr_left fun r member => ?_).trans (List.map_id _)
    simp only [Function.comp_apply, backKey r.key (versions r member), id]
  have childTags : ((t.renamed name newName now).renamed newName name later).versionTags = t.versionTags := by
    rw [renamed_versionTags, renamed_versionTags, TagRow.rekey, TagRow.rekey, List.map_map]
    refine (List.map_congr_left fun r member => ?_).trans (List.map_id _)
    simp only [Function.comp_apply, backKey r.owner (versionTags r member), id]
  exact Tables.ext restored ownTags children childTags

end Tables

/-- A database next to the one that comes of giving a model another name. -/
structure Database.Rekeyed (name newName : String) (now : Instant) (db after : Database) : Prop where
  getModel : ∀ reading, ∃ m : Model, db.Answers (.getModel name) reading (.model m) db ∧
    after.Answers (.getModel newName) reading
      (.model { m with name := newName, updatedAt := now.stored.instant }) after
  listVersions : ∀ reading, ∃ vs : List Version,
    db.Answers (.listVersions name []) reading (.versions vs) db ∧
    after.Answers (.listVersions newName []) reading
      (.versions (vs.map fun v => { v with model := newName })) after
  createVersion : ∀ draft reading (v : Version),
    (db.call (.createVersion name draft) reading).1 = .ok (.version { v with model := name }) ↔
      (after.call (.createVersion newName draft) reading).1 = .ok (.version { v with model := newName })
  performVersion : ∀ draft reading (v : Version),
    (∃ made, db.perform? (.createVersion name draft) reading = some (.ok (.version { v with model := name }), made)) ↔
      ∃ made, after.perform? (.createVersion newName draft) reading =
        some (.ok (.version { v with model := newName }), made)
  noModel : ∀ reading, after.Refuses (.getModel name) reading (.modelNotFound name)
  noVersions : ∀ reading, after.Answers (.listVersions name []) reading (.versions []) after
  noVersion : ∀ number reading,
    after.Refuses (.getVersion ⟨name, number⟩) reading (.versionNotFound ⟨name, number⟩) ∧
      after.Refuses (.versionUri ⟨name, number⟩) reading (.versionNotFound ⟨name, number⟩)
  others : after.tables.Agree {name, newName}ᶜ db.tables
  back : ∀ later, later.stored.isStorable = true → ∃ m : Model,
    db.Answers (.getModel name) later (.model m) db ∧
    after.Answers (.renameModel newName name) later (.model { m with updatedAt := later.stored.instant })
      (.live (db.tables.touchModel name later.stored))

namespace Database

variable {allowed : Event → Prop} {db after : Database} {t : Tables} {name newName : String} {now : Instant}

theorem rename_back (sound : t.Sound) {r : ModelRow} (found : t.model? name = some r) (new : newName ∉ t.names)
    (filled : newName ≠ "") (stored : Stored nameWidth newName) {later : Instant}
    (timely : later.stored.isStorable = true) :
    (live (t.renamed name newName now.stored)).call (.renameModel newName name) later =
      (.ok (.model { t.modelEntry r with updatedAt := later.stored.instant }),
        .live (t.touchModel name later.stored)) := by
  have there := Tables.mem_names_of_model? found
  have differ : newName ≠ name := fun same => new (same ▸ there)
  have old := sound.stored_name there
  have named : name ≠ "" := by
    obtain ⟨member, same⟩ := (Tables.model?_eq_some_iff sound.names).mp found
    exact same ▸ (sound.models r member).named
  have after : (t.renamed name newName now.stored).Sound := sound.renamed filled stored new
  have gone : name ∉ (t.renamed name newName now.stored).names := by
    rw [← Tables.model?_eq_none_iff, Tables.model?_renamed new differ, if_pos rfl]
  have moved : (t.renamed name newName now.stored).model? newName = _ :=
    Tables.model?_renamed_new new differ found
  have fitted : fit nameWidth name = .ok name := fit_ok.mpr ⟨old.fits, old.cut_eq.symm⟩
  have checks : Operation.requireModelName name = .ok () ∧ given [.text newName] = .ok () ∧
      given [.text name] = .ok () ∧ given [.time later.stored] = .ok () := by
    simp [named, old.clean, stored.clean, timely]
  obtain ⟨first, second, third, fourth⟩ := checks
  have free := Tables.hasModel_eq_false_iff.mpr gone
  have run : Operation.attempt (Operation.renameModel newName name) later
      (t.renamed name newName now.stored) = _ := Operation.attempt_renameModel after
  rw [first, second, third, fourth, moved, fitted, Tables.renamed_renamed sound new,
    Tables.read_modelTags_renamed sound new] at run
  simp [differ, free, demand_true, expect_some, ok_bind] at run
  have entry : ({ r with name := name, updatedAt := later.stored } : ModelRow).entry (TagRow.read name t.modelTags) =
      { t.modelEntry r with updatedAt := later.stored.instant } := by
    rw [Tables.modelEntry, ← Tables.name_of_model? found]
    rfl
  rw [← entry]
  exact call_eq_ok_iff.mpr ⟨_, Operation.succeeds_answering.mpr ⟨_, Operation.attempt_eq_ok.mp run, rfl⟩, rfl⟩

/-- Renaming a model keys it anew and leaves everything else as it was, and undoing it right away leaves only
the time of the update. -/
theorem rename_rekeys (reached : db.Reached allowed) {a : Answer}
    (done : db.call (.renameModel name newName) now = (.ok a, after)) : db.Rekeyed name newName now after := by
  obtain ⟨t, t', rfl, rfl, sound, edit⟩ := reached.edit done
  cases edit with
  | read reads => exact absurd reads nofun
  | renameModel there new filled stored =>
    have differ : newName ≠ name := fun same => new (same ▸ there)
    have old := sound.stored_name there
    have sound' : (t.renamed name newName now.stored).Sound := sound.renamed filled stored new
    obtain ⟨r, found⟩ := Tables.exists_model?_iff.mpr there
    have moved : (t.renamed name newName now.stored).model? newName = _ :=
      Tables.model?_renamed_new new differ found
    have gone : (t.renamed name newName now.stored).model? name = none := by
      rw [Tables.model?_renamed new differ, if_pos rfl]
    have noVersion : ∀ number, (t.renamed name newName now.stored).version? ⟨name, number⟩ = none := by
      intro number
      rw [Tables.version?_renamed sound new differ, if_pos rfl]
    have created : ∀ draft reading (v : Version),
        ((live t).call (.createVersion name draft) reading).1 = .ok (.version { v with model := name }) ↔
          ((live (t.renamed name newName now.stored)).call (.createVersion newName draft) reading).1 =
            .ok (.version { v with model := newName }) := by
      intro draft reading v
      rw [createVersion_ok_iff sound, createVersion_ok_iff sound', found, moved]
      simp only [Option.some.injEq, exists_eq_left', Tables.notMem_keys_renamed sound new differ,
        VersionDraft.version, Version.mk.injEq]
    constructor
    case getModel =>
      intro reading
      refine ⟨t.modelEntry r, answers_of_read rfl ?_, answers_of_read rfl ?_⟩
      · rw [getModel_live old.clean, found]
        rfl
      · rw [getModel_live stored.clean, moved, expect_some, ← Tables.modelEntry_renamed sound new found]
        rfl
    case listVersions =>
      intro reading
      refine ⟨t.listedVersions name [], answers_of_read rfl (listAllVersions_live old.clean), answers_of_read rfl ?_⟩
      rw [listAllVersions_live stored.clean, ← Tables.listedVersions_renamed sound new]
    case createVersion => exact created
    case performVersion =>
      intro draft reading v
      simp only [perform?_eq_ok_iff, exists_and_right, exists_call_eq_iff, created, isReadable_version]
    case noModel =>
      intro reading
      refine refuses_of_call ?_
      rw [getModel_live old.clean, gone]
      rfl
    case noVersions =>
      intro reading
      refine answers_of_read rfl ?_
      rw [listAllVersions_live old.clean,
        sound'.listedVersions_eq_nil (Tables.model?_eq_none_iff.mp gone)]
    case noVersion =>
      intro number reading
      refine ⟨refuses_of_call ?_, refuses_of_call ?_⟩
      · rw [getVersion_live old.clean, noVersion]
        rfl
      · rw [versionUri_live old.clean, noVersion]
        rfl
    case others => exact .of_renamed (fun out => out (.inl rfl)) fun out => out (.inr rfl)
    case back =>
      intro later timely
      refine ⟨t.modelEntry r, answers_of_read rfl ?_,
        answers_of_call (rename_back sound found new filled stored timely)⟩
      rw [getModel_live old.clean, found]
      rfl

theorem shelf_rekeyed :
    let now := Catalog.opened.clock.reading
    let renamed := shelf.call (.renameModel "a" "c") now
    shelf.Reached Event.KeepsCounters ∧ renamed.1.isOk = true ∧ renamed.2.tables.names = ["c", "b"] ∧
      renamed.2.tables.keys = [⟨"c", 1⟩] ∧ renamed.2.tables.versionTags = [⟨⟨"c", 1⟩, "z", 0⟩] ∧
      shelf.Rekeyed "a" "c" now renamed.2 := by
  intro now renamed
  have served : renamed.1.isOk = true := by decide +kernel
  refine ⟨reached_shelf, served, by decide +kernel, by decide +kernel, by decide +kernel, ?_⟩
  cases answered : renamed.1 with
  | error e =>
    rw [answered] at served
    exact absurd served nofun
  | ok a => exact rename_rekeys reached_shelf (Prod.ext answered rfl)

end Database

end ModelCatalog
