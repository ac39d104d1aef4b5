import ModelCatalog.Proofs.Consistency
import ModelCatalog.Proofs.OperationChecks
import ModelCatalog.Proofs.TagLists

namespace ModelCatalog

open Operation (Succeeds)
open Parameter (holdsZero)

/-- A draft whose texts are clean and fit their columns, and whose tags are still different once they are cut. -/
structure VersionDraft.Acceptable (draft : VersionDraft) : Prop where
  labels : ∀ s ∈ [draft.id, draft.user, draft.experiment, draft.modelType],
    holdsZero s = false ∧ fits labelWidth s = true
  description : ∀ d ∈ draft.description, holdsZero d = false ∧ fits descriptionWidth d = true
  tags : ∀ tag ∈ draft.tags, tag ≠ "" ∧ holdsZero tag = false ∧ fits tagWidth tag = true
  distinct : (draft.tags.eraseDups.map (cut tagWidth)).Nodup

/-- What a draft is made into. -/
def VersionDraft.version (draft : VersionDraft) (name : String) (number : Int) (now : Instant) : Version :=
  ⟨name, number, draft.id, draft.user, draft.experiment, draft.modelType, .initial, now, now, none,
    draft.description, draft.tags.eraseDups⟩

/-- Which versions are created, in terms of the draft, the time and the row of the model. -/
theorem Tables.Sound.createVersion_iff {t : Tables} {name : String} {draft : VersionDraft} {now : Instant}
    {v : Version} (sound : t.Sound) : (∃ t', Succeeds (Operation.createVersion name draft) now t v t') ↔
      draft.Acceptable ∧ now.stored.isStorable = true ∧ ∃ r, t.model? name = some r ∧
        Range.signed32.has (r.counter + 1) = true ∧ ⟨name, r.counter + 1⟩ ∉ t.keys ∧
        v = draft.version name (r.counter + 1) now := by
  simp only [Operation.createVersion_succeeds]
  constructor
  · intro served
    obtain ⟨t', named, -, timely, r, found, room, cleanId, cleanUser, cleanExperiment, cleanType, cleanText, -,
      roomId, roomUser, roomExperiment, roomType, roomText, new, -, good, -, rfl⟩ := served
    rw [VersionKey.stored_eq (sound.stored_name (mem_names_of_model? found))] at new
    refine ⟨⟨?_, fun d given => ⟨cleanText d given, roomText d given⟩, fun tag given => ?_, good.distinct⟩,
      timely, r, found, room, new, rfl⟩
    · simp [*]
    · have kept := List.mem_eraseDups.mpr given
      exact ⟨named tag given, good.clean tag kept, good.room tag kept⟩
  · intro known
    obtain ⟨good, timely, r, found, room, new, rfl⟩ := known
    have there := mem_names_of_model? found
    have stored := sound.stored_name there
    have labels := good.labels
    simp only [List.forall_mem_cons] at labels
    have key : (VersionKey.mk name (r.counter + 1)).stored = ⟨name, r.counter + 1⟩ := VersionKey.stored_eq stored
    refine ⟨_, fun tag given => (good.tags tag given).1, stored.clean, timely, r, found, room, labels.1.1,
      labels.2.1.1, labels.2.2.1.1, labels.2.2.2.1.1, fun d given => (good.description d given).1, stored.fits,
      labels.1.2, labels.2.1.2, labels.2.2.1.2, labels.2.2.2.1.2, fun d given => (good.description d given).2, ?_,
      stored.cut_eq.symm ▸ there, ?_, rfl, rfl⟩
    · rw [key]
      exact new
    · rw [key]
      refine ⟨fun tag kept => ?_, fun tag kept => ?_, good.distinct, fun tag _ left => ?_⟩
      · exact (good.tags tag (List.mem_eraseDups.mp kept)).2.1
      · exact (good.tags tag (List.mem_eraseDups.mp kept)).2.2
      · exact new (sound.versionTags.mem_owners left)

namespace Tables

variable {t : Tables} {name : String}

theorem listedVersions_nil : t.listedVersions name [] =
    ((t.versions.filter (·.key.model = name)).mergeSort (·.key.number ≤ ·.key.number)).map t.versionEntry := by
  have none : ∀ key : VersionKey, TagRow.count key [] t.versionTags = 0 := fun key => by
    simp [TagRow.count]
  simp [listedVersions, none]

theorem Sound.listedVersions_eq_nil (sound : t.Sound) (free : name ∉ t.names) (wanted : List String) :
    t.listedVersions name wanted = [] := by
  have apart := (sound.rows_apart free).2.2.1
  have none : (t.versions.filter fun r =>
      r.key.model = name && TagRow.count r.key wanted t.versionTags = wanted.length) = [] :=
    List.filter_eq_nil_iff.mpr fun r member => by simp [apart r member]
  rw [listedVersions, none, List.mergeSort_nil, List.map_nil]

end Tables

namespace Database

variable {t t' : Tables} {name given : String} {draft : VersionDraft} {v : Version} {now reading : Instant}

theorem createVersion_ok_iff (sound : t.Sound) :
    ((live t).call (.createVersion name draft) now).1 = .ok (.version v) ↔
      draft.Acceptable ∧ now.stored.isStorable = true ∧ ∃ r, t.model? name = some r ∧
        Range.signed32.has (r.counter + 1) = true ∧ ⟨name, r.counter + 1⟩ ∉ t.keys ∧
        v = draft.version name (r.counter + 1) now := by
  rw [← sound.createVersion_iff]
  constructor
  · intro answered
    obtain ⟨_, t', same, done, -⟩ := call_of_ok answered
    cases same
    obtain ⟨w, done, same⟩ := Operation.succeeds_answering.mp done
    cases same
    exact ⟨t', done⟩
  · intro served
    obtain ⟨t', done⟩ := served
    exact congrArg Prod.fst (answer_of_succeeds (Operation.succeeds_answering.mpr ⟨v, done, rfl⟩))

/-- A database in which a model has just been created. -/
structure Newborn (name : String) (tags : List String) (db : Database) : Prop where
  getModel : ∀ reading, ∃ m, db.Answers (.getModel name) reading (.model m) db ∧
    m.tags.Perm (TagLists.created tags)
  listVersions : ∀ reading, db.Answers (.listVersions name []) reading (.versions []) db
  createVersion : ∀ draft reading v, (db.call (.createVersion name draft) reading).1 = .ok (.version v) ↔
    draft.Acceptable ∧ reading.stored.isStorable = true ∧ v = draft.version name 1 reading
  performVersion : ∀ draft reading v,
    (∃ after, db.perform? (.createVersion name draft) reading = some (.ok (.version v), after)) ↔
      draft.Acceptable ∧ reading.stored.isStorable = true ∧ reading.representable = true ∧
        v = draft.version name 1 reading
  firstVersion : ∀ draft reading a after, db.call (.createVersion name draft) reading = (.ok a, after) →
    ∃ w, (∀ later, after.Answers (.listVersions name []) later (.versions [w]) after) ∧
      (∀ later, after.Answers (.getVersion ⟨name, 1⟩) later (.version w) after) ∧
      w.tags.Perm (TagLists.created draft.tags)

theorem createVersion_ok_of_none (sound : t.Sound) {r : ModelRow} (found : t.model? name = some r)
    (zero : r.counter = 0) (noVersions : ∀ v ∈ t.versions, v.key.model ≠ name) :
    ((live t).call (.createVersion name draft) now).1 = .ok (.version v) ↔
      draft.Acceptable ∧ now.stored.isStorable = true ∧ v = draft.version name 1 now := by
  have free : ⟨name, 1⟩ ∉ t.keys := by
    intro there
    obtain ⟨other, member, same⟩ := List.mem_map.mp there
    exact noVersions other member (congrArg VersionKey.model same)
  have room : Range.signed32.has 1 = true := by decide
  rw [createVersion_ok_iff sound, found]
  simp only [Option.some.injEq, exists_eq_left', zero, Int.zero_add, room, true_and]
  exact and_congr_right fun _ => and_congr_right fun _ => and_iff_right free

/-- The first version of a model has the tags it is created with and no others. -/
theorem firstVersion_of_none (sound : t.Sound) {r : ModelRow} (found : t.model? name = some r)
    (zero : r.counter = 0) (noVersions : ∀ v ∈ t.versions, v.key.model ≠ name)
    (noTags : ∀ r ∈ t.versionTags, r.owner.model ≠ name)
    {a : Answer} {db : Database} (done : (live t).call (.createVersion name draft) now = (.ok a, db)) :
    ∃ w, (∀ later, db.Answers (.listVersions name []) later (.versions [w]) db) ∧
      (∀ later, db.Answers (.getVersion ⟨name, 1⟩) later (.version w) db) ∧
      w.tags.Perm (TagLists.created draft.tags) := by
  obtain ⟨t', made, rfl⟩ := call_eq_ok_iff.mp done
  have edit := sound.edit made
  have sound' := sound.afterEdit edit
  cases edit with
  | read reads => exact absurd reads nofun
  | @createVersion _ _ s v member named =>
    have row := (Tables.model?_eq_some_iff sound.names).mpr ⟨member, named⟩
    obtain rfl : r = s := Option.some.inj (found.symm.trans row)
    have clean := (sound.stored_name (Tables.mem_names_of_model? found)).clean
    have one : r.counter + 1 = 1 := by rw [zero, Int.zero_add]
    rw [one] at sound' ⊢
    have key : (VersionRow.drafted ⟨name, 1⟩ draft now.stored).key = ⟨name, 1⟩ := sound.drafted_key member named
    have none : t.versions.filter (·.key.model = name) = [] :=
      List.filter_eq_nil_iff.mpr fun r member => by simpa using noVersions r member
    have new : (VersionRow.drafted ⟨name, 1⟩ draft now.stored).key ∉ t.keys := by
      intro there
      obtain ⟨other, member, same⟩ := List.mem_map.mp there
      exact noVersions other member (congrArg VersionKey.model (same.trans key))
    clear made done
    generalize VersionRow.drafted ⟨name, 1⟩ draft now.stored = row at *
    have made : ((t.countVersion name now.stored).addVersion row).version? row.key = some row :=
      Tables.version?_addVersion new
    rw [key] at made
    refine ⟨row.entry (TagRow.read ⟨name, 1⟩
      (t.versionTags ++ TagRow.listed ⟨name, 1⟩ 0 draft.tags.eraseDups)), fun later => answers_of_read rfl ?_,
      fun later => answers_of_read rfl ?_, ?_⟩
    · have rows : (t.versions ++ [row]).filter (·.key.model = name) = [row] := by
        rw [List.filter_append, none, List.nil_append, List.filter_singleton, key]
        simp
      rw [listAllVersions_live clean, Tables.listedVersions_nil, Tables.addVersionTags_versions,
        Tables.addVersion_versions, Tables.countVersion_versions, rows, List.mergeSort_singleton,
        List.map_singleton, Tables.versionEntry, key]
      rfl
    · rw [getVersion_live clean]
      refine (congrArg (Except.map _) (congrArg (expect · _) made)).trans ?_
      rw [expect_some, Except.map, Tables.versionEntry, key]
      rfl
    · exact TagRow.read_append_listed_perm fun r member same => noTags r member (congrArg VersionKey.model same)

theorem newborn_of_createModel (sound : t.Sound) {description : Option String} {tags : List String} {a : Answer}
    {db : Database} (done : (live t).call (.createModel given description tags) now = (.ok a, db)) :
    db.Newborn (cut nameWidth given) tags := by
  obtain ⟨t', made, rfl⟩ := call_eq_ok_iff.mp done
  have edit := sound.edit made
  have sound' := sound.afterEdit edit
  cases edit with
  | read reads => exact absurd reads nofun
  | createModel row new named tagged =>
    obtain ⟨-, noTags, noVersions, noVersionTags⟩ := sound.rows_apart new
    have stored : Stored nameWidth (cut nameWidth given) := row.name
    have found : ((t.addModel (.registered given now.stored description)).addModelTags
        (TagRow.listed (cut nameWidth given) 0 tags.eraseDups)).model? (cut nameWidth given) =
        some (.registered given now.stored description) := by
      exact (Tables.model?_addModel new _).trans (if_pos rfl)
    constructor
    case getModel =>
      intro reading
      refine ⟨_, answers_of_read rfl ((getModel_live stored.clean).trans (congrArg _ (congrArg (expect · _) found))), ?_⟩
      exact TagRow.read_append_listed_perm noTags
    case listVersions =>
      intro reading
      have none : t.versions.filter (·.key.model = cut nameWidth given) = [] :=
        List.filter_eq_nil_iff.mpr fun r member => by simpa using noVersions r member
      refine answers_of_read rfl ?_
      rw [listAllVersions_live stored.clean, Tables.listedVersions_nil, Tables.addModelTags_versions,
        Tables.addModel_versions, none, List.mergeSort_nil, List.map_nil]
    case createVersion => exact fun _ _ _ => createVersion_ok_of_none sound' found rfl noVersions
    case performVersion =>
      intro draft reading v
      simp only [perform?_eq_ok_iff, exists_and_right, exists_call_eq_iff, isReadable_version]
      rw [createVersion_ok_of_none sound' found rfl noVersions]
      constructor
      · intro made
        obtain ⟨⟨good, timely, rfl⟩, readable, -⟩ := made
        exact ⟨good, timely, readable, rfl⟩
      · intro made
        obtain ⟨good, timely, readable, rfl⟩ := made
        exact ⟨⟨good, timely, rfl⟩, readable, readable⟩
    case firstVersion =>
      intro draft reading a after answered
      exact firstVersion_of_none sound' found rfl noVersions noVersionTags answered

/-- Two models, one of them with a version, both with tags. -/
def shelf : Database :=
  (Catalog.opened.steps [.call (.createModel "a" none ["x", "y"]), .call (.createModel "b" none ["x"]),
    .call (.createVersion "a" ⟨"run", "user", "trial", "tree", none, ["z"]⟩)]).2.database

theorem reached_shelf : shelf.Reached Event.KeepsCounters :=
  ⟨Catalog.opened, _, Catalog.fresh_opened, by simp [Event.KeepsCounters], rfl⟩

end Database

end ModelCatalog
