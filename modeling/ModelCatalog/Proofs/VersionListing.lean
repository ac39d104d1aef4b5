import ModelCatalog.Proofs.Listing

namespace ModelCatalog

open Parameter (holdsZero)

namespace Tables.Sound

variable {t : Tables} {name : String} {tags wanted : List String} {v : Version}

/-- The versions of one model are told apart by their numbers. -/
theorem numbers_nodup (sound : t.Sound) (p : VersionRow → Bool) :
    ((t.versions.filter fun r => r.key.model = name && p r).map (·.key.number)).Nodup := by
  have keys : ((t.versions.filter fun r => r.key.model = name && p r).map (·.key)).Nodup :=
    sound.keys.sublist (List.filter_sublist.map _)
  have same : ((t.versions.filter fun r => r.key.model = name && p r).map (·.key)).map (·.number) =
      (t.versions.filter fun r => r.key.model = name && p r).map (·.key.number) :=
    List.map_map
  rw [← same]
  refine keys.map_on fun key first other second number => ?_
  have model : ∀ key ∈ (t.versions.filter fun r => r.key.model = name && p r).map (·.key), key.model = name := by
    intro key there
    obtain ⟨r, member, rfl⟩ := List.mem_map.mp there
    have both := (List.mem_filter.mp member).2
    rw [Bool.and_eq_true, decide_eq_true_eq] at both
    exact both.1
  exact congrArg₂ VersionKey.mk ((model key first).trans (model other second).symm) number

theorem listedVersions_ascending (sound : t.Sound) :
    (t.listedVersions name wanted).Pairwise (·.number < ·.number) :=
  (pairwise_lt_mergeSort (sound.numbers_nodup _)).map _ fun _ _ => id

/-- The versions that are listed are those of the model that carry every tag that is asked for themselves, however
often it is. -/
theorem mem_listedVersions (sound : t.Sound) : v ∈ t.listedVersions name (Operation.distinct tags) ↔
    (∃ r ∈ t.versions, r.key.model = name ∧ t.versionEntry r = v) ∧ ∀ tag ∈ tags, tag ∈ v.tags := by
  have counted : ∀ r : VersionRow,
      TagRow.count r.key (Operation.distinct tags) t.versionTags = (Operation.distinct tags).length ↔
        ∀ tag ∈ tags, tag ∈ TagRow.read r.key t.versionTags := by
    intro r
    rw [TagRow.count_eq_length_iff sound.versionTags.unique (Operation.distinct_eq tags ▸ nodup_eraseDups tags),
      Operation.distinct_eq]
    simp only [List.mem_eraseDups]
  simp only [Tables.listedVersions, List.mem_map, List.mem_mergeSort, List.mem_filter, Bool.and_eq_true,
    decide_eq_true_eq, counted]
  constructor
  · rintro ⟨r, ⟨member, model, carries⟩, rfl⟩
    exact ⟨⟨r, member, model, rfl⟩, carries⟩
  · rintro ⟨⟨r, member, model, rfl⟩, carries⟩
    exact ⟨r, ⟨member, model, carries⟩, rfl⟩

end Tables.Sound

namespace Database

variable {t : Tables} {name : String} {tags : List String} {now : Instant} {v : Version} {vs : List Version}
  {allowed : Event → Prop}

theorem isReadable_versions :
    (Answer.versions vs).isReadable = true ↔ ∀ v ∈ vs, (Answer.version v).isReadable = true := by
  simp only [Answer.isReadable, Answer.times, List.all_flatMap, List.all_eq_true]

theorem call_listVersions (clean : holdsZero name = false) (cleanTags : ∀ tag ∈ tags, holdsZero tag = false) :
    (live t).call (.listVersions name tags) now =
      (.ok (.versions (t.listedVersions name (Operation.distinct tags))), live t) := by
  refine call_eq_ok_iff.mpr ⟨t, ?_, rfl⟩
  refine Operation.succeeds_answering.mpr ⟨_, Operation.listVersions_succeeds.mpr ⟨clean, ?_, rfl, rfl⟩, rfl⟩
  exact fun tag kept => cleanTags tag (Operation.mem_distinct kept)

theorem call_listVersions_of_zero (zero : holdsZero name = true) :
    (live t).call (.listVersions name tags) now = (.error (.storage .zeroCharacter), live t) := by
  have refused : given [.text name, .texts (Operation.distinct tags)] = .error (.storage .zeroCharacter) := by
    simp [given, Parameter.fault?, zero, refuseIf]
  have failed : Operation.attempt (Call.listVersions name tags).operation? now t =
      .error (.storage .zeroCharacter) := by
    rw [Call.operation?, Operation.attempt_answering, Operation.attempt_listVersions, refused]
    rfl
  simp only [Database.call, answer_live_eq, failed]

/-- What is answered to a key is what the row under that key and its tags stand for. -/
theorem call_getVersion_iff (sound : t.Sound) :
    (live t).call (.getVersion ⟨name, v.number⟩) now = (.ok (.version v), live t) ↔
      ∃ r ∈ t.versions, r.key.model = name ∧ t.versionEntry r = v := by
  constructor
  · intro called
    obtain ⟨t', made, ⟨⟩⟩ := call_eq_ok_iff.mp called
    simp only [Call.operation?, Operation.succeeds_answering] at made
    obtain ⟨_, made, ⟨⟩⟩ := made
    obtain ⟨-, -, r, found, same⟩ := Operation.getVersion_succeeds.mp made
    exact ⟨r, List.mem_of_find?_eq_some found, congrArg VersionKey.model (Tables.key_of_version? found), same.symm⟩
  · rintro ⟨r, member, rfl, rfl⟩
    have found : t.version? r.key = some r := (find?_key_iff sound.keys).mpr ⟨member, rfl⟩
    exact call_getVersion (sound.stored_key (List.mem_map_of_mem member)).clean found

/-- Only a model that is there has versions to be listed. -/
theorem exists_call_getModel (sound : t.Sound) {r : VersionRow} (member : r ∈ t.versions) :
    ∃ m, (live t).call (.getModel r.key.model) now = (.ok (.model m), live t) := by
  have there : r.key.model ∈ t.names := sound.owned r.key (List.mem_map_of_mem member)
  obtain ⟨s, found⟩ := Tables.exists_model?_iff.mpr there
  exact ⟨_, call_getModel (sound.stored_name there).clean found⟩

/-- How a database lists the versions of a model that carry some tags. -/
structure ListsVersions (db : Database) (name : String) (tags : List String) (now : Instant)
    (vs : List Version) : Prop where
  ascending : vs.Pairwise (·.number < ·.number)
  exact : ∀ v, v ∈ vs ↔ db.call (.getVersion ⟨name, v.number⟩) now = (.ok (.version v), db) ∧ ∀ tag ∈ tags, tag ∈ v.tags
  found : (∀ v ∈ vs, (Answer.version v).isReadable = true) →
    db.perform? (.listVersions name tags) now = some (.ok (.versions vs), db) ∧
      ∀ v ∈ vs, db.perform? (.getVersion ⟨name, v.number⟩) now = some (.ok (.version v), db)
  lost : ¬(∀ v ∈ vs, (Answer.version v).isReadable = true) → db.perform? (.listVersions name tags) now = none
  unknown : db.perform? (.getModel name) now = some (.error (.modelNotFound name), db) →
    db.perform? (.listVersions name tags) now = some (.ok (.versions []), db)
  owned : vs ≠ [] → ∃ m, db.call (.getModel name) now = (.ok (.model m), db) ∧
    ((Answer.model m).isReadable = true → db.perform? (.getModel name) now = some (.ok (.model m), db))

/-- From tables that are there, a list holds every version of the model that carries all the tags once, in the order of
the numbers, and each as it is answered to its key. It is empty if there is no such model. There is no list only if the
name has a zero character in it, or if one of the versions holds a time that cannot be read back. -/
theorem versions_listed_exactly (reached : (live t).Reached allowed) (name : String)
    (cleanTags : ∀ tag ∈ tags, holdsZero tag = false) (now : Instant) :
    (holdsZero name = true →
      (live t).perform? (.listVersions name tags) now = some (.error (.storage .zeroCharacter), live t)) ∧
    (holdsZero name = false → ∃ vs, (live t).ListsVersions name tags now vs) := by
  have sound : t.Sound := reached.sound
  constructor
  · intro zero
    rw [perform?, call_listVersions_of_zero zero]
  · intro clean
    have called := @call_listVersions t name tags now clean cleanTags
    have listed : ∀ v, v ∈ t.listedVersions name (Operation.distinct tags) ↔
        (live t).call (.getVersion ⟨name, v.number⟩) now = (.ok (.version v), live t) ∧ ∀ tag ∈ tags, tag ∈ v.tags := by
      intro v
      rw [call_getVersion_iff sound]
      exact sound.mem_listedVersions
    have owner : t.listedVersions name (Operation.distinct tags) ≠ [] →
        ∃ m, (live t).call (.getModel name) now = (.ok (.model m), live t) := by
      intro some
      obtain ⟨v, member⟩ := List.exists_mem_of_ne_nil _ some
      obtain ⟨⟨r, there, rfl, -⟩, -⟩ := sound.mem_listedVersions.mp member
      exact exists_call_getModel sound there
    refine ⟨t.listedVersions name (Operation.distinct tags), sound.listedVersions_ascending, listed, ?found, ?lost,
      ?unknown, ?owned⟩
    case found =>
      intro readable
      refine ⟨perform?_eq_ok_iff.mpr ⟨called, isReadable_versions.mpr readable⟩, fun v member => ?_⟩
      exact perform?_eq_ok_iff.mpr ⟨((listed v).mp member).1, readable v member⟩
    case lost =>
      intro unreadable
      refine perform?_of_not_readable called (Bool.eq_false_iff.mpr fun readable => ?_)
      exact unreadable (isReadable_versions.mp readable)
    case unknown =>
      intro missing
      have none : t.listedVersions name (Operation.distinct tags) = [] := by
        by_contra some
        obtain ⟨m, found⟩ := owner some
        cases readable : (Answer.model m).isReadable with
        | true => cases (perform?_eq_ok_iff.mpr ⟨found, readable⟩).symm.trans missing
        | false => cases (perform?_of_not_readable found readable).symm.trans missing
      rw [none] at called
      exact perform?_eq_ok_iff.mpr ⟨called, rfl⟩
    case owned =>
      intro some
      obtain ⟨m, found⟩ := owner some
      exact ⟨m, found, fun readable => perform?_eq_ok_iff.mpr ⟨found, readable⟩⟩

/-- A model with the first and the last of three versions, of which the last has a tag of its own. -/
def series : Database :=
  let draft (tags : List String) : VersionDraft := ⟨"run", "user", "trial", "tree", none, tags⟩
  (Catalog.opened.steps [.call (.createModel "a" none ["x"]), .call (.createVersion "a" (draft ["z"])),
    .call (.createVersion "a" (draft ["y"])), .call (.createVersion "a" (draft ["y"])),
    .call (.deleteVersion ⟨"a", 2⟩)]).2.database

theorem reached_series : series.Reached Event.KeepsCounters :=
  ⟨Catalog.opened, _, Catalog.fresh_opened, by simp [Event.KeepsCounters], rfl⟩

theorem series_listed :
    let now := Catalog.opened.clock.reading
    let t := series.tables
    let v : Version := ⟨"a", 3, "run", "user", "trial", "tree", .initial, now, now, none, none, ["y"]⟩
    (live t).Reached Event.KeepsCounters ∧
      (live t).perform? (.listVersions "a" ["y", "y"]) now = some (.ok (.versions [v]), live t) ∧
      (live t).perform? (.getVersion ⟨"a", 3⟩) now = some (.ok (.version v), live t) ∧
      (live t).perform? (.listVersions "b" []) now = some (.ok (.versions []), live t) := by
  intro now t v
  have same : series = live t := by decide +kernel
  have reached : (live t).Reached Event.KeepsCounters := same ▸ reached_series
  have answered : (live t).perform? (.listVersions "a" ["y", "y"]) now = some (.ok (.versions [v]), live t) := by
    decide +kernel
  have cleanTags : ∀ tag ∈ ["y", "y"], holdsZero tag = false := by decide +kernel
  obtain ⟨vs, lists⟩ := (versions_listed_exactly reached "a" cleanTags now).2 (by decide +kernel)
  obtain ⟨_, none⟩ := (@versions_listed_exactly t [] _ reached "b" nofun now).2 (by decide +kernel)
  by_cases readable : ∀ v ∈ vs, (Answer.version v).isReadable = true
  · obtain ⟨listed, each⟩ := lists.found readable
    obtain rfl : vs = [v] := by simpa using listed.symm.trans answered
    exact ⟨reached, answered, each v List.mem_cons_self, none.unknown (by decide +kernel)⟩
  · exact absurd (answered.symm.trans (lists.lost readable)) nofun

/-- A version that was created in the leap second at the end of the last year is there, but a list in which it stands
is not answered; nor is one for a name with a zero character, or one from tables that were dropped. A list may be
answered of a model that is not, for its own time. -/
theorem versions_unlisted :
    let last : Instant := ⟨Date.toDays ⟨Instant.greatestYear + 1, 1, 1⟩ * 86400 - 1, 1500000000, by decide, by decide⟩
    let draft : VersionDraft := ⟨"run", "user", "trial", "tree", none, []⟩
    let late := (Catalog.opened.steps [.call (.createModel "a" none []), .setClock last,
      .call (.createVersion "a" draft)]).2.database
    let touched := (Catalog.opened.steps [.call (.createModel "a" none []), .call (.createVersion "a" draft),
      .setClock last, .call (.tagModel "a" "x")]).2.database
    let now := Catalog.opened.clock.reading
    late.Reached Event.KeepsCounters ∧ (∃ v, late.call (.getVersion ⟨"a", 1⟩) now = (.ok (.version v), late)) ∧
      late.perform? (.listVersions "a" []) now = none ∧
      late.perform? (.listVersions "\x00" []) now = some (.error (.storage .zeroCharacter), late) ∧
      touched.Reached Event.KeepsCounters ∧
      (∃ v, touched.perform? (.listVersions "a" []) now = some (.ok (.versions [v]), touched)) ∧
      touched.perform? (.getModel "a") now = none ∧
      dropped.Reached Event.KeepsCounters ∧
      dropped.perform? (.listVersions "a" []) now = some (.error (.storage (.missingRelation .versions)), dropped) := by
  intro last draft late touched now
  have reached : late.Reached Event.KeepsCounters :=
    ⟨Catalog.opened, _, Catalog.fresh_opened, by simp [Event.KeepsCounters], rfl⟩
  have reached' : touched.Reached Event.KeepsCounters :=
    ⟨Catalog.opened, _, Catalog.fresh_opened, by simp [Event.KeepsCounters], rfl⟩
  have gone : dropped.Reached Event.KeepsCounters :=
    ⟨⟨some "registry", .showing (.ofSeconds 0), live .empty⟩, [.dropSchema (some "registry")],
      show Database.ensure (some "registry") dropped = .ok (live .empty) by decide +kernel,
      by simp [Event.KeepsCounters], by decide +kernel⟩
  let v (time : Instant) : Version := ⟨"a", 1, "run", "user", "trial", "tree", .initial, time, time, none, none, []⟩
  refine ⟨reached, ⟨v last.folded, by decide +kernel⟩, by decide +kernel, by decide +kernel, reached', ⟨v now, ?_⟩,
    by decide +kernel, gone, rfl⟩
  decide +kernel

end Database

end ModelCatalog
