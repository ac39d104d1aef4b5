import ModelCatalog.Proofs.DecimalDigits
import ModelCatalog.Proofs.Renaming
import ModelCatalog.Proofs.VersionListing

namespace ModelCatalog

open Parameter (holdsZero)

section Texts

variable {front front' id id' model model' : String} {number number' : Int}

/-- A number has no separator in it, so that it is what stands behind the last one. -/
theorem splitLast_numbered (front : String) (number : Int) :
    splitLast '/' (front ++ "/" ++ Decimal.toText number).toList = some (front.toList, Decimal.integer number) := by
  have whole : (front ++ "/" ++ Decimal.toText number).toList = front.toList ++ '/' :: Decimal.integer number := by
    simp [Decimal.toText]
  have absent : '/' ∉ Decimal.integer number := fun there =>
    (Decimal.of_mem_integer there).elim (by decide) (by decide)
  rw [whole, splitLast_append absent]

theorem numbered_inj (same : front ++ "/" ++ Decimal.toText number = front' ++ "/" ++ Decimal.toText number') :
    front = front' ∧ number = number' := by
  have parts := splitLast_numbered front number
  rw [same, splitLast_numbered, Option.some.injEq, Prod.mk.injEq] at parts
  exact ⟨String.toList_inj.mp parts.1.symm, Decimal.integer_injective parts.2.symm⟩

theorem number_of_artifactUri (same : artifactUri id model number = artifactUri id' model' number') :
    number = number' :=
  (numbered_inj same).2

/-- Between different models an id could end where the name begins. Below one name it cannot. -/
theorem artifactUri_inj :
    artifactUri id model number = artifactUri id' model number' ↔ id = id' ∧ number = number' := by
  refine ⟨fun same => ?_, fun ⟨ids, numbers⟩ => ids ▸ numbers ▸ rfl⟩
  obtain ⟨fronts, numbers⟩ := numbered_inj same
  rw [String.append_left_inj, String.append_left_inj, String.append_right_inj] at fronts
  exact ⟨fronts, numbers⟩

end Texts

/-- Versions with numbers of their own have artifacts of their own, whatever their ids are. -/
theorem nodup_uris {vs : List Version} (ascending : vs.Pairwise (·.number < ·.number)) :
    (vs.map Version.uri).Nodup := by
  refine List.pairwise_map.mpr (ascending.imp fun {v w} less same => ?_)
  rw [Version.uri, Version.uri] at same
  exact Int.ne_of_lt less (number_of_artifactUri same)

theorem Tables.uri_versionEntry {t : Tables} {r : VersionRow} :
    (t.versionEntry r).uri = artifactUri r.id r.key.model r.key.number :=
  rfl

namespace Operation

variable {t : Tables} {key : VersionKey} {now : Instant}

/-- The way to an artifact is told just where the version is, and it is the one that the version tells itself, although
only the id is looked up for it. -/
theorem attempt_versionUri_eq :
    attempt (versionUri key) now t = attempt (getVersion key) now t >>= fun (v, t') => .ok (v.uri, t') := by
  rw [attempt_versionUri, attempt_getVersion]
  cases given [.text key.model] with
  | error e => rfl
  | ok _ =>
    cases found : t.version? key with
    | none => rfl
    | some r =>
      -- Name and number are taken from the key that was given, which is that of the row.
      rw [← Tables.key_of_version? found]
      rfl

end Operation

namespace Database

/-- How a database answers what lies under a key, and where its artifact lies. A version with a time that cannot be read
back is not answered, but its artifact is found. -/
inductive LeadsTo (db : Database) (key : VersionKey) (now : Instant) : Prop
  | refused (e : CatalogError) (version : db.perform? (.getVersion key) now = some (.error e, db))
      (uri : db.perform? (.versionUri key) now = some (.error e, db))
  | found (v : Version) (version : db.perform? (.getVersion key) now = some (.ok (.version v), db))
      (uri : db.perform? (.versionUri key) now = some (.ok (.uri v.uri), db))
  | unread (v : Version) (stored : db.call (.getVersion key) now = (.ok (.version v), db))
      (lost : (Answer.version v).isReadable = false) (version : db.perform? (.getVersion key) now = none)
      (uri : db.perform? (.versionUri key) now = some (.ok (.uri v.uri), db))

/-- The artifacts of a model's versions lie apart from each other, and the way to each is answered to its number. -/
structure TellsApart (db : Database) (name : String) (vs : List Version) : Prop where
  listed : ∀ now, db.call (.listVersions name []) now = (.ok (.versions vs), db)
  apart : (vs.map Version.uri).Nodup
  found : ∀ number now uri, db.perform? (.versionUri ⟨name, number⟩) now = some (.ok (.uri uri), db) ↔
    ∃ v ∈ vs, v.number = number ∧ v.uri = uri

variable {t : Tables} {name : String} {key : VersionKey} {now : Instant} {uri : String}

theorem leadsTo (db : Database) (key : VersionKey) (now : Instant) : db.LeadsTo key now := by
  cases db with
  | unreachable => exact .refused _ rfl rfl
  | homeless | dropped => exact .refused _ rfl rfl
  | live t =>
    have version := @call_live_answering t now _ (.getVersion key) .version (Operation.getVersion key) rfl
    have uri := @call_live_answering t now _ (.versionUri key) .uri (Operation.versionUri key) rfl
    rw [Operation.attempt_versionUri_eq] at uri
    cases run : Operation.attempt (Operation.getVersion key) now t with
    | error e =>
      rw [run] at version
      rw [run, error_bind] at uri
      exact .refused e (by rw [perform?, version]) (by rw [perform?, uri])
    | ok pair =>
      obtain ⟨v, t'⟩ := pair
      obtain ⟨-, rfl, -⟩ := Operation.getVersion_succeeds.mp (Operation.attempt_eq_ok.mp run)
      rw [run] at version uri
      have answered : (live t').perform? (.versionUri key) now = some (.ok (.uri v.uri), live t') :=
        perform?_eq_ok_iff.mpr ⟨uri, rfl⟩
      cases readable : (Answer.version v).isReadable with
      | true => exact .found v (perform?_eq_ok_iff.mpr ⟨version, readable⟩) answered
      | false => exact .unread v version readable (perform?_of_not_readable version readable) answered

theorem perform?_versionUri_iff (clean : holdsZero key.model = false) :
    (live t).perform? (.versionUri key) now = some (.ok (.uri uri), live t) ↔
      ∃ r, t.version? key = some r ∧ (t.versionEntry r).uri = uri := by
  simp only [perform?_eq_ok_iff, call_eq_ok_iff, Call.operation?, Operation.succeeds_answering,
    Operation.versionUri_succeeds]
  constructor
  · rintro ⟨⟨t', ⟨_, ⟨-, rfl, r, found, rfl⟩, same⟩, -⟩, -⟩
    refine ⟨r, found, ?_⟩
    rw [Tables.uri_versionEntry, Tables.key_of_version? found, Answer.uri.inj same]
  · rintro ⟨r, found, rfl⟩
    rw [Tables.uri_versionEntry, Tables.key_of_version? found]
    exact ⟨⟨t, ⟨_, ⟨clean, rfl, r, found, rfl⟩, rfl⟩, rfl⟩, rfl⟩

/-- What the listed versions of a model say of their artifacts is what is answered to their numbers. -/
theorem tellsApart (sound : t.Sound) (clean : holdsZero name = false) :
    (live t).TellsApart name (t.listedVersions name []) where
  listed _ := call_listVersions clean nofun
  apart := nodup_uris sound.listedVersions_ascending
  found number now uri := by
    have member : ∀ v, v ∈ t.listedVersions name [] ↔ ∃ r ∈ t.versions, r.key.model = name ∧ t.versionEntry r = v :=
      fun v => (@Tables.Sound.mem_listedVersions t name [] v sound).trans (and_iff_left nofun)
    rw [@perform?_versionUri_iff t ⟨name, number⟩ now uri clean]
    constructor
    · rintro ⟨r, found, told⟩
      obtain ⟨there, under⟩ := (find?_key_iff sound.keys).mp found
      exact ⟨t.versionEntry r, (member _).mpr ⟨r, there, congrArg VersionKey.model under, rfl⟩,
        congrArg VersionKey.number under, told⟩
    · rintro ⟨v, listed, rfl, told⟩
      obtain ⟨r, there, rfl, rfl⟩ := (member v).mp listed
      exact ⟨r, (find?_key_iff sound.keys).mpr ⟨there, rfl⟩, told⟩

theorem tellsApart_renamed {allowed : Event → Prop} {newName : String} {a : Answer} {after : Database}
    (reached : (live t).Reached allowed) (done : (live t).call (.renameModel name newName) now = (.ok a, after)) :
    after.TellsApart newName ((t.listedVersions name []).map fun v => { v with model := newName }) := by
  obtain ⟨t, t', same, rfl, sound, edit⟩ := reached.edit done
  cases same
  cases edit with
  | read reads => exact absurd reads nofun
  | renameModel there new filled stored =>
    rw [← Tables.listedVersions_renamed sound new]
    exact tellsApart (sound.renamed filled stored new) stored.clean

/-- Both ways to the artifact of a version agree wherever the version is answered, and fail alike. A number is read off
every way, below one name the id too, so that no two versions of a model have one artifact, under whatever name. -/
theorem uris_identify :
    (∀ (db : Database) (key : VersionKey) (now : Instant), db.LeadsTo key now) ∧
    (∀ id id' name number number', artifactUri id name number = artifactUri id' name number' ↔
      id = id' ∧ number = number') ∧
    (∀ id id' name name' number number', artifactUri id name number = artifactUri id' name' number' →
      number = number') ∧
    ∀ (allowed : Event → Prop) (t : Tables), (live t).Reached allowed → ∀ name, holdsZero name = false →
      ∃ vs, (live t).TellsApart name vs ∧ ∀ newName now a after,
        (live t).call (.renameModel name newName) now = (.ok a, after) →
          after.TellsApart newName (vs.map fun v => { v with model := newName }) := by
  refine ⟨leadsTo, fun _ _ _ _ _ => artifactUri_inj, fun _ _ _ _ _ _ => number_of_artifactUri, ?_⟩
  intro allowed t reached name clean
  exact ⟨_, tellsApart reached.sound clean, fun _ _ _ _ done => tellsApart_renamed reached done⟩

/-- Two versions share an id. Under a name with a separator and a digit in it, one of them lies where a version of
another model could, but only one with the same number. -/
theorem series_told_apart :
    let now := Catalog.opened.clock.reading
    let t := series.tables
    let renamed := (live t).call (.renameModel "a" "b/3") now
    (live t).Reached Event.KeepsCounters ∧ holdsZero "a" = false ∧
      (∃ a vs, renamed.1 = .ok a ∧ renamed.2.TellsApart "b/3" vs ∧
        (∃ v ∈ vs, v.number = 1 ∧ v.uri = "s3://submarine/registry/run/b/3/1") ∧
        ∃ v ∈ vs, v.number = 3 ∧ v.uri = "s3://submarine/registry/run/b/3/3") ∧
      ∀ number, artifactUri "run" "b/3" 3 = artifactUri "run/b" "3" number ↔ number = 3 := by
  intro now t renamed
  obtain ⟨-, -, numbered, apart⟩ := uris_identify
  have same : series = live t := by decide +kernel
  have reached : (live t).Reached Event.KeepsCounters := same ▸ reached_series
  have clean : holdsZero "a" = false := by decide +kernel
  have served : renamed = (.ok (.model ⟨"b/3", now, now, none, ["x"]⟩), renamed.2) := by decide +kernel
  have first : renamed.2.perform? (.versionUri ⟨"b/3", 1⟩) now =
      some (.ok (.uri "s3://submarine/registry/run/b/3/1"), renamed.2) := by decide +kernel
  have third : renamed.2.perform? (.versionUri ⟨"b/3", 3⟩) now =
      some (.ok (.uri "s3://submarine/registry/run/b/3/3"), renamed.2) := by decide +kernel
  have meets : artifactUri "run" "b/3" 3 = artifactUri "run/b" "3" 3 := by decide +kernel
  obtain ⟨vs, -, after⟩ := apart _ t reached "a" clean
  have tells := after "b/3" now _ renamed.2 served
  refine ⟨reached, clean, ⟨_, _, congrArg Prod.fst served, tells, (tells.found 1 now _).mp first,
    (tells.found 3 now _).mp third⟩, fun number => ⟨fun other => ?_, fun three => three ▸ meets⟩⟩
  exact (numbered _ _ _ _ _ _ other).symm

/-- A version that was created in the leap second at the end of the last year is not answered, but the way to its
artifact is. -/
theorem uri_of_unread :
    let last : Instant := ⟨Date.toDays ⟨Instant.greatestYear + 1, 1, 1⟩ * 86400 - 1, 1500000000, by decide, by decide⟩
    let late := (Catalog.opened.steps [.call (.createModel "a" none []), .setClock last,
      .call (.createVersion "a" ⟨"run", "user", "trial", "tree", none, []⟩)]).2.database
    let now := Catalog.opened.clock.reading
    late.Reached Event.KeepsCounters ∧ late.perform? (.getVersion ⟨"a", 1⟩) now = none ∧
      late.perform? (.versionUri ⟨"a", 1⟩) now = some (.ok (.uri "s3://submarine/registry/run/a/1"), late) := by
  intro last late now
  have reached : late.Reached Event.KeepsCounters :=
    ⟨Catalog.opened, _, Catalog.fresh_opened, by simp [Event.KeepsCounters], rfl⟩
  exact ⟨reached, by decide +kernel, by decide +kernel⟩

end Database

end ModelCatalog
