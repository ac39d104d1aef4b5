import ModelCatalog.Proofs.Creation

namespace ModelCatalog

open Operation (Succeeds)
open Parameter (holdsZero)

theorem Range.wrap32_of_ge {n : Nat} (low : 2147483648 ≤ n) (high : n < 4294967296) :
    wrap32 n = n - 4294967296 := by
  unfold wrap32
  rw [Int.bmod_def]
  split <;> omega

namespace TagRow

variable {κ : Type} [DecidableEq κ] {owner : κ} {rows : List (TagRow κ)} {tags : List String}

omit [DecidableEq κ] in
theorem getElem?_listed {position i : Nat} : (listed owner position tags)[i]? =
    tags[i]?.map fun tag => ⟨owner, cut tagWidth tag, Range.wrap32 (position + i)⟩ := by
  induction tags generalizing position i with
  | nil => rfl
  | cons tag rest ih =>
    cases i with
    | zero => rfl
    | succ i =>
      rw [listed, List.getElem?_cons_succ, List.getElem?_cons_succ, ih, Nat.add_right_comm, Nat.add_assoc]

omit [DecidableEq κ] in
/-- A tag past the greatest position is written at a negative one. -/
theorem exists_negative {i : Nat} (low : 2147483648 ≤ i) (high : i < 4294967296) (long : i < tags.length) :
    ∃ r ∈ listed owner 0 tags, r.position < 0 := by
  have place : (listed owner 0 tags)[i]? = some ⟨owner, cut tagWidth tags[i], Range.wrap32 (0 + i)⟩ := by
    rw [getElem?_listed, List.getElem?_eq_getElem long]
    rfl
  refine ⟨_, List.mem_of_getElem? place, ?_⟩
  have wrapped := Range.wrap32_of_ge low high
  simp only [Nat.zero_add, wrapped]
  omega

/-- The tags that are given at a creation are read in their order exactly if there is a position for each. If there
are more, some that come late are read before the first one. -/
theorem read_append_listed_iff (free : ∀ r ∈ rows, r.owner ≠ owner)
    (distinct : (tags.map (cut tagWidth)).Nodup) :
    read owner (rows ++ listed owner 0 tags) = tags.map (cut tagWidth) ↔ tags.length ≤ 2147483648 := by
  refine ⟨fun kept => ?_, read_append_listed free⟩
  by_contra long
  have none : rows.filter (·.owner = owner) = [] :=
    List.filter_eq_nil_iff.mpr fun r member => by simpa using free r member
  have whole : (listed owner 0 tags).filter (·.owner = owner) = listed owner 0 tags :=
    List.filter_eq_self.mpr fun r member => decide_eq_true (of_mem_listed member).1
  have pairs : (labels (listed owner 0 tags)).map Prod.snd =
      (tags.map fun tag => (owner, cut tagWidth tag)).map Prod.snd :=
    congrArg _ labels_listed
  simp only [labels, List.map_map, Function.comp_def] at pairs
  rw [read, List.filter_append, none, List.nil_append, whole] at kept
  have perm := List.mergeSort_perm (listed owner 0 tags) fun r s => decide (r.position ≤ s.position)
  have ascending := ascending_mergeSort (listed owner 0 tags)
  cases tags with
  | nil => exact long (Nat.zero_le _)
  | cons tag more =>
    -- The first tag is at position 0, so that one at a negative position would be read before it.
    obtain ⟨r, member, negative⟩ : ∃ r ∈ listed owner 0 (tag :: more), r.position < 0 :=
      exists_negative (by omega) (by omega) (Nat.lt_of_not_le long)
    have far := perm.mem_iff.mpr member
    generalize (listed owner 0 (tag :: more)).mergeSort _ = sorted at far ascending kept perm
    cases sorted with
    | nil => exact List.not_mem_nil far
    | cons first rest =>
      have same : first = ⟨owner, cut tagWidth tag, Range.wrap32 0⟩ :=
        List.inj_on_of_nodup_map (pairs ▸ distinct) (perm.mem_iff.mp List.mem_cons_self) List.mem_cons_self
          (List.cons.inj kept).1
      have start : first.position = 0 := by
        rw [same]
        rfl
      rcases List.mem_cons.mp far with here | later
      · rw [here] at negative
        omega
      · have bound := (List.pairwise_cons.mp ascending).1 r later
        omega

end TagRow

namespace Instant

variable {t : Instant}

/-- The instant that is read back after this one was stored: whole microseconds, and a leap second falls on the first
second of the next minute. -/
def folded (t : Instant) : Instant where
  seconds := if t.isLeap then t.seconds + 1 else t.seconds
  nanos := t.nanos % 1000000000 / 1000 * 1000
  nanos_lt := by omega
  leap_at_end := by omega

theorem instant_stored (t : Instant) : t.stored.instant = t.folded := by
  have bound := t.nanos_lt
  simp only [stored, Timestamp.instant, folded, isLeap, mk.injEq, decide_eq_true_eq]
  split <;> omega

theorem folded_wholeMicros : t.wholeMicros.folded = t.folded := by
  rw [← instant_stored, ← instant_stored]
  congr 1
  simp only [stored, wholeMicros, Timestamp.mk.injEq]
  omega

theorem folded_eq_iff : t.folded = t.wholeMicros ↔ t.isLeap = false := by
  have bound := t.nanos_lt
  simp only [folded, wholeMicros, mk.injEq]
  cases leap : t.isLeap with
  | true => exact ⟨fun same => absurd same.1 (by rw [if_pos rfl]; omega), nofun⟩
  | false =>
    have short : ¬1000000000 ≤ t.nanos := of_decide_eq_false leap
    exact iff_of_true ⟨by simp, by omega⟩ rfl

/-- The leap second at the end of the last year that can be read back. -/
def EndsCalendar (t : Instant) : Prop :=
  t.isLeap = true ∧ t.seconds + 1 = Date.toDays ⟨greatestYear + 1, 1, 1⟩ * 86400

theorem representable_folded (t : Instant) (readable : t.representable = true) :
    t.folded.representable = true ↔ ¬t.EndsCalendar := by
  simp only [representable, EndsCalendar, folded, Bool.and_eq_true] at *
  by_cases leap : t.isLeap = true
  · simp only [leap, if_true, true_and, decide_eq_true_eq] at *
    omega
  · simp only [leap, Bool.false_eq_true, if_false, false_and, not_false_eq_true, iff_true]
    exact readable

end Instant

/-- A model as it is read when it was answered like this: all texts cut to their columns, and both times as they are
stored. -/
def Model.kept (m : Model) : Model where
  name := cut nameWidth m.name
  createdAt := m.createdAt.folded
  updatedAt := m.updatedAt.folded
  description := m.description.map (cut descriptionWidth)
  tags := m.tags.map (cut tagWidth)

def Version.kept (v : Version) : Version :=
  { v with
    model := cut nameWidth v.model
    id := cut labelWidth v.id
    user := cut labelWidth v.user
    experiment := cut labelWidth v.experiment
    modelType := cut labelWidth v.modelType
    createdAt := v.createdAt.folded
    updatedAt := v.updatedAt.folded
    description := v.description.map (cut descriptionWidth)
    tags := v.tags.map (cut tagWidth) }

/-- A model none of whose texts was too long for its column. -/
def Model.Uncut (m : Model) : Prop :=
  cut nameWidth m.name = m.name ∧ m.description.map (cut descriptionWidth) = m.description ∧
    m.tags.map (cut tagWidth) = m.tags

def Version.Uncut (v : Version) : Prop :=
  cut nameWidth v.model = v.model ∧ cut labelWidth v.id = v.id ∧ cut labelWidth v.user = v.user ∧
    cut labelWidth v.experiment = v.experiment ∧ cut labelWidth v.modelType = v.modelType ∧
    v.description.map (cut descriptionWidth) = v.description ∧ v.tags.map (cut tagWidth) = v.tags

/-- How the tags that were answered to a creation are read: the same tags, and in the same order exactly if there are
no more than there are positions. -/
structure TagRow.ReadAs (answered read : List String) : Prop where
  perm : read.Perm (answered.map (cut tagWidth))
  order : read = answered.map (cut tagWidth) ↔ answered.length ≤ 2147483648

theorem TagRow.ReadAs.eq_iff {answered read : List String} (reads : ReadAs answered read) :
    read = answered ↔ answered.map (cut tagWidth) = answered ∧ answered.length ≤ 2147483648 := by
  constructor
  · intro same
    subst same
    have uncut : read.map (cut tagWidth) = read := by
      refine (List.map_congr_left fun tag member => ?_).trans (List.map_id _)
      obtain ⟨other, -, rfl⟩ := List.mem_map.mp (reads.perm.mem_iff.mp member)
      exact cut_of_length_le (length_cut_le _ _)
    exact ⟨uncut, reads.order.mp uncut.symm⟩
  · intro both
    exact (reads.order.mpr both.2).trans both.1

section Exactness

variable {instant : Instant} {read : List String}

theorem Model.kept_eq_iff {m : Model} (reads : TagRow.ReadAs m.tags read) (made : m.createdAt = instant.wholeMicros)
    (new : m.updatedAt = instant.wholeMicros) :
    { m.kept with tags := read } = m ↔ m.Uncut ∧ instant.isLeap = false ∧ m.tags.length ≤ 2147483648 := by
  obtain ⟨name, createdAt, updatedAt, description, tags⟩ := m
  obtain rfl : createdAt = _ := made
  obtain rfl : updatedAt = _ := new
  simp only [kept, Uncut, mk.injEq, Instant.folded_wholeMicros, Instant.folded_eq_iff, reads.eq_iff]
  constructor
  · rintro ⟨name, leap, -, description, tags, few⟩
    exact ⟨⟨name, description, tags⟩, leap, few⟩
  · rintro ⟨⟨name, description, tags⟩, leap, few⟩
    exact ⟨name, leap, leap, description, tags, few⟩

theorem Version.kept_eq_iff {v : Version} (reads : TagRow.ReadAs v.tags read)
    (made : v.createdAt = instant.wholeMicros) (new : v.updatedAt = instant.wholeMicros) :
    { v.kept with tags := read } = v ↔ v.Uncut ∧ instant.isLeap = false ∧ v.tags.length ≤ 2147483648 := by
  obtain ⟨model, number, id, user, experiment, modelType, stage, createdAt, updatedAt, source, description, tags⟩ := v
  obtain rfl : createdAt = _ := made
  obtain rfl : updatedAt = _ := new
  simp only [kept, Uncut, mk.injEq, true_and, Instant.folded_wholeMicros, Instant.folded_eq_iff, reads.eq_iff]
  constructor
  · rintro ⟨model, id, user, experiment, modelType, leap, -, description, tags, few⟩
    exact ⟨⟨model, id, user, experiment, modelType, description, tags⟩, leap, few⟩
  · rintro ⟨⟨model, id, user, experiment, modelType, description, tags⟩, leap, few⟩
    exact ⟨model, id, user, experiment, modelType, leap, leap, description, tags, few⟩

end Exactness

namespace Database

variable {db after : Database} {allowed : Event → Prop} {call : Call} {now later : Instant} {a : Answer} {t : Tables}

theorem performed (done : db.perform? call now = some (.ok a, after)) :
    ∃ t t', db = .live t ∧ after = .live t' ∧ Succeeds call.operation? now t a t' ∧ a.isReadable = true := by
  obtain ⟨called, readable⟩ := perform?_eq_ok_iff.mp done
  obtain ⟨t, t', live, made, same⟩ := call_of_ok (congrArg Prod.fst called)
  exact ⟨t, t', live, (congrArg Prod.snd called).symm.trans same, made, readable⟩

theorem call_getModel {name : String} {r : ModelRow} (clean : holdsZero name = false)
    (found : t.model? name = some r) :
    (live t).call (.getModel name) later = (.ok (.model (t.modelEntry r)), live t) := by
  refine call_eq_ok_iff.mpr ⟨t, ?_, rfl⟩
  exact Operation.succeeds_answering.mpr ⟨_, Operation.getModel_succeeds.mpr ⟨clean, rfl, r, found, rfl⟩, rfl⟩

theorem call_getVersion {key : VersionKey} {r : VersionRow} (clean : holdsZero key.model = false)
    (found : t.version? key = some r) :
    (live t).call (.getVersion key) later = (.ok (.version (t.versionEntry r)), live t) := by
  refine call_eq_ok_iff.mpr ⟨t, ?_, rfl⟩
  exact Operation.succeeds_answering.mpr ⟨_, Operation.getVersion_succeeds.mpr ⟨clean, rfl, r, found, rfl⟩, rfl⟩

section Changes

variable {name newName text : String} {key : VersionKey}

theorem describeModel_readBack (done : db.perform? (.describeModel name text) now = some (.ok a, after)) :
    after.perform? (.getModel name) later = some (.ok a, after) := by
  obtain ⟨t, t', rfl, rfl, made, readable⟩ := performed done
  simp only [Call.operation?, Operation.succeeds_answering] at made
  obtain ⟨m, made, rfl⟩ := made
  obtain ⟨clean, -, -, -, -, -, r, found, rfl⟩ := Operation.describeModel_succeeds.mp made
  exact perform?_eq_ok_iff.mpr ⟨call_getModel clean found, readable⟩

theorem renameModel_readBack (done : db.perform? (.renameModel name newName) now = some (.ok a, after)) :
    after.perform? (.getModel newName) later = some (.ok a, after) := by
  obtain ⟨t, t', rfl, rfl, made, readable⟩ := performed done
  simp only [Call.operation?, Operation.succeeds_answering] at made
  obtain ⟨m, made, rfl⟩ := made
  obtain ⟨-, -, -, -, clean, -, -, -, -, -, -, -, -, -, r, found, rfl⟩ := Operation.renameModel_succeeds.mp made
  exact perform?_eq_ok_iff.mpr ⟨call_getModel clean found, readable⟩

theorem describeVersion_readBack (done : db.perform? (.describeVersion key text) now = some (.ok a, after)) :
    after.perform? (.getVersion key) later = some (.ok a, after) := by
  obtain ⟨t, t', rfl, rfl, made, readable⟩ := performed done
  simp only [Call.operation?, Operation.succeeds_answering] at made
  obtain ⟨v, made, rfl⟩ := made
  obtain ⟨clean, -, -, -, -, -, -, r, found, rfl⟩ := Operation.describeVersion_succeeds.mp made
  exact perform?_eq_ok_iff.mpr ⟨call_getVersion clean found, readable⟩

theorem moveVersion_readBack (done : db.perform? (.moveVersion key text) now = some (.ok a, after)) :
    after.perform? (.getVersion key) later = some (.ok a, after) := by
  obtain ⟨t, t', rfl, rfl, made, readable⟩ := performed done
  simp only [Call.operation?, Operation.succeeds_answering] at made
  obtain ⟨v, made, rfl⟩ := made
  obtain ⟨stage, -, clean, -, -, -, -, r, found, rfl⟩ := Operation.moveVersion_succeeds.mp made
  exact perform?_eq_ok_iff.mpr ⟨call_getVersion clean found, readable⟩

end Changes

/-- How a model that was answered at its creation is read from then on. It cannot be if its times are stored in a year
that has no name. -/
structure RecallsModel (instant : Instant) (r : Model) (read : List String) (db : Database) : Prop where
  tags : TagRow.ReadAs r.tags read
  found : ¬instant.EndsCalendar → ∀ later, db.perform? (.getModel (cut nameWidth r.name)) later =
    some (.ok (.model { r.kept with tags := read }), db)
  lost : instant.EndsCalendar → ∀ later, db.perform? (.getModel (cut nameWidth r.name)) later = none
  exact : { r.kept with tags := read } = r ↔ r.Uncut ∧ instant.isLeap = false ∧ r.tags.length ≤ 2147483648

theorem createModel_readBack {t : Tables} (sound : t.Sound) {name : String} {description : Option String}
    {tags : List String} {instant : Instant} {r : Model}
    (done : (live t).perform? (.createModel name description tags) instant.wholeMicros =
      some (.ok (.model r), after)) :
    r.name = name ∧ ∃ read, after.RecallsModel instant r read := by
  obtain ⟨_, t', ⟨⟩, rfl, made, readable⟩ := performed done
  simp only [Call.operation?, Operation.succeeds_answering] at made
  obtain ⟨m, made, ⟨⟩⟩ := made
  obtain ⟨-, -, clean, -, -, -, -, new, good, rfl, rfl⟩ := Operation.createModel_succeeds.mp made
  obtain ⟨-, noTags, -, -⟩ := sound.rows_apart new
  generalize listed : (t.addModel (.registered name instant.wholeMicros.stored description)).addModelTags
    (TagRow.listed (cut nameWidth name) 0 tags.eraseDups) = t'
  have found : t'.model? (cut nameWidth name) =
      some (.registered name instant.wholeMicros.stored description) := by
    rw [← listed]
    exact (Tables.model?_addModel new _).trans (if_pos rfl)
  generalize same : TagRow.read (cut nameWidth name) t'.modelTags = read
  have reads : TagRow.ReadAs tags.eraseDups read := by
    rw [← same, ← listed]
    exact ⟨TagRow.read_append_listed_perm noTags, TagRow.read_append_listed_iff noTags good.distinct⟩
  have entry : t'.modelEntry (.registered name instant.wholeMicros.stored description) =
      { (Model.mk name instant.wholeMicros instant.wholeMicros description tags.eraseDups).kept with
        tags := read } := by
    rw [← same]
    simp only [Model.kept, ← Instant.instant_stored]
    rfl
  have called := fun later => entry ▸ @call_getModel later t' _ _ (stored_cut clean).clean found
  have lasting := instant.representable_folded (isReadable_model.mp readable).1
  rw [← Instant.folded_wholeMicros] at lasting
  refine ⟨rfl, read, reads, fun inside later => ?_, fun ends later => ?_, Model.kept_eq_iff reads rfl rfl⟩
  · exact perform?_eq_ok_iff.mpr ⟨called later, isReadable_model.mpr ⟨lasting.mpr inside, lasting.mpr inside⟩⟩
  · refine perform?_of_not_readable (called later) (Bool.eq_false_iff.mpr fun readable => ?_)
    exact lasting.mp (isReadable_model.mp readable).1 ends

/-- How a version that was answered at its creation is read from then on. -/
structure RecallsVersion (instant : Instant) (v : Version) (read : List String) (db : Database) : Prop where
  tags : TagRow.ReadAs v.tags read
  found : ¬instant.EndsCalendar → ∀ later, db.perform? (.getVersion ⟨cut nameWidth v.model, v.number⟩) later =
    some (.ok (.version { v.kept with tags := read }), db)
  lost : instant.EndsCalendar → ∀ later,
    db.perform? (.getVersion ⟨cut nameWidth v.model, v.number⟩) later = none
  exact : { v.kept with tags := read } = v ↔ v.Uncut ∧ instant.isLeap = false ∧ v.tags.length ≤ 2147483648

theorem createVersion_readBack {t : Tables} (sound : t.Sound) {name : String} {draft : VersionDraft}
    {instant : Instant} {v : Version}
    (done : (live t).perform? (.createVersion name draft) instant.wholeMicros = some (.ok (.version v), after)) :
    v.model = name ∧ ∃ read, after.RecallsVersion instant v read := by
  obtain ⟨_, t', ⟨⟩, rfl, made, readable⟩ := performed done
  simp only [Call.operation?, Operation.succeeds_answering] at made
  obtain ⟨_, made, ⟨⟩⟩ := made
  obtain ⟨-, clean, -, r, -, -, -, -, -, -, -, -, -, -, -, -, -, new, -, good, rfl, rfl⟩ :=
    Operation.createVersion_succeeds.mp made
  have noTags : ∀ s ∈ t.versionTags, s.owner ≠ (VersionKey.mk name (r.counter + 1)).stored :=
    fun s member same => new (same ▸ sound.versionTags.owned s member)
  generalize r.counter + 1 = number at *
  generalize listed : ((t.countVersion name instant.wholeMicros.stored).addVersion
    (.drafted ⟨name, number⟩ draft instant.wholeMicros.stored)).addVersionTags
    (TagRow.listed (VersionKey.mk name number).stored 0 draft.tags.eraseDups) = t'
  have found : t'.version? (VersionKey.mk name number).stored =
      some (.drafted ⟨name, number⟩ draft instant.wholeMicros.stored) := by
    rw [← listed]
    exact @Tables.version?_addVersion (t.countVersion name _) (.drafted ⟨name, number⟩ draft _) new
  generalize same : TagRow.read (VersionKey.mk name number).stored t'.versionTags = read
  have reads : TagRow.ReadAs draft.tags.eraseDups read := by
    rw [← same, ← listed]
    exact ⟨TagRow.read_append_listed_perm noTags, TagRow.read_append_listed_iff noTags good.distinct⟩
  have entry : t'.versionEntry (.drafted ⟨name, number⟩ draft instant.wholeMicros.stored) =
      { (Version.mk name number draft.id draft.user draft.experiment draft.modelType .initial
          instant.wholeMicros instant.wholeMicros none draft.description draft.tags.eraseDups).kept with
        tags := read } := by
    rw [← same]
    simp only [Version.kept, ← Instant.instant_stored]
    rfl
  have whole : holdsZero (VersionKey.mk name number).stored.model = false := (stored_cut clean).clean
  have called := fun later => entry ▸ @call_getVersion later t' _ _ whole found
  have lasting := instant.representable_folded (isReadable_version.mp readable).1
  rw [← Instant.folded_wholeMicros] at lasting
  refine ⟨rfl, read, reads, fun inside later => ?_, fun ends later => ?_, Version.kept_eq_iff reads rfl rfl⟩
  · exact perform?_eq_ok_iff.mpr ⟨called later, isReadable_version.mpr ⟨lasting.mpr inside, lasting.mpr inside⟩⟩
  · refine perform?_of_not_readable (called later) (Bool.eq_false_iff.mpr fun readable => ?_)
    exact lasting.mp (isReadable_version.mp readable).1 ends

/-- What is answered is what is read right afterwards: exactly, where a model or a version was changed, and where one
was created, with its texts cut to their columns, its times as they are stored and its tags in their order. Two things
are lost: the times of the leap second that ends the last year, and the order of more tags than there are
positions. -/
theorem answers_read_back (reached : db.Reached allowed) (instant later : Instant) :
    let now := (Clock.showing instant).reading
    (∀ name text a after, db.perform? (.describeModel name text) now = some (.ok a, after) →
      after.perform? (.getModel name) later = some (.ok a, after)) ∧
    (∀ name newName a after, db.perform? (.renameModel name newName) now = some (.ok a, after) →
      after.perform? (.getModel newName) later = some (.ok a, after)) ∧
    (∀ key text a after, db.perform? (.describeVersion key text) now = some (.ok a, after) →
      after.perform? (.getVersion key) later = some (.ok a, after)) ∧
    (∀ key text a after, db.perform? (.moveVersion key text) now = some (.ok a, after) →
      after.perform? (.getVersion key) later = some (.ok a, after)) ∧
    (∀ name description tags r after,
      db.perform? (.createModel name description tags) now = some (.ok (.model r), after) →
        r.name = name ∧ ∃ read, after.RecallsModel instant r read) ∧
    ∀ name draft v after, db.perform? (.createVersion name draft) now = some (.ok (.version v), after) →
      v.model = name ∧ ∃ read, after.RecallsVersion instant v read := by
  refine ⟨fun _ _ _ _ done => describeModel_readBack done, fun _ _ _ _ done => renameModel_readBack done,
    fun _ _ _ _ done => describeVersion_readBack done, fun _ _ _ _ done => moveVersion_readBack done,
    ?model, ?version⟩
  case model =>
    intro name description tags r after done
    obtain ⟨t, -, rfl, -⟩ := performed done
    exact createModel_readBack reached.sound done
  case version =>
    intro name draft v after done
    obtain ⟨t, -, rfl, -⟩ := performed done
    exact createVersion_readBack reached.sound done

theorem shelf_reads_back :
    let leap : Instant := ⟨59, 1500000000, by decide, by decide⟩
    let now := (Clock.showing leap).reading
    let made := (shelf.call (.createModel "c" none ["x"]) now).2
    let renamed := (shelf.call (.renameModel "b" "c") now).2
    let answered : Model := ⟨"c", now, now, none, ["x"]⟩
    let folded : Model := ⟨"c", leap.folded, leap.folded, none, ["x"]⟩
    let other : Model := ⟨"c", Catalog.opened.clock.reading, leap.folded, none, ["x"]⟩
    shelf.Reached Event.KeepsCounters ∧
      shelf.perform? (.createModel "c" none ["x"]) now = some (.ok (.model answered), made) ∧
      (∀ later, made.perform? (.getModel "c") later = some (.ok (.model folded), made)) ∧
      shelf.perform? (.renameModel "b" "c") now = some (.ok (.model other), renamed) ∧
      ∀ later, renamed.perform? (.getModel "c") later = some (.ok (.model other), renamed) := by
  intro leap now made renamed answered folded other
  have creation : shelf.perform? (.createModel "c" none ["x"]) now = some (.ok (.model answered), made) := by
    decide +kernel
  have rename : shelf.perform? (.renameModel "b" "c") now = some (.ok (.model other), renamed) := by
    decide +kernel
  have creations := (answers_read_back reached_shelf leap now).2.2.2.2.1
  obtain ⟨-, read, recalls⟩ := creations "c" none ["x"] answered made creation
  have tags : answered.tags.map (cut tagWidth) = ["x"] := by decide +kernel
  obtain rfl : read = ["x"] := (recalls.tags.order.mpr (by decide)).trans tags
  have inside : ¬leap.EndsCalendar := fun ends => absurd ends.2 (by decide +kernel)
  have found := recalls.found inside
  have name : cut nameWidth answered.name = "c" := by decide +kernel
  have kept : { answered.kept with tags := ["x"] } = folded := by decide +kernel
  rw [name, kept] at found
  exact ⟨reached_shelf, creation, found, rename, fun later =>
    (answers_read_back reached_shelf leap later).2.1 "b" "c" (.model other) renamed rename⟩

section Losses

/-- A tag that spells out the bits of a number. -/
def spelled (n : Nat) : String :=
  String.ofList ((List.range 32).map fun bit => if n.testBit bit then 'y' else 'n')

theorem toList_spelled (n : Nat) :
    (spelled n).toList = (List.range 32).map fun bit => if n.testBit bit then 'y' else 'n' :=
  String.toList_ofList

theorem length_spelled (n : Nat) : (spelled n).toList.length = 32 := by
  rw [toList_spelled, List.length_map, List.length_range]

theorem clean_spelled (n : Nat) : holdsZero (spelled n) = false := by
  simp only [holdsZero, toList_spelled, List.contains_eq_mem, List.mem_map, decide_eq_false_iff_not]
  rintro ⟨bit, -, zero⟩
  split at zero <;> cases zero

theorem spelled_inj {m n : Nat} (hm : m < 4294967296) (hn : n < 4294967296) (same : spelled m = spelled n) :
    m = n := by
  refine Nat.eq_of_testBit_eq fun bit => ?_
  have letters := congrArg String.toList same
  rw [toList_spelled, toList_spelled, List.map_inj_left] at letters
  rcases Nat.lt_or_ge bit 32 with low | high
  · have letter := letters bit (List.mem_range.mpr low)
    revert letter
    cases m.testBit bit <;> cases n.testBit bit <;> simp
  · have large : 4294967296 ≤ 2 ^ bit := Nat.pow_le_pow_right (show 0 < 2 by decide) high
    rw [Nat.testBit_lt_two_pow (hm.trans_le large), Nat.testBit_lt_two_pow (hn.trans_le large)]

/-- One tag more than there are positions from 0 on. -/
def crowd : List String :=
  (List.range 2147483649).map spelled

theorem length_crowd : crowd.length = 2147483649 := by
  rw [crowd, List.length_map, List.length_range]

theorem nodup_crowd : crowd.Nodup := by
  refine List.Nodup.map_on (fun m hm n hn => spelled_inj ?_ ?_) List.nodup_range
  · have := List.mem_range.mp hm
    omega
  · have := List.mem_range.mp hn
    omega

theorem uncut_crowd : crowd.map (cut tagWidth) = crowd := by
  rw [crowd, List.map_map]
  exact List.map_congr_left fun n _ => cut_of_length_le (by rw [length_spelled]; decide)

theorem addable_crowd {owner : String} : TagRow.Addable owner [] crowd where
  clean tag member := by
    obtain ⟨n, -, rfl⟩ := List.mem_map.mp member
    exact clean_spelled n
  room tag member := by
    obtain ⟨n, -, rfl⟩ := List.mem_map.mp member
    exact fits_of_length_le (by rw [length_spelled]; decide)
  distinct := uncut_crowd.symm ▸ nodup_crowd
  new _ _ := nofun

theorem named_crowd : ∀ tag ∈ crowd, tag ≠ "" := by
  intro tag member empty
  obtain ⟨n, -, rfl⟩ := List.mem_map.mp member
  have none := length_spelled n
  rw [empty] at none
  exact absurd none (by decide)

theorem perform?_createModel_of_addable {tags : List String} (distinct : tags.Nodup)
    (named : ∀ tag ∈ tags, tag ≠ "") (good : TagRow.Addable (cut nameWidth "a") [] tags)
    (storable : now.stored.isStorable = true) (readable : now.representable = true) :
    ∃ after, (live .empty).perform? (.createModel "a" none tags) now =
      some (.ok (.model ⟨"a", now, now, none, tags⟩), after) := by
  have created : Succeeds (Operation.createModel "a" none tags) now .empty ⟨"a", now, now, none, tags⟩
      ((Tables.empty.addModel (.registered "a" now.stored none)).addModelTags
        (TagRow.listed (cut nameWidth "a") 0 tags)) := by
    rw [Operation.createModel_succeeds, eraseDups_of_nodup distinct]
    exact ⟨by decide, named, by decide +kernel, storable, nofun, by decide +kernel, nofun, nofun, good, rfl, rfl⟩
  have called := (@call_eq_ok_iff .empty now (.createModel "a" none tags) _ _).mpr
    ⟨_, Operation.succeeds_answering.mpr ⟨_, created, rfl⟩, rfl⟩
  exact ⟨_, perform?_eq_ok_iff.mpr ⟨called, isReadable_model.mpr ⟨readable, readable⟩⟩⟩

theorem order_lost {tags : List String} {instant : Instant} (distinct : tags.Nodup) (named : ∀ tag ∈ tags, tag ≠ "")
    (good : TagRow.Addable (cut nameWidth "a") [] tags) (many : 2147483648 < tags.length)
    (plain : instant.isLeap = false) (storable : instant.wholeMicros.stored.isStorable = true)
    (readable : instant.wholeMicros.representable = true) :
    ∃ after read, (live .empty).perform? (.createModel "a" none tags) instant.wholeMicros =
        some (.ok (.model ⟨"a", instant.wholeMicros, instant.wholeMicros, none, tags⟩), after) ∧
      after.perform? (.getModel "a") instant.wholeMicros =
        some (.ok (.model ⟨"a", instant.wholeMicros, instant.wholeMicros, none, read⟩), after) ∧
      read ≠ tags.map (cut tagWidth) := by
  obtain ⟨after, created⟩ := perform?_createModel_of_addable distinct named good storable readable
  obtain ⟨-, read, recalls⟩ := createModel_readBack Tables.Sound.empty created
  have inside : ¬instant.EndsCalendar := fun ends => absurd ends.1 (ne_true_of_eq_false plain)
  have found := recalls.found inside instant.wholeMicros
  have name : cut nameWidth "a" = "a" := by decide +kernel
  have same : instant.folded = instant.wholeMicros := Instant.folded_eq_iff.mpr plain
  simp only [Model.kept, name, Instant.folded_wholeMicros, same, Option.map_none] at found
  exact ⟨after, read, created, found, fun kept => absurd (recalls.tags.order.mp kept) (Nat.not_le_of_lt many)⟩

/-- The last second that has a name can be a leap second, and what was created in it cannot be read. Nor are more tags
read in their order than there are positions for. -/
theorem lost_in_storage :
    let last : Instant := ⟨Date.toDays ⟨Instant.greatestYear + 1, 1, 1⟩ * 86400 - 1, 1500000000, by decide, by decide⟩
    let now := (Clock.showing last).reading
    let noon := (Clock.showing (.ofSeconds 43200)).reading
    (∃ after, Catalog.opened.database.perform? (.createModel "a" none []) now =
        some (.ok (.model ⟨"a", now, now, none, []⟩), after) ∧
      after.perform? (.getModel "a") now = none) ∧
    ∃ after read, Catalog.opened.database.perform? (.createModel "a" none crowd) noon =
        some (.ok (.model ⟨"a", noon, noon, none, crowd⟩), after) ∧
      after.perform? (.getModel "a") noon = some (.ok (.model ⟨"a", noon, noon, none, read⟩), after) ∧
      read ≠ crowd.map (cut tagWidth) := by
  intro last now noon
  refine ⟨⟨(Catalog.opened.database.call (.createModel "a" none []) now).2, by decide +kernel, by decide +kernel⟩, ?_⟩
  rw [Catalog.fresh_opened.database_eq]
  have many : 2147483648 < crowd.length := by
    rw [length_crowd]
    decide
  exact @order_lost crowd (.ofSeconds 43200) nodup_crowd named_crowd addable_crowd many rfl (by decide) (by decide)

end Losses

end Database

end ModelCatalog
