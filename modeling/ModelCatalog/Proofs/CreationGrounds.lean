import ModelCatalog.Proofs.Numbering
import ModelCatalog.Proofs.ReadBack
import ModelCatalog.Proofs.RefusalOrder

namespace ModelCatalog

open Operation (attempt)
open Parameter (holdsZero)

/-- The grounds to refuse a new version of a model, in the order in which they are looked at. -/
def Tables.versionGrounds (t : Tables) (name : String) (draft : VersionDraft) (now : Instant) : List Ground :=
  [⟨"" ∈ draft.tags, .argument .emptyTag⟩,
    ⟨holdsZero name, .storage .zeroCharacter⟩,
    ⟨now.isEarly, .storage .timeOutOfRange⟩,
    ⟨!t.hasModel name, .modelNotFound name⟩,
    ⟨t.counters name = some 2147483647, .storage .numberOutOfRange⟩,
    ⟨draft.texts.any holdsZero, .storage .zeroCharacter⟩,
    ⟨!fits labelWidth draft.id, .argument (.tooLong labelWidth)⟩,
    ⟨!fits labelWidth draft.user, .argument (.tooLong labelWidth)⟩,
    ⟨!fits labelWidth draft.experiment, .argument (.tooLong labelWidth)⟩,
    ⟨!fits labelWidth draft.modelType, .argument (.tooLong labelWidth)⟩,
    ⟨draft.description.any (!fits descriptionWidth ·), .argument (.tooLong descriptionWidth)⟩] ++
  TagRow.grounds (.versionTag ⟨name, (t.counters name).getD 0 + 1⟩) [] draft.tags.eraseDups

/-- The grounds to refuse a new model. That its name is taken is seen once the name has been cut. -/
def Tables.modelGrounds (t : Tables) (name : String) (description : Option String) (tags : List String)
    (now : Instant) : List Ground :=
  [⟨name = "", .argument .emptyModelName⟩,
    ⟨"" ∈ tags, .argument .emptyTag⟩,
    ⟨holdsZero name, .storage .zeroCharacter⟩,
    ⟨now.isEarly, .storage .timeOutOfRange⟩,
    ⟨description.any holdsZero, .storage .zeroCharacter⟩,
    ⟨!fits nameWidth name, .argument (.tooLong nameWidth)⟩,
    ⟨description.any (!fits descriptionWidth ·), .argument (.tooLong descriptionWidth)⟩,
    ⟨t.hasModel (cut nameWidth name), .modelExists name⟩] ++
  TagRow.grounds (.modelTag (cut nameWidth name)) [] tags.eraseDups

namespace Governs

variable {t : Tables} {name : String} {draft : VersionDraft} {description : Option String} {tags : List String}
  {now : Instant} {r : ModelRow}

theorem nextNumber (counted : t.Counted) (found : t.model? name = some r) :
    Governs [⟨t.counters name = some 2147483647, .storage .numberOutOfRange⟩] (demandNumber (r.counter + 1))
      fun _ => True := by
  have bound := counted.bounded r (List.mem_of_find?_eq_some found)
  have counter : t.counters name = some r.counter := by rw [Tables.counters, found, Option.map_some]
  refine demand ?_
  rw [counter, Bool.eq_iff_iff, decide_eq_true_eq, Option.some_inj, Bool.not_eq_true', ← Bool.not_eq_true,
    Range.has_iff]
  simp only [Range.signed32]
  omega

theorem versionDraft : Governs [
    ⟨draft.texts.any holdsZero, .storage .zeroCharacter⟩,
    ⟨!fits labelWidth draft.id, .argument (.tooLong labelWidth)⟩,
    ⟨!fits labelWidth draft.user, .argument (.tooLong labelWidth)⟩,
    ⟨!fits labelWidth draft.experiment, .argument (.tooLong labelWidth)⟩,
    ⟨!fits labelWidth draft.modelType, .argument (.tooLong labelWidth)⟩,
    ⟨draft.description.any (!fits descriptionWidth ·), .argument (.tooLong descriptionWidth)⟩]
    draft.vet fun _ => True :=
  check (more (more (more (more texts)))) fun _ _ => check fit fun _ _ => check fit fun _ _ => check fit fun _ _ =>
    check fit fun _ _ => last fitOptional fun _ _ => ⟨(), rfl, trivial⟩

theorem createVersion (sound : t.Sound) (counted : t.Counted) :
    Governs (t.versionGrounds name draft now) (attempt (Operation.createVersion name draft) now t) fun (v, t') =>
      ∃ counter, t.counters name = some counter ∧ v = draft.version name (counter + 1) now ∧
        t' = ((t.countVersion name now.stored).addVersion
          (.drafted ⟨name, counter + 1⟩ draft now.stored)).addVersionTags
          (TagRow.listed ⟨name, counter + 1⟩ 0 draft.tags.eraseDups) := by
  rw [Operation.attempt_createVersion sound]
  simp only [given_cons_cons, bind_assoc]
  refine check creationTags fun kept filled => ?_
  obtain ⟨-, rfl⟩ := Operation.creationTags_ok.mp filled
  refine check text fun _ _ => check time fun _ _ => check (expect Operation.isNone_model?.symm) fun r known => ?_
  have found := expect_eq_ok.mp known
  have counter : t.counters name = some r.counter := by rw [Tables.counters, found, Option.map_some]
  -- No number past the counter was ever handed out, so the primary key of the new row is free.
  have new : ⟨name, r.counter + 1⟩ ∉ t.keys := by
    intro there
    obtain ⟨s, member, named, -, high⟩ := counted.reached _ there
    have row := (Tables.model?_eq_some_iff sound.names).mpr ⟨member, named⟩
    obtain rfl : r = s := Option.some.inj (found.symm.trans row)
    exact absurd high (Int.not_le.mpr (Int.lt_succ _))
  have free : demandFree (t.hasVersion ⟨name, r.counter + 1⟩) (.version ⟨name, r.counter + 1⟩) = .ok () := by
    rw [Tables.hasVersion_eq_false_iff.mpr new]
    rfl
  refine check (nextNumber counted found) fun _ _ => bind versionDraft fun _ _ => ?_
  rw [free, ok_bind, counter]
  exact last vet fun _ _ => ⟨_, rfl, r.counter, rfl, rfl, rfl⟩

theorem createModel (sound : t.Sound) :
    Governs (t.modelGrounds name description tags now) (attempt (Operation.createModel name description tags) now t)
      fun (m, t') => m = ⟨name, now, now, description, tags.eraseDups⟩ ∧
        t' = (t.addModel (.registered name now.stored description)).addModelTags
          (TagRow.listed (cut nameWidth name) 0 tags.eraseDups) := by
  rw [Operation.attempt_createModel sound]
  simp only [given_cons_cons, bind_assoc]
  refine check requireModelName fun _ _ => check creationTags fun kept filled => ?_
  obtain ⟨-, rfl⟩ := Operation.creationTags_ok.mp filled
  refine check text fun _ _ => check time fun _ timely => ?_
  -- The time is written to two columns, and is in range for both or for none.
  rw [timely, ok_bind]
  refine check optionalText fun _ _ => check fit fun owner room => check fitOptional fun _ _ => ?_
  obtain ⟨-, rfl⟩ := fit_ok.mp room
  refine check (demand (Bool.not_not _).symm) fun _ _ => last vet fun _ _ => ⟨_, rfl, rfl, rfl⟩

end Governs

namespace Database

variable {t : Tables} {allowed : Event → Prop}

/-- A new version is refused on the first ground that holds. If none holds, it is answered with the next number and as
it was given, its row and its tags are added, and its model counts it. -/
theorem createVersion_settled (reached : (live t).Reached Event.KeepsCounters) (name : String) (draft : VersionDraft)
    (now : Instant) : Settles t (.createVersion name draft) now (t.versionGrounds name draft now) fun a t' =>
      a.isReadable = now.representable ∧
      ∃ counter, t.counters name = some counter ∧ a = .version (draft.version name (counter + 1) now) ∧
        t' = ((t.countVersion name now.stored).addVersion
          (.drafted ⟨name, counter + 1⟩ draft now.stored)).addVersionTags
          (TagRow.listed ⟨name, counter + 1⟩ 0 draft.tags.eraseDups) := by
  refine (settles rfl (.createVersion reached.sound reached.counted)).imp fun a t' _ made => ?_
  obtain ⟨v, ⟨counter, known, rfl, added⟩, rfl⟩ := made
  have times : (Answer.version (draft.version name (counter + 1) now)).isReadable = now.representable := by
    rw [Bool.eq_iff_iff, isReadable_version]
    exact and_self_iff
  exact ⟨times, counter, known, rfl, added⟩

theorem shelf_version_settled :
    let now := Catalog.opened.clock.reading
    let t := shelf.tables
    let draft := Catalog.plainDraft
    (live t).Reached Event.KeepsCounters ∧
      (∃ t', (live t).perform? (.createVersion "a" draft) now =
        some (.ok (.version (draft.version "a" 2 now)), live t')) ∧
      (live t).perform? (.createVersion "c" draft) now = some (.error (.modelNotFound "c"), live t) := by
  intro now t draft
  have same : shelf = live t := by decide
  have reached : (live t).Reached Event.KeepsCounters := same ▸ reached_shelf
  have known : t.counters "a" = some 1 := by decide
  have named : now.representable = true := by decide
  obtain ⟨a, t', ⟨readable, counter, before, rfl, -⟩, -, performed⟩ :=
    (createVersion_settled reached "a" draft now).served (by decide)
  obtain rfl : counter = 1 := Option.some.inj (before.symm.trans known)
  exact ⟨reached, ⟨t', performed.trans (if_pos (readable.trans named))⟩,
    (createVersion_settled reached "c" draft now).refused _ (by decide)⟩

/-- In the leap second before the first storable day a version can be created. -/
theorem version_before_calendar :
    let early : Instant := ⟨Date.toDays ⟨-4713, 11, 24⟩ * 86400 - 1, 1500000000, by decide, by decide⟩
    shelf.Reached Event.KeepsCounters ∧ early.day = ⟨-4713, 11, 23⟩ ∧
      ∃ after, shelf.perform? (.createVersion "a" Catalog.plainDraft) early =
        some (.ok (.version (Catalog.plainDraft.version "a" 2 early)), after) := by
  intro early
  refine ⟨reached_shelf, by decide, (shelf.call (.createVersion "a" Catalog.plainDraft) early).2, ?_⟩
  decide

/-- A new model is refused on the first ground that holds. If none holds, it is answered as it was given, and one row is
added, with the name and the description cut and the counter 0, together with its tags. -/
theorem createModel_settled (reached : (live t).Reached allowed) (name : String) (description : Option String)
    (tags : List String) (now : Instant) :
    Settles t (.createModel name description tags) now (t.modelGrounds name description tags now) fun a t' =>
      a.isReadable = now.representable ∧ a = .model ⟨name, now, now, description, tags.eraseDups⟩ ∧
      t' = (t.addModel
        ⟨cut nameWidth name, now.stored, now.stored, description.map (cut descriptionWidth), 0⟩).addModelTags
        (TagRow.listed (cut nameWidth name) 0 tags.eraseDups) ∧
      TagRow.ReadAs tags.eraseDups (TagRow.read (cut nameWidth name) t'.modelTags) := by
  refine (settles rfl (.createModel reached.sound)).imp fun a t' called made => ?_
  obtain ⟨m, ⟨rfl, rfl⟩, rfl⟩ := made
  obtain ⟨_, created, -⟩ := call_eq_ok_iff.mp called
  simp only [Call.operation?, Operation.succeeds_answering] at created
  obtain ⟨_, created, -⟩ := created
  obtain ⟨-, -, -, -, -, -, -, new, good, -, -⟩ := Operation.createModel_succeeds.mp created
  obtain ⟨-, noTags, -, -⟩ := reached.sound.rows_apart new
  have times : (Answer.model ⟨name, now, now, description, tags.eraseDups⟩).isReadable = now.representable := by
    rw [Bool.eq_iff_iff, isReadable_model]
    exact and_self_iff
  exact ⟨times, rfl, rfl, TagRow.read_append_listed_perm noTags, TagRow.read_append_listed_iff noTags good.distinct⟩

theorem shelf_model_settled :
    let now := Catalog.opened.clock.reading
    let t := shelf.tables
    (live t).Reached Event.KeepsCounters ∧
      (∃ t', (live t).perform? (.createModel "c" none ["x"]) now =
          some (.ok (.model ⟨"c", now, now, none, ["x"]⟩), live t') ∧ TagRow.read "c" t'.modelTags = ["x"]) ∧
      (live t).perform? (.createModel "b" none ["x"]) now = some (.error (.modelExists "b"), live t) := by
  intro now t
  have same : shelf = live t := by decide
  have reached : (live t).Reached Event.KeepsCounters := same ▸ reached_shelf
  have named : now.representable = true := by decide
  have name : cut nameWidth "c" = "c" := by decide
  have tag : ["x"].map (cut tagWidth) = ["x"] := by decide
  have free : Ground.first? (t.modelGrounds "c" none ["x"] now) = none := by decide
  have taken : Ground.first? (t.modelGrounds "b" none ["x"] now) = some (.modelExists "b") := by decide
  obtain ⟨_, t', ⟨readable, rfl, -, reads⟩, -, performed⟩ :=
    (createModel_settled reached "c" none ["x"] now).served free
  have read : TagRow.read "c" t'.modelTags = ["x"] := by
    rw [name] at reads
    exact (reads.order.mpr (by decide)).trans tag
  exact ⟨reached, ⟨t', performed.trans (if_pos (readable.trans named)), read⟩,
    (createModel_settled reached "b" none ["x"] now).refused _ taken⟩

/-- In the leap second before the first storable day a model can be created. One that is created in any leap second has
other times in its row than it is answered with, and tags past the last position are not read in their order. -/
theorem model_before_calendar :
    let early : Instant := ⟨Date.toDays ⟨-4713, 11, 24⟩ * 86400 - 1, 1500000000, by decide, by decide⟩
    let leap : Instant := ⟨1483228799, 1500000000, by decide, by decide⟩
    let noon := (Clock.showing (.ofSeconds 43200)).reading
    shelf.Reached Event.KeepsCounters ∧ early.day = ⟨-4713, 11, 23⟩ ∧
      (∃ after, shelf.perform? (.createModel "c" none []) early =
        some (.ok (.model ⟨"c", early, early, none, []⟩), after)) ∧
      (∃ after t r, shelf.perform? (.createModel "c" none []) leap =
        some (.ok (.model ⟨"c", leap, leap, none, []⟩), after) ∧ after = live t ∧ t.model? "c" = some r ∧
          r.createdAt.instant ≠ leap) ∧
      ∃ after read, Catalog.opened.database.perform? (.createModel "a" none crowd) noon =
          some (.ok (.model ⟨"a", noon, noon, none, crowd⟩), after) ∧
        after.perform? (.getModel "a") noon = some (.ok (.model ⟨"a", noon, noon, none, read⟩), after) ∧
        read ≠ crowd.map (cut tagWidth) := by
  intro early leap noon
  have created : ∃ after, shelf.perform? (.createModel "c" none []) early =
      some (.ok (.model ⟨"c", early, early, none, []⟩), after) :=
    ⟨(shelf.call (.createModel "c" none []) early).2, by decide⟩
  let after := (shelf.call (.createModel "c" none []) leap).2
  have many : 2147483648 < crowd.length := by
    rw [length_crowd]
    decide
  refine ⟨reached_shelf, by decide, created, ⟨after, after.tables, .registered "c" leap.stored none,
    by decide, by decide, by decide, by decide⟩, ?_⟩
  rw [Catalog.fresh_opened.database_eq]
  exact @order_lost crowd (.ofSeconds 43200) nodup_crowd named_crowd addable_crowd many rfl (by decide) (by decide)

end Database

end ModelCatalog
