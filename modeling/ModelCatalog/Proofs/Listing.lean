import ModelCatalog.Proofs.ReadBack
import ModelCatalog.Proofs.TextSearch

namespace ModelCatalog

open Parameter (holdsZero)

/-- Rows with keys of their own stand in strict order once they are sorted by them. -/
theorem pairwise_lt_mergeSort {ρ κ : Type} [LE κ] [LT κ] [DecidableLE κ] [Std.IsLinearOrder κ] [Std.LawfulOrderLT κ]
    {key : ρ → κ} {rows : List ρ} (unique : (rows.map key).Nodup) :
    (rows.mergeSort (key · ≤ key ·)).Pairwise (key · < key ·) := by
  have ascending : (rows.mergeSort (key · ≤ key ·)).Pairwise fun r s => decide (key r ≤ key s) = true := by
    refine List.pairwise_mergeSort (fun a b c => ?_) (fun a b => ?_) rows
    · simpa using Std.le_trans
    · simpa using Std.le_total
  have perm := List.mergeSort_perm rows fun r s => decide (key r ≤ key s)
  have distinct := List.pairwise_map.mp ((perm.map key).nodup_iff.mpr unique)
  exact (ascending.and distinct).imp fun both => Std.lt_of_le_of_ne (of_decide_eq_true both.1) both.2

namespace TagRow

variable {κ : Type} [DecidableEq κ] {owner : κ} {rows : List (TagRow κ)} {wanted : List String}

theorem count_eq_length_filter : count owner wanted rows = ((read owner rows).filter (wanted.contains ·)).length := by
  have perm := List.mergeSort_perm (rows.filter (·.owner = owner)) fun r s => decide (r.position ≤ s.position)
  calc count owner wanted rows
    _ = (rows.filter (·.owner = owner)).countP (wanted.contains ·.tag) := count_eq
    _ = ((rows.filter (·.owner = owner)).mergeSort (·.position ≤ ·.position)).countP (wanted.contains ·.tag) :=
      (perm.countP_eq _).symm
    _ = (read owner rows).countP (wanted.contains ·) := by rw [read, List.countP_map]; rfl
    _ = ((read owner rows).filter (wanted.contains ·)).length := List.countP_eq_length_filter

/-- No owner has a tag twice, and none is wanted twice, so that as many tags as are wanted are found exactly if each
wanted one is there. -/
theorem count_eq_length_iff (unique : (labels rows).Nodup) (distinct : wanted.Nodup) :
    count owner wanted rows = wanted.length ↔ ∀ tag ∈ wanted, tag ∈ read owner rows := by
  have both : ((read owner rows).filter (wanted.contains ·)).Perm (wanted.filter ((read owner rows).contains ·)) := by
    refine (List.perm_ext_iff_of_nodup ((nodup_read unique).filter _) (distinct.filter _)).mpr fun tag => ?_
    simp only [List.mem_filter, List.contains_iff_mem, and_comm]
  rw [count_eq_length_filter, both.length_eq, List.length_filter_eq_length_iff]
  simp only [List.contains_iff_mem]

end TagRow

namespace Tables.Sound

variable {t : Tables} {filter : Option String} {tags wanted : List String} {m : Model}

theorem listedModels_ascending (sound : t.Sound) : (t.listedModels filter wanted).Pairwise (·.name < ·.name) := by
  have names : ((t.models.filter fun r => filter.all (occursIn · r.name) &&
      TagRow.count r.name wanted t.modelTags = wanted.length).map (·.name)).Nodup :=
    sound.names.sublist (List.filter_sublist.map _)
  exact (pairwise_lt_mergeSort names).map _ fun _ _ => id

/-- The models that are listed are those whose name contains the text and that carry every tag that is asked for,
however often it is. -/
theorem mem_listedModels (sound : t.Sound) : m ∈ t.listedModels filter (Operation.distinct tags) ↔
    (∃ r ∈ t.models, t.modelEntry r = m) ∧ (∀ text ∈ filter, text.toList <:+: m.name.toList) ∧
      ∀ tag ∈ tags, tag ∈ m.tags := by
  have counted : ∀ r : ModelRow,
      TagRow.count r.name (Operation.distinct tags) t.modelTags = (Operation.distinct tags).length ↔
        ∀ tag ∈ tags, tag ∈ TagRow.read r.name t.modelTags := by
    intro r
    rw [TagRow.count_eq_length_iff sound.modelTags.unique (Operation.distinct_eq tags ▸ nodup_eraseDups tags),
      Operation.distinct_eq]
    simp only [List.mem_eraseDups]
  have named : ∀ r : ModelRow, filter.all (occursIn · r.name) = true ↔
      ∀ text ∈ filter, text.toList <:+: r.name.toList := by
    intro r
    cases filter <;> simp [occursIn_iff]
  simp only [Tables.listedModels, List.mem_map, List.mem_mergeSort, List.mem_filter, Bool.and_eq_true,
    decide_eq_true_eq, counted, named]
  constructor
  · rintro ⟨r, ⟨member, contains, carries⟩, rfl⟩
    exact ⟨⟨r, member, rfl⟩, contains, carries⟩
  · rintro ⟨⟨r, member, rfl⟩, contains, carries⟩
    exact ⟨r, ⟨member, contains, carries⟩, rfl⟩

end Tables.Sound

namespace Database

variable {t : Tables} {now : Instant} {filter : Option String} {tags : List String} {m : Model} {ms : List Model}
  {allowed : Event → Prop}

theorem isReadable_models :
    (Answer.models ms).isReadable = true ↔ ∀ m ∈ ms, (Answer.model m).isReadable = true := by
  simp only [Answer.isReadable, Answer.times, List.all_flatMap, List.all_eq_true]

theorem call_listModels (cleanFilter : ∀ text ∈ filter, holdsZero text = false)
    (cleanTags : ∀ tag ∈ tags, holdsZero tag = false) : (live t).call (.listModels filter tags) now =
      (.ok (.models (t.listedModels filter (Operation.distinct tags))), live t) := by
  refine call_eq_ok_iff.mpr ⟨t, ?_, rfl⟩
  refine Operation.succeeds_answering.mpr ⟨_, Operation.listModels_succeeds.mpr ⟨cleanFilter, ?_, rfl, rfl⟩, rfl⟩
  exact fun tag kept => cleanTags tag (Operation.mem_distinct kept)

theorem perform?_listModels_of_zero {text : String} (asked : text ∈ filter) (zero : holdsZero text = true) :
    (live t).perform? (.listModels filter tags) now = some (.error (.storage .zeroCharacter), live t) := by
  obtain rfl : filter = some text := asked
  have refused : given [.texts [text], .texts (Operation.distinct tags)] = .error (.storage .zeroCharacter) := by
    simp [given, Parameter.fault?, zero, refuseIf]
  have failed : Operation.attempt (Call.listModels (some text) tags).operation? now t =
      .error (.storage .zeroCharacter) := by
    rw [Call.operation?, Operation.attempt_answering, Operation.attempt_listModels, Option.toList_some, refused]
    rfl
  simp only [perform?, Database.call, answer_live_eq, failed]

/-- What is answered to a name is what a row under that name and its tags stand for. -/
theorem call_getModel_iff (sound : t.Sound) :
    (live t).call (.getModel m.name) now = (.ok (.model m), live t) ↔ ∃ r ∈ t.models, t.modelEntry r = m := by
  constructor
  · intro called
    obtain ⟨t', made, ⟨⟩⟩ := call_eq_ok_iff.mp called
    simp only [Call.operation?, Operation.succeeds_answering] at made
    obtain ⟨_, made, ⟨⟩⟩ := made
    obtain ⟨-, -, r, found, same⟩ := Operation.getModel_succeeds.mp made
    exact ⟨r, List.mem_of_find?_eq_some found, same.symm⟩
  · rintro ⟨r, member, rfl⟩
    exact call_getModel (sound.models r member).name.clean ((Tables.model?_eq_some_iff sound.names).mpr ⟨member, rfl⟩)

/-- From tables that are there, a list holds every model whose name contains the text and that carries all the tags
once, in the order of the code points of their names, and each as it is answered to its name. There is no list only if
the text has a zero character in it, or if one of the models holds a time that cannot be read back. -/
theorem models_listed_exactly (reached : (live t).Reached allowed) (filter : Option String)
    (cleanTags : ∀ tag ∈ tags, holdsZero tag = false) (now : Instant) :
    ((∃ text ∈ filter, holdsZero text = true) →
      (live t).perform? (.listModels filter tags) now = some (.error (.storage .zeroCharacter), live t)) ∧
    ((∀ text ∈ filter, holdsZero text = false) → ∃ ms : List Model,
      ms.Pairwise (fun m m' => m.name.toList < m'.name.toList) ∧
      (∀ m, m ∈ ms ↔ (live t).call (.getModel m.name) now = (.ok (.model m), live t) ∧
        (∀ text ∈ filter, text.toList <:+: m.name.toList) ∧ ∀ tag ∈ tags, tag ∈ m.tags) ∧
      ((∀ m ∈ ms, (Answer.model m).isReadable = true) →
        (live t).perform? (.listModels filter tags) now = some (.ok (.models ms), live t) ∧
        ∀ m ∈ ms, (live t).perform? (.getModel m.name) now = some (.ok (.model m), live t)) ∧
      (¬(∀ m ∈ ms, (Answer.model m).isReadable = true) →
        (live t).perform? (.listModels filter tags) now = none)) := by
  have sound : t.Sound := reached.sound
  constructor
  · rintro ⟨text, asked, zero⟩
    exact perform?_listModels_of_zero asked zero
  · intro cleanFilter
    have called := @call_listModels t now filter tags cleanFilter cleanTags
    have listed : ∀ m, m ∈ t.listedModels filter (Operation.distinct tags) ↔
        (live t).call (.getModel m.name) now = (.ok (.model m), live t) ∧
          (∀ text ∈ filter, text.toList <:+: m.name.toList) ∧ ∀ tag ∈ tags, tag ∈ m.tags := by
      intro m
      rw [call_getModel_iff sound]
      exact sound.mem_listedModels
    refine ⟨t.listedModels filter (Operation.distinct tags), sound.listedModels_ascending, listed,
      fun readable => ⟨?_, fun m member => ?_⟩, fun unreadable => ?_⟩
    · exact perform?_eq_ok_iff.mpr ⟨called, isReadable_models.mpr readable⟩
    · exact perform?_eq_ok_iff.mpr ⟨((listed m).mp member).1, readable m member⟩
    · exact perform?_of_not_readable called (Bool.eq_false_iff.mpr fun readable =>
        unreadable (isReadable_models.mp readable))

theorem shelf_listed :
    let now := Catalog.opened.clock.reading
    let t := shelf.tables
    let m : Model := ⟨"b", now, now, none, ["x"]⟩
    (live t).Reached Event.KeepsCounters ∧
      (live t).perform? (.listModels (some "b") ["x", "x"]) now = some (.ok (.models [m]), live t) ∧
      (live t).perform? (.getModel "b") now = some (.ok (.model m), live t) := by
  intro now t m
  have same : shelf = live t := by decide +kernel
  have reached : (live t).Reached Event.KeepsCounters := same ▸ reached_shelf
  have answered : (live t).perform? (.listModels (some "b") ["x", "x"]) now = some (.ok (.models [m]), live t) := by
    decide +kernel
  have cleanTags : ∀ tag ∈ ["x", "x"], holdsZero tag = false := by decide +kernel
  obtain ⟨ms, -, -, read, unread⟩ := (models_listed_exactly reached (some "b") cleanTags now).2 (by decide +kernel)
  by_cases readable : ∀ m ∈ ms, (Answer.model m).isReadable = true
  · obtain ⟨listed, each⟩ := read readable
    obtain rfl : ms = [m] := by simpa using listed.symm.trans answered
    exact ⟨reached, answered, each m List.mem_cons_self⟩
  · exact absurd (answered.symm.trans (unread readable)) nofun

/-- A model that was created in the leap second at the end of the last year is registered, but a list in which it
stands is not answered; nor is one for a text with a zero character, or one from tables that were dropped. -/
theorem unlisted :
    let last : Instant := ⟨Date.toDays ⟨Instant.greatestYear + 1, 1, 1⟩ * 86400 - 1, 1500000000, by decide, by decide⟩
    let db := (Catalog.opened.steps [.setClock last, .call (.createModel "a" none [])]).2.database
    let now := Catalog.opened.clock.reading
    db.Reached Event.KeepsCounters ∧ (∃ m, db.call (.getModel "a") now = (.ok (.model m), db)) ∧
      db.perform? (.listModels none []) now = none ∧
      db.perform? (.listModels (some "\x00") []) now = some (.error (.storage .zeroCharacter), db) ∧
      dropped.Reached Event.KeepsCounters ∧
      dropped.perform? (.listModels none []) now = some (.error (.storage (.missingRelation .models)), dropped) := by
  intro last db now
  have reached : db.Reached Event.KeepsCounters :=
    ⟨Catalog.opened, _, Catalog.fresh_opened, by simp [Event.KeepsCounters], rfl⟩
  have gone : dropped.Reached Event.KeepsCounters :=
    ⟨⟨some "registry", .showing (.ofSeconds 0), live .empty⟩, [.dropSchema (some "registry")],
      show Database.ensure (some "registry") dropped = .ok (live .empty) by decide +kernel,
      by simp [Event.KeepsCounters], by decide +kernel⟩
  refine ⟨reached, ⟨⟨"a", last.folded, last.folded, none, []⟩, by decide +kernel⟩, by decide +kernel, ?_, gone, rfl⟩
  decide +kernel

end Database

end ModelCatalog
