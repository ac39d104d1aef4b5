import ModelCatalog.Proofs.Agreement
import ModelCatalog.Proofs.ReadBack
import ModelCatalog.Proofs.RefusalOrder

namespace ModelCatalog

open Operation (attempt)
open Parameter (holdsZero)

/-- The grounds to refuse another name for a model. Whether the new name is taken is looked up as it was given, and once
more as it is stored. -/
def Tables.renameGrounds (t : Tables) (name newName : String) (now : Instant) : List Ground :=
  [⟨newName = "", .argument .emptyModelName⟩,
    ⟨newName = name, .argument (.sameModelName name)⟩,
    ⟨holdsZero name, .storage .zeroCharacter⟩,
    ⟨!t.hasModel name, .modelNotFound name⟩,
    ⟨holdsZero newName, .storage .zeroCharacter⟩,
    ⟨t.hasModel newName, .modelExists newName⟩,
    ⟨now.isEarly, .storage .timeOutOfRange⟩,
    ⟨!fits nameWidth newName, .argument (.tooLong nameWidth)⟩,
    ⟨cut nameWidth newName ≠ newName && cut nameWidth newName ≠ name && t.hasModel (cut nameWidth newName),
      .modelExists newName⟩,
    ⟨cut nameWidth newName ≠ newName, .modelNotFound newName⟩]

variable {t : Tables} {name newName : String} {now : Instant}

theorem Governs.renameModel (sound : t.Sound) :
    Governs (t.renameGrounds name newName now) (attempt (Operation.renameModel name newName) now t) fun (m, t') =>
      ∃ r, t.model? name = some r ∧ newName ∉ t.names ∧
        m = { t.modelEntry r with name := newName, updatedAt := now.stored.instant } ∧
        t' = t.renamed name newName now.stored := by
  rw [Operation.attempt_renameModel sound]
  have differ : decide (newName = name) = !decide (name ≠ newName) := by simp [eq_comm]
  refine check requireModelName fun _ _ => check (demand differ) fun _ _ => check text fun _ _ =>
    check (expect Operation.isNone_model?.symm) fun r known => check text fun _ _ =>
    check (demand (Bool.not_not _).symm) fun _ free => check time fun _ _ => check fit fun stored room => ?_
  have found := expect_eq_ok.mp known
  have new : newName ∉ t.names := by simpa using free
  obtain ⟨-, rfl⟩ := fit_ok.mp room
  -- A name that is not cut has been looked up already.
  have taken : (decide (cut nameWidth newName ≠ newName) && decide (cut nameWidth newName ≠ name) &&
      t.hasModel (cut nameWidth newName)) =
      !(decide (cut nameWidth newName = name) || !t.hasModel (cut nameWidth newName)) := by
    by_cases uncut : cut nameWidth newName = newName
    · simp [uncut, new]
    · simp [uncut]
  refine check (demand taken) fun _ _ => last (demand (by simp)) fun _ _ => ?_
  have entry : (({ r with name := newName, updatedAt := now.stored } : ModelRow).entry (TagRow.read name t.modelTags)) =
      { t.modelEntry r with name := newName, updatedAt := now.stored.instant } := by
    rw [Tables.modelEntry, Tables.name_of_model? found]
    rfl
  exact ⟨_, rfl, r, found, new, entry, rfl⟩

namespace Database

variable {allowed : Event → Prop}

/-- Another name for a model is refused on the first ground that holds. If none holds, the model has just that name,
which no model had before, and no other model is touched. -/
theorem renameModel_settled (reached : (live t).Reached allowed) (name newName : String) (now : Instant) :
    Settles t (.renameModel name newName) now (t.renameGrounds name newName now) fun a t' =>
      newName ∉ t.names ∧ t'.names = t.names.map (ModelTags.moved name newName) ∧ t'.Agree {name, newName}ᶜ t ∧
      t' = t.renamed name newName now.stored ∧
      ∃ m, (live t).call (.getModel name) now = (.ok (.model m), live t) ∧
        a = .model { m with name := newName, updatedAt := now.stored.instant } ∧
        a.isReadable = (m.createdAt.representable && now.stored.instant.representable) := by
  refine (settles rfl (.renameModel reached.sound)).imp fun a t' _ made => ?_
  obtain ⟨_, ⟨r, found, new, rfl, rfl⟩, rfl⟩ := made
  have clean := (reached.sound.stored_name (Tables.mem_names_of_model? found)).clean
  have times : (Answer.model { t.modelEntry r with name := newName, updatedAt := now.stored.instant }).isReadable =
      ((t.modelEntry r).createdAt.representable && now.stored.instant.representable) := by
    rw [Bool.eq_iff_iff, isReadable_model, Bool.and_eq_true]
  exact ⟨new, Tables.names_renamed, .of_renamed (by simp) (by simp), rfl, t.modelEntry r, call_getModel clean found,
    rfl, times⟩

theorem shelf_rename_settled :
    let now := Catalog.opened.clock.reading
    let t := shelf.tables
    (live t).Reached Event.KeepsCounters ∧
      (∃ m t', (live t).perform? (.renameModel "b" "c") now = some (.ok (.model m), live t') ∧
        m.name = "c" ∧ m.updatedAt = now ∧ t'.names = ["a", "c"]) ∧
      (live t).perform? (.renameModel "b" "a") now = some (.error (.modelExists "a"), live t) := by
  intro now t
  have same : shelf = live t := by decide
  have reached : (live t).Reached Event.KeepsCounters := same ▸ reached_shelf
  have free : Ground.first? (t.renameGrounds "b" "c" now) = none := by decide
  have taken : Ground.first? (t.renameGrounds "b" "a" now) = some (.modelExists "a") := by decide
  have before : t.names.map (ModelTags.moved "b" "c") = ["a", "c"] := by decide
  have whole : now.stored.instant = now := by decide
  have named : now.representable = true := by decide
  have row : t.model? "b" = some ⟨"b", now.stored, now.stored, none, 0⟩ := by decide
  obtain ⟨_, t', ⟨-, names, -, -, m, found, rfl, readable⟩, -, performed⟩ :=
    (renameModel_settled reached "b" "c" now).served free
  cases found.symm.trans (call_getModel (by decide) row)
  have times : (now.stored.instant.representable && now.stored.instant.representable) = true := by
    rw [whole, named]
    rfl
  exact ⟨reached, ⟨_, t', performed.trans (if_pos (readable.trans times)), rfl, whole, names.trans before⟩,
    (renameModel_settled reached "b" "a" now).refused _ taken⟩

/-- In the leap second before the first storable day a model can be given another name. One whose times cannot be read
back cannot, although nothing stands against it. -/
theorem rename_before_calendar :
    let early : Instant := ⟨Date.toDays ⟨-4713, 11, 24⟩ * 86400 - 1, 1500000000, by decide, by decide⟩
    let last : Instant := ⟨Date.toDays ⟨Instant.greatestYear + 1, 1, 1⟩ * 86400 - 1, 1500000000, by decide, by decide⟩
    let now := Catalog.opened.clock.reading
    let late := (Catalog.opened.steps [.setClock last, .call (.createModel "a" none [])]).2.database
    shelf.Reached Event.KeepsCounters ∧ early.day = ⟨-4713, 11, 23⟩ ∧
      (∃ m after, shelf.perform? (.renameModel "b" "c") early = some (.ok (.model m), after)) ∧
      late.Reached Event.KeepsCounters ∧ late.tables.hasModel "a" = true ∧
      Ground.first? (late.tables.renameGrounds "a" "c" now) = none ∧
      late.perform? (.renameModel "a" "c") now = none := by
  intro early last now late
  have reached : late.Reached Event.KeepsCounters :=
    ⟨Catalog.opened, _, Catalog.fresh_opened, by simp [Event.KeepsCounters], rfl⟩
  refine ⟨reached_shelf, by decide,
    ⟨⟨"c", now, early.folded, none, ["x"]⟩, (shelf.call (.renameModel "b" "c") early).2, by decide +kernel⟩,
    reached, by decide, by decide, by decide +kernel⟩

end Database

end ModelCatalog
