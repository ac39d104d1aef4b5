import ModelCatalog.Catalog.Call
import ModelCatalog.Proofs.StatementRun

namespace ModelCatalog.Operation

open Parameter (holdsZero)

variable {α β : Type} {t t' : Tables} {name newName tag text : String} {key : VersionKey} {now : Instant}

/-- An operation whose arguments are accepted runs on the tables without an error. -/
def Succeeds (operation : Except CatalogError (Operation α)) (now : Instant) (t : Tables) (a : α)
    (t' : Tables) : Prop :=
  ∃ run, operation = .ok run ∧ (run now).on t = .ok (a, t')

theorem succeeds_ok {run : Operation α} {a : α} :
    Succeeds (.ok run) now t a t' ↔ (run now).on t = .ok (a, t') := by
  simp only [Succeeds, Except.ok.injEq, exists_eq_left']

theorem succeeds_pure {run : Operation α} {a : α} :
    Succeeds (pure run) now t a t' ↔ (run now).on t = .ok (a, t') :=
  succeeds_ok

theorem succeeds_bind {x : Except CatalogError β} {f : β → Except CatalogError (Operation α)} {a : α} :
    Succeeds (x >>= f) now t a t' ↔ ∃ b, x = .ok b ∧ Succeeds (f b) now t a t' := by
  simp only [Succeeds, bind_eq_ok]
  constructor
  · intro done
    obtain ⟨run, ⟨b, check, same⟩, done⟩ := done
    exact ⟨b, check, run, same, done⟩
  · intro done
    obtain ⟨b, check, run, same, done⟩ := done
    exact ⟨run, ⟨b, check, same⟩, done⟩

theorem succeeds_map {x : Except CatalogError β} {f : β → Operation α} {a : α} :
    Succeeds (f <$> x) now t a t' ↔ ∃ b, x = .ok b ∧ (f b now).on t = .ok (a, t') := by
  rw [← bind_pure_comp, succeeds_bind]
  simp only [succeeds_pure]

theorem succeeds_answering {f : α → Answer} {operation : Except CatalogError (Operation α)} {a : Answer} :
    Succeeds (answering f operation) now t a t' ↔ ∃ b, Succeeds operation now t b t' ∧ a = f b := by
  cases operation with
  | error e => simp [Succeeds, answering]
  | ok run => simp [answering, succeeds_ok]

@[simp] theorem requireModelName_ok {u : Unit} : requireModelName name = .ok u ↔ name ≠ "" := by
  simp [requireModelName]

@[simp] theorem requireTag_ok {u : Unit} : requireTag tag = .ok u ↔ tag ≠ "" := by
  simp [requireTag]

theorem creationTags_go_ok {seen tags l : List String} :
    creationTags.go seen tags = .ok l ↔
      (∀ tag ∈ tags, tag ≠ "") ∧ l = (tags.filter (· ∉ seen)).eraseDups := by
  induction tags generalizing seen l with
  | nil =>
    constructor
    · intro done
      obtain ⟨⟩ := done
      exact ⟨nofun, rfl⟩
    · intro done
      obtain ⟨-, rfl⟩ := done
      rfl
  | cons tag rest ih =>
    simp only [creationTags.go, bind_eq_ok, requireTag_ok, exists_const, List.forall_mem_cons, and_assoc]
    by_cases old : tag ∈ seen
    · simp [old, ih]
    · have later : rest.filter (· ∉ tag :: seen) = (rest.filter (· ∉ seen)).filter (fun s => !s == tag) := by
        rw [List.filter_filter]
        exact List.filter_congr fun s _ => by simp [Bool.beq_eq_decide_eq]
      simp only [List.elem_eq_mem, old, decide_false, Bool.false_eq_true, if_false, bind_eq_ok, ih, later,
        pure_eq_ok, not_false_eq_true, decide_true, List.filter_cons_of_pos, List.eraseDups_cons, and_assoc,
        exists_and_left, exists_eq_left]

/-- The tags of a new entry are its given tags at their first occurrences. -/
theorem creationTags_ok {tags l : List String} :
    creationTags tags = .ok l ↔ (∀ tag ∈ tags, tag ≠ "") ∧ l = tags.eraseDups := by
  simp [creationTags, creationTags_go_ok]

theorem unlessTaken_on {run : Transaction α} : (unlessTaken newName run).on t =
    match run.on t with
    | .error (.storage (.duplicate _)) => .error (.modelExists newName)
    | result => result := by
  unfold Transaction.on unlessTaken
  cases run true t with
  | ok a s => rfl
  | error e s =>
    cases e with
    | storage fault => cases fault <;> rfl
    | _ => rfl

theorem unlessTaken_ok {run : Transaction α} {a : α} :
    (unlessTaken newName run).on t = .ok (a, t') ↔ run.on t = .ok (a, t') := by
  rw [unlessTaken_on]
  split <;> simp_all

@[simp] theorem fetchModel_ok {m : Model} :
    (fetchModel name).on t = .ok (m, t') ↔
      holdsZero name = false ∧ t' = t ∧ ∃ r, t'.model? name = some r ∧ m = t'.modelEntry r := by
  simp [fetchModel, and_assoc]
  intro _
  constructor
  · intro done
    obtain ⟨r, found, rfl, rfl⟩ := done
    exact ⟨rfl, r, found, rfl⟩
  · intro done
    obtain ⟨rfl, r, found, rfl⟩ := done
    exact ⟨r, found, rfl, rfl⟩

@[simp] theorem fetchVersion_ok {v : Version} :
    (fetchVersion key).on t = .ok (v, t') ↔
      holdsZero key.model = false ∧ t' = t ∧ ∃ r, t'.version? key = some r ∧ v = t'.versionEntry r := by
  simp [fetchVersion, and_assoc]
  intro _
  constructor
  · intro done
    obtain ⟨r, found, rfl, rfl⟩ := done
    exact ⟨rfl, r, found, rfl⟩
  · intro done
    obtain ⟨rfl, r, found, rfl⟩ := done
    exact ⟨r, found, rfl, rfl⟩

attribute [local simp] succeeds_ok succeeds_pure succeeds_bind succeeds_map creationTags_ok unlessTaken_ok
  and_assoc

theorem createModel_succeeds {description : Option String} {tags : List String} {m : Model} :
    Succeeds (createModel name description tags) now t m t' ↔
      name ≠ "" ∧ (∀ tag ∈ tags, tag ≠ "") ∧ holdsZero name = false ∧ now.stored.isStorable = true ∧
      (∀ d ∈ description, holdsZero d = false) ∧ fits nameWidth name = true ∧
      (∀ d ∈ description, fits descriptionWidth d = true) ∧ cut nameWidth name ∉ t.names ∧
      TagRow.Addable (cut nameWidth name) t.modelTags tags.eraseDups ∧
      t' = (t.addModel (.registered name now.stored description)).addModelTags
        (TagRow.listed (cut nameWidth name) 0 tags.eraseDups) ∧
      m = ⟨name, now, now, description, tags.eraseDups⟩ := by
  simp +contextual [createModel]

theorem getModel_succeeds {m : Model} :
    Succeeds (getModel name) now t m t' ↔
      holdsZero name = false ∧ t' = t ∧ ∃ r, t'.model? name = some r ∧ m = t'.modelEntry r := by
  simp [getModel]

theorem describeModel_succeeds {m : Model} :
    Succeeds (describeModel name text) now t m t' ↔
      holdsZero name = false ∧ holdsZero text = false ∧ now.stored.isStorable = true ∧
      fits descriptionWidth text = true ∧ name ∈ t.names ∧ t' = t.describeModel name text now.stored ∧
      ∃ r, t'.model? name = some r ∧ m = t'.modelEntry r := by
  simp +contextual [describeModel]

theorem deleteModel_succeeds {u : Unit} :
    Succeeds (deleteModel name) now t u t' ↔
      holdsZero name = false ∧ name ∈ t.names ∧ t' = t.withoutModel name := by
  simp +contextual [deleteModel, Tables.withoutModel]
  rintro _ _ rfl r _ rfl s _ other same
  exact other (congrArg VersionKey.model same)

theorem tagModel_succeeds {u : Unit} :
    Succeeds (tagModel name tag) now t u t' ↔
      tag ≠ "" ∧ holdsZero name = false ∧ name ∈ t.names ∧ holdsZero tag = false ∧
      Range.signed32.has (TagRow.front name t.modelTags) = true ∧
      fits nameWidth name = true ∧ fits tagWidth tag = true ∧
      ((cut nameWidth name, cut tagWidth tag) ∈ TagRow.labels t.modelTags ∧ t' = t ∨
        (cut nameWidth name, cut tagWidth tag) ∉ TagRow.labels t.modelTags ∧ cut nameWidth name ∈ t.names ∧
        now.stored.isStorable = true ∧ t' = (t.addModelTags
          [⟨cut nameWidth name, cut tagWidth tag, TagRow.front name t.modelTags⟩]).touchModel name
          now.stored) := by
  simp +contextual [tagModel]

theorem untagModel_succeeds {u : Unit} :
    Succeeds (untagModel name tag) now t u t' ↔
      tag ≠ "" ∧ holdsZero name = false ∧ name ∈ t.names ∧ holdsZero tag = false ∧
      (name, tag) ∈ TagRow.labels t.modelTags ∧ now.stored.isStorable = true ∧
      t' = (t.removeModelTag name tag).touchModel name now.stored := by
  simp +contextual [untagModel]

theorem createVersion_succeeds {draft : VersionDraft} {v : Version} :
    Succeeds (createVersion name draft) now t v t' ↔
      (∀ tag ∈ draft.tags, tag ≠ "") ∧ holdsZero name = false ∧ now.stored.isStorable = true ∧
      ∃ r, t.model? name = some r ∧ Range.signed32.has (r.counter + 1) = true ∧
      holdsZero draft.id = false ∧ holdsZero draft.user = false ∧
      holdsZero draft.experiment = false ∧ holdsZero draft.modelType = false ∧
      (∀ d ∈ draft.description, holdsZero d = false) ∧
      fits nameWidth name = true ∧ fits labelWidth draft.id = true ∧
      fits labelWidth draft.user = true ∧ fits labelWidth draft.experiment = true ∧
      fits labelWidth draft.modelType = true ∧
      (∀ d ∈ draft.description, fits descriptionWidth d = true) ∧
      (VersionKey.mk name (r.counter + 1)).stored ∉ t.keys ∧ cut nameWidth name ∈ t.names ∧
      TagRow.Addable (VersionKey.mk name (r.counter + 1)).stored t.versionTags draft.tags.eraseDups ∧
      t' = ((t.countVersion name now.stored).addVersion
        (.drafted ⟨name, r.counter + 1⟩ draft now.stored)).addVersionTags
        (TagRow.listed (VersionKey.mk name (r.counter + 1)).stored 0 draft.tags.eraseDups) ∧
      v = ⟨name, r.counter + 1, draft.id, draft.user, draft.experiment, draft.modelType, .initial, now, now,
        none, draft.description, draft.tags.eraseDups⟩ := by
  simp +contextual [createVersion]
  intro _ _ _
  apply exists_congr
  intro r
  simp +contextual

theorem renameModel_succeeds {m : Model} :
    Succeeds (renameModel name newName) now t m t' ↔
      newName ≠ "" ∧ name ≠ newName ∧ holdsZero name = false ∧ name ∈ t.names ∧
      holdsZero newName = false ∧ newName ∉ t.names ∧ now.stored.isStorable = true ∧
      fits nameWidth newName = true ∧
      (∀ r ∈ t.models, r.name ≠ name → r.name ≠ cut nameWidth newName) ∧
      TagRow.clash? (ModelTags.moved name (cut nameWidth newName)) t.modelTags = none ∧
      (∀ r ∈ t.versions, Versions.moved name (cut nameWidth newName) r.key ≠ r.key →
        Versions.moved name (cut nameWidth newName) r.key ∉ t.keys) ∧
      TagRow.clash? (Versions.moved name (cut nameWidth newName)) t.versionTags = none ∧
      t' = t.renamed name (cut nameWidth newName) now.stored ∧ t'.dangling? = none ∧
      ∃ r, t'.model? newName = some r ∧ m = t'.modelEntry r := by
  simp +contextual [renameModel, checkReferences, Tables.renamed]
  intro _ _ _ _ _ _ _ _ _ _ _ _
  constructor
  · intro done
    obtain ⟨r, found, whole, rfl, rfl⟩ := done
    exact ⟨rfl, whole, r, found, rfl⟩
  · intro done
    obtain ⟨rfl, whole, r, found, rfl⟩ := done
    exact ⟨r, found, whole, rfl, rfl⟩

theorem getVersion_succeeds {v : Version} :
    Succeeds (getVersion key) now t v t' ↔
      holdsZero key.model = false ∧ t' = t ∧ ∃ r, t'.version? key = some r ∧ v = t'.versionEntry r := by
  simp [getVersion]

theorem describeVersion_succeeds {v : Version} :
    Succeeds (describeVersion key text) now t v t' ↔
      holdsZero key.model = false ∧ holdsZero text = false ∧ now.stored.isStorable = true ∧
      fits descriptionWidth text = true ∧ key ∈ t.keys ∧ key.model ∈ t.names ∧
      t' = (t.describeVersion key text now.stored).touchModel key.model now.stored ∧
      ∃ r, t'.version? key = some r ∧ v = t'.versionEntry r := by
  simp +contextual [describeVersion]

theorem moveVersion_succeeds {v : Version} :
    Succeeds (moveVersion key text) now t v t' ↔ ∃ stage, Stage.ofText? text = some stage ∧
      holdsZero key.model = false ∧ now.stored.isStorable = true ∧ key ∈ t.keys ∧ key.model ∈ t.names ∧
      t' = (t.moveVersion key stage now.stored).touchModel key.model now.stored ∧
      ∃ r, t'.version? key = some r ∧ v = t'.versionEntry r := by
  simp [moveVersion, stageOf]
  apply exists_congr
  intro stage
  simp +contextual

theorem deleteVersion_succeeds {u : Unit} :
    Succeeds (deleteVersion key) now t u t' ↔
      holdsZero key.model = false ∧ key ∈ t.keys ∧ now.stored.isStorable = true ∧ key.model ∈ t.names ∧
      t' = (t.withoutVersion key).touchModel key.model now.stored := by
  simp +contextual [deleteVersion, Tables.withoutVersion]
  exact fun _ _ _ _ => Iff.rfl

theorem tagVersion_succeeds {u : Unit} :
    Succeeds (tagVersion key tag) now t u t' ↔
      tag ≠ "" ∧ holdsZero key.model = false ∧ key ∈ t.keys ∧ holdsZero tag = false ∧
      Range.signed32.has (TagRow.front key t.versionTags) = true ∧
      fits nameWidth key.model = true ∧ fits tagWidth tag = true ∧
      ((key.stored, cut tagWidth tag) ∈ TagRow.labels t.versionTags ∧ t' = t ∨
        (key.stored, cut tagWidth tag) ∉ TagRow.labels t.versionTags ∧ key.stored ∈ t.keys ∧
        now.stored.isStorable = true ∧ key.model ∈ t.names ∧ t' = ((t.addVersionTags
          [⟨key.stored, cut tagWidth tag, TagRow.front key t.versionTags⟩]).touchVersion key
          now.stored).touchModel key.model now.stored) := by
  simp +contextual [tagVersion]

theorem untagVersion_succeeds {u : Unit} :
    Succeeds (untagVersion key tag) now t u t' ↔
      tag ≠ "" ∧ holdsZero key.model = false ∧ key ∈ t.keys ∧ holdsZero tag = false ∧
      (key, tag) ∈ TagRow.labels t.versionTags ∧ now.stored.isStorable = true ∧ key.model ∈ t.names ∧
      t' = ((t.removeVersionTag key tag).touchVersion key now.stored).touchModel key.model now.stored := by
  simp +contextual [untagVersion]

theorem versionUri_succeeds {uri : String} :
    Succeeds (versionUri key) now t uri t' ↔
      holdsZero key.model = false ∧ t' = t ∧
      ∃ r, t.version? key = some r ∧ uri = artifactUri r.id key.model key.number := by
  simp [versionUri, and_left_comm (b := t' = t)]

theorem listModels_succeeds {filter : Option String} {tags : List String} {ms : List Model} :
    Succeeds (listModels filter tags) now t ms t' ↔
      (∀ s ∈ filter, holdsZero s = false) ∧ (∀ s ∈ distinct tags, holdsZero s = false) ∧ t' = t ∧
      ms = ((t.models.filter fun r => filter.all (occursIn · r.name) &&
        TagRow.count r.name (distinct tags) t.modelTags = (distinct tags).length).mergeSort
          (·.name ≤ ·.name)).map t.modelEntry := by
  simp [listModels]

theorem listVersions_succeeds {tags : List String} {vs : List Version} :
    Succeeds (listVersions name tags) now t vs t' ↔
      holdsZero name = false ∧ (∀ s ∈ distinct tags, holdsZero s = false) ∧ t' = t ∧
      vs = ((t.versions.filter fun r => r.key.model = name &&
        TagRow.count r.key (distinct tags) t.versionTags = (distinct tags).length).mergeSort
          (·.key.number ≤ ·.key.number)).map t.versionEntry := by
  simp [listVersions]

end ModelCatalog.Operation
