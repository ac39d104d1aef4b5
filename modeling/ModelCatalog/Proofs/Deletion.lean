import ModelCatalog.Proofs.AlikeSessions
import ModelCatalog.Proofs.Creation
import ModelCatalog.Proofs.MissingModels
import ModelCatalog.Proofs.Numbering

namespace ModelCatalog

open Parameter (holdsZero)

/-- What gives a model a name: to create the model, or to rename it. -/
def Brings (name : String) : Event × Response → Prop
  | (.call (.createModel given ..), some (.ok _)) => cut nameWidth given = name
  | (.call (.renameModel _ newName), some (.ok _)) => newName = name
  | _ => False

/-- The account of the name that a model has, for as long as it is there. -/
def Ledger.currentName : Ledger (Option String) where
  blank := none
  note current
    | .renameModel name newName, _ => if current = some name then some newName else current
    | .deleteModel name, _ => if current = some name then none else current
    | _, _ => current

namespace Tables

variable {t t' : Tables} {name : String} {now : Timestamp}

theorem Edit.notMem_names {call : Call} {a : Answer} (edit : t.Edit now call a t') (free : name ∉ t.names)
    (kept : ¬Brings name (.call call, some (.ok (.answer a)))) : name ∉ t'.names := by
  cases edit with
  | read | tagModelAgain | tagVersionAgain => exact free
  | createModel row new =>
    rw [names_addModelTags, names_addModel, List.mem_append, List.mem_singleton]
    exact fun there => there.elim free fun same => kept same.symm
  | @renameModel old newName a there new =>
    rw [names_renamed, List.mem_map]
    intro moved
    obtain ⟨other, before, same⟩ := moved
    unfold ModelTags.moved at same
    split at same
    · exact kept same
    · exact free (same ▸ before)
  | deleteModel =>
    rw [names_withoutModel]
    exact fun there => free (List.mem_of_mem_filter there)
  | _ => simpa using free

theorem Turn.notMem_names {now : Instant} {e : Event} {r : Reply} (sound : t.Sound) (turn : t.Turn now e r t')
    (free : name ∉ t.names) (kept : ¬Brings name (e, some (.ok r))) : name ∉ t'.names := by
  cases turn with
  | call done => exact (sound.edit done).notMem_names free kept
  | dataset done =>
    obtain ⟨-, -, -, rfl, -⟩ := Versions.setDataset_ok.mp done
    exact free
  | counter done =>
    obtain ⟨-, rfl, -⟩ := Models.setCounter_ok.mp done
    rw [names_writeCounter]
    exact free

end Tables

/-- A name that is free stays free until a model gets it. -/
theorem Catalog.notMem_names_steps {c : Catalog} {events : List Event} {name : String}
    (sound : c.database.tables.Sound) (free : name ∉ c.database.tables.names)
    (kept : ∀ entry ∈ c.history events, ¬Brings name entry) :
    (c.steps events).2.database.tables.Sound ∧ name ∉ (c.steps events).2.database.tables.names := by
  have nothing : Ledger Unit := ⟨(), fun _ _ _ => ()⟩
  exact nothing.foldl_history (s := ()) _ (fun _ t => t.Sound ∧ name ∉ t.names) (fun entry => ¬Brings name entry)
    ⟨.empty, List.not_mem_nil⟩
    (fun kept ⟨sound, free⟩ turn => ⟨sound.afterTurn turn, turn.notMem_names sound free kept⟩) rfl kept ⟨sound, free⟩

/-- A name that no model has is free in every place where it would be stored. -/
theorem Tables.Sound.agree_of_free {t t' : Tables} {name : String} (sound : t.Sound) (sound' : t'.Sound)
    (free : name ∉ t.names) (free' : name ∉ t'.names) : t.Agree {other | address other = name} t' := by
  have none : ∀ {s : Tables}, s.Sound → name ∉ s.names → s.Agree {other | address other = name} .empty := by
    intro s sound free
    refine .of_free sound fun other same there => free ?_
    have own : address other = other := address_of_narrow (sound.stored_name there).narrow
    rwa [← same, own]
  exact (none sound free).trans (none sound' free').symm

/-- A database that holds nothing of a model: what needs the model does not find it, a model that gets the name
starts from nothing, and all that is done under the name goes as where there never was such a model. -/
structure Database.Forgotten (name : String) (db : Database) : Prop where
  missing : ∀ call now, call.needs? = some name → call.WellFormed → now.stored.isStorable = true →
    ∃ e, db.Refuses call now e ∧ e.kind = .notFound
  noVersions : ∀ wanted now, (∀ tag ∈ wanted, holdsZero tag = false) →
    db.Answers (.listVersions name wanted) now (.versions []) db
  recreated : ∀ given description tags now a after, cut nameWidth given = name →
    db.call (.createModel given description tags) now = (.ok a, after) → after.Newborn name tags
  asNew : ∀ (other : Tables) schema clock events, other.Sound → name ∉ other.names →
    (∀ e ∈ events, e.reach ⊆ {m | address m = name}) →
      (Catalog.steps ⟨schema, clock, db⟩ events).1 = (Catalog.steps ⟨schema, clock, .live other⟩ events).1

theorem Database.forgotten_of_free {t : Tables} {name : String} (sound : t.Sound) (free : name ∉ t.names)
    (clean : holdsZero name = false) : (live t).Forgotten name where
  missing := by
    intro call now needs formed timely
    obtain ⟨e, failed, kind⟩ := call.missing sound free needs formed timely
    refine ⟨e, refuses_of_call ?_, kind⟩
    rw [Database.call, answer_live_eq, failed]
  noVersions := by
    intro wanted now cleanTags
    refine answers_of_read rfl ?_
    rw [listVersions_live clean fun tag kept => cleanTags tag (Operation.mem_distinct kept),
      sound.listedVersions_eq_nil free]
  recreated := by
    intro given description tags now a after same done
    exact same ▸ newborn_of_createModel sound done
  asNew := by
    intro other schema clock events sound' free' within
    have agree := sound.agree_of_free sound' free free'
    exact (Catalog.Agree.ofDatabases (.live sound sound' agree)).steps within

/-- The model that had a name at some point of a session still has a counter of at least some number, under
whatever name it goes by then. -/
def Tables.Reaches (number : Int) (current : Option String) (t : Tables) : Prop :=
  ∀ name ∈ current, ∃ n, t.counters name = some n ∧ number ≤ n

namespace Tables.Reaches

variable {number : Int} {current : Option String} {t t' : Tables} {name : String}

theorem mem_names_of_counters {n : Int} (found : t.counters name = some n) : name ∈ t.names := by
  obtain ⟨r, there, -⟩ := Option.map_eq_some_iff.mp found
  exact mem_names_of_model? there

theorem of_counters (reaches : t.Reaches number current) (same : t'.counters = t.counters) :
    t'.Reaches number current := by
  intro name meant
  rw [same]
  exact reaches name meant

theorem afterEdit {now : Timestamp} {call : Call} {a : Answer} (reaches : t.Reaches number current)
    (edit : t.Edit now call a t') : t'.Reaches number (Ledger.currentName.note current call a) := by
  cases edit with
  | @read call a reads =>
    cases call with
    | getModel | getVersion | versionUri | listModels | listVersions => exact reaches
    | _ => exact absurd reads nofun
  | tagModelAgain | tagVersionAgain => exact reaches
  | @createModel given description tags a row new =>
    intro name meant
    obtain ⟨n, found, reached⟩ := reaches name meant
    have apart : name ≠ cut nameWidth given := fun same => new (same ▸ mem_names_of_counters found)
    refine ⟨n, ?_, reached⟩
    change (t.addModel _).counters name = some n
    rw [counters_addModel new, ModelRow.registered_name, Function.update_of_ne apart, found]
  | @renameModel old newName a there new =>
    change (t.renamed old newName now).Reaches number (if current = some old then some newName else current)
    have differ : newName ≠ old := fun same => new (same ▸ there)
    split
    · rename_i here
      obtain ⟨n, found, reached⟩ := reaches old here
      intro name same
      obtain rfl : newName = name := Option.some.inj same
      refine ⟨n, ?_, reached⟩
      rw [counters_renamed new there, Function.update_of_ne differ, Function.update_self, found]
    · rename_i away
      intro name meant
      obtain ⟨n, found, reached⟩ := reaches name meant
      have apart : name ≠ newName := fun same => new (same ▸ mem_names_of_counters found)
      have apart' : name ≠ old := fun same => away (same ▸ meant)
      refine ⟨n, ?_, reached⟩
      rw [counters_renamed new there, Function.update_of_ne apart', Function.update_of_ne apart, found]
  | @deleteModel gone a there =>
    change (t.withoutModel gone).Reaches number (if current = some gone then none else current)
    split
    · exact nofun
    · rename_i away
      intro name meant
      obtain ⟨n, found, reached⟩ := reaches name meant
      have apart : name ≠ gone := fun same => away (same ▸ meant)
      refine ⟨n, ?_, reached⟩
      rw [counters_withoutModel, Function.update_of_ne apart, found]
  | @createVersion counted draft r v member named =>
    intro name meant
    obtain ⟨n, found, reached⟩ := reaches name meant
    change ∃ n, (t.countVersion counted now).counters name = some n ∧ number ≤ n
    rw [counters_countVersion]
    by_cases same : name = counted
    · subst same
      rw [Function.update_self, found]
      exact ⟨n + 1, rfl, by omega⟩
    · rw [Function.update_of_ne same]
      exact ⟨n, found, reached⟩
  | describeModel => exact reaches.of_counters counters_describeModel
  | tagModel | untagModel | describeVersion | moveVersion | deleteVersion | tagVersion | untagVersion =>
    exact reaches.of_counters counters_touchModel

theorem afterTurn {now : Instant} {e : Event} {r : Reply} {home : String} (sound : t.Sound) (reaches : t.Reaches number current)
    (kept : e.KeepsCounters) (turn : t.Turn now e r t') :
    t'.Reaches number (Ledger.currentName.next home current (e, some (.ok r))) := by
  cases turn with
  | call done => exact reaches.afterEdit (sound.edit done)
  | dataset done =>
    obtain ⟨-, -, -, rfl, -⟩ := Versions.setDataset_ok.mp done
    exact reaches
  | counter => exact kept.elim

end Tables.Reaches

theorem Catalog.reaches_steps {c : Catalog} {events : List Event} {number : Int} {current : Option String}
    (sound : c.database.tables.Sound) (reaches : c.database.tables.Reaches number current)
    (kept : ∀ e ∈ events, e.KeepsCounters) :
    (c.steps events).2.database.tables.Sound ∧ (c.steps events).2.database.tables.Reaches number
      ((c.history events).foldl (Ledger.currentName.next (homeSchema c.schema)) current) := by
  refine Ledger.currentName.foldl_history _ (fun current t => t.Sound ∧ t.Reaches number current)
    (fun entry => entry.1.KeepsCounters) ⟨.empty, nofun⟩
    (fun kept ⟨sound, reaches⟩ turn => ⟨sound.afterTurn turn, reaches.afterTurn sound kept turn⟩)
    rfl (fun entry there => kept entry.1 (List.of_mem_zip there).1) ⟨sound, reaches⟩

namespace Database

/-- A database next to the one that comes of deleting a model. -/
structure ModelDeleted (name : String) (db after : Database) : Prop where
  rows : after = .live {
    models := db.tables.models.filter (·.name ≠ name)
    modelTags := db.tables.modelTags.filter (·.owner ≠ name)
    versions := db.tables.versions.filter (·.key.model ≠ name)
    versionTags := db.tables.versionTags.filter (·.owner.model ≠ name) }
  forgotten : ∀ (c : Catalog) events t, c.database = after →
    (∀ entry ∈ c.history events, ¬Brings name entry) → (c.steps events).2.database = .live t →
      (live t).Forgotten name

/-- A database next to the one that comes of deleting a version. -/
structure VersionDeleted (key : VersionKey) (now : Instant) (db after : Database) : Prop where
  rows : after = .live {
    models := db.tables.models.map fun r => if r.name = key.model then { r with updatedAt := now.stored } else r
    modelTags := db.tables.modelTags
    versions := db.tables.versions.filter (·.key ≠ key)
    versionTags := db.tables.versionTags.filter (·.owner ≠ key) }
  neverAgain : ∀ (c : Catalog) events name draft later v, c.database = after → (∀ e ∈ events, e.KeepsCounters) →
    (c.history events).foldl (Ledger.currentName.next (homeSchema c.schema)) (some key.model) = some name →
      ((c.steps events).2.database.call (.createVersion name draft) later).1 = .ok (.version v) →
        key.number < v.number

variable {allowed : Event → Prop} {db after : Database} {name : String} {key : VersionKey} {now : Instant}
  {a : Answer}

theorem modelDeleted (reached : db.Reached allowed) (done : db.call (.deleteModel name) now = (.ok a, after)) :
    db.ModelDeleted name after := by
  obtain ⟨t, t', rfl, rfl, sound, edit⟩ := reached.edit done
  cases edit with
  | read reads => exact absurd reads nofun
  | deleteModel there =>
    have clean := (sound.stored_name there).clean
    have free : name ∉ (t.withoutModel name).names := by
      rw [Tables.names_withoutModel, List.mem_filter]
      simp
    constructor
    case rows => simp [Tables.withoutModel, tables, TagRow.removeOwners]
    case forgotten =>
      intro c events t' here kept live
      have start : c.database.tables = t.withoutModel name := congrArg tables here
      have later := Catalog.notMem_names_steps (start ▸ sound.withoutModel) (start ▸ free) kept
      rw [live] at later
      exact forgotten_of_free later.1 later.2 clean

theorem ModelDeleted.at_once (deleted : db.ModelDeleted name after) : after.Forgotten name := by
  obtain ⟨rows, forgotten⟩ := deleted
  have nothing : ∀ entry ∈ Catalog.history ⟨none, Catalog.opened.clock, after⟩ [], ¬Brings name entry :=
    fun _ there => absurd there List.not_mem_nil
  rw [rows]
  exact forgotten ⟨none, Catalog.opened.clock, after⟩ [] _ rfl nothing rows

theorem versionDeleted (reached : db.Reached Event.KeepsCounters)
    (done : db.call (.deleteVersion key) now = (.ok a, after)) : db.VersionDeleted key now after := by
  have counted := reached.counted
  obtain ⟨t, t', rfl, rfl, sound, edit⟩ := reached.edit done
  have sound' := sound.afterEdit edit
  cases edit with
  | read reads => exact absurd reads nofun
  | deleteVersion there =>
    constructor
    case rows => simp [Tables.withoutVersion, Tables.touchModel, Tables.updateModel, tables, TagRow.removeOwners]
    case neverAgain =>
      intro c events name draft later' v here kept current created
      have start : c.database.tables = (t.withoutVersion key).touchModel key.model now.stored :=
        congrArg tables here
      have bound : ((t.withoutVersion key).touchModel key.model now.stored).Reaches key.number
          (some key.model) := by
        intro model same
        obtain rfl : key.model = model := Option.some.inj same
        obtain ⟨r, member, named, -, reached⟩ := counted.reached key there
        refine ⟨r.counter, ?_, reached⟩
        rw [Tables.counters_touchModel, Tables.counters]
        exact congrArg _ ((Tables.model?_eq_some_iff sound.names).mpr ⟨member, named⟩)
      obtain ⟨later, reaches⟩ := Catalog.reaches_steps (start ▸ sound') (start ▸ bound) kept
      obtain ⟨n, found, reached⟩ := reaches name current
      obtain ⟨t'', after, live, drafted, -⟩ := call_of_ok created
      rw [live] at later found
      change t''.Sound at later
      cases later.edit drafted with
      | read reads => exact absurd reads Bool.false_ne_true
      | @createVersion _ _ r v member named room new filled tagged row number =>
        rw [tables, Tables.counters, (Tables.model?_eq_some_iff later.names).mpr ⟨member, named⟩] at found
        obtain rfl : r.counter = n := Option.some.inj found
        omega

/-- What is deleted is gone with all that belongs to it, and everything else stays. A name that is free again is
like one that never was used, whereas the number of a version is used up for as long as its model is there. -/
theorem deletions_leave_nothing (reached : db.Reached Event.KeepsCounters) :
    (∀ name now a after, db.call (.deleteModel name) now = (.ok a, after) → db.ModelDeleted name after) ∧
    ∀ key now a after, db.call (.deleteVersion key) now = (.ok a, after) → db.VersionDeleted key now after :=
  ⟨fun _ _ _ _ done => modelDeleted reached done, fun _ _ _ _ done => versionDeleted reached done⟩

theorem shelf_deletions :
    let now := Catalog.opened.clock.reading
    let one := shelf.call (.deleteModel "a") now
    let two := shelf.call (.deleteVersion ⟨"a", 1⟩) now
    shelf.Reached Event.KeepsCounters ∧ one.1 = .ok .done ∧ two.1 = .ok .done ∧ shelf.ModelDeleted "a" one.2 ∧
      one.2.tables.names = ["b"] ∧ one.2.tables.modelTags = [⟨"b", "x", 0⟩] ∧ one.2.Forgotten "a" ∧
      shelf.VersionDeleted ⟨"a", 1⟩ now two.2 ∧ two.2.tables.models.map (·.counter) = [1, 0] := by
  intro now one two
  have first : one.1 = .ok .done := by decide +kernel
  have second : two.1 = .ok .done := by decide +kernel
  obtain ⟨models, versions⟩ := deletions_leave_nothing reached_shelf
  have deleted := models "a" now .done one.2 (Prod.ext first rfl)
  have deleted' := versions ⟨"a", 1⟩ now .done two.2 (Prod.ext second rfl)
  exact ⟨reached_shelf, first, second, deleted, by decide +kernel, by decide +kernel, deleted.at_once, deleted',
    by decide +kernel⟩

end Database

end ModelCatalog
