import ModelCatalog.Proofs.Consistency
import ModelCatalog.Proofs.Locality

namespace ModelCatalog

/-- Two databases in the same state whose tables, if there are any, are sound and agree where it matters. -/
inductive Database.Agree (names : Set String) : Database → Database → Prop
  | unreachable : Agree names .unreachable .unreachable
  | homeless : Agree names .homeless .homeless
  | dropped : Agree names .dropped .dropped
  | live {t t' : Tables} (sound : t.Sound) (sound' : t'.Sound) (same : t.Agree names t') :
    Agree names (.live t) (.live t')

/-- Two catalogs that differ only in tables that agree where it matters. -/
structure Catalog.Agree (names : Set String) (c c' : Catalog) : Prop where
  schema : c.schema = c'.schema
  clock : c.clock = c'.clock
  database : c.database.Agree names c'.database

/-- The names with which an event can have to do. -/
def Event.reach : Event → Set String
  | call request => request.reach
  | writeDataset key _ => {key.model}
  | writeCounter name _ => {name}
  | snapshot => Set.univ
  | ping | ensureSchema | dropSchema _ | setClock _ => ∅

namespace Database.Agree

open Operation (Succeeds attempt)

variable {α : Type} {names : Set String} {db db' : Database} {now : Instant}

theorem answer {operation : Except CatalogError (Operation α)} (agree : db.Agree names db')
    (keeps : ∀ {t a t'}, t.Sound → Succeeds operation now t a t' → t'.Sound)
    (runs : ∀ {t t' : Tables}, t.Sound → t'.Sound → t.Agree names t' →
      Tables.SameRun names (attempt operation now t) (attempt operation now t')) :
    (db.answer operation now).1 = (db'.answer operation now).1 ∧
      (db.answer operation now).2.Agree names (db'.answer operation now).2 := by
  cases agree with
  | unreachable => exact ⟨rfl, by simpa only [@answer_of_missing _ _ _ .unreachable rfl] using .unreachable⟩
  | homeless => exact ⟨rfl, by simpa only [@answer_of_missing _ _ _ .homeless rfl] using .homeless⟩
  | dropped => exact ⟨rfl, by simpa only [@answer_of_missing _ _ _ .dropped rfl] using .dropped⟩
  | @live t t' sound sound' same =>
    rw [answer_live_eq, answer_live_eq]
    have alike := runs sound sound' same
    cases first : attempt operation now t with
    | error e =>
      rw [first] at alike
      generalize second : attempt operation now t' = y at alike
      cases alike
      exact ⟨rfl, .live sound sound' same⟩
    | ok value =>
      rw [first] at alike
      generalize second : attempt operation now t' = y at alike
      cases alike with
      | served both =>
        have after := keeps sound (Operation.attempt_eq_ok.mp first)
        have after' := keeps sound' (Operation.attempt_eq_ok.mp second)
        exact ⟨congrArg Except.ok both.1, .live after after' both.2⟩

theorem call {call : Call} (agree : db.Agree names db') (now : Instant) (within : call.reach ⊆ names) :
    (db.call call now).1 = (db'.call call now).1 ∧ (db.call call now).2.Agree names (db'.call call now).2 :=
  agree.answer (fun sound done => sound.afterEdit (sound.edit done)) fun sound sound' same =>
    call.sameRun sound sound' same within

/-- An answer can be read from both or from neither. -/
theorem perform? {call : Call} (agree : db.Agree names db') (now : Instant) (within : call.reach ⊆ names) :
    (db.perform? call now = none ∧ db'.perform? call now = none) ∨
      ∃ result after after', db.perform? call now = some (result, after) ∧
        db'.perform? call now = some (result, after') ∧ after.Agree names after' := by
  obtain ⟨answered, later⟩ := agree.call now within
  unfold Database.perform?
  generalize db.call call now = first at answered later
  generalize db'.call call now = second at answered later
  obtain ⟨result, after⟩ := first
  obtain ⟨_, after'⟩ := second
  cases answered
  cases result with
  | error e => exact .inr ⟨_, _, _, rfl, rfl, later⟩
  | ok a =>
    by_cases readable : a.isReadable = true
    · simp only [readable, if_true]
      exact .inr ⟨_, _, _, rfl, rfl, later⟩
    · simp only [readable]
      exact .inl ⟨rfl, rfl⟩

theorem writeDataset {key : VersionKey} {dataset : Option String} (agree : db.Agree names db') (now : Instant)
    (meant : key.model ∈ names) :
    (db.answer (.ok fun _ => Versions.setDataset key dataset) now).1 =
        (db'.answer (.ok fun _ => Versions.setDataset key dataset) now).1 ∧
      (db.answer (.ok fun _ => Versions.setDataset key dataset) now).2.Agree names
        (db'.answer (.ok fun _ => Versions.setDataset key dataset) now).2 := by
  refine agree.answer (fun sound done => ?_) fun {t t'} sound sound' same => ?_
  · have turn : Tables.Turn now _ _ _ _ := .dataset (Operation.succeeds_ok.mp done)
    exact sound.afterTurn turn
  · change Tables.SameRun names ((Versions.setDataset key dataset).on t) ((Versions.setDataset key dataset).on t')
    rw [Versions.setDataset_on, Versions.setDataset_on]
    refine .bind fun _ _ => .bind fun _ _ => .served ⟨?_, same.updateVersion fun _ => rfl⟩
    exact same.versions.countP_eq meant fun r found => congrArg VersionKey.model (of_decide_eq_true found)

theorem writeCounter {name : String} {number : Int} (agree : db.Agree names db') (now : Instant)
    (meant : name ∈ names) :
    (db.answer (.ok fun _ => Models.setCounter name number) now).1 =
        (db'.answer (.ok fun _ => Models.setCounter name number) now).1 ∧
      (db.answer (.ok fun _ => Models.setCounter name number) now).2.Agree names
        (db'.answer (.ok fun _ => Models.setCounter name number) now).2 := by
  refine agree.answer (fun sound done => ?_) fun {t t'} sound sound' same => ?_
  · have turn : Tables.Turn now _ _ _ _ := .counter (Operation.succeeds_ok.mp done)
    exact sound.afterTurn turn
  · change Tables.SameRun names ((Models.setCounter name number).on t) ((Models.setCounter name number).on t')
    rw [Models.setCounter_on, Models.setCounter_on]
    refine .bind fun _ _ => .served ⟨?_, same.updateModel fun _ => rfl⟩
    exact same.models.countP_eq meant fun r => of_decide_eq_true

theorem reach_eq (agree : db.Agree names db') : db.reach = db'.reach := by
  cases agree <;> rfl

theorem ensure (agree : db.Agree names db') (schema : Option String) :
    SameOutcome (Database.Agree names) (db.ensure schema) (db'.ensure schema) := by
  unfold Database.ensure
  rw [agree.reach_eq]
  refine .bind fun _ _ => .bind fun _ _ => .bind fun _ _ => ?_
  cases agree with
  | unreachable | dropped => cases schema <;> exact .served (.live .empty .empty .refl)
  | homeless =>
    cases schema with
    | none => exact .refused _
    | some name => exact .served (.live .empty .empty .refl)
  | live sound sound' same => cases schema <;> exact .served (.live sound sound' same)

theorem drop (agree : db.Agree names db') (own dedicated : Option String) :
    SameOutcome (Database.Agree names) (db.drop own dedicated) (db'.drop own dedicated) := by
  unfold Database.drop
  rw [agree.reach_eq]
  refine .bind fun _ _ => .bind fun name _ => .bind fun _ _ => ?_
  split
  · exact .refused _
  · exact .refused _
  · split
    · cases own with
      | none => exact .served .homeless
      | some name => exact .served .dropped
    · exact .served agree

end Database.Agree

namespace Catalog.Agree

variable {names : Set String} {c c' : Catalog} {schema : Option String} {clock : Clock} {db db' : Database}

theorem ofDatabases (agree : db.Agree names db') : Catalog.Agree names ⟨schema, clock, db⟩ ⟨schema, clock, db'⟩ :=
  ⟨rfl, rfl, agree⟩

theorem withDatabase {first second : Except CatalogError Database} (agree : c.Agree names c')
    (same : SameOutcome (Database.Agree names) first second) :
    (c.withDatabase first).1 = (c'.withDatabase second).1 ∧
      (c.withDatabase first).2.Agree names (c'.withDatabase second).2 := by
  cases same with
  | refused e => exact ⟨rfl, agree⟩
  | served after => exact ⟨rfl, { agree with database := after }⟩

theorem snapshot_eq (agree : c.Agree Set.univ c') : c.snapshot = c'.snapshot := by
  obtain ⟨schema, clock, db⟩ := c
  obtain ⟨_, _, db'⟩ := c'
  obtain ⟨rfl, rfl, agree⟩ := agree
  have models : (db.answer (Operation.listModels none []) clock.reading).1 =
      (db'.answer (Operation.listModels none []) clock.reading).1 := by
    refine (agree.answer (fun sound done => ?_) fun sound _ same => ?_).1
    · obtain ⟨-, -, rfl, -⟩ := Operation.listModels_succeeds.mp done
      exact sound
    · exact Operation.sameRun_listModels sound.names same
  have versions : ∀ name, (db.answer (Operation.listVersions name []) clock.reading).1 =
      (db'.answer (Operation.listVersions name []) clock.reading).1 := by
    intro name
    refine (agree.answer (fun sound done => ?_) fun _ _ same => ?_).1
    · obtain ⟨-, -, rfl, -⟩ := Operation.listVersions_succeeds.mp done
      exact sound
    · exact Operation.sameRun_listVersions same (Set.mem_univ name)
  simp only [snapshot, run, models, versions]

/-- An event within reach gets the same reply, and leaves catalogs that are still alike. -/
theorem step {e : Event} (agree : c.Agree names c') (within : e.reach ⊆ names) :
    (c.step e).1 = (c'.step e).1 ∧ (c.step e).2.Agree names (c'.step e).2 := by
  obtain ⟨schema, clock, db⟩ := c
  obtain ⟨_, _, db'⟩ := c'
  obtain ⟨rfl, rfl, agree⟩ := agree
  cases e with
  | call call =>
    rcases agree.perform? clock.reading within with ⟨first, second⟩ | ⟨result, after, after', first, second, alike⟩
    · simp only [Catalog.step, call?, first, second]
      exact ⟨rfl, ofDatabases agree⟩
    · simp only [Catalog.step, call?, first, second]
      exact ⟨rfl, ofDatabases alike⟩
  | ping => exact ⟨congrArg (some <| Except.map (fun _ => Reply.done) ·) agree.reach_eq, ofDatabases agree⟩
  | ensureSchema => exact (ofDatabases agree).withDatabase (agree.ensure schema)
  | dropSchema name => exact (ofDatabases agree).withDatabase (agree.drop schema name)
  | setClock t => exact ⟨rfl, ofDatabases agree⟩
  | writeDataset key dataset =>
    obtain ⟨reply, after⟩ := agree.writeDataset clock.reading (within rfl)
    exact ⟨congrArg (some <| Except.map Reply.rows ·) reply, ofDatabases after⟩
  | writeCounter name number =>
    obtain ⟨reply, after⟩ := agree.writeCounter clock.reading (within rfl)
    exact ⟨congrArg (some <| Except.map Reply.rows ·) reply, ofDatabases after⟩
  | snapshot =>
    cases Set.univ_subset_iff.mp within
    refine ⟨?_, ofDatabases agree⟩
    simp only [Catalog.step, snapshot?, (ofDatabases agree).snapshot_eq]

/-- Catalogs that are alike where all events of a session reach cannot be told apart by the session. -/
theorem steps {events : List Event} (agree : c.Agree names c') (within : ∀ e ∈ events, e.reach ⊆ names) :
    (c.steps events).1 = (c'.steps events).1 := by
  induction events generalizing c c' with
  | nil => rfl
  | cons e rest ih =>
    obtain ⟨reply, after⟩ := agree.step (within e List.mem_cons_self)
    have later := ih after fun e' later => within e' (List.mem_cons_of_mem e later)
    exact congrArg₂ List.cons reply later

end Catalog.Agree

end ModelCatalog
