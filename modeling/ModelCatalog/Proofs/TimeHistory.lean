import ModelCatalog.Proofs.TimeOrder

namespace ModelCatalog

/-- What an event that is met at some time leaves of it in the tables, if it is one that writes times. -/
def Event.stamp? (now : Instant) : Event × Response → Option Timestamp
  | (.call k, some (.ok _)) => if k.stamps then some now.stored else none
  | _ => none

/-- The stored values of the times at which a session wrote, in order. -/
def Catalog.stamps (c : Catalog) : List Event → List Timestamp
  | [] => []
  | e :: rest => (Event.stamp? c.clock.reading (e, (c.step e).1)).toList ++ (c.step e).2.stamps rest

namespace Tables

variable {t t' : Tables} {now : Instant} {e : Event} {r : Reply} {name home : String} {key : VersionKey}
  {created : Timestamp}

theorem modelDates_eq_none_iff : t.modelDates name = none ↔ name ∉ t.names :=
  Option.map_eq_none_iff.trans model?_eq_none_iff

theorem versionDates_eq_none_iff : t.versionDates key = none ↔ key ∉ t.keys :=
  Option.map_eq_none_iff.trans version?_eq_none_iff

theorem Sound.admits {now : Timestamp} {call : Call} {a : Answer} (sound : t.Sound) (edit : t.Edit now call a t') :
    t.chronicle.Admits call a := by
  cases edit with
  | @read call a reads =>
    cases call with
    | getModel | getVersion | versionUri | listModels | listVersions => trivial
    | _ => exact absurd reads nofun
  | createModel row new => exact modelDates_eq_none_iff.mpr new
  | renameModel there new =>
    refine ⟨fun none => modelDates_eq_none_iff.mp none there, modelDates_eq_none_iff.mpr new, fun number => ?_⟩
    exact versionDates_eq_none_iff.mpr fun left => new (sound.owned _ left)
  | createVersion member named room new filled tagged row number =>
    refine ⟨fun none => modelDates_eq_none_iff.mp none ?_, ?_⟩
    · exact named ▸ List.mem_map_of_mem member
    · rw [number]
      exact versionDates_eq_none_iff.mpr new
  | _ => trivial

theorem born_afterTurn {current : Option String} (sound : t.Sound)
    (known : ∀ name ∈ current, t.chronicle.born name = some created) (turn : t.Turn now e r t') :
    ∀ name ∈ Ledger.currentName.next home current (e, some (.ok r)), t'.chronicle.born name = some created := by
  cases turn with
  | call done =>
    have edit := sound.edit done
    rw [sound.chronicle_afterEdit edit]
    exact Chronicle.born_note (sound.admits edit) known
  | dataset done =>
    rw [chronicle_setDataset done]
    exact known
  | counter done =>
    rw [chronicle_setCounter done]
    exact known

theorem versionBorn_afterTurn {current : Option VersionKey} (sound : t.Sound)
    (known : ∀ key ∈ current, t.chronicle.versionBorn key = some created) (turn : t.Turn now e r t') :
    ∀ key ∈ Ledger.currentKey.next home current (e, some (.ok r)), t'.chronicle.versionBorn key = some created := by
  cases turn with
  | call done =>
    have edit := sound.edit done
    rw [sound.chronicle_afterEdit edit]
    exact Chronicle.versionBorn_note (sound.admits edit) known
  | dataset done =>
    rw [chronicle_setDataset done]
    exact known
  | counter done =>
    rw [chronicle_setCounter done]
    exact known

end Tables

namespace Catalog

variable {c : Catalog} {e : Event} {events : List Event} {created : Timestamp}

theorem born_steps {current : Option String} (sound : c.database.tables.Sound)
    (known : ∀ name ∈ current, c.database.tables.chronicle.born name = some created) :
    ∀ name ∈ (c.history events).foldl (Ledger.currentName.next (homeSchema c.schema)) current,
      (c.steps events).2.database.tables.chronicle.born name = some created :=
  (Ledger.currentName.foldl_history _
    (fun current t => t.Sound ∧ ∀ name ∈ current, t.chronicle.born name = some created) (fun _ => True)
    ⟨.empty, nofun⟩
    (fun _ ⟨sound, known⟩ turn => ⟨sound.afterTurn turn, Tables.born_afterTurn sound known turn⟩)
    rfl (fun _ _ => trivial) ⟨sound, known⟩).2

theorem versionBorn_steps {current : Option VersionKey} (sound : c.database.tables.Sound)
    (known : ∀ key ∈ current, c.database.tables.chronicle.versionBorn key = some created) :
    ∀ key ∈ (c.history events).foldl (Ledger.currentKey.next (homeSchema c.schema)) current,
      (c.steps events).2.database.tables.chronicle.versionBorn key = some created :=
  (Ledger.currentKey.foldl_history _
    (fun current t => t.Sound ∧ ∀ key ∈ current, t.chronicle.versionBorn key = some created) (fun _ => True)
    ⟨.empty, nofun⟩
    (fun _ ⟨sound, known⟩ turn => ⟨sound.afterTurn turn, Tables.versionBorn_afterTurn sound known turn⟩)
    rfl (fun _ _ => trivial) ⟨sound, known⟩).2

theorem Outcome.chained {response : Response} {after : Catalog} {latest : Option Timestamp}
    (outcome : c.Outcome e response after) (sound : c.database.tables.Sound)
    (chained : c.database.tables.chronicle.Chained latest)
    (later : ∀ now ∈ Event.stamp? c.clock.reading (e, response), ∀ last ∈ latest, last ≤ now) :
    after.database.tables.chronicle.Chained ((Event.stamp? c.clock.reading (e, response)).or latest) := by
  cases outcome with
  | refused err => cases e <;> exact chained
  | brokenOff => cases e <;> exact chained
  | @served _ t t' r live turn =>
    have here : c.database.tables = t := congrArg Database.tables live
    rw [here] at sound chained
    cases turn with
    | @call call a t' done =>
      have edit := sound.edit done
      have noted : t'.chronicle.Chained (if call.stamps then some c.clock.reading.stored else latest) := by
        rw [sound.chronicle_afterEdit edit]
        exact chained.note (sound.admits edit) fun stamps => later _ (if_pos stamps)
      have written : Event.stamp? c.clock.reading (.call call, some (.ok (.answer a))) =
          if call.stamps then some c.clock.reading.stored else none := rfl
      rw [written]
      cases stamps : call.stamps <;> rw [stamps] at noted <;> exact noted
    | dataset done =>
      rw [← Tables.chronicle_setDataset done] at chained
      exact chained
    | counter done =>
      rw [← Tables.chronicle_setCounter done] at chained
      exact chained
  | dropped =>
    rw [Database.tables_bare]
    exact .empty
  | quiet same call drop =>
    rw [same]
    cases e with
    | call k => exact absurd rfl (call k)
    | _ => exact chained

/-- As long as the times at which a session writes do not go back, the chronicle stays chained. -/
theorem chained_steps {past : List Timestamp} (sound : c.database.tables.Sound)
    (chained : c.database.tables.chronicle.Chained past.getLast?)
    (rising : (past ++ c.stamps events).Pairwise (· ≤ ·)) :
    (c.steps events).2.database.tables.chronicle.Chained (past ++ c.stamps events).getLast? := by
  -- What is past grows by the time that an event writes, so that the list of all times stays the same.
  induction events generalizing c past with
  | nil =>
    rw [stamps, List.append_nil]
    exact chained
  | cons e rest ih =>
    have outcome := c.step_outcome e
    rw [stamps, ← List.append_assoc] at rising ⊢
    have first := (List.pairwise_append.mp rising).1
    refine ih (outcome.chronicle_eq sound).1 ?_ rising
    have next := outcome.chained sound chained fun now given last before =>
      (List.pairwise_append.mp first).2.2 last (List.mem_of_getLast? before) now (Option.mem_toList.mpr given)
    rw [List.getLast?_append]
    cases stamped : Event.stamp? c.clock.reading (e, (c.step e).1) <;> rw [stamped] at next <;> exact next

end Catalog

namespace Database

variable {db : Database} {now : Instant} {name : String} {key : VersionKey} {d : Dates}

theorem modelDates_iff (sound : db.tables.Sound) : db.tables.modelDates name = some d ↔
    ∃ m, db.Answers (.getModel name) now (.model m) db ∧ m.createdAt = d.created.instant ∧
      m.updatedAt = d.updated.instant := by
  simp only [answers_getModel_iff sound]
  constructor
  · intro known
    obtain ⟨r, found, rfl⟩ := Option.map_eq_some_iff.mp known
    exact ⟨_, ⟨r, found, rfl⟩, rfl, rfl⟩
  · intro answered
    obtain ⟨_, ⟨r, found, rfl⟩, created, updated⟩ := answered
    rw [Tables.modelDates, found]
    exact congrArg some (congrArg₂ Dates.mk (Timestamp.instant_inj.mp created) (Timestamp.instant_inj.mp updated))

theorem versionDates_iff (sound : db.tables.Sound) : db.tables.versionDates key = some d ↔
    ∃ v, db.Answers (.getVersion key) now (.version v) db ∧ v.createdAt = d.created.instant ∧
      v.updatedAt = d.updated.instant := by
  simp only [answers_getVersion_iff sound]
  constructor
  · intro known
    obtain ⟨r, found, rfl⟩ := Option.map_eq_some_iff.mp known
    exact ⟨_, ⟨r, found, rfl⟩, rfl, rfl⟩
  · intro answered
    obtain ⟨_, ⟨r, found, rfl⟩, created, updated⟩ := answered
    rw [Tables.versionDates, found]
    exact congrArg some (congrArg₂ Dates.mk (Timestamp.instant_inj.mp created) (Timestamp.instant_inj.mp updated))

/-- What is answered agrees with a chronicle: when everything was made, and when it was last changed. -/
structure Dated (account : Chronicle) (db : Database) : Prop where
  model : ∀ name now d, account.models name = some d ↔
    ∃ m, db.Answers (.getModel name) now (.model m) db ∧ m.createdAt = d.created.instant ∧
      m.updatedAt = d.updated.instant
  version : ∀ key now d, account.versions key = some d ↔
    ∃ v, db.Answers (.getVersion key) now (.version v) db ∧ v.createdAt = d.created.instant ∧
      v.updatedAt = d.updated.instant

/-- What is answered is in order: no model is younger than a version of it, and none is changed before it is made or
before a version of it is, or after the latest time. -/
structure InOrder (latest : Option Timestamp) (db : Database) : Prop where
  models : ∀ name now m, db.Answers (.getModel name) now (.model m) db →
    m.createdAt ≤ m.updatedAt ∧ ∃ last ∈ latest, m.updatedAt ≤ last.instant
  versions : ∀ key now v, db.Answers (.getVersion key) now (.version v) db →
    ∃ m, db.Answers (.getModel key.model) now (.model m) db ∧ m.createdAt ≤ v.createdAt ∧
      v.createdAt ≤ v.updatedAt ∧ v.updatedAt ≤ m.updatedAt

theorem inOrder_of_chained {latest : Option Timestamp} (sound : db.tables.Sound)
    (chained : db.tables.chronicle.Chained latest) : db.InOrder latest := by
  constructor
  case models =>
    intro name now m answered
    obtain ⟨r, found, rfl⟩ := (answers_getModel_iff sound).mp answered
    obtain ⟨order, last, given, before⟩ := chained.models name r.dates (congrArg (Option.map _) found)
    exact ⟨Timestamp.instant_le_iff.mpr order, last, given, Timestamp.instant_le_iff.mpr before⟩
  case versions =>
    intro key now v answered
    obtain ⟨r, found, rfl⟩ := (answers_getVersion_iff sound).mp answered
    obtain ⟨d, known, older, order, before⟩ := chained.versions key r.dates (congrArg (Option.map _) found)
    obtain ⟨m, answered, created, updated⟩ := (modelDates_iff sound).mp known
    refine ⟨m, answered, ?_, Timestamp.instant_le_iff.mpr order, ?_⟩
    · rw [created]
      exact Timestamp.instant_le_iff.mpr older
    · rw [updated]
      exact Timestamp.instant_le_iff.mpr before

end Database

namespace Catalog

open Database

variable {c : Catalog}

/-- The times tell the history of a session: when each model and each version was made, and when it was last changed
by a call that succeeds, where a version's change is one of its model but not the other way round. What is made stays
made at that time, whatever it is called later. If the stored times of the session do not go back, then the times of
a model enclose those of its versions. -/
theorem times_tell_history (fresh : c.Fresh) (events : List Event) :
    let after := (c.steps events).2
    after.database.Dated (c.chronicle .empty events) ∧
    (∀ later name now m, after.database.Answers (.getModel name) now (.model m) after.database →
      ∀ name' ∈ (after.history later).foldl (Ledger.currentName.next (homeSchema after.schema)) (some name),
        ∀ now', ∃ m', (after.steps later).2.database.Answers (.getModel name') now' (.model m')
          (after.steps later).2.database ∧ m'.createdAt = m.createdAt) ∧
    (∀ later key now v, after.database.Answers (.getVersion key) now (.version v) after.database →
      ∀ key' ∈ (after.history later).foldl (Ledger.currentKey.next (homeSchema after.schema)) (some key),
        ∀ now', ∃ v', (after.steps later).2.database.Answers (.getVersion key') now' (.version v')
          (after.steps later).2.database ∧ v'.createdAt = v.createdAt) ∧
    ((c.stamps events).Pairwise (· ≤ ·) → after.database.InOrder (c.stamps events).getLast?) := by
  intro after
  have start : c.database.tables = .empty := congrArg Database.tables fresh.database_eq
  have blank : c.database.tables.Sound := start ▸ Tables.Sound.empty
  have sound : after.database.tables.Sound := sound_steps fresh events
  refine ⟨?dated, ?models, ?versions, ?order⟩
  case dated =>
    have noted := (chronicle_steps blank events).2
    rw [start] at noted
    have models : (c.chronicle .empty events).models = after.database.tables.modelDates :=
      congrArg Chronicle.models noted.symm
    have versions : (c.chronicle .empty events).versions = after.database.tables.versionDates :=
      congrArg Chronicle.versions noted.symm
    constructor
    · rw [models]
      exact fun _ _ _ => modelDates_iff sound
    · rw [versions]
      exact fun _ _ _ => versionDates_iff sound
  case models =>
    intro later name now m answered name' meant now'
    obtain ⟨r, found, rfl⟩ := (answers_getModel_iff sound).mp answered
    have known : ∀ other ∈ some name, after.database.tables.chronicle.born other = some r.createdAt := by
      intro other same
      cases same
      exact congrArg (Option.map _ ∘ Option.map _) found
    obtain ⟨d, dated, same⟩ := Option.map_eq_some_iff.mp (born_steps sound known name' meant)
    obtain ⟨m', answered', created, -⟩ := (modelDates_iff (chronicle_steps sound later).1).mp dated
    exact ⟨m', answered', by rw [created, same]; rfl⟩
  case versions =>
    intro later key now v answered key' meant now'
    obtain ⟨r, found, rfl⟩ := (answers_getVersion_iff sound).mp answered
    have known : ∀ other ∈ some key, after.database.tables.chronicle.versionBorn other = some r.createdAt := by
      intro other same
      cases same
      exact congrArg (Option.map _ ∘ Option.map _) found
    obtain ⟨d, dated, same⟩ := Option.map_eq_some_iff.mp (versionBorn_steps sound known key' meant)
    obtain ⟨v', answered', created, -⟩ := (versionDates_iff (chronicle_steps sound later).1).mp dated
    exact ⟨v', answered', by rw [created, same]; rfl⟩
  case order =>
    intro rising
    have chained : c.database.tables.chronicle.Chained ([] : List Timestamp).getLast? := by
      rw [start]
      exact .empty
    exact inOrder_of_chained sound (chained_steps blank chained rising)

/-- A leap second within a session, in which half a second later the same is stored as in the leap second. The clock
is put back for a while, but nothing is written then. -/
def leapSession : List Event :=
  [.call (.createModel "a" none []), .setClock ⟨59, 1500000000, by decide, by decide⟩,
    .call (.createVersion "a" plainDraft), .setClock ⟨60, 500000000, by decide, by decide⟩,
    .call (.tagVersion ⟨"a", 1⟩ "t"), .setClock (.ofSeconds 0), .call (.tagVersion ⟨"a", 1⟩ ""),
    .setClock (.ofSeconds 61), .call (.renameModel "a" "b"), .call (.getModel "b")]

theorem leapSession_in_order :
    let db := (opened.steps leapSession).2.database
    let now := opened.clock.reading
    opened.Fresh ∧ opened.stamps leapSession = [⟨0⟩, ⟨60500000⟩, ⟨60500000⟩, ⟨61000000⟩] ∧
    db.InOrder (some ⟨61000000⟩) ∧
    (∃ m, db.Answers (.getModel "b") now (.model m) db ∧ m.createdAt = .ofSeconds 0 ∧
      m.updatedAt = .ofSeconds 61) ∧
    ∃ v, db.Answers (.getVersion ⟨"b", 1⟩) now (.version v) db ∧ v.createdAt = Timestamp.instant ⟨60500000⟩ ∧
      v.updatedAt = Timestamp.instant ⟨60500000⟩ := by
  intro db now
  have written : opened.stamps leapSession = [⟨0⟩, ⟨60500000⟩, ⟨60500000⟩, ⟨61000000⟩] := by decide +kernel
  have rising : (opened.stamps leapSession).Pairwise (· ≤ ·) := by
    rw [written]
    decide
  obtain ⟨dated, -, -, order⟩ := times_tell_history fresh_opened leapSession
  have order := order rising
  rw [written] at order
  exact ⟨fresh_opened, written, order, (dated.model "b" now ⟨⟨0⟩, ⟨61000000⟩⟩).mp (by decide +kernel),
    (dated.version ⟨"b", 1⟩ now ⟨⟨60500000⟩, ⟨60500000⟩⟩).mp (by decide +kernel)⟩

end Catalog

end ModelCatalog
