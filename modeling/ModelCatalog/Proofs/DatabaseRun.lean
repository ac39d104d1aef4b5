import ModelCatalog.Proofs.CallEdits
import ModelCatalog.Proofs.FirstStatements

namespace ModelCatalog.Database

/-- What a call answers, and what the database is after it. If the answer cannot be read the call breaks off. -/
structure Answers (db : Database) (call : Call) (now : Instant) (a : Answer) (after : Database) : Prop where
  called : db.call call now = (.ok a, after)
  performed : db.perform? call now = if a.isReadable then some (.ok a, after) else none

/-- The error for which a call is refused. Nothing is changed by it. -/
structure Refuses (db : Database) (call : Call) (now : Instant) (e : CatalogError) : Prop where
  called : db.call call now = (.error e, db)
  performed : db.perform? call now = some (.error e, db)

variable {α : Type} {relation : Relation} {operation : Except CatalogError (Operation α)} {call : Call} {now : Instant}
  {db after : Database}

theorem answer_of_error {err : CatalogError} (failed : (db.answer operation now).1 = .error err) :
    (db.answer operation now).2 = db := by
  cases operation with
  | error e => rfl
  | ok run =>
    cases server : db.reach with
    | error e => simp only [answer, server]
    | ok u =>
      simp only [answer, server] at failed ⊢
      cases ran : run now db.hasTables db.tables with
      | error e t => rfl
      | ok a t =>
        rw [ran] at failed
        exact absurd failed nofun

/-- Nothing can be changed where there are no tables. -/
theorem answer_of_missing (gone : db.hasTables = false) : (db.answer operation now).2 = db := by
  have still : ∀ t, db.store t = db := fun t => by cases db <;> first | rfl | cases gone
  cases operation with
  | error e => rfl
  | ok run =>
    cases server : db.reach with
    | error e => simp only [answer, server]
    | ok u =>
      simp only [answer, server]
      cases run now db.hasTables db.tables with
      | error e t => rfl
      | ok a t => exact still t

/-- Where the tables are missing, an operation gets no further than to the relation that it asks for first. -/
theorem answer_without_tables {run : Operation α} (first : Operation.StartsFrom relation (.ok run))
    (server : db.reach = .ok ()) (gone : db.hasTables = false) :
    db.answer (.ok run) now = (.error (.storage (.missingRelation relation)), db) := by
  simp only [answer, server, gone, first run rfl now db.tables]

theorem answer_live {run : Operation α} {t : Tables} : (live t).answer (.ok run) now =
    match (run now).on t with
    | .ok (a, t') => (.ok a, .live t')
    | .error e => (.error e, .live t) := by
  simp only [answer, reach, hasTables, tables, store, Transaction.on]
  cases run now true t <;> rfl

theorem answer_of_succeeds {t t' : Tables} {a : α} (done : Operation.Succeeds operation now t a t') :
    (live t).answer operation now = (.ok a, .live t') := by
  obtain ⟨run, rfl, result⟩ := done
  rw [answer_live, result]

/-- An operation is answered from tables that are there, and leaves the tables it makes of them. -/
theorem answer_of_ok {a : α} (first : Operation.StartsFrom relation operation)
    (done : (db.answer operation now).1 = .ok a) :
    ∃ t t', db = .live t ∧ Operation.Succeeds operation now t a t' ∧ (db.answer operation now).2 = .live t' := by
  cases operation with
  | error e => exact absurd done nofun
  | ok run =>
    cases db with
    | unreachable => exact absurd done nofun
    | homeless | dropped =>
      rw [answer_without_tables first rfl rfl] at done
      exact absurd done nofun
    | live t =>
      rw [answer_live] at done ⊢
      cases result : (run now).on t with
      | error e =>
        rw [result] at done
        exact absurd done nofun
      | ok value =>
        obtain ⟨b, t'⟩ := value
        rw [result] at done
        cases done
        exact ⟨t, t', rfl, ⟨run, rfl, result⟩, rfl⟩

theorem call_of_ok {a : Answer} (done : (db.call call now).1 = .ok a) :
    ∃ t t', db = .live t ∧ Operation.Succeeds call.operation? now t a t' ∧ (db.call call now).2 = .live t' := by
  obtain ⟨relation, first⟩ := call.exists_startsFrom
  exact answer_of_ok first done

theorem live_of_name {name : String} (there : name ∈ db.tables.names) : db = .live db.tables := by
  cases db with
  | live t => rfl
  | _ => exact absurd there List.not_mem_nil

theorem live_of_key {key : VersionKey} (there : key ∈ db.tables.keys) : db = .live db.tables := by
  cases db with
  | live t => rfl
  | _ => exact absurd there List.not_mem_nil

theorem call_ok_iff {a : Answer} : (db.call call now).1 = .ok a ↔
    db = .live db.tables ∧ ∃ t', Operation.Succeeds call.operation? now db.tables a t' := by
  constructor
  · intro answered
    obtain ⟨t, t', rfl, done, -⟩ := call_of_ok answered
    exact ⟨rfl, t', done⟩
  · intro served
    obtain ⟨live, t', done⟩ := served
    rw [live]
    exact congrArg Prod.fst (answer_of_succeeds done)

/-- A call that only looks something up leaves everything as it is. -/
theorem call_of_isRead (reads : call.isRead = true) : (db.call call now).2 = db := by
  cases result : (db.call call now).1 with
  | error err => exact answer_of_error result
  | ok a =>
    obtain ⟨t, t', live, done, same⟩ := call_of_ok result
    rw [done.same_of_isRead reads, ← live] at same
    exact same

theorem perform?_eq_ok_iff {a : Answer} : db.perform? call now = some (.ok a, after) ↔
    db.call call now = (.ok a, after) ∧ a.isReadable = true := by
  constructor
  · intro performed
    unfold perform? at performed
    split at performed
    · cases performed
    · rename_i called
      split at performed <;> cases performed
      exact ⟨called, ‹_›⟩
  · intro both
    unfold perform?
    rw [both.1]
    exact if_pos both.2

theorem perform?_of_not_readable {a : Answer} (answered : db.call call now = (.ok a, after))
    (lost : a.isReadable = false) : db.perform? call now = none := by
  unfold perform?
  rw [answered]
  exact if_neg (ne_true_of_eq_false lost)

theorem perform?_eq_error_iff {e : CatalogError} : db.perform? call now = some (.error e, after) ↔
    db.call call now = (.error e, after) := by
  unfold perform?
  split
  · rename_i called
    rw [called, Option.some.injEq]
  · rename_i called
    rw [called]
    split <;> simp only [reduceCtorEq, Option.some.injEq, Prod.mk.injEq, false_and]

/-- Making sure of the tables changes no row. -/
theorem ensure_eq_ok {schema : Option String} (made : db.ensure schema = .ok after) : after = .live db.tables := by
  simp only [ensure, bind_eq_ok] at made
  obtain ⟨_, _, _, server, _, _, same⟩ := made
  cases db with
  | unreachable => exact absurd server nofun
  | live t =>
    simp only [pure_eq_ok] at same
    exact same
  | homeless =>
    cases schema with
    | none => exact absurd same nofun
    | some name => exact pure_eq_ok.mp same
  | dropped => exact pure_eq_ok.mp same

/-- Only the schema of the catalog itself takes the tables along. -/
theorem drop_eq_ok {own dedicated : Option String} (gone : db.drop own dedicated = .ok after) :
    ∃ name, dedicated = some name ∧ after = if name = homeSchema own then bare own else db := by
  simp only [drop, bind_eq_ok, expect_eq_ok] at gone
  obtain ⟨_, _, name, rfl, _, _, same⟩ := gone
  refine ⟨name, rfl, ?_⟩
  split at same
  · cases same
  · cases same
  · exact pure_eq_ok.mp same

theorem tables_bare {own : Option String} : (bare own).tables = .empty := by
  cases own <;> rfl

theorem answers_of_call {a : Answer} (called : db.call call now = (.ok a, after)) : db.Answers call now a after where
  called := called
  performed := by
    unfold perform?
    rw [called]

theorem answers_of_read {a : Answer} (reads : call.isRead = true) (answered : (db.call call now).1 = .ok a) :
    db.Answers call now a db :=
  answers_of_call (Prod.ext answered (call_of_isRead reads))

theorem refuses_of_call {e : CatalogError} (failed : (db.call call now).1 = .error e) : db.Refuses call now e := by
  have called : db.call call now = (.error e, db) := Prod.ext failed (answer_of_error failed)
  exact ⟨called, perform?_eq_error_iff.mpr called⟩

theorem call_of_perform? {result : Except CatalogError Answer} (performed : db.perform? call now = some (result, after)) :
    db.call call now = (result, after) := by
  cases result with
  | error e => exact perform?_eq_error_iff.mp performed
  | ok a => exact (perform?_eq_ok_iff.mp performed).1

theorem isReadable_model {m : Model} : (Answer.model m).isReadable = true ↔
    m.createdAt.representable = true ∧ m.updatedAt.representable = true := by
  simp [Answer.isReadable, Answer.times, Model.times]

theorem isReadable_version {v : Version} : (Answer.version v).isReadable = true ↔
    v.createdAt.representable = true ∧ v.updatedAt.representable = true := by
  simp [Answer.isReadable, Answer.times, Version.times]

theorem exists_call_eq_iff {result : Except CatalogError Answer} :
    (∃ after, db.call call now = (result, after)) ↔ (db.call call now).1 = result :=
  ⟨fun ⟨_, called⟩ => congrArg Prod.fst called, fun answered => ⟨_, Prod.ext answered rfl⟩⟩

/-- A model is answered exactly if there is a row for it. -/
theorem getModel_ok_iff {name : String} {m : Model} (sound : db.tables.Sound) :
    (db.call (.getModel name) now).1 = .ok (.model m) ↔
      ∃ r, db.tables.model? name = some r ∧ m = db.tables.modelEntry r := by
  simp only [call_ok_iff, Call.operation?, Operation.succeeds_answering, Operation.getModel_succeeds]
  constructor
  · intro answered
    obtain ⟨-, t', m', ⟨-, rfl, r, found, rfl⟩, same⟩ := answered
    cases same
    exact ⟨r, found, rfl⟩
  · intro found
    obtain ⟨r, found, rfl⟩ := found
    have there := Tables.mem_names_of_model? found
    exact ⟨live_of_name there, _, _, ⟨(sound.stored_name there).clean, rfl, r, found, rfl⟩, rfl⟩

theorem getVersion_ok_iff {key : VersionKey} {v : Version} (sound : db.tables.Sound) :
    (db.call (.getVersion key) now).1 = .ok (.version v) ↔
      ∃ r, db.tables.version? key = some r ∧ v = db.tables.versionEntry r := by
  simp only [call_ok_iff, Call.operation?, Operation.succeeds_answering, Operation.getVersion_succeeds]
  constructor
  · intro answered
    obtain ⟨-, t', v', ⟨-, rfl, r, found, rfl⟩, same⟩ := answered
    cases same
    exact ⟨r, found, rfl⟩
  · intro found
    obtain ⟨r, found, rfl⟩ := found
    have there := Tables.mem_keys_of_version? found
    exact ⟨live_of_key there, _, _, ⟨(sound.stored_key there).clean, rfl, r, found, rfl⟩, rfl⟩

theorem exists_answers_iff {a : Answer} :
    (∃ after, db.Answers call now a after) ↔ (db.call call now).1 = .ok a := by
  constructor
  · intro answered
    obtain ⟨after, answers⟩ := answered
    exact congrArg Prod.fst answers.called
  · intro answered
    exact ⟨_, answers_of_call (Prod.ext answered rfl)⟩

theorem answers_read_iff {a : Answer} (reads : call.isRead = true) :
    db.Answers call now a db ↔ (db.call call now).1 = .ok a :=
  ⟨fun answers => congrArg Prod.fst answers.called, answers_of_read reads⟩

theorem answers_getModel_iff {name : String} {m : Model} (sound : db.tables.Sound) :
    db.Answers (.getModel name) now (.model m) db ↔
      ∃ r, db.tables.model? name = some r ∧ m = db.tables.modelEntry r :=
  (answers_read_iff rfl).trans (getModel_ok_iff sound)

theorem answers_getVersion_iff {key : VersionKey} {v : Version} (sound : db.tables.Sound) :
    db.Answers (.getVersion key) now (.version v) db ↔
      ∃ r, db.tables.version? key = some r ∧ v = db.tables.versionEntry r :=
  (answers_read_iff rfl).trans (getVersion_ok_iff sound)

end ModelCatalog.Database
