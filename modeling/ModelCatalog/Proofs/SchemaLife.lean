import ModelCatalog.Proofs.ArgumentChecks

namespace ModelCatalog

/-- Whether the tables are there, told from what was served since they were first made. Only a drop of the schema that
they are in takes them away. -/
def Event.tablesAfter (home : String) (history : List (Event × Response)) : Bool :=
  history.foldl (note home) true
where
  note (home : String) (there : Bool) : Event × Response → Bool
    | (dropSchema (some name), some (.ok _)) => if name = home then false else there
    | (ensureSchema, some (.ok _)) => true
    | _ => there

/-- A catalog whose tables were dropped. A call is told so unless its arguments are at fault by themselves, and
before anything else is found wrong with it. -/
structure Catalog.WithoutTables (c : Catalog) : Prop where
  refused : ∀ call fault, call.refusal? = some fault → c.step (.call call) = (some (.error (.argument fault)), c)
  versions : ∀ call, call.refusal? = none → call.AsksForVersions →
    c.step (.call call) = (some (.error (.storage (.missingRelation .versions))), c)
  models : ∀ call, call.refusal? = none → ¬call.AsksForVersions →
    c.step (.call call) = (some (.error (.storage (.missingRelation .models))), c)
  ping : c.step .ping = (some (.ok .done), c)
  dropAgain : c.step (.dropSchema (some (homeSchema c.schema))) = (some (.ok .done), c)
  remade : c.schema ≠ none → c.step .ensureSchema = (some (.ok .done), { c with database := .live .empty })
  homeless : c.schema = none → c.step .ensureSchema = (some (.error (.storage .noSchema)), c)

/-- A catalog that finds its tables. Making them once more is no matter, however often it is done. -/
structure Catalog.WithTables (c : Catalog) : Prop where
  live : c.database = .live c.database.tables
  kept : ∀ n, c.steps (List.replicate n .ensureSchema) = (List.replicate n (some (.ok .done)), c)

namespace Database

variable {own : Option String} {db : Database}

/-- A database that has its tables, or has lost them with their schema, as the flag says. -/
inductive Stands (own : Option String) : Bool → Database → Prop
  | live {t : Tables} : Stands own true (.live t)
  | bare : Stands own false (.bare own)

theorem reach_bare : (bare own).reach = .ok () := by
  cases own <;> rfl

theorem hasTables_bare : (bare own).hasTables = false := by
  cases own <;> rfl

theorem Stands.answer {α : Type} {there : Bool} {operation : Except CatalogError (Operation α)} {now : Instant}
    (stands : db.Stands own there) : (db.answer operation now).2.Stands own there := by
  cases stands with
  | bare =>
    rw [answer_of_missing hasTables_bare]
    exact .bare
  | @live t =>
    cases operation with
    | error e => exact .live
    | ok run =>
      rw [answer_live]
      split <;> exact .live

theorem exists_answer_live {α : Type} (t : Tables) (operation : Except CatalogError (Operation α)) (now : Instant) :
    ∃ t', ((live t).answer operation now).2 = live t' := by
  have later : ((live t).answer operation now).2.Stands none true := Stands.live.answer
  generalize ((live t).answer operation now).2 = db at later
  cases later
  exact ⟨_, rfl⟩

theorem Stands.perform? {there : Bool} {call : Call} {now : Instant} {result : Except CatalogError Answer}
    {after : Database} (stands : db.Stands own there) (performed : db.perform? call now = some (result, after)) :
    after.Stands own there := by
  have later : (db.call call now).2.Stands own there := stands.answer
  rwa [call_of_perform? performed] at later

theorem Stands.reach {there : Bool} (stands : db.Stands own there) : db.reach = .ok () := by
  cases stands with
  | live => rfl
  | bare => exact reach_bare

end Database

namespace Catalog

variable {c other : Catalog} {events : List Event}

/-- What stands in the way of the schema of a catalog whose tables could be made. -/
theorem Fresh.checks (fresh : c.Fresh) : checkSchema c.schema = .ok () ∧
    ∀ name ∈ c.schema, SchemaRefusal.of? name = none := by
  simp only [Fresh, Database.ensure, bind_eq_ok, refuseIf_eq_ok] at fresh
  obtain ⟨_, named, _, _, _, taken, -⟩ := fresh
  refine ⟨named, fun name given => ?_⟩
  rw [given] at taken
  simpa using taken

/-- The schema of a catalog whose tables could be made can be dropped. -/
theorem Fresh.drop_eq (fresh : c.Fresh) (db : Database) :
    db.drop c.schema (some (homeSchema c.schema)) = db.reach.map fun _ => .bare c.schema := by
  obtain ⟨named, free⟩ := fresh.checks
  have checked : checkSchema (some (homeSchema c.schema)) = .ok () ∧
      SchemaRefusal.of? (homeSchema c.schema) = none := by
    cases given : c.schema with
    | none => exact ⟨by decide +kernel, by decide +kernel⟩
    | some name => exact ⟨given ▸ named, free name given⟩
  unfold Database.drop
  rw [checked.1]
  simp only [expect_some, ok_bind, checked.2, if_true]
  cases db <;> rfl

theorem Fresh.ensure_bare (fresh : c.Fresh) (dedicated : c.schema ≠ none) :
    Database.ensure c.schema (.bare c.schema) = .ok (.live .empty) := by
  obtain ⟨name, given⟩ := Option.ne_none_iff_exists'.mp dedicated
  have made := fresh
  rw [Fresh, fresh.database_eq] at made
  rw [given] at made ⊢
  exact made

theorem stands_step {there : Bool} {e : Event} (stands : c.database.Stands c.schema there) :
    (c.step e).2.database.Stands c.schema (Event.tablesAfter.note (homeSchema c.schema) there (e, (c.step e).1)) := by
  cases e with
  | call call =>
    cases performed : c.database.perform? call c.clock.reading with
    | none =>
      simp only [step, call?_of_none performed]
      exact stands
    | some made =>
      simp only [step, call?_of_perform? performed]
      exact stands.perform? performed
  | writeDataset | writeCounter => exact stands.answer
  | ping | setClock | snapshot => exact stands
  | ensureSchema =>
    simp only [step, withDatabase]
    cases made : c.database.ensure c.schema with
    | error err => exact stands
    | ok db =>
      rw [Database.ensure_eq_ok made]
      exact .live
  | dropSchema asked =>
    simp only [step, withDatabase]
    cases gone : c.database.drop c.schema asked with
    | error err => cases asked <;> exact stands
    | ok db =>
      obtain ⟨name, rfl, rfl⟩ := Database.drop_eq_ok gone
      by_cases own : name = homeSchema c.schema
      · simp only [Event.tablesAfter.note, own, if_true]
        exact .bare
      · simp only [Event.tablesAfter.note, own, if_false]
        exact stands

theorem stands_steps {own : Option String} {there : Bool} (same : c.schema = own)
    (stands : c.database.Stands own there) : (c.steps events).2.database.Stands own
      ((c.history events).foldl (Event.tablesAfter.note (homeSchema own)) there) := by
  induction events generalizing c there with
  | nil => exact stands
  | cons e rest ih =>
    subst same
    exact ih (c.step_schema e) (stands_step stands)

/-- Without a making of the tables they stay away. -/
theorem stays_bare (gone : c.database = .bare c.schema) (kept : ∀ e ∈ events, e ≠ .ensureSchema) :
    (c.steps events).2.database = .bare c.schema := by
  have never : (c.history events).foldl (Event.tablesAfter.note (homeSchema c.schema)) false = false := by
    refine List.foldlRecOn (motive := (· = false)) _ _ rfl fun there none entry member => ?_
    obtain ⟨e, response⟩ := entry
    have other := kept e (List.of_mem_zip member).1
    subst none
    unfold Event.tablesAfter.note
    split
    · split <;> rfl
    · rename_i same
      cases same
      exact absurd rfl other
    · rfl
  have later : (c.steps events).2.database.Stands c.schema
      ((c.history events).foldl (Event.tablesAfter.note (homeSchema c.schema)) false) :=
    stands_steps rfl (gone ▸ .bare)
  rw [never] at later
  generalize (c.steps events).2.database = db at later
  cases later
  rfl

/-- A drop of a schema that is not the home of either catalog is the same to both. -/
theorem drop_elsewhere {schema schema' : Option String} {name : String} {t : Tables}
    (apart : name ≠ homeSchema schema ∧ name ≠ homeSchema schema') :
    (Database.live t).drop schema (some name) = (Database.live t).drop schema' (some name) := by
  simp only [Database.drop, expect_some, ok_bind, if_neg apart.1, if_neg apart.2]

/-- An event is the same to catalogs that find the same tables, as long as it takes them away from neither. -/
theorem step_of_live {schema schema' : Option String} {clock : Clock} {t : Tables} {e : Event}
    (alike : ∀ t, Database.ensure schema (.live t) = .ok (.live t) ∧ Database.ensure schema' (.live t) = .ok (.live t))
    (kept : ∀ name, e = .dropSchema (some name) → name ≠ homeSchema schema ∧ name ≠ homeSchema schema') :
    ∃ response clock' t', step ⟨schema, clock, .live t⟩ e = (response, ⟨schema, clock', .live t'⟩) ∧
      step ⟨schema', clock, .live t⟩ e = (response, ⟨schema', clock', .live t'⟩) := by
  cases e with
  | call call =>
    cases performed : (Database.live t).perform? call clock.reading with
    | none =>
      simp only [step, call?, performed]
      exact ⟨_, _, _, rfl, rfl⟩
    | some made =>
      obtain ⟨result, db⟩ := made
      obtain ⟨t', after⟩ := Database.exists_answer_live t call.operation? clock.reading
      obtain rfl : db = .live t' := (congrArg Prod.snd (Database.call_of_perform? performed)).symm.trans after
      simp only [step, call?, performed]
      exact ⟨_, _, _, rfl, rfl⟩
  | ensureSchema =>
    simp only [step, (alike t).1, (alike t).2]
    exact ⟨_, _, _, rfl, rfl⟩
  | dropSchema asked =>
    cases asked with
    | none => exact ⟨_, _, _, rfl, rfl⟩
    | some name =>
      have apart := kept name rfl
      simp only [step, withDatabase, ← drop_elsewhere apart]
      cases gone : (Database.live t).drop schema (some name) with
      | error err => exact ⟨_, _, _, rfl, rfl⟩
      | ok db =>
        obtain ⟨_, ⟨⟩, rfl⟩ := Database.drop_eq_ok gone
        rw [if_neg apart.1]
        exact ⟨_, _, _, rfl, rfl⟩
  | writeDataset key dataset =>
    obtain ⟨t', after⟩ := Database.exists_answer_live t (.ok fun _ => Versions.setDataset key dataset) clock.reading
    simp only [step, run, after]
    exact ⟨_, _, _, rfl, rfl⟩
  | writeCounter name number =>
    obtain ⟨t', after⟩ := Database.exists_answer_live t (.ok fun _ => Models.setCounter name number) clock.reading
    simp only [step, run, after]
    exact ⟨_, _, _, rfl, rfl⟩
  | _ => exact ⟨_, _, _, rfl, rfl⟩

/-- As long as neither of them loses its schema, catalogs that find the same tables are the same to every user. -/
theorem steps_of_live {schema schema' : Option String} {clock : Clock} {t : Tables}
    (alike : ∀ t, Database.ensure schema (.live t) = .ok (.live t) ∧ Database.ensure schema' (.live t) = .ok (.live t))
    (kept : ∀ name, .dropSchema (some name) ∈ events → name ≠ homeSchema schema ∧ name ≠ homeSchema schema') :
    (steps ⟨schema, clock, .live t⟩ events).1 = (steps ⟨schema', clock, .live t⟩ events).1 := by
  induction events generalizing clock t with
  | nil => rfl
  | cons e rest ih =>
    obtain ⟨response, clock', t', first, first'⟩ :=
      @step_of_live _ _ clock t e alike fun name same => kept name (same ▸ List.mem_cons_self)
    simp only [steps, first, first', ih fun name later => kept name (List.mem_cons_of_mem _ later)]

/-- Right after the tables were made, catalogs with the same clock are the same to every user. If the schema of one of
them is dropped later on, it has to be the schema of both. -/
theorem Fresh.indistinguishable (fresh : c.Fresh) (fresh' : other.Fresh) (same : c.clock = other.clock)
    {events : List Event} (housed : ∀ name, .dropSchema (some name) ∈ events →
      name = homeSchema c.schema ∨ name = homeSchema other.schema → c.schema = other.schema) :
    (c.steps events).1 = (other.steps events).1 := by
  have database := fresh.database_eq
  have database' := fresh'.database_eq
  have remade : ∀ t, Database.ensure c.schema (.live t) = .ok (.live t) ∧
      Database.ensure other.schema (.live t) = .ok (.live t) := fun t => ⟨fresh.ensure_live t, fresh'.ensure_live t⟩
  obtain ⟨schema, clock, db⟩ := c
  obtain ⟨schema', clock', db'⟩ := other
  cases same
  cases database
  cases database'
  by_cases alike : schema = schema'
  · rw [alike]
  · exact steps_of_live remade fun name there => not_or.mp fun home => alike (housed name there home)

/-- A catalog under the schema of one whose tables could be made. -/
theorem Fresh.withTables {t : Tables} (fresh : c.Fresh) (same : other.schema = c.schema)
    (live : other.database = .live t) : other.WithTables := by
  have once : other.step .ensureSchema = (some (.ok .done), other) := by
    rw [step, same, live, fresh.ensure_live]
    change (some (Except.ok Reply.done), { other with database := Database.live t }) = _
    rw [← live]
  refine ⟨by rw [live]; rfl, fun n => ?_⟩
  induction n with
  | zero => rfl
  | succ n ih => simp only [List.replicate_succ, steps, once, ih]

/-- A catalog under that schema loses its tables when it is dropped. -/
theorem Fresh.step_drop (fresh : c.Fresh) (same : other.schema = c.schema) (server : other.database.reach = .ok ()) :
    other.step (.dropSchema (some (homeSchema c.schema))) =
      (some (.ok .done), { other with database := .bare c.schema }) := by
  have gone : other.database.drop other.schema (some (homeSchema c.schema)) = .ok (.bare c.schema) := by
    rw [same, fresh.drop_eq, server]
    rfl
  rw [step, gone]
  rfl

theorem Fresh.remade (fresh : c.Fresh) (same : other.schema = c.schema) :
    Fresh { other with database := .live .empty } := by
  have made := fresh
  rw [Fresh, fresh.database_eq] at made
  rw [Fresh, same]
  exact made

theorem Fresh.withoutTables (fresh : c.Fresh) (same : other.schema = c.schema)
    (gone : other.database = .bare c.schema) : other.WithoutTables := by
  have server : other.database.reach = .ok () := by rw [gone, Database.reach_bare]
  have missing : other.database.hasTables = false := by rw [gone, Database.hasTables_bare]
  constructor
  case refused => exact fun call fault refused => step_of_refusal refused
  case versions =>
    intro call free asks
    exact step_of_refuses (Database.refuses_without_tables (Call.startsFrom_versions asks) server missing free)
  case models =>
    intro call free apart
    exact step_of_refuses (Database.refuses_without_tables (Call.startsFrom_models apart) server missing free)
  case ping =>
    rw [step, server]
    rfl
  case dropAgain => rw [same, fresh.step_drop same server, ← gone]
  case remade =>
    intro dedicated
    have made : Database.ensure other.schema other.database = .ok (.live .empty) := by
      rw [gone, same, fresh.ensure_bare (same ▸ dedicated)]
    rw [step, made]
    rfl
  case homeless =>
    intro none
    have still : other.database = .homeless := by
      rw [gone, ← same, none]
      rfl
    rw [step, none, still]
    rfl

/-- All along a session the tables are there or they are not, as was last asked for. Making them where they are
changes nothing. Where they are not, only the arguments of a call are looked at before it is told so. Once they have
been dropped and made again, nobody can tell the catalog from one that has just been opened, whatever it held and
whatever was tried in between. What has no schema of its own drops nothing, and neither does a drop of any other
schema. -/
theorem tables_come_and_go (fresh : c.Fresh) (events : List Event) :
    let after := (c.steps events).2
    (Event.tablesAfter (homeSchema c.schema) (c.history events) = true → after.WithTables) ∧
    (Event.tablesAfter (homeSchema c.schema) (c.history events) = false → after.WithoutTables) ∧
    after.step (.dropSchema none) = (some (.error (.argument .noDedicatedSchema)), after) ∧
    (∀ name, name ≠ homeSchema c.schema → (after.step (.dropSchema (some name))).2 = after) ∧
    ∀ gap, c.schema ≠ none → (∀ e ∈ gap, e ≠ .ensureSchema) →
      let bare := (after.steps (.dropSchema c.schema :: gap)).2
      (after.step (.dropSchema c.schema)).1 = some (.ok .done) ∧ bare.WithoutTables ∧
      ∀ (other : Catalog) later, other.Fresh → other.clock = bare.clock →
        (∀ name, .dropSchema (some name) ∈ later →
          name = homeSchema c.schema ∨ name = homeSchema other.schema → c.schema = other.schema) →
        ((bare.step .ensureSchema).2.steps later).1 = (other.steps later).1 := by
  intro after
  have schema : after.schema = c.schema := c.steps_schema events
  have start : c.database.Stands c.schema true := by
    rw [fresh.database_eq]
    exact .live
  have stands : after.database.Stands c.schema (Event.tablesAfter (homeSchema c.schema) (c.history events)) :=
    stands_steps rfl start
  refine ⟨?there, ?gone, rfl, ?others, ?again⟩
  case there =>
    intro there
    rw [there] at stands
    generalize here : after.database = db at stands
    cases stands
    exact fresh.withTables schema here
  case gone =>
    intro gone
    rw [gone] at stands
    generalize here : after.database = db at stands
    cases stands
    exact fresh.withoutTables schema here
  case others =>
    intro name apart
    rw [← schema] at apart
    simp only [step, withDatabase]
    cases dropped : after.database.drop after.schema (some name) with
    | error err => rfl
    | ok db =>
      obtain ⟨_, ⟨⟩, rfl⟩ := Database.drop_eq_ok dropped
      rw [if_neg apart]
  case again =>
    intro gap dedicated kept bare
    obtain ⟨name, given⟩ := Option.ne_none_iff_exists'.mp dedicated
    have home : c.schema = some (homeSchema c.schema) := by rw [given]; rfl
    have dropped : after.step (.dropSchema c.schema) =
        (some (.ok .done), { after with database := .bare c.schema }) :=
      (congrArg (fun asked => after.step (.dropSchema asked)) home).trans (fresh.step_drop schema stands.reach)
    have gone : bare.database = .bare c.schema := by
      change ((after.step (.dropSchema c.schema)).2.steps gap).2.database = .bare c.schema
      rw [dropped]
      have later := stays_bare (c := { after with database := .bare c.schema }) (by rw [schema]) kept
      rw [later, schema]
    have schema' : bare.schema = c.schema := (after.steps_schema _).trans schema
    have life := fresh.withoutTables schema' gone
    refine ⟨by rw [dropped], life, fun other later fresh' same housed => ?_⟩
    rw [life.remade (schema' ▸ dedicated)]
    refine (fresh.remade schema').indistinguishable fresh' same.symm fun name there home => ?_
    rw [schema'] at home ⊢
    exact housed name there home

/-- A catalog with a dedicated schema, right after its tables were made. -/
def housed : Catalog :=
  { opened with schema := some "registry" }

theorem housed_again :
    let kept := (housed.steps trial).2
    let bare := (kept.steps [.dropSchema (some "registry"), .call (.createModel "b" none []),
      .setClock (.ofSeconds 60)]).2
    let again := (bare.step .ensureSchema).2
    housed.Fresh ∧ (kept.step (.dropSchema (some "archive"))).2 = kept ∧
      bare.step (.call (.getModel "\x00")) = (some (.error (.storage (.missingRelation .models))), bare) ∧
      (again.steps trial).1 = (steps { opened with clock := .showing (.ofSeconds 60) } trial).1 := by
  intro kept bare again
  have fresh : housed.Fresh := by
    rw [Fresh]
    decide +kernel
  have dedicated : housed.schema ≠ none := Option.some_ne_none _
  obtain ⟨-, -, -, elsewhere, life⟩ := tables_come_and_go fresh trial
  obtain ⟨-, without, alike⟩ :=
    life [.call (.createModel "b" none []), .setClock (.ofSeconds 60)] dedicated (by simp)
  refine ⟨fresh, elsewhere "archive" (by decide), without.models (.getModel "\x00") rfl ?_,
    alike _ trial rfl rfl (by simp [trial])⟩
  rintro (about | ⟨_, _, other⟩)
  · exact about rfl
  · cases other

end Catalog

end ModelCatalog
