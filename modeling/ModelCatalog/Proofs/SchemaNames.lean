import ModelCatalog.Proofs.ArgumentChecks
import ModelCatalog.Proofs.PasswordMasking
import ModelCatalog.Proofs.SchemaGrammar
import ModelCatalog.Settings.Connection

namespace ModelCatalog

open SchemaName (IsWellFormed)

/-- A schema is asked for by this name, and it is no schema name. -/
def Misnamed (schema : Option String) (name : String) : Prop :=
  schema = some name ∧ ¬IsWellFormed name

section Checks

variable {α : Type} {schema : Option String} {name : String} {db : Database}

theorem schemaFault?_eq_some_iff {fault : ArgumentFault} :
    schemaFault? schema = some fault ↔ ∃ name, Misnamed schema name ∧ fault = .schemaName name := by
  cases schema with
  | none =>
    constructor
    · intro faulty
      cases faulty
    · rintro ⟨_, ⟨⟨⟩, _⟩, _⟩
  | some name =>
    rw [schemaFault?, Option.bind_some]
    constructor
    · intro faulty
      split at faulty
      · cases faulty
      · rename_i unnamed
        cases faulty
        exact ⟨name, ⟨rfl, fun wellFormed => unnamed (SchemaName.isIdentifier_iff.mpr wellFormed)⟩, rfl⟩
    · rintro ⟨_, ⟨⟨⟩, outside⟩, rfl⟩
      exact if_neg fun named => outside (SchemaName.isIdentifier_iff.mp named)

theorem checkSchema_eq_error_iff {e : CatalogError} :
    checkSchema schema = .error e ↔ ∃ name, Misnamed schema name ∧ e = .argument (.schemaName name) := by
  constructor
  · intro failed
    cases faulty : schemaFault? schema with
    | none => cases failed.symm.trans (checkSchema_of_none faulty)
    | some fault =>
      cases failed.symm.trans (checkSchema_of_fault faulty)
      obtain ⟨name, misnamed, rfl⟩ := schemaFault?_eq_some_iff.mp faulty
      exact ⟨name, misnamed, rfl⟩
  · rintro ⟨name, misnamed, rfl⟩
    exact checkSchema_of_fault (schemaFault?_eq_some_iff.mpr ⟨name, misnamed, rfl⟩)

theorem message_schemaName (name : String) : (CatalogError.argument (.schemaName name)).message =
    "Invalid argument: Invalid schema name: " ++ name := by
  have joined : "Invalid argument: Invalid schema name: " = "Invalid argument: " ++ "Invalid schema name: " := by decide
  rw [joined, String.append_assoc]
  unfold CatalogError.message ArgumentFault.message
  simp only [ToString.toString]

/-- What a check of the schema's name comes to, if it is the first one that is made. -/
theorem refused_iff {x : Except CatalogError α}
    (refused : ∀ fault, schemaFault? schema = some fault → x = .error (.argument fault))
    (free : schemaFault? schema = none → ∀ name, x ≠ .error (.argument (.schemaName name))) :
    x = .error (.argument (.schemaName name)) ↔ Misnamed schema name := by
  constructor
  · intro failed
    cases faulty : schemaFault? schema with
    | none => exact absurd failed (free faulty name)
    | some fault =>
      obtain ⟨other, misnamed, rfl⟩ := schemaFault?_eq_some_iff.mp faulty
      rw [refused _ faulty] at failed
      cases failed
      exact misnamed
  · intro misnamed
    exact refused _ (schemaFault?_eq_some_iff.mpr ⟨name, misnamed, rfl⟩)

/-- What can only fail late does not fail for the name of a schema. -/
theorem Raises.ne_schemaName {x : Except CatalogError α} (late : Raises CatalogError.IsLate x) (name : String) :
    x ≠ .error (.argument (.schemaName name)) := fun failed => by
  obtain ⟨_, same⟩ := late _ failed
  cases same

end Checks

namespace Database

variable {own schema : Option String} {name : String} {db : Database}

theorem ensure_refused_iff : db.ensure schema = .error (.argument (.schemaName name)) ↔ Misnamed schema name :=
  refused_iff (fun _ => ensure_of_fault) fun free => (Raises.late_ensure free).ne_schemaName

theorem drop_refused_iff : db.drop own schema = .error (.argument (.schemaName name)) ↔ Misnamed schema name := by
  cases schema with
  | none => exact iff_of_false nofun fun misnamed => nomatch misnamed.1
  | some other => exact refused_iff (fun _ => drop_of_fault) fun free => (Raises.late_drop free).ne_schemaName

end Database

namespace Settings

variable {s : Settings} {name : String} {answers : Bool} {lookup : String → Option String}

theorem pool_of_fault {fault : ArgumentFault} (refused : schemaFault? s.schema = some fault) :
    s.pool = .error (.argument fault) := by
  unfold pool
  rw [checkSchema_of_fault refused]
  rfl

theorem late_pool (free : schemaFault? s.schema = none) : Raises CatalogError.IsLate s.pool := by
  refine .after (checkSchema_of_none free) fun e raised => ?_
  split at raised <;> cases raised
  trivial

theorem pool_refused_iff : s.pool = .error (.argument (.schemaName name)) ↔ Misnamed s.schema name :=
  refused_iff (fun _ => pool_of_fault) fun free => (late_pool free).ne_schemaName

theorem connect?_refused_iff :
    s.connect? answers = some (.error (.argument (.schemaName name))) ↔ Misnamed s.schema name := by
  rw [← pool_refused_iff, connect?]
  cases s.pool with
  | error e => exact Option.some_inj
  | ok pool =>
    -- With a pool, the only error left is that the server does not answer.
    refine iff_of_false (fun failed => ?_) nofun
    obtain ⟨url, -, unanswered⟩ := Option.map_eq_some_iff.mp failed
    split at unanswered <;> cases unanswered

/-- All that look at the name of the schema refuse it for the same reason, and whatever the server does, even if there
is none. -/
structure ChecksAgree (s : Settings) : Prop where
  check : ∀ e, checkSchema s.schema = .error e ↔ ∃ name, Misnamed s.schema name ∧ e = .argument (.schemaName name)
  pool : ∀ name, s.pool = .error (.argument (.schemaName name)) ↔ Misnamed s.schema name
  connect : ∀ answers name, s.connect? answers = some (.error (.argument (.schemaName name))) ↔ Misnamed s.schema name
  ensure : ∀ (db : Database) name, db.ensure s.schema = .error (.argument (.schemaName name)) ↔ Misnamed s.schema name
  drop : ∀ own (db : Database) name,
    db.drop own s.schema = .error (.argument (.schemaName name)) ↔ Misnamed s.schema name

theorem checksAgree (s : Settings) : ChecksAgree s where
  check _ := checkSchema_eq_error_iff
  pool _ := pool_refused_iff
  connect _ _ := connect?_refused_iff
  ensure _ _ := Database.ensure_refused_iff
  drop _ _ _ := Database.drop_refused_iff

/-- What becomes of the schema that a variable names: a blank text names none, and any other is taken as it stands, so
that it is refused where the settings are first used unless it is a schema name. -/
structure TakesSchema (text : Option String) (s : Settings) : Prop where
  absent : s.schema = none ↔ ∀ chars, text = some chars → ∀ c ∈ chars.toList, isBlank c = true
  present : ∀ chars, text = some chars → (∃ c ∈ chars.toList, isBlank c = false) → s.schema = some chars ∧
    ∀ answers, s.connect? answers = some (.error (.argument (.schemaName chars))) ↔ ¬IsWellFormed chars
  blanks : ∀ chars, text = some chars → (∃ c ∈ chars.toList, isBlank c = false) →
    (∃ c ∈ chars.toList, isBlank c = true) →
    ∀ answers, s.connect? answers = some (.error (.argument (.schemaName chars)))

theorem schema_of_ok (made : ofVariables lookup = .ok s) :
    s.schema = (lookup "MODEL_REGISTRY_SCHEMA").filter fun chars => !chars.toList.all isBlank := by
  obtain ⟨-, rfl⟩ := ofVariables_eq_ok_iff.mp made
  rfl

theorem schema_of_visible {chars : String} (made : ofVariables lookup = .ok s)
    (set : lookup "MODEL_REGISTRY_SCHEMA" = some chars) (visible : ∃ c ∈ chars.toList, isBlank c = false) :
    s.schema = some chars := by
  have inked : chars.toList.all isBlank = false := List.all_eq_false.mpr (by simpa using visible)
  rw [schema_of_ok made, set, Option.filter_some, inked]
  rfl

theorem schema_eq_none_iff (made : ofVariables lookup = .ok s) : s.schema = none ↔
    ∀ chars, lookup "MODEL_REGISTRY_SCHEMA" = some chars → ∀ c ∈ chars.toList, isBlank c = true := by
  constructor
  · intro absent chars set c inside
    by_contra visible
    rw [schema_of_visible made set ⟨c, inside, Bool.eq_false_iff.mpr visible⟩] at absent
    cases absent
  · intro blank
    rw [schema_of_ok made]
    cases set : lookup "MODEL_REGISTRY_SCHEMA" with
    | none => rfl
    | some chars =>
      rw [Option.filter_some, List.all_eq_true.mpr (blank chars set)]
      rfl

theorem takesSchema (made : ofVariables lookup = .ok s) : TakesSchema (lookup "MODEL_REGISTRY_SCHEMA") s where
  absent := schema_eq_none_iff made
  present chars set visible := by
    have named := schema_of_visible made set visible
    exact ⟨named, fun answers => connect?_refused_iff.trans (and_iff_right named)⟩
  blanks := by
    rintro chars set visible ⟨c, inside, blank⟩ answers
    refine connect?_refused_iff.mpr ⟨schema_of_visible made set visible, fun wellFormed => ?_⟩
    rw [SchemaName.isBlank_of_mem (wellFormed.followers c inside)] at blank
    cases blank

end Settings

namespace Catalog

variable {c : Catalog} {s : Settings} {name : String} {answers : Bool} {pool : Pool}

theorem ensureSchema_refused_iff :
    (c.step .ensureSchema).1 = some (.error (.argument (.schemaName name))) ↔ Misnamed c.schema name := by
  rw [← @Database.ensure_refused_iff c.schema name c.database]
  simp only [step, withDatabase]
  cases c.database.ensure c.schema with
  | ok db => simp only [Option.some.injEq, reduceCtorEq]
  | error e => simp only [Option.some.injEq, Except.error.injEq]

/-- What has been connected once is never refused for the name of its schema, since the name stays what it was. -/
theorem ensureSchema_of_connected (connected : s.connect? answers = some (.ok pool)) (opened : c.schema = s.schema)
    (events : List Event) (name : String) :
    ((c.steps events).2.step .ensureSchema).1 ≠ some (.error (.argument (.schemaName name))) := by
  intro failed
  have misnamed := ensureSchema_refused_iff.mp failed
  rw [c.steps_schema, opened] at misnamed
  have refused : s.connect? answers = _ := Settings.connect?_refused_iff.mpr misnamed
  cases connected.symm.trans refused

/-- The texts that are accepted as names of schemas are those of the grammar, whether their length is counted in
characters or in bytes, and nothing in them is more than a letter, a digit or an underscore. All that take such a name
refuse the same texts with the same words, and need no server for it, so that what has been connected is not refused
later, however it has been used. The variable for the schema is not trimmed. -/
theorem schema_names_agree :
    (∀ name, isIdentifier name = true ↔ IsWellFormed name) ∧
    (∀ name, isIdentifier name = true ↔ name.utf8ByteSize ≤ 63 ∧
      (∃ c ∈ SchemaName.initials, name.toList.head? = some c) ∧ ∀ c ∈ name.toList, c ∈ SchemaName.followers) ∧
    (∀ name, isIdentifier name = true → ∀ c ∈ name.toList, c.toNat < 128 ∧ c ∉ [' ', '\'', '"', ';', '=']) ∧
    (∀ name, (CatalogError.argument (.schemaName name)).kind = .invalidArgument ∧
      (CatalogError.argument (.schemaName name)).message = "Invalid argument: Invalid schema name: " ++ name) ∧
    (∀ s : Settings, s.ChecksAgree) ∧
    (∀ (s : Settings) answers pool, s.connect? answers = some (.ok pool) →
      ∀ (c : Catalog) events name, c.schema = s.schema →
        ((c.steps events).2.step .ensureSchema).1 ≠ some (.error (.argument (.schemaName name)))) ∧
    ∀ lookup s, Settings.ofVariables lookup = .ok s → s.TakesSchema (lookup "MODEL_REGISTRY_SCHEMA") := by
  refine ⟨fun name => SchemaName.isIdentifier_iff, fun name => ?_, fun name accepted c inside => ?_, fun name => ?_,
    Settings.checksAgree, fun s answers pool connected c events name opened => ?_, fun lookup s => Settings.takesSchema⟩
  · exact SchemaName.isIdentifier_iff.trans SchemaName.isWellFormed_iff_bytes
  · have wellFormed := SchemaName.isIdentifier_iff.mp accepted
    exact SchemaName.plain_of_mem (wellFormed.followers c inside)
  · exact ⟨rfl, message_schemaName name⟩
  · exact ensureSchema_of_connected connected opened events name

/-- Variables with nothing but the text for the schema, and a database to connect with. -/
def schemaVariables (chars : String) (name : String) : Option String :=
  [("DATABASE_URL", "postgres://u@h/d"), ("MODEL_REGISTRY_SCHEMA", chars)].lookup name

/-- An underscore and a digit are in the grammar, a blank at the end is not. -/
theorem scratch_agrees :
    let s := Settings.described (schemaVariables "_scratch2")
    let s' := Settings.described (schemaVariables "scratch ")
    let c : Catalog := ⟨s.schema, .showing (.ofSeconds 0), .dropped⟩
    isIdentifier "_scratch2" = true ∧ (∀ c ∈ "_scratch2".toList, c.toNat < 128) ∧
      s.connect? true = some (.ok ⟨0, 10⟩) ∧
      ((c.steps [.ping]).2.step .ensureSchema).1 ≠ some (.error (.argument (.schemaName "_scratch2"))) ∧
      Settings.ofVariables (schemaVariables "scratch ") = .ok s' ∧ ¬IsWellFormed "scratch " ∧
      ∀ answers, s'.connect? answers = some (.error (.argument (.schemaName "scratch "))) := by
  intro s s' c
  obtain ⟨grammatical, -, plain, -, -, connected, taken⟩ := schema_names_agree
  have accepted : isIdentifier "_scratch2" = true := by decide
  have pool : s.connect? true = some (.ok ⟨0, 10⟩) := by decide +kernel
  have made : Settings.ofVariables (schemaVariables "scratch ") = .ok s' := by decide +kernel
  have ends : ∃ c ∈ "scratch ".toList, isBlank c = true := ⟨' ', by decide, by decide⟩
  have visible : ∃ c ∈ "scratch ".toList, isBlank c = false := ⟨'s', by decide, by decide⟩
  have outside : ¬IsWellFormed "scratch " := fun wellFormed =>
    absurd ((grammatical "scratch ").mpr wellFormed) (by decide)
  exact ⟨accepted, fun c inside => (plain _ accepted c inside).1, pool, connected s true _ pool c [.ping] _ rfl, made,
    outside, fun answers => (taken _ s' made).blanks _ rfl visible ends answers⟩

end Catalog

end ModelCatalog
