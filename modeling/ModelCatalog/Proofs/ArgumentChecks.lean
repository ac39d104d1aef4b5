import ModelCatalog.Proofs.StorageFaults
import ModelCatalog.Proofs.MissingModels

namespace ModelCatalog

/-- The fault that the arguments of a call have by themselves, the first one if there are several. -/
def Call.refusal? : Call → Option ArgumentFault
  | createModel name _ tags =>
    if name = "" then some .emptyModelName else if "" ∈ tags then some .emptyTag else none
  | renameModel name newName =>
    if newName = "" then some .emptyModelName
    else if name = newName then some (.sameModelName name) else none
  | createVersion _ draft => if "" ∈ draft.tags then some .emptyTag else none
  | tagModel _ tag | untagModel _ tag | tagVersion _ tag | untagVersion _ tag =>
    if tag = "" then some .emptyTag else none
  | moveVersion _ stage => if Stage.ofText? stage = none then some (.unknownStage stage) else none
  | _ => none

namespace Operation

variable {α β : Type} {name tag : String} {tags : List String}

theorem requireModelName_eq : requireModelName name =
    if name = "" then .error (.argument .emptyModelName) else .ok () := by
  split
  · subst name
    rfl
  · rename_i filled
    exact requireModelName_ok.mpr filled

theorem requireTag_eq : requireTag tag = if tag = "" then .error (.argument .emptyTag) else .ok () := by
  split
  · subst tag
    rfl
  · rename_i filled
    exact requireTag_ok.mpr filled

theorem creationTags_of_mem (empty : "" ∈ tags) : creationTags tags = .error (.argument .emptyTag) := by
  have fold : ∀ seen, creationTags.go seen tags = .error (.argument .emptyTag) := by
    induction tags with
    | nil => exact absurd empty List.not_mem_nil
    | cons tag rest ih =>
      intro seen
      rw [creationTags.go, requireTag_eq]
      split
      · rfl
      · rename_i filled
        have later := ih ((List.mem_cons.mp empty).resolve_left (Ne.symm filled))
        rw [ok_bind]
        split
        · exact later seen
        · rw [later, error_bind]
  exact fold []

theorem creationTags_eq : creationTags tags =
    if "" ∈ tags then .error (.argument .emptyTag) else .ok tags.eraseDups := by
  split
  · exact creationTags_of_mem ‹_›
  · rename_i filled
    exact creationTags_ok.mpr ⟨fun _ there empty => filled (empty ▸ there), rfl⟩

/-- What an operation says to its arguments before it runs. -/
def verdict (operation : Except CatalogError (Operation α)) : Except CatalogError Unit :=
  operation.map fun _ => ()

theorem verdict_answering {f : α → Answer} {operation : Except CatalogError (Operation α)} :
    verdict (answering f operation) = verdict operation := by
  cases operation <;> rfl

end Operation

open Operation (verdict) in
/-- A call looks at its arguments before anything else, and refuses just the faulty ones. -/
theorem Call.verdict_operation? (call : Call) :
    verdict call.operation? = refuseIf (call.refusal?.map .argument) := by
  cases call <;> simp only [operation?, Operation.verdict_answering, refusal?]
  case createModel name description tags =>
    simp only [Operation.createModel, Operation.requireModelName_eq, Operation.creationTags_eq]
    split
    · rfl
    · split <;> rfl
  case renameModel name newName =>
    simp only [Operation.renameModel, Operation.requireModelName_eq]
    split
    · rfl
    · by_cases same : name = newName
      · simp [same, demand, ok_bind]
        rfl
      · simp [same, demand, ok_bind]
        rfl
  case createVersion name draft =>
    simp only [Operation.createVersion, Operation.creationTags_eq]
    split <;> rfl
  case tagModel | untagModel | tagVersion | untagVersion =>
    simp only [Operation.tagModel, Operation.untagModel, Operation.tagVersion, Operation.untagVersion,
      Operation.requireTag_eq]
    split <;> rfl
  case moveVersion key text =>
    simp only [Operation.moveVersion, Operation.stageOf]
    cases Stage.ofText? text <;> rfl
  all_goals rfl

theorem Call.operation?_of_refusal {call : Call} {fault : ArgumentFault} (refused : call.refusal? = some fault) :
    call.operation? = .error (.argument fault) := by
  have said := call.verdict_operation?
  rw [refused] at said
  cases asked : call.operation? <;> rw [asked] at said <;> cases said
  rfl

theorem Call.accepted {call : Call} (free : call.refusal? = none) : ∃ run, call.operation? = .ok run := by
  have said := call.verdict_operation?
  rw [free] at said
  cases asked : call.operation? <;> rw [asked] at said <;> cases said
  exact ⟨_, rfl⟩

/-- The errors that are left once the arguments of a call have been accepted. Of its arguments only the width of
a text is found at fault by then. -/
def CatalogError.IsLate : CatalogError → Prop
  | .argument fault => ∃ width, fault = .tooLong width
  | _ => True

namespace Raises

variable {α β : Type} {expected : CatalogError → Prop} {tags : List String} {width : Nat}

/-- A check that is passed raises nothing. -/
theorem after {x : Except CatalogError β} {f : β → Except CatalogError α} {b : β} (passed : x = .ok b)
    (later : Raises expected (f b)) : Raises expected (x >>= f) := by
  rw [passed]
  exact later

theorem late_given {ps : List Parameter} : Raises CatalogError.IsLate (ModelCatalog.given ps) := by
  intro e raised
  cases found : ps.findSome? Parameter.fault? <;> simp only [ModelCatalog.given, found] at raised <;> cases raised
  trivial

theorem late_fit {s : String} : Raises CatalogError.IsLate (ModelCatalog.fit width s) := by
  intro e raised
  cases room : fits width s <;> simp only [ModelCatalog.fit, room] at raised <;> cases raised
  exact ⟨width, rfl⟩

theorem late_fitOptional {s : Option String} : Raises CatalogError.IsLate (ModelCatalog.fitOptional width s) := by
  cases s with
  | none => exact .ok
  | some s => exact late_fit.map

theorem late_vet {key : String → RowKey} {before : List String} :
    Raises CatalogError.IsLate (TagRow.vet key before tags) := by
  induction tags generalizing before with
  | nil => exact .ok
  | cons tag rest ih =>
    exact .bind late_given fun _ _ => .bind late_fit fun _ _ => .bind (.demand fun _ => trivial) fun _ _ => ih

theorem late_draft {draft : VersionDraft} : Raises CatalogError.IsLate draft.vet :=
  .bind late_given fun _ _ => .bind late_fit fun _ _ => .bind late_fit fun _ _ => .bind late_fit fun _ _ =>
    .bind late_fit fun _ _ => .bind late_fitOptional fun _ _ => .ok

end Raises

open Operation in
/-- A call whose arguments have been accepted fails, if at all, for what is found in the database. -/
theorem Call.fails_late {call : Call} {now : Instant} {t : Tables} (sound : t.Sound)
    (accepted : ∃ run, call.operation? = .ok run) : Raises CatalogError.IsLate (attempt call.operation? now t) := by
  cases call <;> simp only [operation?] at accepted ⊢ <;> apply Raises.answering <;>
    obtain ⟨run, accepted⟩ := accepted_of_answering accepted
  case getModel name =>
    rw [attempt_getModel]
    exact .bind .late_given fun _ _ => .bind (.expect trivial) fun _ _ => .ok
  case getVersion key =>
    rw [attempt_getVersion]
    exact .bind .late_given fun _ _ => .bind (.expect trivial) fun _ _ => .ok
  case versionUri key =>
    rw [attempt_versionUri]
    exact .bind .late_given fun _ _ => .bind (.expect trivial) fun _ _ => .ok
  case listModels filter tags =>
    rw [attempt_listModels]
    exact .bind .late_given fun _ _ => .ok
  case listVersions name tags =>
    rw [attempt_listVersions]
    exact .bind .late_given fun _ _ => .ok
  case createModel name description tags =>
    obtain ⟨_, named, accepted⟩ := bind_eq_ok.mp accepted
    obtain ⟨kept, filled, -⟩ := bind_eq_ok.mp accepted
    rw [attempt_createModel sound]
    exact .after named (.after filled (.bind .late_given fun _ _ => .bind .late_fit fun _ _ =>
      .bind .late_fitOptional fun _ _ => .bind (.demand fun _ => trivial) fun _ _ => .bind .late_vet fun _ _ => .ok))
  case describeModel name text =>
    rw [attempt_describeModel]
    exact .bind .late_given fun _ _ => .bind .late_fit fun _ _ => .bind (.expect trivial) fun _ _ => .ok
  case renameModel name newName =>
    obtain ⟨_, named, accepted⟩ := bind_eq_ok.mp accepted
    obtain ⟨_, differ, -⟩ := bind_eq_ok.mp accepted
    rw [attempt_renameModel sound]
    exact .after named (.after differ (.bind .late_given fun _ _ => .bind (.expect trivial) fun _ _ =>
      .bind .late_given fun _ _ => .bind (.demand fun _ => trivial) fun _ _ => .bind .late_given fun _ _ =>
      .bind .late_fit fun _ _ => .bind (.demand fun _ => trivial) fun _ _ =>
      .bind (.demand fun _ => trivial) fun _ _ => .ok))
  case deleteModel name =>
    rw [attempt_deleteModel]
    exact .bind .late_given fun _ _ => .bind (.expect trivial) fun _ _ => .ok
  case tagModel name tag =>
    obtain ⟨_, filled, -⟩ := bind_eq_ok.mp accepted
    rw [attempt_tagModel sound]
    refine .after filled (.bind .late_given fun _ _ => .bind (.expect trivial) fun _ _ => .bind .late_given fun _ _ =>
      .bind (.demand fun _ => trivial) fun _ _ => .bind .late_fit fun stored _ => ?_)
    split
    · exact .ok
    · exact .bind .late_given fun _ _ => .ok
  case untagModel name tag =>
    obtain ⟨_, filled, -⟩ := bind_eq_ok.mp accepted
    rw [attempt_untagModel]
    exact .after filled (.bind .late_given fun _ _ => .bind (.expect trivial) fun _ _ => .bind .late_given fun _ _ =>
      .bind (.demand fun _ => trivial) fun _ _ => .bind .late_given fun _ _ => .ok)
  case createVersion name draft =>
    obtain ⟨kept, filled, -⟩ := bind_eq_ok.mp accepted
    rw [attempt_createVersion sound]
    exact .after filled (.bind .late_given fun _ _ => .bind (.expect trivial) fun _ _ =>
      .bind (.demand fun _ => trivial) fun _ _ => .bind .late_draft fun _ _ =>
      .bind (.demand fun _ => trivial) fun _ _ => .bind .late_vet fun _ _ => .ok)
  case describeVersion key text =>
    rw [attempt_describeVersion sound]
    exact .bind .late_given fun _ _ => .bind .late_fit fun _ _ => .bind (.expect trivial) fun _ _ => .ok
  case moveVersion key text =>
    obtain ⟨stage, meant, -⟩ := bind_eq_ok.mp accepted
    rw [attempt_moveVersion sound]
    exact .after meant (.bind .late_given fun _ _ => .bind (.expect trivial) fun _ _ => .ok)
  case deleteVersion key =>
    rw [attempt_deleteVersion sound]
    exact .bind .late_given fun _ _ => .bind (.expect trivial) fun _ _ => .bind .late_given fun _ _ => .ok
  case tagVersion key tag =>
    obtain ⟨_, filled, -⟩ := bind_eq_ok.mp accepted
    rw [attempt_tagVersion sound]
    refine .after filled (.bind .late_given fun _ _ => .bind (.expect trivial) fun _ _ => .bind .late_given fun _ _ =>
      .bind (.demand fun _ => trivial) fun _ _ => .bind .late_fit fun stored _ => ?_)
    split
    · exact .ok
    · exact .bind .late_given fun _ _ => .ok
  case untagVersion key tag =>
    obtain ⟨_, filled, -⟩ := bind_eq_ok.mp accepted
    rw [attempt_untagVersion sound]
    exact .after filled (.bind .late_given fun _ _ => .bind (.expect trivial) fun _ _ => .bind .late_given fun _ _ =>
      .bind (.demand fun _ => trivial) fun _ _ => .bind .late_given fun _ _ => .ok)

/-- What is wrong with the name of a dedicated schema. -/
def schemaFault? (schema : Option String) : Option ArgumentFault :=
  schema.bind fun name => if isIdentifier name then none else some (.schemaName name)

theorem checkSchema_eq {schema : Option String} :
    checkSchema schema = refuseIf ((schemaFault? schema).map .argument) := by
  cases schema with
  | none => rfl
  | some name => cases named : isIdentifier name <;> simp [checkSchema, schemaFault?, named, demand, refuseIf]

theorem checkSchema_of_fault {schema : Option String} {fault : ArgumentFault}
    (refused : schemaFault? schema = some fault) : checkSchema schema = .error (.argument fault) := by
  rw [checkSchema_eq, refused]
  rfl

theorem checkSchema_of_none {schema : Option String} (free : schemaFault? schema = none) :
    checkSchema schema = .ok () := by
  rw [checkSchema_eq, free]
  rfl

namespace Event

/-- The fault that an event has by itself, in a catalog that was opened for this schema. -/
def refusal? (schema : Option String) : Event → Option ArgumentFault
  | call k => k.refusal?
  | ensureSchema => schemaFault? schema
  | dropSchema none => some .noDedicatedSchema
  | dropSchema (some name) => schemaFault? (some name)
  | _ => none

/-- What the catalog offers its users. The other events set the scene for it, or look behind it. -/
def IsOffered : Event → Prop
  | call _ | ping | ensureSchema | dropSchema _ => True
  | _ => False

end Event

namespace Raises

variable {schema : Option String} {db : Database}

theorem late_reach : Raises CatalogError.IsLate db.reach := by
  cases db with
  | unreachable => exact fun _ raised => by cases raised; trivial
  | _ => exact .ok

theorem late_ensure (free : schemaFault? schema = none) : Raises CatalogError.IsLate (db.ensure schema) := by
  refine .after (checkSchema_of_none free) (.bind late_reach fun _ _ => .bind ?_ fun _ _ => ?_)
  · intro e raised
    cases schema with
    | none => cases raised
    | some name =>
      cases taken : SchemaRefusal.of? name <;> simp only [Option.bind_some, taken] at raised <;> cases raised
      trivial
  · intro e raised
    split at raised <;> cases raised
    trivial

theorem late_drop {own : Option String} {name : String} (free : schemaFault? (some name) = none) :
    Raises CatalogError.IsLate (db.drop own (some name)) := by
  refine .after (checkSchema_of_none free) (.after rfl (.bind late_reach fun _ _ => ?_))
  intro e raised
  split at raised <;> cases raised <;> trivial

end Raises

/-- What may become of the database behind a catalog: its server is gone, or just its tables are, or it holds what
some session made of it. -/
def Database.Condition (db : Database) : Prop :=
  db.hasTables = false ∨ db.Reached fun _ => True

namespace Database

variable {db : Database} {schema : Option String} {fault : ArgumentFault} {call : Call} {now : Instant}

theorem Condition.sound {t : Tables} (condition : (live t).Condition) : t.Sound := by
  rcases condition with gone | reached
  · cases gone
  · exact reached.sound

theorem refuses_of_refusal (refused : call.refusal? = some fault) : db.Refuses call now (.argument fault) := by
  refine refuses_of_call ?_
  rw [Database.call, Call.operation?_of_refusal refused]
  rfl

theorem unreachable_refuses (free : call.refusal? = none) :
    unreachable.Refuses call now (.unreachable databaseName) := by
  obtain ⟨run, accepted⟩ := Call.accepted free
  refine refuses_of_call ?_
  rw [Database.call, accepted]
  rfl

/-- Where the tables are missing, a call whose arguments are accepted is told which one it has asked for first. -/
theorem refuses_without_tables {relation : Relation} (first : Operation.StartsFrom relation call.operation?)
    (server : db.reach = .ok ()) (gone : db.hasTables = false) (free : call.refusal? = none) :
    db.Refuses call now (.storage (.missingRelation relation)) := by
  obtain ⟨run, accepted⟩ := Call.accepted free
  rw [accepted] at first
  refine refuses_of_call ?_
  rw [Database.call, accepted, answer_without_tables first server gone]

theorem call_fails_late (condition : db.Condition) (free : call.refusal? = none) :
    Raises CatalogError.IsLate (db.call call now).1 := by
  cases db with
  | unreachable =>
    rw [(unreachable_refuses free).called]
    exact fun _ raised => by cases raised; trivial
  | homeless | dropped =>
    obtain ⟨relation, first⟩ := call.exists_startsFrom
    rw [(refuses_without_tables first rfl rfl free).called]
    exact fun _ raised => by cases raised; trivial
  | live t =>
    rw [call_live]
    exact (Call.fails_late condition.sound (Call.accepted free)).map

theorem ensure_of_fault (refused : schemaFault? schema = some fault) :
    db.ensure schema = .error (.argument fault) := by
  unfold ensure
  rw [checkSchema_of_fault refused]
  rfl

theorem drop_of_fault {own : Option String} {name : String} (refused : schemaFault? (some name) = some fault) :
    db.drop own (some name) = .error (.argument fault) := by
  rw [drop, checkSchema_of_fault refused]
  rfl

theorem ensure_unreachable (free : schemaFault? schema = none) :
    unreachable.ensure schema = .error (.unreachable databaseName) := by
  unfold ensure
  rw [checkSchema_of_none free]
  rfl

theorem drop_unreachable {own : Option String} {name : String} (free : schemaFault? (some name) = none) :
    unreachable.drop own (some name) = .error (.unreachable databaseName) := by
  rw [drop, checkSchema_of_none free]
  rfl

end Database

namespace Catalog

variable {c : Catalog} {e : Event} {fault : ArgumentFault}

/-- What is at fault by itself is refused, whatever the database is, and nothing changes. -/
theorem step_of_refusal (refused : e.refusal? c.schema = some fault) :
    c.step e = (some (.error (.argument fault)), c) := by
  cases e with
  | call k => exact step_of_refuses (Database.refuses_of_refusal refused)
  | ensureSchema =>
    rw [step, Database.ensure_of_fault refused]
    rfl
  | dropSchema asked =>
    cases asked with
    | none =>
      cases refused
      rfl
    | some name =>
      rw [step, Database.drop_of_fault refused]
      rfl
  | _ => cases refused

/-- Without a server, what is not at fault by itself fails for lack of a connection. -/
theorem step_unreachable (gone : c.database = .unreachable) (offered : e.IsOffered)
    (free : e.refusal? c.schema = none) : c.step e = (some (.error (.unreachable databaseName)), c) := by
  obtain ⟨schema, clock, db⟩ := c
  cases gone
  cases e with
  | call k => exact step_of_refuses (Database.unreachable_refuses free)
  | ping => rfl
  | ensureSchema =>
    rw [step, Database.ensure_unreachable free]
    rfl
  | dropSchema asked =>
    cases asked with
    | none => cases free
    | some name =>
      rw [step, Database.drop_unreachable free]
      rfl
  | _ => cases offered

/-- What is not at fault by itself fails, if at all, for what is found in the database. -/
theorem step_fails_late (condition : c.database.Condition) (offered : e.IsOffered)
    (free : e.refusal? c.schema = none) {err : CatalogError} (failed : (c.step e).1 = some (.error err)) :
    err.IsLate := by
  have made : ∀ {result : Except CatalogError Database}, Raises CatalogError.IsLate result →
      (c.withDatabase result).1 = some (.error err) → err.IsLate := by
    intro result late failed
    cases result with
    | error raised =>
      cases failed
      exact late _ rfl
    | ok db => cases failed
  cases e with
  | call k =>
    simp only [step, Prod.map_fst, Option.map_eq_some_iff] at failed
    obtain ⟨result, answered, failed⟩ := failed
    cases result with
    | error raised =>
      cases failed
      exact Database.call_fails_late condition free _ (call_of_call? answered)
    | ok a => cases failed
  | ping => exact Raises.late_reach.map _ (Option.some.inj failed)
  | ensureSchema => exact made (.late_ensure free) failed
  | dropSchema asked =>
    cases asked with
    | none => cases free
    | some name => exact made (.late_drop free) failed
  | _ => cases offered

/-- Whether something is refused for what it asks, and how, can be said without looking at the database: what is
refused so under one condition of the database is refused alike under every other. Without a server all else fails
for lack of a connection, so that nothing is answered there, and nothing is found missing or taken. -/
theorem arguments_come_first (schema : Option String) (offered : e.IsOffered) :
    (∀ fault clock db, e.refusal? schema = some fault →
      step ⟨schema, clock, db⟩ e = (some (.error (.argument fault)), ⟨schema, clock, db⟩)) ∧
    (∀ fault clock db clock' db', db.Condition → (∀ width, fault ≠ .tooLong width) →
      (step ⟨schema, clock, db⟩ e).1 = some (.error (.argument fault)) →
        step ⟨schema, clock', db'⟩ e = (some (.error (.argument fault)), ⟨schema, clock', db'⟩)) ∧
    (∀ clock, e.refusal? schema = none →
      step ⟨schema, clock, .unreachable⟩ e =
        (some (.error (.unreachable "registry")), ⟨schema, clock, .unreachable⟩)) ∧
    ∀ clock, ∃ err, step ⟨schema, clock, .unreachable⟩ e = (some (.error err), ⟨schema, clock, .unreachable⟩) ∧
      (err.kind = .invalidArgument ∨ err.kind = .storage) := by
  refine ⟨fun fault clock db refused => step_of_refusal refused, ?alike, ?gone, ?kinds⟩
  case alike =>
    intro fault clock db clock' db' condition early refused
    cases known : e.refusal? schema with
    | none =>
      obtain ⟨width, same⟩ := step_fails_late condition offered known refused
      exact absurd same (early width)
    | some other =>
      have alike : step ⟨schema, clock, db⟩ e = _ := step_of_refusal known
      rw [alike] at refused
      cases refused
      exact step_of_refusal known
  case gone => exact fun clock free => step_unreachable rfl offered free
  case kinds =>
    intro clock
    cases known : e.refusal? schema with
    | none => exact ⟨_, step_unreachable rfl offered known, .inr rfl⟩
    | some fault => exact ⟨_, step_of_refusal known, .inl rfl⟩

theorem empty_tag_comes_first :
    let lost : Catalog := ⟨none, opened.clock, .unreachable⟩
    opened.database.Condition ∧
      (opened.step (.call (.tagVersion ⟨"a", 1⟩ ""))).1 = some (.error (.argument .emptyTag)) ∧
      lost.step (.call (.tagVersion ⟨"a", 1⟩ "")) = (some (.error (.argument .emptyTag)), lost) ∧
      lost.step (.call (.tagVersion ⟨"a", 1⟩ "t")) = (some (.error (.unreachable "registry")), lost) := by
  intro lost
  have condition : opened.database.Condition := .inr ⟨opened, [], fresh_opened, nofun, rfl⟩
  have refused : (opened.step (.call (.tagVersion ⟨"a", 1⟩ ""))).1 = some (.error (.argument .emptyTag)) := by
    decide +kernel
  obtain ⟨-, alike, -, -⟩ := arguments_come_first (e := .call (.tagVersion ⟨"a", 1⟩ "")) none trivial
  obtain ⟨-, -, gone, -⟩ := arguments_come_first (e := .call (.tagVersion ⟨"a", 1⟩ "t")) none trivial
  exact ⟨condition, refused, alike _ _ _ _ _ condition nofun refused, gone _ rfl⟩

end Catalog

end ModelCatalog
