import ModelCatalog.Catalog.Call
import ModelCatalog.Proofs.TransactionRun

namespace ModelCatalog

namespace Transaction

variable {α β : Type} {relation : Relation} {x : Transaction α}

/-- A transaction that asks for a relation before it does anything else. Without the tables it is told that this one
is missing. -/
def AsksFirst (relation : Relation) (x : Transaction α) : Prop :=
  ∀ t, x false t = .error (.storage (.missingRelation relation)) t

theorem AsksFirst.statement {ps : List Parameter} : AsksFirst relation (statement relation ps) :=
  fun _ => rfl

theorem AsksFirst.bind (first : x.AsksFirst relation) {f : α → Transaction β} : (x >>= f).AsksFirst relation := by
  intro t
  rw [bind_run, first t]

theorem AsksFirst.map (first : x.AsksFirst relation) {f : α → β} : (f <$> x).AsksFirst relation := by
  rw [← bind_pure_comp]
  exact first.bind

end Transaction

open Transaction (AsksFirst)

theorem Models.find_asksFirst {name : String} : (find name).AsksFirst .models :=
  AsksFirst.bind (.bind .statement)

theorem Versions.find_asksFirst {key : VersionKey} : (find key).AsksFirst .versions :=
  AsksFirst.bind (.bind .statement)

namespace Operation

variable {α β : Type} {relation : Relation}

/-- An operation of which the first statement asks for a relation, if its arguments are accepted. -/
def StartsFrom (relation : Relation) (operation : Except CatalogError (Operation α)) : Prop :=
  ∀ run, operation = .ok run → ∀ now, (run now).AsksFirst relation

theorem StartsFrom.ok {run : Operation α} (first : ∀ now, (run now).AsksFirst relation) :
    StartsFrom relation (.ok run) := by
  intro _ same
  cases same
  exact first

theorem StartsFrom.check {x : Except CatalogError β} {f : β → Except CatalogError (Operation α)}
    (later : ∀ b, StartsFrom relation (f b)) : StartsFrom relation (x >>= f) := by
  intro run accepted
  obtain ⟨b, -, accepted⟩ := bind_eq_ok.mp accepted
  exact later b run accepted

theorem StartsFrom.answering {f : α → Answer} {operation : Except CatalogError (Operation α)}
    (first : StartsFrom relation operation) : StartsFrom relation (answering f operation) := by
  cases operation with
  | error e => exact nofun
  | ok run => exact .ok fun now => (first run rfl now).map

end Operation

namespace Call

open Operation

/-- The version that a call is about by its number. -/
def key? : Call → Option VersionKey
  | getVersion key | describeVersion key _ | moveVersion key _ | deleteVersion key => some key
  | versionUri key | tagVersion key _ | untagVersion key _ => some key
  | _ => none

/-- The calls that ask for versions before anything else: those that are about one version, and the list of all
versions of a model. -/
def AsksForVersions (call : Call) : Prop :=
  call.key? ≠ none ∨ ∃ name tags, call = .listVersions name tags

theorem startsFrom_versions {call : Call} (asks : call.AsksForVersions) :
    StartsFrom .versions call.operation? := by
  rcases asks with about | ⟨name, tags, rfl⟩
  · cases call
    case getVersion => exact .answering (.ok fun _ => .bind Versions.find_asksFirst)
    case versionUri => exact .answering (.ok fun _ => .bind Versions.find_asksFirst)
    case deleteVersion => exact .answering (.ok fun _ => .bind Versions.find_asksFirst)
    case describeVersion => exact .answering (.ok fun _ => .bind (.bind .statement))
    case moveVersion => exact .answering (.check fun _ => .ok fun _ => .bind (.bind .statement))
    case tagVersion => exact .answering (.check fun _ => .ok fun _ => .bind Versions.find_asksFirst)
    case untagVersion => exact .answering (.check fun _ => .ok fun _ => .bind Versions.find_asksFirst)
    all_goals exact absurd rfl about
  · exact .answering (.ok fun _ => .bind (.bind .statement))

theorem startsFrom_models {call : Call} (other : ¬call.AsksForVersions) : StartsFrom .models call.operation? := by
  cases call
  case createModel => exact .answering (.check fun _ => .check fun _ => .ok fun _ => .bind (.bind .statement))
  case getModel => exact .answering (.ok fun _ => .bind Models.find_asksFirst)
  case describeModel => exact .answering (.ok fun _ => .bind (.bind .statement))
  case renameModel => exact .answering (.check fun _ => .check fun _ => .ok fun _ => .bind Models.find_asksFirst)
  case deleteModel => exact .answering (.ok fun _ => .bind Models.find_asksFirst)
  case listModels => exact .answering (.ok fun _ => .bind (.bind .statement))
  case tagModel => exact .answering (.check fun _ => .ok fun _ => .bind Models.find_asksFirst)
  case untagModel => exact .answering (.check fun _ => .ok fun _ => .bind Models.find_asksFirst)
  case createVersion => exact .answering (.check fun _ => .ok fun _ => .bind (.bind .statement))
  case listVersions name tags => exact absurd (.inr ⟨name, tags, rfl⟩) other
  all_goals exact absurd (.inl nofun) other

/-- No call gets by without a statement. -/
theorem exists_startsFrom (call : Call) : ∃ relation, StartsFrom relation call.operation? := by
  by_cases asks : call.AsksForVersions
  · exact ⟨_, startsFrom_versions asks⟩
  · exact ⟨_, startsFrom_models asks⟩

end Call

end ModelCatalog
