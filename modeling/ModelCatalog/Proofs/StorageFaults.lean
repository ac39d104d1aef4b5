import ModelCatalog.Proofs.Consistency
import ModelCatalog.Proofs.OperationChecks

namespace ModelCatalog

open Operation (attempt)
open Parameter (holdsZero)

namespace Call

/-- The calls that write a time. -/
def stamps : Call → Bool
  | getModel _ | deleteModel _ | listModels .. | getVersion _ | listVersions .. | versionUri _ => false
  | _ => true

end Call

/-- The texts of a call that get as far as a statement. A text that is only read once the row which the call asks
for is found, or the place of a new row is free, does not get there otherwise. -/
def Tables.sent (t : Tables) : Call → List String
  | .createModel name description tags =>
    name :: description.toList ++ if t.hasModel (cut nameWidth name) then [] else tags
  | .getModel name | .deleteModel name => [name]
  | .describeModel name text => [name, text]
  | .renameModel name newName => name :: if t.hasModel name then [newName] else []
  | .listModels filter tags => filter.toList ++ tags
  | .tagModel name tag | .untagModel name tag => name :: if t.hasModel name then [tag] else []
  | .createVersion name draft =>
    name :: if t.hasModel name then
      [draft.id, draft.user, draft.experiment, draft.modelType] ++ draft.description.toList ++ draft.tags
    else []
  | .getVersion key | .versionUri key | .moveVersion key _ | .deleteVersion key => [key.model]
  | .describeVersion key text => [key.model, text]
  | .listVersions name tags => name :: tags
  | .tagVersion key tag | .untagVersion key tag => key.model :: if t.hasVersion key then [tag] else []

/-- What may be wrong with a call for the storage to refuse it. -/
inductive Tables.Cause (t : Tables) (now : Instant) : Call → StorageFault → Prop
  | zero {call : Call} {s : String} (sent : s ∈ t.sent call) (zero : holdsZero s = true) :
    Cause t now call .zeroCharacter
  | early {call : Call} (stamps : call.stamps = true)
    (before : now.seconds < Date.toDays ⟨-4713, 11, 24⟩ * 86400) : Cause t now call .timeOutOfRange
  | lastNumber {name : String} {draft : VersionDraft} {r : ModelRow} (found : t.model? name = some r)
    (last : r.counter = 2147483647) : Cause t now (.createVersion name draft) .numberOutOfRange
  | modelTags {name : String} {description : Option String} {tags : List String} {tag other : String}
    (given : tag ∈ tags) (also : other ∈ tags) (differ : other ≠ tag)
    (same : cut tagWidth other = cut tagWidth tag) :
    Cause t now (.createModel name description tags)
      (.duplicate (.modelTag (cut nameWidth name) (cut tagWidth tag)))
  | versionTags {name : String} {draft : VersionDraft} {r : ModelRow} {tag other : String}
    (found : t.model? name = some r) (given : tag ∈ draft.tags) (also : other ∈ draft.tags)
    (differ : other ≠ tag) (same : cut tagWidth other = cut tagWidth tag) :
    Cause t now (.createVersion name draft) (.duplicate (.versionTag ⟨name, r.counter + 1⟩ (cut tagWidth tag)))
  | modelPosition {name tag : String} (there : name ∈ t.names)
    (far : Range.signed32.has (TagRow.front name t.modelTags) = false) :
    Cause t now (.tagModel name tag) .numberOutOfRange
  | versionPosition {key : VersionKey} {tag : String} (there : key ∈ t.keys)
    (far : Range.signed32.has (TagRow.front key t.versionTags) = false) :
    Cause t now (.tagVersion key tag) .numberOutOfRange

/-- What an error of a call says: a refusal of the storage has a cause, a connection is there, and a version that
is looked for is not missed for lack of its model. -/
def Tables.Explains (t : Tables) (now : Instant) (call : Call) : CatalogError → Prop
  | .storage fault => t.Cause now call fault
  | .connection .. => False
  | .modelNotFound _ => call.key? = none
  | _ => True

/-- Every error that can come of a computation is one of those that are expected. -/
def Raises {α : Type} (expected : CatalogError → Prop) (x : Except CatalogError α) : Prop :=
  ∀ e, x = .error e → expected e

namespace Raises

variable {α β : Type} {expected : CatalogError → Prop} {x : Except CatalogError β} {f : β → Except CatalogError α}

theorem ok {a : α} : Raises expected (.ok a) :=
  nofun

theorem bind (first : Raises expected x) (later : ∀ b, x = .ok b → Raises expected (f b)) :
    Raises expected (x >>= f) := by
  cases x with
  | error e => exact fun _ raised => first _ (congrArg Except.error (Except.error.inj raised))
  | ok b => exact later b rfl

theorem map {g : β → α} (raises : Raises expected x) : Raises expected (x.map g) := by
  cases x with
  | error e => exact fun _ raised => raises _ (congrArg Except.error (Except.error.inj raised))
  | ok b => exact ok

theorem expect {value : Option α} {e : CatalogError} (known : expected e) : Raises expected (expect value e) := by
  intro _ raised
  cases value <;> cases raised
  exact known

theorem demand {holds : Bool} {e : CatalogError} (known : holds = false → expected e) :
    Raises expected (demand holds e) := by
  intro _ raised
  cases holds <;> cases raised
  exact known rfl

theorem answering {f : α → Answer} {operation : Except CatalogError (Operation α)} {now : Instant} {t : Tables}
    (raises : Raises expected (attempt operation now t)) :
    Raises expected (attempt (Operation.answering f operation) now t) := by
  rw [Operation.attempt_answering]
  exact raises.bind fun _ _ => ok

end Raises

namespace Tables

variable {t : Tables} {now : Instant} {call : Call}

/-- A value that a call may give to a statement. -/
def Passes (t : Tables) (call : Call) (now : Instant) : Parameter → Prop
  | .text s => s ∈ t.sent call
  | .texts l => ∀ s ∈ l, s ∈ t.sent call
  | .time stamp => stamp = now.stored ∧ call.stamps = true

/-- A time is refused only if the clock is that early. A leap second counts for the second after it. -/
theorem early_of_not_storable (early : now.stored.isStorable = false) :
    now.seconds < Date.toDays ⟨-4713, 11, 24⟩ * 86400 := by
  have before : ¬ Timestamp.earliest.micros ≤ now.stored.micros := by simpa [Timestamp.isStorable] using early
  simp only [Timestamp.earliest, Instant.stored] at before
  omega

theorem Cause.of_parameter {p : Parameter} {fault : StorageFault} (passes : t.Passes call now p)
    (found : p.fault? = some fault) : t.Cause now call fault := by
  cases p with
  | text s =>
    cases zero : holdsZero s <;> simp only [Parameter.fault?, zero] at found <;> cases found
    exact .zero passes zero
  | texts l =>
    cases zero : l.any holdsZero <;> simp only [Parameter.fault?, zero] at found <;> cases found
    obtain ⟨s, given, zero⟩ := List.any_eq_true.mp zero
    exact .zero (passes s given) zero
  | time stamp =>
    obtain ⟨rfl, stamps⟩ := passes
    cases early : now.stored.isStorable <;> simp only [Parameter.fault?, early] at found <;> cases found
    exact .early stamps (early_of_not_storable early)

end Tables

namespace Raises

variable {t : Tables} {now : Instant} {call : Call} {ps : List Parameter} {tags : List String}

theorem given (passes : ∀ p ∈ ps, t.Passes call now p) : Raises (t.Explains now call) (given ps) := by
  intro e raised
  cases found : ps.findSome? Parameter.fault? <;> simp only [ModelCatalog.given, found] at raised <;> cases raised
  obtain ⟨p, member, found⟩ := List.exists_of_findSome?_eq_some found
  exact .of_parameter (passes p member) found

theorem fit {width : Nat} {s : String} : Raises (t.Explains now call) (fit width s) := by
  intro e raised
  cases room : fits width s <;> simp only [ModelCatalog.fit, room] at raised <;> cases raised
  trivial

theorem fitOptional {width : Nat} {s : Option String} : Raises (t.Explains now call) (fitOptional width s) := by
  cases s with
  | none => exact .ok
  | some s =>
    intro e raised
    cases room : fits width s <;> simp only [ModelCatalog.fitOptional, ModelCatalog.fit, room] at raised <;>
      cases raised
    trivial

theorem requireTag {tag : String} : Raises (t.Explains now call) (Operation.requireTag tag) :=
  .demand fun _ => trivial

theorem creationTags : Raises (t.Explains now call) (Operation.creationTags tags) := by
  have fold : ∀ seen, Raises (t.Explains now call) (Operation.creationTags.go seen tags) := by
    induction tags with
    | nil => exact fun _ => .ok
    | cons tag rest ih =>
      intro seen
      refine .bind .requireTag fun _ _ => ?_
      split
      · exact ih seen
      · exact .bind (ih _) fun _ _ => .ok
  exact fold []

/-- Tags that are written one after the other can only be in each other's way, as long as the owner is new. -/
theorem vet {key : String → RowKey} (before : List String) (apart : ∀ tag ∈ before, tag ∉ tags)
    (unique : tags.Nodup) (sent : ∀ tag ∈ tags, tag ∈ t.sent call)
    (clash : ∀ tag ∈ tags, ∀ other ∈ before ++ tags, other ≠ tag → cut tagWidth other = cut tagWidth tag →
      t.Cause now call (.duplicate (key (cut tagWidth tag)))) :
    Raises (t.Explains now call) (TagRow.vet key (before.map (cut tagWidth)) tags) := by
  induction tags generalizing before with
  | nil => exact .ok
  | cons tag rest ih =>
    obtain ⟨once, unique⟩ := List.nodup_cons.mp unique
    refine .bind (.given (List.forall_mem_singleton.mpr (sent tag List.mem_cons_self))) fun _ _ => ?_
    refine .bind .fit fun stored room => ?_
    obtain ⟨-, rfl⟩ := fit_ok.mp room
    refine .bind (.demand fun taken => ?_) fun _ _ => ?_
    · have taken : cut tagWidth tag ∈ before.map (cut tagWidth) := by simpa using taken
      obtain ⟨other, there, same⟩ := List.mem_map.mp taken
      refine clash tag List.mem_cons_self other (List.mem_append_left _ there) (fun also => ?_) same
      exact apart other there (also ▸ List.mem_cons_self)
    · refine ih (tag :: before) ?_ unique (fun s later => sent s (List.mem_cons_of_mem _ later)) ?_
      · refine List.forall_mem_cons.mpr ⟨once, fun s there later => ?_⟩
        exact apart s there (List.mem_cons_of_mem _ later)
      · intro s later other there
        refine clash s (List.mem_cons_of_mem _ later) other ?_
        simpa [or_left_comm] using there

end Raises

namespace Tables

variable {t : Tables} {now : Instant} {call : Call} {name : String} {key : VersionKey} {tags : List String}

theorem hasModel_of_expect {r : ModelRow} {e : CatalogError} (found : expect (t.model? name) e = .ok r) :
    t.hasModel name = true :=
  hasModel_iff.mpr (mem_names_of_model? (expect_eq_ok.mp found))

theorem hasVersion_of_expect {r : VersionRow} {e : CatalogError} (found : expect (t.version? key) e = .ok r) :
    t.hasVersion key = true :=
  hasVersion_iff.mpr (mem_keys_of_version? (expect_eq_ok.mp found))

theorem Sound.explains_createModel (sound : t.Sound) {description : Option String} :
    Raises (t.Explains now (.createModel name description tags))
      (attempt (Operation.createModel name description tags) now t) := by
  rw [Operation.attempt_createModel sound]
  refine .bind (.demand fun _ => trivial) fun _ _ => .bind .creationTags fun kept named => ?_
  obtain ⟨-, rfl⟩ := Operation.creationTags_ok.mp named
  refine .bind (.given (by simp +contextual [Passes, sent, Call.stamps])) fun _ _ => ?_
  refine .bind .fit fun owner room => .bind .fitOptional fun _ _ =>
    .bind (.demand fun _ => trivial) fun _ free => ?_
  obtain ⟨-, rfl⟩ := fit_ok.mp room
  have free : t.hasModel (cut nameWidth name) = false := by simpa using free
  refine .bind (.vet [] nofun (nodup_eraseDups tags) ?_ fun tag given other before differ same => ?_)
    fun _ _ => .ok
  · simp +contextual [sent, free]
  · exact .modelTags (List.mem_eraseDups.mp given) (List.mem_eraseDups.mp before) differ same

theorem Sound.explains_createVersion (sound : t.Sound) (counted : t.Counted) {draft : VersionDraft} :
    Raises (t.Explains now (.createVersion name draft)) (attempt (Operation.createVersion name draft) now t) := by
  rw [Operation.attempt_createVersion sound]
  refine .bind .creationTags fun kept named => ?_
  obtain ⟨-, rfl⟩ := Operation.creationTags_ok.mp named
  refine .bind (.given (by simp [Passes, sent, Call.stamps])) fun _ _ => .bind (.expect rfl) fun r found => ?_
  have there := hasModel_of_expect found
  have found := expect_eq_ok.mp found
  refine .bind (.demand fun outgrown => ?outgrown) fun _ _ => .bind ?draft fun _ _ =>
    .bind (.demand fun taken => ?taken) fun _ _ => .bind (.vet [] nofun (nodup_eraseDups _) ?sent
      fun tag given other before differ same => ?tags) fun _ _ => .ok
  case outgrown =>
    have bounded := counted.bounded r (List.mem_of_find?_eq_some found)
    have outgrown : ¬ (-2147483648 ≤ r.counter + 1 ∧ r.counter + 1 ≤ 2147483647) := fun room =>
      Bool.eq_false_iff.mp outgrown (Range.has_iff.mpr room)
    exact .lastNumber found (by omega)
  case draft =>
    refine .bind (.given (by simp +contextual [Passes, sent, there])) fun _ _ => ?_
    exact .bind .fit fun _ _ => .bind .fit fun _ _ => .bind .fit fun _ _ => .bind .fit fun _ _ =>
      .bind .fitOptional fun _ _ => .ok
  case taken =>
    -- The counter has reached the number of every version, so that the next number is a new one.
    have taken : (⟨name, r.counter + 1⟩ : VersionKey) ∈ t.keys := by simpa using taken
    obtain ⟨s, member, named, -, reached⟩ := counted.reached _ taken
    have same := (model?_eq_some_iff sound.names).mpr ⟨member, named⟩
    obtain rfl : r = s := Option.some.inj (found.symm.trans same)
    simp only at reached
    omega
  case sent => simp +contextual [sent, there]
  case tags => exact .versionTags found (List.mem_eraseDups.mp given) (List.mem_eraseDups.mp before) differ same

/-- Whatever a call asks of sound tables with proper counters, an error of it is explained. -/
theorem Sound.explains (sound : t.Sound) (counted : t.Counted) :
    Raises (t.Explains now call) (attempt call.operation? now t) := by
  cases call <;> simp only [Call.operation?] <;> apply Raises.answering
  case createModel => exact sound.explains_createModel
  case createVersion => exact sound.explains_createVersion counted
  case getModel name =>
    rw [Operation.attempt_getModel]
    exact .bind (.given (by simp [Passes, sent])) fun _ _ => .bind (.expect rfl) fun _ _ => .ok
  case getVersion key =>
    rw [Operation.attempt_getVersion]
    exact .bind (.given (by simp [Passes, sent])) fun _ _ => .bind (.expect trivial) fun _ _ => .ok
  case versionUri key =>
    rw [Operation.attempt_versionUri]
    exact .bind (.given (by simp [Passes, sent])) fun _ _ => .bind (.expect trivial) fun _ _ => .ok
  case listModels filter tags =>
    rw [Operation.attempt_listModels]
    exact .bind (.given (by simp +contextual [Passes, sent, Operation.mem_distinct])) fun _ _ => .ok
  case listVersions name tags =>
    rw [Operation.attempt_listVersions]
    exact .bind (.given (by simp +contextual [Passes, sent, Operation.mem_distinct])) fun _ _ => .ok
  case describeModel name text =>
    rw [Operation.attempt_describeModel]
    exact .bind (.given (by simp [Passes, sent, Call.stamps])) fun _ _ => .bind .fit fun _ _ =>
      .bind (.expect rfl) fun _ _ => .ok
  case renameModel name newName =>
    rw [Operation.attempt_renameModel sound]
    refine .bind (.demand fun _ => trivial) fun _ _ => .bind (.demand fun _ => trivial) fun _ _ =>
      .bind (.given (by simp [Passes, sent])) fun _ _ => .bind (.expect rfl) fun r found => ?_
    exact .bind (.given (by simp [Passes, sent, hasModel_of_expect found])) fun _ _ =>
      .bind (.demand fun _ => trivial) fun _ _ => .bind (.given (by simp [Passes, Call.stamps])) fun _ _ =>
      .bind .fit fun _ _ => .bind (.demand fun _ => trivial) fun _ _ =>
      .bind (.demand fun _ => rfl) fun _ _ => .ok
  case deleteModel name =>
    rw [Operation.attempt_deleteModel]
    exact .bind (.given (by simp [Passes, sent])) fun _ _ => .bind (.expect rfl) fun _ _ => .ok
  case tagModel name tag =>
    rw [Operation.attempt_tagModel sound]
    refine .bind .requireTag fun _ _ => .bind (.given (by simp [Passes, sent])) fun _ _ =>
      .bind (.expect rfl) fun r found => ?_
    have there := hasModel_of_expect found
    refine .bind (.given (by simp [Passes, sent, there])) fun _ _ =>
      .bind (.demand fun far => .modelPosition (hasModel_iff.mp there) far) fun _ _ =>
      .bind .fit fun stored _ => ?_
    split
    · exact .ok
    · exact .bind (.given (by simp [Passes, Call.stamps])) fun _ _ => .ok
  case untagModel name tag =>
    rw [Operation.attempt_untagModel]
    refine .bind .requireTag fun _ _ => .bind (.given (by simp [Passes, sent])) fun _ _ =>
      .bind (.expect rfl) fun r found => ?_
    exact .bind (.given (by simp [Passes, sent, hasModel_of_expect found])) fun _ _ =>
      .bind (.demand fun _ => trivial) fun _ _ => .bind (.given (by simp [Passes, Call.stamps])) fun _ _ => .ok
  case describeVersion key text =>
    rw [Operation.attempt_describeVersion sound]
    exact .bind (.given (by simp [Passes, sent, Call.stamps])) fun _ _ => .bind .fit fun _ _ =>
      .bind (.expect trivial) fun _ _ => .ok
  case moveVersion key text =>
    rw [Operation.attempt_moveVersion sound]
    exact .bind (.expect trivial) fun _ _ => .bind (.given (by simp [Passes, sent, Call.stamps])) fun _ _ =>
      .bind (.expect trivial) fun _ _ => .ok
  case deleteVersion key =>
    rw [Operation.attempt_deleteVersion sound]
    exact .bind (.given (by simp [Passes, sent])) fun _ _ => .bind (.expect trivial) fun _ _ =>
      .bind (.given (by simp [Passes, Call.stamps])) fun _ _ => .ok
  case tagVersion key tag =>
    rw [Operation.attempt_tagVersion sound]
    refine .bind .requireTag fun _ _ => .bind (.given (by simp [Passes, sent])) fun _ _ =>
      .bind (.expect trivial) fun r found => ?_
    have there := hasVersion_of_expect found
    refine .bind (.given (by simp [Passes, sent, there])) fun _ _ =>
      .bind (.demand fun far => .versionPosition (hasVersion_iff.mp there) far) fun _ _ =>
      .bind .fit fun stored _ => ?_
    split
    · exact .ok
    · exact .bind (.given (by simp [Passes, Call.stamps])) fun _ _ => .ok
  case untagVersion key tag =>
    rw [Operation.attempt_untagVersion sound]
    refine .bind .requireTag fun _ _ => .bind (.given (by simp [Passes, sent])) fun _ _ =>
      .bind (.expect trivial) fun r found => ?_
    exact .bind (.given (by simp [Passes, sent, hasVersion_of_expect found])) fun _ _ =>
      .bind (.demand fun _ => trivial) fun _ _ => .bind (.given (by simp [Passes, Call.stamps])) fun _ _ => .ok

end Tables

namespace Catalog

variable {c after : Catalog} {events : List Event} {t : Tables}

theorem call_of_live {call : Call} {result : Except CatalogError Answer} (live : c.database = .live t)
    (made : (c.call? call).1 = some result) : (attempt call.operation? c.clock.reading t).map Prod.fst = result := by
  rw [← Database.call_live, ← live]
  exact call_of_call? made

/-- Where the tables could be made, making them again changes nothing. -/
theorem Fresh.ensure_live (fresh : c.Fresh) (t : Tables) :
    Database.ensure c.schema (.live t) = .ok (.live t) := by
  simp only [Fresh, Database.ensure, bind_eq_ok] at fresh ⊢
  obtain ⟨_, named, _, _, _, taken, -⟩ := fresh
  exact ⟨(), named, (), rfl, (), taken, rfl⟩

/-- As long as the counters are left to the operations, the storage refuses a call only for what is wrong with its
texts or its time, or for want of room among the numbers. What the catalog writes down itself is never in the way:
a version's number is free, what a renamed model takes along meets nothing under its new name, every row refers to
a row that is there, and a version is never missed for lack of its model. -/
theorem storage_causes (fresh : c.Fresh) (kept : ∀ e ∈ events, e.KeepsCounters) (ran : (c.steps events).2 = after)
    (live : after.database = .live t) :
    (∀ call e, (after.call? call).1 = some (.error e) → e.kind = .storage →
      ∃ fault, e = .storage fault ∧ t.Cause after.clock.reading call fault) ∧
    (∀ call key, (after.call? call).1 ≠ some (.error (.storage (.duplicate (.version key))))) ∧
    (∀ name newName key,
      (after.call? (.renameModel name newName)).1 ≠ some (.error (.storage (.duplicate key)))) ∧
    (∀ call relation parent, (after.call? call).1 ≠ some (.error (.storage (.dangling relation parent))) ∧
      (after.call? call).1 ≠ some (.error (.storage (.referenced parent relation)))) ∧
    (∀ call key name, call.key? = some key → (after.call? call).1 ≠ some (.error (.modelNotFound name))) ∧
    after.step .ping = (some (.ok .done), after) ∧ after.step .ensureSchema = (some (.ok .done), after) := by
  have sound := sound_steps fresh events
  have counted := counted_steps fresh kept
  rw [ran, live] at sound counted
  have explained : ∀ {call e}, (after.call? call).1 = some (.error e) → t.Explains after.clock.reading call e :=
    fun failed => (sound.explains counted).map _ (call_of_live live failed)
  refine ⟨?causes, ?number, ?rename, ?references, ?version, ?ping, ?ensure⟩
  case causes =>
    intro call e failed kind
    have known := explained failed
    cases e with
    | storage fault => exact ⟨fault, rfl, known⟩
    | connection => exact known.elim
    | _ => cases kind
  case number =>
    intro call key failed
    cases explained failed
  case rename =>
    intro name newName key failed
    cases explained failed
  case references =>
    intro call relation parent
    constructor <;> intro failed <;> cases explained failed
  case version =>
    intro call key name about failed
    exact absurd (about.symm.trans (explained failed)) nofun
  case ping =>
    simp only [step, live]
    rfl
  case ensure =>
    have schema : after.schema = c.schema := ran ▸ c.steps_schema events
    simp only [step, withDatabase, schema, live, fresh.ensure_live]
    rw [← live, ← schema]

/-- The session of a trial, with the clock put one second before the first time that can be stored. -/
def earlyTrial : List Event :=
  trial ++ [.setClock (.ofSeconds (-210866803201))]

theorem causes_earlyTrial :
    ∃ after t, (opened.steps earlyTrial).2 = after ∧ after.database = .live t ∧
      (after.call? (.tagModel "b" "\x00")).1 = some (.error (.storage .zeroCharacter)) ∧
      t.Cause after.clock.reading (.tagModel "b" "\x00") .zeroCharacter ∧
      (after.call? (.moveVersion ⟨"b", 1⟩ "ARCHIVED")).1 = some (.error (.storage .timeOutOfRange)) ∧
      t.Cause after.clock.reading (.moveVersion ⟨"b", 1⟩ "ARCHIVED") .timeOutOfRange := by
  have kept : ∀ e ∈ earlyTrial, e.KeepsCounters := by simp [earlyTrial, trial, Event.KeepsCounters]
  have live : (opened.steps earlyTrial).2.database = .live (opened.steps earlyTrial).2.database.tables := by
    decide +kernel
  have zero : ((opened.steps earlyTrial).2.call? (.tagModel "b" "\x00")).1 =
      some (.error (.storage .zeroCharacter)) := by
    decide +kernel
  have early : ((opened.steps earlyTrial).2.call? (.moveVersion ⟨"b", 1⟩ "ARCHIVED")).1 =
      some (.error (.storage .timeOutOfRange)) := by
    decide +kernel
  obtain ⟨causes, -⟩ := storage_causes fresh_opened kept rfl live
  obtain ⟨_, ⟨⟩, zeroCause⟩ := causes _ _ zero rfl
  obtain ⟨_, ⟨⟩, earlyCause⟩ := causes _ _ early rfl
  exact ⟨_, _, rfl, live, zero, zeroCause, early, earlyCause⟩

end Catalog

end ModelCatalog
