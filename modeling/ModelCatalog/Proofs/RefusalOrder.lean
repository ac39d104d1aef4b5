import ModelCatalog.Proofs.ArgumentChecks

namespace ModelCatalog

open Parameter (holdsZero)

/-- A reason to refuse a call, and the error of a call that is refused for it. -/
structure Ground where
  holds : Bool
  error : CatalogError

namespace Ground

variable {grounds others : List Ground}

/-- The error of the first ground that holds. -/
def first? (grounds : List Ground) : Option CatalogError :=
  (grounds.find? (·.holds)).map (·.error)

theorem first?_append : first? (grounds ++ others) = (first? grounds).or (first? others) := by
  rw [first?, List.find?_append, Option.map_or]
  rfl

theorem first?_single {holds : Bool} {error : CatalogError} :
    first? [⟨holds, error⟩] = if holds then some error else none := by
  cases holds <;> rfl

/-- Two grounds for the same error are as good as one. -/
theorem first?_or {a b : Bool} {error : CatalogError} :
    first? [⟨a || b, error⟩] = first? [⟨a, error⟩, ⟨b, error⟩] := by
  cases a <;> cases b <;> rfl

end Ground

/-- The grounds to refuse a computation tell what comes of it: the error of the first ground that holds, and if none
does, a value that is as it should be. -/
def Governs {α : Type} (grounds : List Ground) (x : Except CatalogError α) (good : α → Prop) : Prop :=
  match Ground.first? grounds with
  | some e => x = .error e
  | none => ∃ a, x = .ok a ∧ good a

namespace Governs

variable {α β : Type} {grounds others : List Ground} {good : α → Prop} {any : β → Prop} {error : CatalogError}

theorem ok {a : α} (fine : good a) : Governs [] (.ok a) good :=
  ⟨a, rfl, fine⟩

/-- What follows a check is refused on its own grounds once the check is passed. -/
theorem bind {x : Except CatalogError β} {f : β → Except CatalogError α} (first : Governs grounds x any)
    (later : ∀ b, x = .ok b → Governs others (f b) good) : Governs (grounds ++ others) (x >>= f) good := by
  unfold Governs at first ⊢
  rw [Ground.first?_append]
  cases refused : Ground.first? grounds with
  | some e =>
    rw [refused] at first
    rw [first, Option.some_or]
    rfl
  | none =>
    rw [refused] at first
    obtain ⟨b, passed, -⟩ := first
    rw [passed, Option.none_or]
    exact later b passed

/-- What follows a check with one ground. -/
theorem check {ground : Ground} {x : Except CatalogError β} {f : β → Except CatalogError α}
    (first : Governs [ground] x any) (later : ∀ b, x = .ok b → Governs others (f b) good) :
    Governs (ground :: others) (x >>= f) good :=
  first.bind later

/-- What follows the last check cannot fail. -/
theorem last {x : Except CatalogError β} {f : β → Except CatalogError α} (checks : Governs grounds x any)
    (done : ∀ b, x = .ok b → ∃ a, f b = .ok a ∧ good a) : Governs grounds (x >>= f) good := by
  rw [← grounds.append_nil]
  exact checks.bind done

theorem single {holds : Bool} {x : Except CatalogError α} (refused : holds = true → x = .error error)
    (passed : holds = false → ∃ a, x = .ok a) : Governs [⟨holds, error⟩] x fun _ => True := by
  unfold Governs
  rw [Ground.first?_single]
  cases holds with
  | true => exact refused rfl
  | false =>
    obtain ⟨a, done⟩ := passed rfl
    exact ⟨a, done, trivial⟩

end Governs

/-- A statement reads its parameters one after the other. -/
theorem given_cons_cons {p q : Parameter} {ps : List Parameter} :
    given (p :: q :: ps) = given [p] >>= fun _ => given (q :: ps) := by
  cases found : p.fault? with
  | some fault =>
    simp only [given, List.findSome?_cons, found]
    rfl
  | none =>
    simp only [given, List.findSome?_cons, found]
    rfl

/-- Whether an instant lies before the first one that can be stored, a leap second with the minute that follows it. -/
def Instant.isEarly (now : Instant) : Bool :=
  (if now.isLeap then now.seconds + 1 else now.seconds) < Date.toDays ⟨-4713, 11, 24⟩ * 86400

theorem Instant.isStorable_stored (now : Instant) : now.stored.isStorable = !now.isEarly := by
  have bound := now.nanos_lt
  have storable : now.stored.isStorable = true ↔
      Date.toDays ⟨-4713, 11, 24⟩ * 86400000000 ≤ now.seconds * 1000000 + (now.nanos / 1000 : Nat) :=
    decide_eq_true_iff
  rw [Bool.eq_iff_iff, storable]
  simp only [isEarly, isLeap, decide_eq_true_eq, Bool.not_eq_true', decide_eq_false_iff_not]
  split <;> omega

theorem Instant.isStorable_stored_iff {now : Instant} : now.stored.isStorable = true ↔ now.isEarly = false := by
  rw [now.isStorable_stored, Bool.not_eq_true']

/-- The texts that a caller supplies for a new version, apart from its tags. -/
def VersionDraft.texts (draft : VersionDraft) : List String :=
  draft.id :: draft.user :: draft.experiment :: draft.modelType :: draft.description.toList

/-- The grounds to refuse tags that are written one after the other, for an owner who has some already: what is wrong
with the first one comes first. -/
def TagRow.grounds (key : String → RowKey) (before : List String) : List String → List Ground
  | [] => []
  | tag :: rest =>
    ⟨holdsZero tag, .storage .zeroCharacter⟩ ::
    ⟨!fits tagWidth tag, .argument (.tooLong tagWidth)⟩ ::
    ⟨before.any fun earlier => cut tagWidth earlier = cut tagWidth tag,
      .storage (.duplicate (key (cut tagWidth tag)))⟩ ::
    grounds key (tag :: before) rest

namespace Governs

variable {error : CatalogError} {width : Nat} {name s : String}
  {supplied tags before : List String} {now : Instant} {key : String → RowKey} {any : Unit → Prop}

theorem demand {holds refuse : Bool} (opposite : refuse = !holds) :
    Governs [⟨refuse, error⟩] (demand holds error) fun _ => True := by
  subst opposite
  cases holds with
  | true => exact ⟨(), rfl, trivial⟩
  | false => exact rfl

theorem parameter {p : Parameter} {fault : StorageFault} {faulty : Bool}
    (found : p.fault? = if faulty then some fault else none) :
    Governs [⟨faulty, .storage fault⟩] (given [p]) fun _ => True := by
  rw [given, List.findSome?_cons, found]
  cases faulty with
  | true => exact rfl
  | false => exact ⟨(), rfl, trivial⟩

theorem text : Governs [⟨holdsZero s, .storage .zeroCharacter⟩] (given [.text s]) fun _ => True :=
  parameter rfl

theorem texts : Governs [⟨supplied.any holdsZero, .storage .zeroCharacter⟩] (given [.texts supplied]) fun _ => True :=
  parameter rfl

theorem optionalText {optional : Option String} :
    Governs [⟨optional.any holdsZero, .storage .zeroCharacter⟩] (given [.texts optional.toList]) fun _ => True := by
  have same : optional.any holdsZero = optional.toList.any holdsZero := by cases optional <;> simp
  rw [same]
  exact texts

theorem time : Governs [⟨now.isEarly, .storage .timeOutOfRange⟩] (given [.time now.stored]) fun _ => True := by
  refine parameter ?_
  rw [Parameter.fault?, now.isStorable_stored]
  cases now.isEarly <;> rfl

/-- Of several texts, one with a zero character is enough. -/
theorem more {p : Parameter} {ps : List Parameter}
    (later : Governs [⟨supplied.any holdsZero, .storage .zeroCharacter⟩] (given (p :: ps)) any) :
    Governs [⟨(s :: supplied).any holdsZero, .storage .zeroCharacter⟩] (given (.text s :: p :: ps)) any := by
  rw [given_cons_cons, List.any_cons, Governs, Ground.first?_or]
  exact check text fun _ _ => later

theorem fit : Governs [⟨!fits width s, .argument (.tooLong width)⟩] (fit width s) fun _ => True := by
  refine single (fun long => ?_) fun room => ⟨cut width s, fit_ok.mpr ⟨by simpa using room, rfl⟩⟩
  rw [ModelCatalog.fit, (Bool.not_eq_true' _).mp long]
  rfl

theorem fitOptional {optional : Option String} : Governs
    [⟨optional.any (!fits width ·), .argument (.tooLong width)⟩] (fitOptional width optional) fun _ => True := by
  cases optional with
  | none => exact ⟨none, rfl, trivial⟩
  | some s =>
    refine single (fun long => ?_) fun room => ⟨some (cut width s), fitOptional_ok.mpr ⟨by simpa using room, rfl⟩⟩
    rw [ModelCatalog.fitOptional, ModelCatalog.fit, (Bool.not_eq_true' _).mp long]
    rfl

theorem expect {β : Type} {value : Option β} {refuse : Bool} (missing : refuse = value.isNone) :
    Governs [⟨refuse, error⟩] (expect value error) fun _ => True := by
  subst missing
  cases value with
  | none => exact rfl
  | some b => exact ⟨b, rfl, trivial⟩

theorem requireModelName :
    Governs [⟨name = "", .argument .emptyModelName⟩] (Operation.requireModelName name) fun _ => True := by
  rw [Operation.requireModelName_eq]
  exact single (fun empty => if_pos (of_decide_eq_true empty)) fun filled => ⟨(), if_neg (of_decide_eq_false filled)⟩

theorem creationTags :
    Governs [⟨"" ∈ tags, .argument .emptyTag⟩] (Operation.creationTags tags) fun _ => True := by
  rw [Operation.creationTags_eq]
  exact single (fun empty => if_pos (of_decide_eq_true empty)) fun filled => ⟨_, if_neg (of_decide_eq_false filled)⟩

theorem vet : Governs (TagRow.grounds key before tags) (TagRow.vet key (before.map (cut tagWidth)) tags)
    fun _ => True := by
  induction tags generalizing before with
  | nil => exact ok trivial
  | cons tag rest ih =>
    refine check text fun _ _ => check fit fun stored room => ?_
    obtain ⟨-, rfl⟩ := fit_ok.mp room
    have taken : (before.map (cut tagWidth)).contains (cut tagWidth tag) =
        before.any fun earlier => cut tagWidth earlier = cut tagWidth tag := by
      rw [Bool.eq_iff_iff, List.contains_iff_mem, List.mem_map, List.any_eq_true]
      simp only [decide_eq_true_eq]
    rw [demandFree, taken]
    exact check (demand (Bool.not_not _).symm) fun _ _ => ih

end Governs

namespace Database

variable {α : Type} {grounds : List Ground} {t : Tables} {call : Call} {now : Instant}
  {good better : Answer → Tables → Prop}

/-- A call is refused on the first ground that holds, and the database is left as it was. If none holds, it is served,
and the answer is given if its times can be read. -/
structure Settles (t : Tables) (call : Call) (now : Instant) (grounds : List Ground)
    (good : Answer → Tables → Prop) : Prop where
  refused : ∀ e, Ground.first? grounds = some e → (live t).perform? call now = some (.error e, live t)
  served : Ground.first? grounds = none → ∃ a t', good a t' ∧ (live t).call call now = (.ok a, live t') ∧
    (live t).perform? call now = if a.isReadable then some (.ok a, live t') else none

theorem Settles.imp (settles : Settles t call now grounds good)
    (more : ∀ a t', (live t).call call now = (.ok a, live t') → good a t' → better a t') :
    Settles t call now grounds better where
  refused := settles.refused
  served none := by
    obtain ⟨a, t', fine, called, performed⟩ := settles.served none
    exact ⟨a, t', more a t' called fine, called, performed⟩

theorem settles {f : α → Answer} {operation : Except CatalogError (Operation α)} {fine : α × Tables → Prop}
    (asked : call.operation? = Operation.answering f operation)
    (governs : Governs grounds (Operation.attempt operation now t) fine) :
    Settles t call now grounds fun a t' => ∃ b, fine (b, t') ∧ a = f b := by
  unfold Governs at governs
  constructor
  case refused =>
    intro e holds
    rw [holds] at governs
    have called : (live t).call call now = (.error e, live t) := by
      rw [call_live_answering asked, governs]
    rw [perform?, called]
  case served =>
    intro none
    rw [none] at governs
    obtain ⟨⟨b, t'⟩, done, known⟩ := governs
    have called : (live t).call call now = (.ok (f b), live t') := by
      rw [call_live_answering asked, done]
    refine ⟨f b, t', ⟨b, known, rfl⟩, called, ?_⟩
    rw [perform?, called]

end Database

end ModelCatalog
