import ModelCatalog.Proofs.SessionRun

namespace ModelCatalog

/-- The events that only look something up. -/
def Event.isRead : Event → Bool
  | call request => request.isRead
  | ping | snapshot => true
  | _ => false

/-- Whatever the statements of a call had made of the tables when one of them failed. -/
theorem Database.call_of_failed {call : Call} {run : Operation Answer} {now : Instant} {t part : Tables}
    {err : CatalogError} (accepted : call.operation? = .ok run) (failed : run now true t = .error err part) :
    (live t).call call now = (.error err, live t) := by
  rw [Database.call, accepted, answer_live, Transaction.on, failed]

namespace Catalog

variable {c : Catalog} {e : Event}

theorem step_of_error {err : CatalogError} (failed : (c.step e).1 = some (.error err)) : (c.step e).2 = c := by
  have outcome := c.step_outcome e
  rw [failed] at outcome
  generalize (c.step e).2 = after at outcome
  cases outcome with
  | refused => rfl

theorem step_of_none (broken : (c.step e).1 = none) : (c.step e).2 = c := by
  have outcome := c.step_outcome e
  rw [broken] at outcome
  generalize (c.step e).2 = after at outcome
  cases outcome with
  | brokenOff => rfl

theorem step_of_isRead (reads : e.isRead = true) : (c.step e).2 = c := by
  cases e with
  | call call =>
    have same : (c.database.call call c.clock.reading).2 = c.database := Database.call_of_isRead reads
    cases performed : c.database.perform? call c.clock.reading with
    | none => simp only [step, call?_of_none performed, Prod.map_snd, id]
    | some made =>
      obtain ⟨result, db⟩ := made
      obtain rfl : db = c.database := (congrArg Prod.snd (Database.call_of_perform? performed)).symm.trans same
      simp only [step, call?_of_perform? performed, Prod.map_snd, id]
  | ping => rfl
  | snapshot => rfl
  | _ => cases reads

/-- The events of a session that are served and do more than look something up, with what comes of them. -/
def effective (c : Catalog) (events : List Event) : List (Event × Response) :=
  (c.history events).filter fun (e, response) => response.any Except.isOk && !e.isRead

theorem step_of_not_effective (idle : ((c.step e).1.any Except.isOk && !e.isRead) = false) : (c.step e).2 = c := by
  cases result : (c.step e).1 with
  | none => exact step_of_none result
  | some result' =>
    cases result' with
    | error err => exact step_of_error result
    | ok reply =>
      rw [result] at idle
      have reads : e.isRead = true := by
        simpa only [Option.any_some, Except.isOk, Except.toBool, Bool.true_and, Bool.not_eq_false'] using idle
      exact step_of_isRead reads

/-- A session goes on from any point as if the events before it that failed or broke off, or only looked something
up, had not been. -/
theorem steps_effective (c : Catalog) (events : List Event) :
    c.steps ((c.effective events).map Prod.fst) = ((c.effective events).map Prod.snd, (c.steps events).2) := by
  induction events generalizing c with
  | nil => rfl
  | cons e rest ih =>
    simp only [effective, history_cons, List.filter_cons, steps]
    -- An event that is left out has changed nothing, so the rest starts from the same catalog.
    cases idle : (c.step e).1.any Except.isOk && !e.isRead with
    | true =>
      simp only [if_true, List.map_cons, steps]
      have later := ih (c.step e).2
      simp only [effective] at later
      rw [later]
    | false =>
      rw [step_of_not_effective idle]
      exact ih c

/-- Whatever the tables hold, whatever the time and wherever a call fails: everything is as it was before
the call, however much its statements had changed by then, and so it is after a call that breaks off or only looks
something up. The rest of a session is then answered as if none of these calls had been made. -/
theorem failures_leave_no_trace (c : Catalog) (events : List Event) :
    (∀ (db : Database) (call : Call) (now : Instant) (err : CatalogError),
      (db.call call now).1 = .error err → (db.call call now).2 = db) ∧
    (∀ (t part : Tables) (call : Call) (run : Operation Answer) (now : Instant) (err : CatalogError),
      call.operation? = .ok run → run now true t = .error err part →
      (Database.live t).perform? call now = some (.error err, .live t)) ∧
    (∀ (db : Database) (call : Call) (now : Instant), call.isRead = true → (db.call call now).2 = db) ∧
    (∀ (e : Event) (err : CatalogError), (c.step e).1 = some (.error err) → (c.step e).2 = c) ∧
    (∀ e : Event, (c.step e).1 = none → (c.step e).2 = c) ∧
    (∀ e : Event, e.isRead = true → (c.step e).2 = c) ∧
    c.steps ((c.effective events).map Prod.fst) = ((c.effective events).map Prod.snd, (c.steps events).2) :=
  ⟨fun _ _ _ _ failed => Database.answer_of_error failed,
    fun _ _ _ _ _ _ accepted failed => Database.perform?_eq_error_iff.mpr (Database.call_of_failed accepted failed),
    fun _ _ _ reads => Database.call_of_isRead reads, fun _ _ failed => step_of_error failed,
    fun _ broken => step_of_none broken, fun _ reads => step_of_isRead reads, c.steps_effective events⟩

/-- A version whose id is too long for its column, and then one whose id fits. -/
def secondTry : List Event :=
  [.call (.createModel "a" none []),
    .call (.createVersion "a" ⟨String.ofList (List.replicate 65 'x'), "user", "trial", "tree", none, []⟩),
    .call (.createVersion "a" ⟨"run", "user", "trial", "tree", none, []⟩)]

/-- The counter has been raised by the time the id is refused, but the next version still gets number 1. -/
theorem no_trace_of_first_try :
    let long : Call := .createVersion "a" ⟨String.ofList (List.replicate 65 'x'), "user", "trial", "tree", none, []⟩
    let before := (opened.step secondTry[0]).2.database.tables
    (∃ run part, long.operation? = .ok run ∧ part.models.map (·.counter) = [1] ∧
      run opened.clock.reading true before = .error (.argument (.tooLong labelWidth)) part ∧
      (Database.live before).perform? long opened.clock.reading =
        some (.error (.argument (.tooLong labelWidth)), .live before)) ∧
    (opened.steps secondTry).1[1]? = some (some (.error (.argument (.tooLong labelWidth)))) ∧
    (opened.effective secondTry).map Prod.fst = [secondTry[0], secondTry[2]] ∧
    (opened.steps secondTry).2.database.tables.keys = [⟨"a", 1⟩] ∧
    (opened.steps [secondTry[0], secondTry[2]]).2 = (opened.steps secondTry).2 := by
  intro long before
  have others : (opened.effective secondTry).map Prod.fst = [secondTry[0], secondTry[2]] := by decide +kernel
  obtain ⟨-, undone, -, -, -, -, rest⟩ := failures_leave_no_trace opened secondTry
  have failed : ∃ run part, long.operation? = .ok run ∧ part.models.map (·.counter) = [1] ∧
      run opened.clock.reading true before = .error (.argument (.tooLong labelWidth)) part :=
    ⟨_, _, rfl, by decide +kernel, rfl⟩
  obtain ⟨run, part, accepted, raised, failed⟩ := failed
  refine ⟨⟨run, part, accepted, raised, failed, undone _ _ _ _ _ _ accepted failed⟩, by decide +kernel, others,
    by decide +kernel, ?_⟩
  rw [← others, rest]

end Catalog

end ModelCatalog
