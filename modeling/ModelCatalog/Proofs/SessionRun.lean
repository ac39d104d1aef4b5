import ModelCatalog.Catalog.Session
import ModelCatalog.Proofs.DatabaseRun

namespace ModelCatalog

/-- A catalog whose tables have just been made. -/
def Catalog.Fresh (c : Catalog) : Prop :=
  Database.ensure c.schema .dropped = .ok c.database

/-- A catalog without a dedicated schema, right after its tables were made at the start of 1970. -/
def Catalog.opened : Catalog where
  schema := none
  clock := .showing (.ofSeconds 0)
  database := .live .empty

/-- The events of a session, each with what comes of it. -/
def Catalog.history (c : Catalog) (events : List Event) : List (Event × Response) :=
  events.zip (c.steps events).1

/-- The databases to which a session leads from the making of the tables on, if only certain events occur. -/
def Database.Reached (allowed : Event → Prop) (db : Database) : Prop :=
  ∃ (c : Catalog) (events : List Event), c.Fresh ∧ (∀ e ∈ events, allowed e) ∧ (c.steps events).2.database = db

/-- What an event that is served does to tables that are there. -/
inductive Tables.Turn (now : Instant) (t : Tables) : Event → Reply → Tables → Prop
  | call {call : Call} {a : Answer} {t' : Tables} (done : Operation.Succeeds call.operation? now t a t')
    (readable : a.isReadable = true) : Turn now t (.call call) (.answer a) t'
  | dataset {key : VersionKey} {dataset : Option String} {n : Nat} {t' : Tables}
    (done : (Versions.setDataset key dataset).on t = .ok (n, t')) :
    Turn now t (.writeDataset key dataset) (.rows n) t'
  | counter {name : String} {number : Int} {n : Nat} {t' : Tables}
    (done : (Models.setCounter name number).on t = .ok (n, t')) : Turn now t (.writeCounter name number) (.rows n) t'

/-- All that can come of an event. One that is refused or breaks off changes nothing at all. -/
inductive Catalog.Outcome (c : Catalog) : Event → Response → Catalog → Prop
  | refused {e : Event} (err : CatalogError) : Outcome c e (some (.error err)) c
  | brokenOff {e : Event} : Outcome c e none c
  | served {e : Event} {t t' : Tables} {r : Reply} (live : c.database = .live t)
    (turn : t.Turn c.clock.reading e r t') : Outcome c e (some (.ok r)) { c with database := .live t' }
  | dropped : Outcome c (.dropSchema (some (homeSchema c.schema))) (some (.ok .done))
    { c with database := .bare c.schema }
  | quiet {e : Event} {r : Reply} {after : Catalog} (same : after.database.tables = c.database.tables)
    (call : ∀ call, e ≠ .call call) (drop : e ≠ .dropSchema (some (homeSchema c.schema))) :
    Outcome c e (some (.ok r)) after

namespace Catalog

variable {c : Catalog}

theorem Fresh.database_eq (fresh : c.Fresh) : c.database = .live .empty := by
  simp only [Fresh, Database.ensure, bind_eq_ok] at fresh
  obtain ⟨_, _, _, _, _, _, same⟩ := fresh
  exact (pure_eq_ok.mp same)

theorem fresh_opened : opened.Fresh :=
  rfl

theorem step_schema (c : Catalog) (e : Event) : (c.step e).2.schema = c.schema := by
  cases e with
  | call call =>
    simp only [step, call?, Prod.map_snd, id]
    split <;> rfl
  | ensureSchema =>
    simp only [step, withDatabase]
    split <;> rfl
  | dropSchema schema =>
    simp only [step, withDatabase]
    split <;> rfl
  | _ => rfl

theorem steps_schema (c : Catalog) (events : List Event) : (c.steps events).2.schema = c.schema := by
  induction events generalizing c with
  | nil => rfl
  | cons e rest ih => exact (ih (c.step e).2).trans (c.step_schema e)

theorem call?_of_perform? {call : Call} {result : Except CatalogError Answer} {db : Database}
    (performed : c.database.perform? call c.clock.reading = some (result, db)) :
    c.call? call = (some result, { c with database := db }) := by
  simp only [call?, performed]

theorem call?_of_none {call : Call} (broken : c.database.perform? call c.clock.reading = none) :
    c.call? call = (none, c) := by
  simp only [call?, broken]

theorem call_of_call? {call : Call} {result : Except CatalogError Answer} (made : (c.call? call).1 = some result) :
    (c.database.call call c.clock.reading).1 = result := by
  cases performed : c.database.perform? call c.clock.reading with
  | none => simp only [call?_of_none performed, reduceCtorEq] at made
  | some both =>
    obtain ⟨result', db⟩ := both
    rw [call?_of_perform? performed] at made
    cases made
    exact congrArg Prod.fst (Database.call_of_perform? performed)

theorem call?_of_refuses {call : Call} {e : CatalogError} (refused : c.database.Refuses call c.clock.reading e) :
    c.call? call = (some (.error e), c) :=
  call?_of_perform? refused.performed

theorem step_of_refuses {call : Call} {e : CatalogError} (refused : c.database.Refuses call c.clock.reading e) :
    c.step (.call call) = (some (.error e), c) := by
  rw [step, call?_of_refuses refused]
  rfl

theorem call_outcome (call : Call) : Outcome c (.call call) (c.step (.call call)).1 (c.step (.call call)).2 := by
  cases performed : c.database.perform? call c.clock.reading with
  | none =>
    simp only [step, call?_of_none performed]
    exact .brokenOff
  | some made =>
    obtain ⟨result, db⟩ := made
    simp only [step, call?_of_perform? performed]
    cases result with
    | error err =>
      have called := Database.perform?_eq_error_iff.mp performed
      have same := Database.answer_of_error (congrArg Prod.fst called)
      obtain rfl : db = c.database := (congrArg Prod.snd called).symm.trans same
      exact .refused err
    | ok a =>
      obtain ⟨called, readable⟩ := Database.perform?_eq_ok_iff.mp performed
      obtain ⟨t, t', live, done, after⟩ := Database.call_of_ok (congrArg Prod.fst called)
      obtain rfl : db = .live t' := (congrArg Prod.snd called).symm.trans after
      exact .served live (.call done readable)

/-- A column that is set directly is set in tables that are there. -/
theorem run_outcome {e : Event} {relation : Relation} {run : Operation Nat}
    (first : Operation.StartsFrom relation (.ok run))
    (turn : ∀ t n t', (run c.clock.reading).on t = .ok (n, t') → t.Turn c.clock.reading e (.rows n) t') :
    Outcome c e (some ((c.run (.ok run)).1.map .rows)) (c.run (.ok run)).2 := by
  cases result : (c.database.answer (.ok run) c.clock.reading).1 with
  | error err =>
    have same := Database.answer_of_error result
    simp only [Catalog.run, result, same]
    exact .refused err
  | ok n =>
    obtain ⟨t, t', live, done, after⟩ := Database.answer_of_ok first result
    simp only [Catalog.run, result, after]
    exact .served live (turn t n t' (Operation.succeeds_ok.mp done))

theorem step_outcome (c : Catalog) (e : Event) : Outcome c e (c.step e).1 (c.step e).2 := by
  cases e with
  | call call => exact call_outcome call
  | ping =>
    simp only [step]
    cases c.database.reach with
    | error err => exact .refused err
    | ok u => exact .quiet rfl nofun nofun
  | ensureSchema =>
    simp only [step, withDatabase]
    cases made : c.database.ensure c.schema with
    | error err => exact .refused err
    | ok db =>
      rw [Database.ensure_eq_ok made]
      exact .quiet rfl nofun nofun
  | dropSchema schema =>
    simp only [step, withDatabase]
    cases gone : c.database.drop c.schema schema with
    | error err => exact .refused err
    | ok db =>
      obtain ⟨name, rfl, rfl⟩ := Database.drop_eq_ok gone
      by_cases own : name = homeSchema c.schema
      · rw [if_pos own, own]
        exact .dropped
      · rw [if_neg own]
        exact .quiet rfl nofun fun same => own (Option.some.inj (Event.dropSchema.inj same))
  | setClock t => exact .quiet rfl nofun nofun
  | writeDataset key dataset =>
    exact run_outcome (.ok fun _ => .bind .statement) fun t n t' done => .dataset done
  | writeCounter name number =>
    exact run_outcome (.ok fun _ => .bind .statement) fun t n t' done => .counter done
  | snapshot =>
    simp only [step]
    cases c.snapshot? with
    | none => exact .brokenOff
    | some result =>
      cases result with
      | error err => exact .refused err
      | ok entries => exact .quiet rfl nofun nofun

/-- More events lead on from where the events before them lead to. -/
theorem steps_append (c : Catalog) (events more : List Event) :
    (c.steps (events ++ more)).2 = ((c.steps events).2.steps more).2 := by
  induction events generalizing c with
  | nil => rfl
  | cons e rest ih => exact ih (c.step e).2

theorem history_cons (c : Catalog) (e : Event) (rest : List Event) :
    c.history (e :: rest) = (e, (c.step e).1) :: (c.step e).2.history rest :=
  rfl

end Catalog

section Reaching

variable {db after : Database} {allowed : Event → Prop}

/-- A call at a time of its own leads on from where a session has led to. -/
theorem Database.Reached.perform? {call : Call} {result : Except CatalogError Answer} (reached : db.Reached allowed)
    (clock : Clock) (performed : db.perform? call clock.reading = some (result, after))
    (timed : allowed (.setClock clock.reading)) (called : allowed (.call call)) : after.Reached allowed := by
  obtain ⟨c, events, fresh, kept, rfl⟩ := reached
  refine ⟨c, events ++ [.setClock clock.reading, .call call], fresh, fun e member => ?_, ?_⟩
  · rcases List.mem_append.mp member with past | new
    · exact kept e past
    · rcases List.mem_pair.mp new with rfl | rfl
      · exact timed
      · exact called
  · rw [Catalog.steps_append]
    simp only [Catalog.steps, Catalog.step, Catalog.call?, Clock.showing, clock.wholeMicros_reading, performed]
    rfl

/-- Making sure of the tables leads on from where a session has led to, and starts a session if nothing was there. -/
theorem Database.Reached.ensure {schema : Option String} (reached : db.Reached allowed)
    (made : db.ensure schema = .ok after) : after.Reached allowed := by
  cases db with
  | unreachable =>
    simp only [Database.ensure, bind_eq_ok] at made
    obtain ⟨_, _, _, server, -⟩ := made
    cases server
  | dropped => exact ⟨⟨schema, .showing (.ofSeconds 0), after⟩, [], made, List.forall_mem_nil _, rfl⟩
  | homeless =>
    cases schema with
    | none => cases made
    | some name => exact ⟨⟨some name, .showing (.ofSeconds 0), after⟩, [], made, List.forall_mem_nil _, rfl⟩
  | live t => exact Database.ensure_eq_ok made ▸ reached

end Reaching

/-- A way to keep account of a session from outside: what is known when the tables have just been made,
and what the answer to a call adds to it. -/
structure Ledger (σ : Type) where
  blank : σ
  note : σ → Call → Answer → σ

namespace Ledger

variable {σ : Type} {c : Catalog}

/-- Only calls that succeed are noted, and dropping the schema with the tables wipes the account. -/
def next (ledger : Ledger σ) (home : String) (s : σ) : Event × Response → σ
  | (.call call, some (.ok (.answer a))) => ledger.note s call a
  | (.dropSchema (some name), some (.ok _)) => if name = home then ledger.blank else s
  | _ => s

/-- The account of a whole session. -/
def after (ledger : Ledger σ) (c : Catalog) (events : List Event) : σ :=
  (c.history events).foldl (ledger.next (homeSchema c.schema)) ledger.blank

section Next

variable {ledger : Ledger σ} {home : String} {s : σ} {e : Event} {response : Response}

/-- What fails or breaks off is not noted. -/
theorem next_of_idle (idle : response.any Except.isOk = false) : ledger.next home s (e, response) = s := by
  unfold next
  split
  · rename_i same
    cases same
    exact absurd idle nofun
  · rename_i same
    cases same
    exact absurd idle nofun
  · rfl

theorem next_dropped {r : Reply} :
    ledger.next home s (.dropSchema (some home), some (.ok r)) = ledger.blank := by
  rw [next, if_pos rfl]

theorem next_quiet (call : ∀ call, e ≠ .call call) (drop : e ≠ .dropSchema (some home)) :
    ledger.next home s (e, response) = s := by
  unfold next
  split
  · rename_i same
    cases same
    exact absurd rfl (call _)
  · rename_i same
    cases same
    exact if_neg fun own => drop (by rw [own])
  · rfl

end Next

theorem next_outcome {ledger : Ledger σ} {s : σ} {holds : σ → Tables → Prop} {e : Event} {response : Response}
    {after : Catalog} (blank : holds ledger.blank .empty)
    (turn : ∀ {t r t'}, response = some (.ok r) → holds s t → t.Turn c.clock.reading e r t' →
      holds (ledger.next (homeSchema c.schema) s (e, some (.ok r))) t')
    (known : holds s c.database.tables) (outcome : c.Outcome e response after) :
    holds (ledger.next (homeSchema c.schema) s (e, response)) after.database.tables := by
  cases outcome with
  | refused err =>
    rw [next_of_idle (by rfl)]
    exact known
  | brokenOff =>
    rw [next_of_idle (by rfl)]
    exact known
  | served live done =>
    rw [live] at known
    exact turn rfl known done
  | dropped =>
    rw [next_dropped, Database.tables_bare]
    exact blank
  | quiet same call drop =>
    rw [same, next_quiet call drop]
    exact known

/-- What an account says about the tables at some point of a session, and what every event that is served keeps
true of it, holds from there on, as long as only certain things happen. -/
theorem foldl_history (ledger : Ledger σ) (home : String) (holds : σ → Tables → Prop)
    (allowed : Event × Response → Prop) (blank : holds ledger.blank .empty)
    (turn : ∀ {s now t e r t'}, allowed (e, some (.ok r)) → holds s t → t.Turn now e r t' →
      holds (ledger.next home s (e, some (.ok r))) t')
    {events : List Event} {s : σ} (own : homeSchema c.schema = home)
    (kept : ∀ entry ∈ c.history events, allowed entry) (known : holds s c.database.tables) :
    holds ((c.history events).foldl (ledger.next home) s) (c.steps events).2.database.tables := by
  -- The account and the catalog are left open, as both move on with every event.
  induction events generalizing c s with
  | nil => exact known
  | cons e rest ih =>
    rw [Catalog.history_cons] at kept ⊢
    rw [List.foldl_cons]
    refine ih (by rw [c.step_schema, own]) (fun entry later => kept entry (List.mem_cons_of_mem _ later)) ?_
    subst own
    refine next_outcome blank (fun served => turn ?_) known (c.step_outcome e)
    exact served ▸ kept _ List.mem_cons_self

/-- What an account says about the tables at the start of a session, and what every event that is
served keeps true of it, holds at the end of the session. -/
theorem after_holds (ledger : Ledger σ) (holds : σ → Tables → Prop) (allowed : Event → Prop)
    (blank : holds ledger.blank .empty)
    (turn : ∀ {home s now t e r t'}, allowed e → holds s t → t.Turn now e r t' →
      holds (ledger.next home s (e, some (.ok r))) t')
    (fresh : c.Fresh) {events : List Event} (kept : ∀ e ∈ events, allowed e) :
    holds (ledger.after c events) (c.steps events).2.database.tables := by
  refine ledger.foldl_history _ holds (fun entry => allowed entry.1) blank turn rfl (fun entry there => ?_) ?_
  · exact kept entry.1 (List.of_mem_zip there).1
  · rw [fresh.database_eq]
    exact blank

end Ledger

/-- What holds of empty tables and is kept by every event that is served holds all along. -/
theorem Catalog.steps_holds {c : Catalog} (holds : Tables → Prop) (allowed : Event → Prop) (blank : holds .empty)
    (turn : ∀ {now t e r t'}, allowed e → holds t → t.Turn now e r t' → holds t') (fresh : c.Fresh)
    {events : List Event} (kept : ∀ e ∈ events, allowed e) : holds (c.steps events).2.database.tables := by
  have nothing : Ledger Unit := ⟨(), fun _ _ _ => ()⟩
  exact nothing.after_holds (fun _ t => holds t) allowed blank turn fresh kept

end ModelCatalog
