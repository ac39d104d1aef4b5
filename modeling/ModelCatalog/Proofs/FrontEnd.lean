import ModelCatalog.Proofs.PrintedRecords

namespace ModelCatalog.CommandLine

variable {s : Settings} {now : Instant} {c : Command} {args : List String} {e : CatalogError} {w : World}

/-- The environment in which the settings of a run are looked up: its own, with that of the environment file. -/
def World.loaded? (w : World) : Option Environment :=
  w.envFile.elim (some w.environment) w.environment.withFile?

/-- The settings of every run in a world. -/
def World.SetTo (w : World) (s : Settings) : Prop :=
  ∃ environment, w.loaded? = some environment ∧ Settings.ofVariables environment.value? = .ok s

/-- The working folder with the file for logs, and whether that can be opened if there has to be one. -/
def World.logged (w : World) (s : Settings) (now : Instant) : Folder × Bool :=
  s.logDirectory.elim (w.folder, true) fun path => w.folder.makeFile path (logName now)

/-- A run comes to its arguments: the settings are accepted, and nothing is in the way of the logs. -/
def World.Ready (w : World) (now : Instant) (s : Settings) : Prop :=
  w.SetTo s ∧ (w.logged s now).2 = true

def World.Connects (w : World) (s : Settings) : Prop :=
  ∃ pool, s.connect? (w.database s ≠ .unreachable) = some (.ok pool)

/-- A run succeeds with what its arguments mean. -/
def Succeeds (w : World) (now : Instant) (args : List String) (s : Settings) (c : Command) (line : String)
    (after : Database) : Prop :=
  w.Ready now s ∧ Means args c ∧ w.Connects s ∧ Serves s now (w.database s) c (.ok line) after

theorem World.SetTo.unique {s' : Settings} (set : w.SetTo s) (set' : w.SetTo s') : s = s' := by
  obtain ⟨environment, loaded, made⟩ := set
  obtain ⟨environment', loaded', made'⟩ := set'
  cases loaded.symm.trans loaded'
  exact Except.ok.inj (made.symm.trans made')

/-- The world after runs of the program one after the other, each at its own time. -/
def World.after (w : World) : List (Clock × List String) → World
  | [] => w
  | (clock, args) :: rest => World.after (run w clock.reading args).2 rest

/-- Tables that have just been made, in the public schema of a server that the environment names. -/
def World.blank : World where
  server := ⟨"postgres://u@h/d", [("public", .empty)]⟩
  environment := [("DATABASE_URL", "postgres://u@h/d")]
  envFile := none
  folder := ⟨[], []⟩

end ModelCatalog.CommandLine
