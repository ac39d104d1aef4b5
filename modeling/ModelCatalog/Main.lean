import ModelCatalog.CommandLine.Run
import Std.Time.DateTime.Timestamp

namespace ModelCatalog.CommandLine

/-- The variables that the settings know. -/
def settingNames : List String :=
  ["DATABASE_URL", "DB_HOST", "DB_PORT", "DB_NAME", "DB_USER", "DB_PASSWORD",
    "MODEL_REGISTRY_SCHEMA", "MAX_CONNECTIONS", "POOL_TIMEOUT_SECS", "LOG_DIR"]

def processEnvironment : IO Environment := do
  let found ← settingNames.mapM fun name => do return (← IO.getEnv name).map fun v => (name, v)
  return found.filterMap id

def wallClock : IO Instant := do
  let nanos := (← Std.Time.Timestamp.now).toNanosecondsSinceUnixEpoch.val
  let t := (Instant.mk? (nanos / 1000000000) (nanos % 1000000000).toNat).getD
    ⟨0, 0, by decide, by decide⟩
  return t.wholeMicros

/-- The tables live in memory: every run starts with an empty catalog under the configured URL. -/
def freshServer (environment : Environment) : Server :=
  match Settings.ofVariables environment.value? with
  | .ok s => ⟨s.databaseUrl, [(World.schemaOf s, .empty)]⟩
  | .error _ => ⟨"", []⟩

/-- Makes the folder for logs. That it cannot be made is no reason to stop. -/
def makeLogFolder (environment : Environment) : IO Unit := do
  let .ok s := Settings.ofVariables environment.value? | return
  let some directory := s.logDirectory | return
  try IO.FS.createDirAll directory catch _ => return

end ModelCatalog.CommandLine

open ModelCatalog.CommandLine in
/-- Runs the program once, on the arguments and the environment of the process. -/
def main (args : List String) : IO UInt32 := do
  let environment ← processEnvironment
  let envFile ← try some <$> IO.FS.readFile ".env" catch _ => pure none
  let complete := envFile.elim (some environment) environment.withFile?
  complete.forM makeLogFolder
  let world : World := {
    server := freshServer (complete.getD environment)
    environment := environment
    envFile := envFile
    folder := ⟨[], []⟩ }
  let (outcome, _) := run world (← wallClock) args
  IO.print outcome.out
  IO.eprint (outcome.err.getD "")
  return outcome.code.toUInt32
