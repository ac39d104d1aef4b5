import ModelCatalog.Entry.Model
import ModelCatalog.Entry.Version
import ModelCatalog.Json.Value
import ModelCatalog.Number.Range
import ModelCatalog.Time.Rfc3339

namespace ModelCatalog

open Json (Value)

/-- The values of a record by key. A record is an object in which none of the known keys stands
twice, or an array of exactly the known fields in order; keys that are not known are passed over. -/
def Json.Value.record? (keys : List String) : Value → Option (String → Option Value)
  | .object members =>
    if members.all (fun m => m.1.isSome) &&
        keys.all (fun key => members.countP (fun m => m.1 == some key) ≤ 1) then
      some fun key => (members.find? fun m => m.1 == some key).map Prod.snd
    else none
  | .array elements =>
    if elements.length = keys.length then some fun key => (keys.zip elements).lookup key else none
  | _ => none

def Json.Value.ofFields (fields : List (String × Value)) : Value :=
  .object (fields.map fun (key, v) => (some key, v))

namespace Instant

def toJson (t : Instant) : Value :=
  .text (String.ofList (Rfc3339.print t))

def ofJson? (v : Value) : Option Instant := do
  Rfc3339.read? (← v.text?).toList

end Instant

namespace Stage

def toJson (stage : Stage) : Value :=
  .text stage.name

/-- A stage is its name, or an object that holds null under its name and nothing else. -/
def ofJson? : Value → Option Stage
  | .string (some s) => ofName? s
  | .object [(some s, .null)] => ofName? s
  | _ => none

end Stage

namespace Model

def keys : List String :=
  ["name", "creationTime", "lastUpdatedTime", "description", "tags"]

def toJson (m : Model) : Value :=
  .ofFields [
    ("name", .text m.name),
    ("creationTime", m.createdAt.toJson),
    ("lastUpdatedTime", m.updatedAt.toJson),
    ("description", .optional m.description),
    ("tags", .texts m.tags)]

def ofJson? (v : Value) : Option Model := do
  let field ← v.record? keys
  return {
    name := ← (← field "name").text?
    createdAt := ← Instant.ofJson? (← field "creationTime")
    updatedAt := ← Instant.ofJson? (← field "lastUpdatedTime")
    description := ← ((field "description").getD .null).optional?
    tags := ← (← field "tags").texts? }

end Model

namespace Version

def keys : List String :=
  ["name", "version", "id", "userId", "experimentId", "modelType", "currentStage", "creationTime",
    "lastUpdatedTime", "dataset", "description", "tags"]

def toJson (v : Version) : Value :=
  .ofFields [
    ("name", .text v.model),
    ("version", .integer v.number),
    ("id", .text v.id),
    ("userId", .text v.user),
    ("experimentId", .text v.experiment),
    ("modelType", .text v.modelType),
    ("currentStage", v.stage.toJson),
    ("creationTime", v.createdAt.toJson),
    ("lastUpdatedTime", v.updatedAt.toJson),
    ("dataset", .optional v.dataset),
    ("description", .optional v.description),
    ("tags", .texts v.tags)]

def ofJson? (v : Value) : Option Version := do
  let field ← v.record? keys
  return {
    model := ← (← field "name").text?
    number := ← (← field "version").integer? Range.signed32
    id := ← (← field "id").text?
    user := ← (← field "userId").text?
    experiment := ← (← field "experimentId").text?
    modelType := ← (← field "modelType").text?
    stage := ← Stage.ofJson? (← field "currentStage")
    createdAt := ← Instant.ofJson? (← field "creationTime")
    updatedAt := ← Instant.ofJson? (← field "lastUpdatedTime")
    dataset := ← ((field "dataset").getD .null).optional?
    description := ← ((field "description").getD .null).optional?
    tags := ← (← field "tags").texts? }

end Version

end ModelCatalog
