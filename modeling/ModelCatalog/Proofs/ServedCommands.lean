import ModelCatalog.CommandLine.Run
import ModelCatalog.Proofs.CommandMeanings
import ModelCatalog.Proofs.JsonLayout
import ModelCatalog.Proofs.ReadBack

namespace ModelCatalog.CommandLine

namespace World

variable {w : World} {s other : Settings} {db : Database} {t : Tables}

/-- Two worlds in which the same tables are found, whatever the settings are. -/
def Same (a b : World) : Prop :=
  ∀ s, a.database s = b.database s

theorem Same.refl (w : World) : w.Same w :=
  fun _ => rfl

end World

/-- What becomes of a command on a registry: the line that is printed for it or the error that is told, and the
registry after it. -/
inductive Serves (s : Settings) (now : Instant) (db : Database) : Command → Except CatalogError String → Database → Prop
  | ready {after : Database} (made : db.ensure s.schema = .ok after) :
    Serves s now db .init (.ok "Registry schema is ready") after
  | notReady {e : CatalogError} (refused : db.ensure s.schema = .error e) : Serves s now db .init (.error e) db
  | model {call : Call} {m : Model} {after : Database} (done : db.perform? call now = some (.ok (.model m), after)) :
    Serves s now db (.perform call) (.ok (Json.shown m.toJson)) after
  | models {call : Call} {ms : List Model} {after : Database}
    (done : db.perform? call now = some (.ok (.models ms), after)) :
    Serves s now db (.perform call) (.ok (Json.shown (.array (ms.map Model.toJson)))) after
  | version {call : Call} {v : Version} {after : Database}
    (done : db.perform? call now = some (.ok (.version v), after)) :
    Serves s now db (.perform call) (.ok (Json.shown v.toJson)) after
  | versions {call : Call} {vs : List Version} {after : Database}
    (done : db.perform? call now = some (.ok (.versions vs), after)) :
    Serves s now db (.perform call) (.ok (Json.shown (.array (vs.map Version.toJson)))) after
  | uri {call : Call} {text : String} {after : Database} (done : db.perform? call now = some (.ok (.uri text), after)) :
    Serves s now db (.perform call) (.ok text) after
  | modelDeleted {name : String} {after : Database}
    (done : db.perform? (.deleteModel name) now = some (.ok .done, after)) :
    Serves s now db (.perform (.deleteModel name)) (.ok ("Deleted registered model '" ++ name ++ "'")) after
  | versionDeleted {key : VersionKey} {after : Database}
    (done : db.perform? (.deleteVersion key) now = some (.ok .done, after)) :
    Serves s now db (.perform (.deleteVersion key))
      (.ok ("Deleted version " ++ Decimal.toText key.number ++ " of registered model '" ++ key.model ++ "'")) after
  | refused {call : Call} {e : CatalogError} {after : Database}
    (refused : db.perform? call now = some (.error e, after)) : Serves s now db (.perform call) (.error e) db

variable {s : Settings} {now : Instant} {db after : Database} {c : Command} {args : List String} {call : Call}
  {e : CatalogError} {a : Answer}

end ModelCatalog.CommandLine
