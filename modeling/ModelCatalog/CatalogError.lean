import ModelCatalog.Entry.Version
import ModelCatalog.SchemaName

namespace ModelCatalog

/-- Why an argument is refused. -/
inductive ArgumentFault where
  | emptyModelName
  | emptyTag
  | sameModelName (name : String)
  | unknownStage (text : String)
  | schemaName (name : String)
  | noDedicatedSchema
  | tooLong (width : Nat)
  | other (text : String)
deriving DecidableEq, Repr

inductive Relation where
  | models
  | modelTags
  | versions
  | versionTags
deriving DecidableEq, Repr

/-- The primary key of a row, with the column values as they are stored. -/
inductive RowKey where
  | model (name : String)
  | modelTag (name tag : String)
  | version (key : VersionKey)
  | versionTag (key : VersionKey) (tag : String)
deriving DecidableEq, Repr

/-- Why the storage behind the catalog refuses a statement. A `dangling` row names the missing row
that it refers to, a row still `referenced` is named with the relation that refers to it. -/
inductive StorageFault where
  | zeroCharacter
  | timeOutOfRange
  | numberOutOfRange
  | duplicate (key : RowKey)
  | dangling (relation : Relation) (parent : RowKey)
  | referenced (parent : RowKey) (relation : Relation)
  | missingRelation (relation : Relation)
  | schemaRefused (name : String) (refusal : SchemaRefusal)
  | schemaKept (name : String)
  | noSchema
  | connectionText
  | databaseMissing
  | databaseEmpty
  | other (text : String)
deriving DecidableEq, Repr

/-- What an operation of the catalog answers when it does not succeed. -/
inductive CatalogError where
  | modelNotFound (name : String)
  | versionNotFound (key : VersionKey)
  | tagNotFound (owner tag : String)
  | modelExists (name : String)
  | argument (fault : ArgumentFault)
  | connection (database cause : String)
  | storage (fault : StorageFault)
deriving DecidableEq, Repr

/-- The category under which an error is reported. -/
inductive ErrorKind where
  | notFound
  | alreadyExists
  | invalidArgument
  | storage
deriving DecidableEq, Repr

def ErrorKind.name : ErrorKind → String
  | notFound => "not_found"
  | alreadyExists => "already_exists"
  | invalidArgument => "invalid_argument"
  | storage => "storage"

def ArgumentFault.message : ArgumentFault → String
  | emptyModelName => "Registered model name must be a non-empty string"
  | emptyTag => "Tag must be a non-empty string"
  | sameModelName name =>
    s!"New name for registered model '{name}' must differ from the current name"
  | unknownStage text =>
    s!"Invalid model stage '{text}'. Expected one of: NONE, DEVELOPING, PRODUCTION, ARCHIVED"
  | schemaName name => s!"Invalid schema name: {name}"
  | noDedicatedSchema => "Refusing to drop registry tables without a dedicated schema"
  | tooLong width =>
    "value too long for type character varying(" ++ Decimal.toText width ++ ")"
  | other text => text

def Relation.name : Relation → String
  | models => "registered_model"
  | modelTags => "registered_model_tag"
  | versions => "model_version"
  | versionTags => "model_version_tag"

/-- The constraint by which the rows of a relation refer to their owner's row. -/
def Relation.foreignKey : Relation → String
  | models => ""
  | modelTags => "fk_registered_model_tag_model"
  | versions => "fk_model_version_model"
  | versionTags => "fk_model_version_tag_version"

namespace RowKey

def relation : RowKey → Relation
  | model _ => .models
  | modelTag _ _ => .modelTags
  | version _ => .versions
  | versionTag _ _ => .versionTags

/-- The columns of the key and their values. -/
def detail : RowKey → String
  | model name => s!"(name)=({name})"
  | modelTag name tag => s!"(name, tag)=({name}, {tag})"
  | version key => s!"(name, version)=({key.model}, " ++ Decimal.toText key.number ++ ")"
  | versionTag key tag =>
    s!"(name, version, tag)=({key.model}, " ++ Decimal.toText key.number ++ s!", {tag})"

end RowKey

namespace StorageFault

def unusableUrl (problem : String) : String :=
  s!"Failed to create pool: Config: configuration property {problem}"

def message : StorageFault → String
  | zeroCharacter => "invalid byte sequence for encoding \"UTF8\": 0x00"
  | timeOutOfRange => "timestamp out of range"
  | numberOutOfRange => "integer out of range"
  | duplicate key =>
    s!"duplicate key value violates unique constraint \"{key.relation.name}_pkey\"" ++
      s!" - Key {key.detail} already exists."
  | dangling relation parent =>
    s!"insert or update on table \"{relation.name}\" violates foreign key constraint" ++
      s!" \"{relation.foreignKey}\" - Key {parent.detail} is not present in table" ++
      s!" \"{parent.relation.name}\"."
  | referenced parent relation =>
    s!"update or delete on table \"{parent.relation.name}\" violates foreign key constraint" ++
      s!" \"{relation.foreignKey}\" on table \"{relation.name}\" - Key {parent.detail} is still" ++
      s!" referenced from table \"{relation.name}\"."
  | missingRelation relation => s!"relation \"{relation.name}\" does not exist"
  | schemaRefused name refusal => s!"Failed to create schema {name}: {refusal.message name}"
  | schemaKept name => s!"Failed to drop schema {name}: {SchemaRefusal.keyword.message name}"
  | noSchema => "Failed to create model_stage type: no schema has been selected to create in"
  | connectionText => unusableUrl "\"url\" is invalid: invalid connection string"
  | databaseMissing => unusableUrl "\"dbname\" not found"
  | databaseEmpty => unusableUrl "\"dbname\" contains an empty string"
  | other text => text

end StorageFault

namespace CatalogError

def kind : CatalogError → ErrorKind
  | modelNotFound _ | versionNotFound _ | tagNotFound _ _ => .notFound
  | modelExists _ => .alreadyExists
  | argument _ => .invalidArgument
  | connection _ _ | storage _ => .storage

def message : CatalogError → String
  | modelNotFound name => s!"Registered model '{name}' not found"
  | versionNotFound key =>
    "Model version " ++ Decimal.toText key.number ++
      s!" of registered model '{key.model}' not found"
  | tagNotFound owner tag => s!"Tag '{tag}' not found on {owner}"
  | modelExists name => s!"Registered model '{name}' already exists"
  | argument fault => s!"Invalid argument: {fault.message}"
  | connection database cause => s!"Connection failed to {database}: {cause}"
  | storage fault => s!"Internal error: {fault.message}"

/-- No connection to the database could be made, for whatever reason. -/
def unreachable (database : String) : CatalogError :=
  connection database "Error occurred while creating a new object: error connecting to server"

end CatalogError

/-- Goes on only if a condition holds. -/
def demand (holds : Bool) (e : CatalogError) : Except CatalogError Unit :=
  if holds then .ok () else .error e

/-- Goes on only if no error was found. -/
def refuseIf (found : Option CatalogError) : Except CatalogError Unit :=
  match found with
  | some e => .error e
  | none => .ok ()

/-- Goes on with a value only if there is one. -/
def expect {α : Type} (value : Option α) (e : CatalogError) : Except CatalogError α :=
  match value with
  | some a => .ok a
  | none => .error e

theorem demand_eq_ok {holds : Bool} {e : CatalogError} {u : Unit} :
    demand holds e = .ok u ↔ holds = true := by
  cases holds <;> simp [demand]

theorem refuseIf_eq_ok {found : Option CatalogError} {u : Unit} :
    refuseIf found = .ok u ↔ found = none := by
  cases found <;> simp [refuseIf]

theorem expect_eq_ok {α : Type} {value : Option α} {e : CatalogError} {a : α} :
    expect value e = .ok a ↔ value = some a := by
  cases value <;> simp [expect]

end ModelCatalog
