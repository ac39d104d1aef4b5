import ModelCatalog.Catalog.Call

namespace ModelCatalog.CommandLine

/-- What a list of arguments asks for. -/
inductive Command where
  | init
  | perform (call : Call)
deriving DecidableEq, Repr

/-- Why a list of arguments gives no command: it asks for information, or it is refused. -/
inductive Stop where
  | version
  | help
  | refused
deriving DecidableEq, Repr

/-- One argument, or an option together with its value. -/
inductive Item where
  | positional (text : String)
  | option (name value : String)
deriving DecidableEq, Repr

/-- What a positional argument stands for. -/
inductive Slot where
  | text
  | number
deriving DecidableEq, Repr

/-- What one command takes: positional arguments in their order, and options of three sorts. -/
structure Form where
  positionals : List Slot
  required : List String := []
  single : List String := []
  repeated : List String := []

/-- A short flag, with the letters that stand after the dash. -/
def shortFlags? (arg : String) : Option (List Char) :=
  match arg.toList with
  | '-' :: c :: rest => if c = '-' then none else some (c :: rest)
  | _ => none

/-- A long option, with the value after an equals sign if there is one. -/
def longOption? (arg : String) : Option (String × Option String) :=
  match arg.toList with
  | '-' :: '-' :: rest =>
    some (String.ofList (rest.takeWhile (· ≠ '=')),
      match rest.dropWhile (· ≠ '=') with
      | _ :: value => some (String.ofList value)
      | [] => none)
  | _ => none

/-- Whether an argument asks for something with its first short flag or with a long option. -/
def asks (flag : Char) (name : String) (arg : String) : Bool :=
  (shortFlags? arg).bind List.head? = some flag || longOption? arg = some (name, none)

/-- A value that stands on its own may not look like an option. -/
def isValue (arg : String) : Bool :=
  (shortFlags? arg).isNone && (longOption? arg).isNone

namespace Form

def options (f : Form) : List String :=
  f.required ++ f.single ++ f.repeated

/-- Reads arguments from left to right up to the end, or to the first that asks for help or cannot
be read. After `--` all of them are positional. -/
def items (f : Form) : List String → List Item × Option Stop
  | [] => ([], none)
  | "--" :: rest => (rest.map .positional, none)
  | arg :: rest =>
    let andThen (item : Item) (more : List Item × Option Stop) := (item :: more.1, more.2)
    if isValue arg then andThen (.positional arg) (f.items rest)
    else if asks 'h' "help" arg then ([], some .help)
    else
      match longOption? arg with
      | none => ([], some .refused)
      | some (name, inline) =>
        if f.options.contains name then
          match inline, rest with
          | some value, rest => andThen (.option name value) (f.items rest)
          | none, value :: rest =>
            if isValue value then andThen (.option name value) (f.items rest)
            else ([], some .refused)
          | none, [] => ([], some .refused)
        else ([], some .refused)

end Form

namespace Item

def positionals (items : List Item) : List String :=
  items.filterMap fun
    | positional s => some s
    | option _ _ => none

def values (name : String) (items : List Item) : List String :=
  items.filterMap fun
    | positional _ => none
    | option n v => if n = name then some v else none

def value? (name : String) (items : List Item) : Option String :=
  (values name items).head?

end Item

def number? (s : String) : Option Int :=
  Decimal.inRange? .signed32 s.toList

def Slot.admits (slot : Slot) (s : String) : Bool :=
  match slot with
  | text => true
  | number => (number? s).isSome

namespace Form

/-- Whether each item is one that the command takes. More may have to follow. -/
def admits (f : Form) (items : List Item) : Bool :=
  let given := Item.positionals items
  given.length ≤ f.positionals.length &&
    ((f.positionals.zip given).all fun (slot, s) => slot.admits s) &&
    (f.required ++ f.single).all fun name => (Item.values name items).length ≤ 1

/-- Whether nothing that the command needs is missing. -/
def isComplete (f : Form) (items : List Item) : Bool :=
  f.positionals.length ≤ (Item.positionals items).length &&
    f.required.all fun name => (Item.value? name items).isSome

/-- Reads arguments into a command, which `build` makes of the positional ones and the options. Help
is given if all arguments before it can stand, complete or not. -/
def read (f : Form) (build : List String → List Item → Option Command) (args : List String) :
    Except Stop Command :=
  let (items, stop) := f.items args
  if f.admits items then
    match stop with
    | some stop => .error stop
    | none =>
      match if f.isComplete items then build (Item.positionals items) items else none with
      | some command => .ok command
      | none => .error .refused
  else .error .refused

end Form

def key? (name number : String) : Option VersionKey :=
  (number? number).map fun n => ⟨name, n⟩

/-- The commands, each with those inside it. -/
def commands : List (String × List String) := [
  ("init", []),
  ("models", ["list", "show", "create", "rename", "delete", "help"]),
  ("versions", ["list", "show", "create", "stage", "uri", "delete", "help"]),
  ("help", [])]

/-- Help is about everything, about a command, or about a command inside another one. -/
def isTopic : List String → Bool
  | [] => true
  | [name] => (commands.lookup name).isSome
  | [group, name] => ((commands.lookup group).getD []).contains name
  | _ => false

def helpOn (topic : List String) : Except Stop Command :=
  .error (if isTopic topic then .help else .refused)

/-- What stands in the place of a command and is none may still ask for help. -/
def outside : List String → Except Stop Command
  | arg :: _ => .error (if asks 'h' "help" arg then .help else .refused)
  | [] => .error .refused

def readModels : List String → Except Stop Command
  | "list" :: rest =>
    Form.read { positionals := [], single := ["filter"], repeated := ["tag"] }
      (fun _ items =>
        some (.perform (.listModels (Item.value? "filter" items) (Item.values "tag" items)))) rest
  | "show" :: rest =>
    Form.read { positionals := [.text] }
      (fun
        | [name], _ => some (.perform (.getModel name))
        | _, _ => none) rest
  | "create" :: rest =>
    Form.read { positionals := [.text], single := ["description"], repeated := ["tag"] }
      (fun
        | [name], items =>
          some (.perform
            (.createModel name (Item.value? "description" items) (Item.values "tag" items)))
        | _, _ => none) rest
  | "rename" :: rest =>
    Form.read { positionals := [.text, .text] }
      (fun
        | [name, newName], _ => some (.perform (.renameModel name newName))
        | _, _ => none) rest
  | "delete" :: rest =>
    Form.read { positionals := [.text] }
      (fun
        | [name], _ => some (.perform (.deleteModel name))
        | _, _ => none) rest
  | "help" :: topic => helpOn ("models" :: topic)
  | args => outside args

/-- The draft that the options of a new version describe. -/
def draft? (items : List Item) : Option VersionDraft := do
  return {
    id := ← Item.value? "id" items
    user := ← Item.value? "user" items
    experiment := ← Item.value? "experiment" items
    modelType := ← Item.value? "model-type" items
    description := Item.value? "description" items
    tags := Item.values "tag" items }

def readVersions : List String → Except Stop Command
  | "list" :: rest =>
    Form.read { positionals := [.text], repeated := ["tag"] }
      (fun
        | [name], items => some (.perform (.listVersions name (Item.values "tag" items)))
        | _, _ => none) rest
  | "show" :: rest =>
    Form.read { positionals := [.text, .number] }
      (fun
        | [name, number], _ => (key? name number).map fun key => .perform (.getVersion key)
        | _, _ => none) rest
  | "create" :: rest =>
    Form.read {
        positionals := [.text]
        required := ["id", "user", "experiment", "model-type"]
        single := ["description"]
        repeated := ["tag"] }
      (fun
        | [name], items => (draft? items).map fun draft => .perform (.createVersion name draft)
        | _, _ => none) rest
  | "stage" :: rest =>
    Form.read { positionals := [.text, .number, .text] }
      (fun
        | [name, number, stage], _ =>
          (key? name number).map fun key => .perform (.moveVersion key stage)
        | _, _ => none) rest
  | "uri" :: rest =>
    Form.read { positionals := [.text, .number] }
      (fun
        | [name, number], _ => (key? name number).map fun key => .perform (.versionUri key)
        | _, _ => none) rest
  | "delete" :: rest =>
    Form.read { positionals := [.text, .number] }
      (fun
        | [name, number], _ => (key? name number).map fun key => .perform (.deleteVersion key)
        | _, _ => none) rest
  | "help" :: topic => helpOn ("versions" :: topic)
  | args => outside args

/-- Reads a whole list of arguments. The version is asked for before any command only. -/
def read : List String → Except Stop Command
  | "init" :: rest => Form.read { positionals := [] } (fun _ _ => some .init) rest
  | "models" :: rest => readModels rest
  | "versions" :: rest => readVersions rest
  | "help" :: topic => helpOn topic
  | arg :: rest =>
    if asks 'V' "version" arg then .error .version else outside (arg :: rest)
  | [] => .error .refused

end ModelCatalog.CommandLine
