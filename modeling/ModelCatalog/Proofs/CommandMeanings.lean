import Mathlib.Data.List.Forall2
import ModelCatalog.Proofs.WrittenArguments

namespace ModelCatalog.CommandLine

open Item (positionals values value?)

/-- What a list of arguments asks for, command by command. Each parameter of a call is taken from one place: a text from
its place among the positional ones, an optional or required text from the option of its name, which stands at most
once, and tags from all the options for them, in their order. -/
inductive Means : List String → Command → Prop
  | init {args : List String} (written : Written [] [] args) : Means ("init" :: args) .init
  | listModels {items : List Item} {args : List String} {filter : Option String}
    (written : Written ["filter", "tag"] items args) (texts : positionals items = [])
    (filters : values "filter" items = filter.toList) :
    Means ("models" :: "list" :: args) (.perform (.listModels filter (values "tag" items)))
  | showModel {items : List Item} {args : List String} {name : String} (written : Written [] items args)
    (texts : positionals items = [name]) : Means ("models" :: "show" :: args) (.perform (.getModel name))
  | createModel {items : List Item} {args : List String} {name : String} {description : Option String}
    (written : Written ["description", "tag"] items args) (texts : positionals items = [name])
    (descriptions : values "description" items = description.toList) :
    Means ("models" :: "create" :: args) (.perform (.createModel name description (values "tag" items)))
  | renameModel {items : List Item} {args : List String} {name newName : String} (written : Written [] items args)
    (texts : positionals items = [name, newName]) :
    Means ("models" :: "rename" :: args) (.perform (.renameModel name newName))
  | deleteModel {items : List Item} {args : List String} {name : String} (written : Written [] items args)
    (texts : positionals items = [name]) : Means ("models" :: "delete" :: args) (.perform (.deleteModel name))
  | listVersions {items : List Item} {args : List String} {name : String} (written : Written ["tag"] items args)
    (texts : positionals items = [name]) :
    Means ("versions" :: "list" :: args) (.perform (.listVersions name (values "tag" items)))
  | showVersion {items : List Item} {args : List String} {name number : String} {n : Int}
    (written : Written [] items args) (texts : positionals items = [name, number]) (whole : number? number = some n) :
    Means ("versions" :: "show" :: args) (.perform (.getVersion ⟨name, n⟩))
  | createVersion {items : List Item} {args : List String} {name id user experiment modelType : String}
    {description : Option String}
    (written : Written ["id", "user", "experiment", "model-type", "description", "tag"] items args)
    (texts : positionals items = [name]) (ids : values "id" items = [id]) (users : values "user" items = [user])
    (experiments : values "experiment" items = [experiment]) (modelTypes : values "model-type" items = [modelType])
    (descriptions : values "description" items = description.toList) :
    Means ("versions" :: "create" :: args)
      (.perform (.createVersion name ⟨id, user, experiment, modelType, description, values "tag" items⟩))
  | moveVersion {items : List Item} {args : List String} {name number stage : String} {n : Int}
    (written : Written [] items args) (texts : positionals items = [name, number, stage])
    (whole : number? number = some n) :
    Means ("versions" :: "stage" :: args) (.perform (.moveVersion ⟨name, n⟩ stage))
  | versionUri {items : List Item} {args : List String} {name number : String} {n : Int}
    (written : Written [] items args) (texts : positionals items = [name, number]) (whole : number? number = some n) :
    Means ("versions" :: "uri" :: args) (.perform (.versionUri ⟨name, n⟩))
  | deleteVersion {items : List Item} {args : List String} {name number : String} {n : Int}
    (written : Written [] items args) (texts : positionals items = [name, number]) (whole : number? number = some n) :
    Means ("versions" :: "delete" :: args) (.perform (.deleteVersion ⟨name, n⟩))

variable {items : List Item} {args : List String} {c : Command} {name : String} {f : Form}
  {build : List String → List Item → Option Command}

instance decidableNamed (options : List String) : Decidable (Named options) :=
  inferInstanceAs (Decidable (∀ name ∈ options, name ≠ "" ∧ name ≠ "help" ∧ '=' ∉ name.toList))

end ModelCatalog.CommandLine
