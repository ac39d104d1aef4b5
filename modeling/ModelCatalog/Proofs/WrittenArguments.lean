import ModelCatalog.CommandLine.Arguments

namespace ModelCatalog.CommandLine

/-- The ways to write items as arguments. A value may stand on its own if it does not look like an option, an option
has its value after an equals sign or in an argument of its own, and after `--` any text is a value. -/
inductive Written (options : List String) : List Item → List String → Prop
  | nil : Written options [] []
  | rest (texts : List String) : Written options (texts.map .positional) ("--" :: texts)
  | value {text : String} {items : List Item} {args : List String} (plain : isValue text = true)
    (more : Written options items args) : Written options (.positional text :: items) (text :: args)
  | joined {name value : String} {items : List Item} {args : List String} (known : name ∈ options)
    (more : Written options items args) :
    Written options (.option name value :: items) (("--" ++ name ++ "=" ++ value) :: args)
  | apart {name value : String} {items : List Item} {args : List String} (known : name ∈ options)
    (plain : isValue value = true) (more : Written options items args) :
    Written options (.option name value :: items) (("--" ++ name) :: value :: args)

/-- The options of a command have names that an argument can hold, and none of them asks for help. -/
def Named (options : List String) : Prop :=
  ∀ name ∈ options, name ≠ "" ∧ name ≠ "help" ∧ '=' ∉ name.toList

variable {arg name value : String} {args : List String} {items : List Item} {f : Form}

end ModelCatalog.CommandLine
