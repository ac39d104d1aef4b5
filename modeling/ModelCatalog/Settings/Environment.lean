namespace ModelCatalog

/-- The variables of a process, each with its value. The first entry of a name counts. -/
abbrev Environment := List (String × String)

namespace Environment

/-- The value of a variable. Each entry stands for the text of its name, an equals sign and its
value, so a name with an equals sign in it reaches into a value: if `A` is `x=y`, then `A=x` is
`y`. The empty text is no name. -/
def value? (env : Environment) (name : String) : Option String :=
  if name = "" then none
  else
    env.findSome? fun (key, value) =>
      ((name.toList ++ ['=']).isPrefixOf? (key.toList ++ '=' :: value.toList)).map String.ofList

end Environment

end ModelCatalog
