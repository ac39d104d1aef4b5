namespace ModelCatalog

/-- The life cycle of a model version. Any stage may follow any other. -/
inductive Stage where
  | unstaged
  | developing
  | production
  | archived
deriving DecidableEq, Repr

namespace Stage

def all : List Stage :=
  [unstaged, developing, production, archived]

/-- A new version has no stage yet. -/
def initial : Stage :=
  unstaged

def name : Stage → String
  | unstaged => "NONE"
  | developing => "DEVELOPING"
  | production => "PRODUCTION"
  | archived => "ARCHIVED"

/-- The stage with exactly this name. -/
def ofName? (s : String) : Option Stage :=
  all.find? fun stage => stage.name == s

/-- The stage whose name this is once ASCII letters, and no others, are in upper case. -/
def ofText? (s : String) : Option Stage :=
  all.find? fun stage => stage.name.toList == s.toList.map Char.toUpper

@[simp] theorem ofName?_name (stage : Stage) : ofName? stage.name = some stage := by
  cases stage <;> rfl

end Stage

end ModelCatalog
