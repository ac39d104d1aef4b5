import ModelCatalog.Database.Column
import ModelCatalog.Database.Tables

namespace ModelCatalog

/-- A sequence of statements, which is told whether the tables are there. A statement that fails ends
it and leaves the tables as the statements before have made them. -/
abbrev Transaction := ReaderT Bool (EStateM CatalogError Tables)

instance : MonadLift (Except CatalogError) Transaction where
  monadLift
    | .ok a => pure a
    | .error e => throw e

/-- A value that a statement is given. -/
inductive Parameter where
  | text (s : String)
  | texts (l : List String)
  | time (t : Timestamp)

namespace Parameter

def holdsZero (s : String) : Bool :=
  s.toList.contains '\x00'

def fault? : Parameter → Option StorageFault
  | text s => if holdsZero s then some .zeroCharacter else none
  | texts l => if l.any holdsZero then some .zeroCharacter else none
  | time t => if t.isStorable then none else some .timeOutOfRange

end Parameter

/-- A statement reads all its parameters in order. -/
def given (parameters : List Parameter) : Except CatalogError Unit :=
  refuseIf ((parameters.findSome? Parameter.fault?).map .storage)

/-- Begins a statement. The relation that it names first is looked for before its parameters are read,
and all of them are read before it does anything else. -/
def statement (relation : Relation) (parameters : List Parameter) : Transaction Unit := do
  demand (← read) (.storage (.missingRelation relation))
  given parameters

/-- An integer column takes a number of 32 bits. -/
def demandNumber (i : Int) : Except CatalogError Unit :=
  demand (Range.signed32.has i) (.storage .numberOutOfRange)

/-- A key that is to be stored may not be taken. -/
def demandFree (taken : Bool) (key : RowKey) : Except CatalogError Unit :=
  demand (!taken) (.storage (.duplicate key))

/-- A row that is to be stored may only refer to a row that is there. -/
def demandParent (there : Bool) (relation : Relation) (parent : RowKey) :
    Except CatalogError Unit :=
  demand there (.storage (.dangling relation parent))

/-- A row that is to be deleted may not be referred to. -/
def demandUnused (used : Bool) (parent : RowKey) (relation : Relation) :
    Except CatalogError Unit :=
  demand (!used) (.storage (.referenced parent relation))

/-- Of rows that are given new keys, none may get the key of another row. -/
def demandNoClash (clash : Option RowKey) : Except CatalogError Unit :=
  refuseIf (clash.map fun key => .storage (.duplicate key))

/-- Checks all references between the tables, as the end of a transaction does when the checks of
its single statements were put off. -/
def checkReferences (t : Tables) : Except CatalogError Unit :=
  refuseIf (t.dangling?.map fun (relation, parent) => .storage (.dangling relation parent))

end ModelCatalog
