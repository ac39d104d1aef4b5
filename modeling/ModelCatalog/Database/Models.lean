import ModelCatalog.Database.Transaction
import ModelCatalog.Text.Search

namespace ModelCatalog.Models

/-- Adds a row with counter 0, unless the name is taken. -/
def insert (name : String) (now : Timestamp) (description : Option String) : Transaction Bool := do
  statement .models [.text name, .time now, .time now, .texts description.toList]
  let name ← fit nameWidth name
  let description ← fitOptional descriptionWidth description
  let t ← get
  if t.hasModel name then return false
  else
    set { t with models := t.models ++ [ModelRow.mk name now now description 0] }
    return true

def find? (name : String) : Transaction (Option ModelRow) := do
  statement .models [.text name]
  return (← get).model? name

/-- The row of this name, which has to be there. -/
def find (name : String) : Transaction ModelRow := do
  expect (← find? name) (.modelNotFound name)

/-- Changes the row of this name, which has to be there. -/
def change (name : String) (f : ModelRow → ModelRow) : Transaction Unit := do
  let t ← get
  demand (t.hasModel name) (.modelNotFound name)
  set (t.updateModel name f)

def touch (name : String) (now : Timestamp) : Transaction Unit := do
  statement .models [.text name, .time now]
  change name fun r => { r with updatedAt := now }

def describe (name description : String) (now : Timestamp) : Transaction Unit := do
  statement .models [.text name, .text description, .time now]
  let description ← fit descriptionWidth description
  change name fun r => { r with description := some description, updatedAt := now }

/-- Counts one version further and answers the new number. -/
def nextNumber (name : String) (now : Timestamp) : Transaction Int := do
  statement .models [.text name, .time now]
  let r ← expect ((← get).model? name) (.modelNotFound name)
  demandNumber (r.counter + 1)
  change name fun r => { r with counter := r.counter + 1, updatedAt := now }
  return r.counter + 1

/-- Sets the counter and answers the number of rows that changed. -/
def setCounter (name : String) (number : Int) : Transaction Nat := do
  statement .models [.text name]
  let t ← get
  set (t.updateModel name fun r => { r with counter := number })
  return t.models.countP (·.name = name)

/-- Gives the row of one name another name. Rows that refer to it are left as they are. -/
def rename (name newName : String) (now : Timestamp) : Transaction Unit := do
  statement .models [.text name, .text newName, .time now]
  let newName ← fit nameWidth newName
  demandFree ((← get).models.any fun r => r.name ≠ name && r.name = newName) (.model newName)
  change name fun r => { r with name := newName, updatedAt := now }

def delete (name : String) : Transaction Unit := do
  statement .models [.text name]
  let t ← get
  demandUnused (t.modelTags.any (·.owner = name)) (.model name) .modelTags
  demandUnused (t.versions.any (·.key.model = name)) (.model name) .versions
  set { t with models := t.models.filter (·.name ≠ name) }

/-- The rows whose name contains the filter and that have as many of the wanted tags as there are,
in the order of their names. -/
def select (filter : Option String) (wanted : List String) : Transaction (List ModelRow) := do
  statement .models [.texts filter.toList, .texts wanted]
  let t ← get
  let rows := t.models.filter fun r =>
    filter.all (occursIn · r.name) && TagRow.count r.name wanted t.modelTags = wanted.length
  return rows.mergeSort (·.name ≤ ·.name)

end ModelCatalog.Models
