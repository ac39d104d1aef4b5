import ModelCatalog.Database.Versions

namespace ModelCatalog

namespace ModelTags

/-- Adds a tag to a model. A tag that is stored already hits the primary key. -/
def insert (name tag : String) (position : Int) : Transaction Unit := do
  statement .modelTags [.text name, .text tag]
  let name ← fit nameWidth name
  let tag ← fit tagWidth tag
  let t ← get
  demandFree (TagRow.has name tag t.modelTags) (.modelTag name tag)
  demandParent (t.hasModel name) .modelTags (.model name)
  set { t with modelTags := t.modelTags ++ [TagRow.mk name tag position] }

/-- Adds tags one after the other, at consecutive positions of 32 bits. -/
def insertAll (name : String) (position : Nat) : List String → Transaction Unit
  | [] => pure ()
  | tag :: rest => do
    insert name tag (Range.wrap32 position)
    insertAll name (position + 1) rest

/-- Puts a tag in front of the others, and answers whether it was new. -/
def prepend (name tag : String) : Transaction Bool := do
  statement .modelTags [.text name, .text tag]
  let position := TagRow.front name (← get).modelTags
  demandNumber position
  let owner ← fit nameWidth name
  let tag ← fit tagWidth tag
  let t ← get
  if TagRow.has owner tag t.modelTags then return false
  else
    demandParent (t.hasModel owner) .modelTags (.model owner)
    set { t with modelTags := t.modelTags ++ [TagRow.mk owner tag position] }
    return true

/-- Takes a tag away, and answers whether it was there. -/
def remove (name tag : String) : Transaction Bool := do
  statement .modelTags [.text name, .text tag]
  let t ← get
  set { t with modelTags := TagRow.remove name tag t.modelTags }
  return TagRow.has name tag t.modelTags

def deleteModel (name : String) : Transaction Unit := do
  statement .modelTags [.text name]
  modify fun t => { t with modelTags := TagRow.removeOwners (· = name) t.modelTags }

/-- The owner of a tag once a model has another name. -/
def moved (name newName owner : String) : String :=
  if owner = name then newName else owner

def rekey (name newName : String) : Transaction Unit := do
  statement .modelTags [.text name, .text newName]
  let newName ← fit nameWidth newName
  let t ← get
  let clash := TagRow.clash? (moved name newName) t.modelTags
  demandNoClash (clash.map fun r => .modelTag (moved name newName r.owner) r.tag)
  set { t with modelTags := TagRow.rekey (moved name newName) t.modelTags }

end ModelTags

namespace VersionTags

/-- Adds a tag to a version. A tag that is stored already hits the primary key. -/
def insert (key : VersionKey) (tag : String) (position : Int) : Transaction Unit := do
  statement .versionTags [.text key.model, .text tag]
  let name ← fit nameWidth key.model
  let tag ← fit tagWidth tag
  let key := VersionKey.mk name key.number
  let t ← get
  demandFree (TagRow.has key tag t.versionTags) (.versionTag key tag)
  demandParent (t.hasVersion key) .versionTags (.version key)
  set { t with versionTags := t.versionTags ++ [TagRow.mk key tag position] }

/-- Adds tags one after the other, at consecutive positions of 32 bits. -/
def insertAll (key : VersionKey) (position : Nat) : List String → Transaction Unit
  | [] => pure ()
  | tag :: rest => do
    insert key tag (Range.wrap32 position)
    insertAll key (position + 1) rest

/-- Puts a tag in front of the others, and answers whether it was new. -/
def prepend (key : VersionKey) (tag : String) : Transaction Bool := do
  statement .versionTags [.text key.model, .text tag]
  let position := TagRow.front key (← get).versionTags
  demandNumber position
  let name ← fit nameWidth key.model
  let tag ← fit tagWidth tag
  let owner := VersionKey.mk name key.number
  let t ← get
  if TagRow.has owner tag t.versionTags then return false
  else
    demandParent (t.hasVersion owner) .versionTags (.version owner)
    set { t with versionTags := t.versionTags ++ [TagRow.mk owner tag position] }
    return true

/-- Takes a tag away, and answers whether it was there. -/
def remove (key : VersionKey) (tag : String) : Transaction Bool := do
  statement .versionTags [.text key.model, .text tag]
  let t ← get
  set { t with versionTags := TagRow.remove key tag t.versionTags }
  return TagRow.has key tag t.versionTags

def delete (key : VersionKey) : Transaction Unit := do
  statement .versionTags [.text key.model]
  modify fun t => { t with versionTags := TagRow.removeOwners (· = key) t.versionTags }

def deleteModel (name : String) : Transaction Unit := do
  statement .versionTags [.text name]
  modify fun t => { t with versionTags := TagRow.removeOwners (·.model = name) t.versionTags }

def rekey (name newName : String) : Transaction Unit := do
  statement .versionTags [.text name, .text newName]
  let newName ← fit nameWidth newName
  let t ← get
  let clash := TagRow.clash? (Versions.moved name newName) t.versionTags
  demandNoClash (clash.map fun r => .versionTag (Versions.moved name newName r.owner) r.tag)
  set { t with versionTags := TagRow.rekey (Versions.moved name newName) t.versionTags }

end VersionTags

end ModelCatalog
