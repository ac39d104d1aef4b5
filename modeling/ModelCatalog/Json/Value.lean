import ModelCatalog.Number.Range

namespace ModelCatalog.Json

/-- A JSON value. A string or key is `none` where its escapes name half of a surrogate pair only,
so that no text stands behind it. A number is an `integer` if it is written as one; `-0` and numbers
with a fraction or an exponent are `real`. -/
inductive Value where
  | null
  | boolean (b : Bool)
  | integer (i : Int)
  | real (literal : List Char)
  | string (text : Option String)
  | array (elements : List Value)
  | object (members : List (Option String × Value))

namespace Value

def text (s : String) : Value :=
  .string (some s)

def texts (l : List String) : Value :=
  .array (l.map text)

/-- A text, or null if there is none. -/
def optional : Option String → Value
  | some s => text s
  | none => null

def text? : Value → Option String
  | .string s => s
  | _ => none

def texts? : Value → Option (List String)
  | .array elements => elements.mapM text?
  | _ => none

def optional? : Value → Option (Option String)
  | .null => some none
  | .string (some s) => some (some s)
  | _ => none

def integer? (r : Range) : Value → Option Int
  | .integer i => if r.has i then some i else none
  | _ => none

@[simp] theorem text?_text (s : String) : (text s).text? = some s := rfl

@[simp] theorem optional?_optional (s : Option String) : (optional s).optional? = some s := by
  cases s <;> rfl

@[simp] theorem texts?_texts (l : List String) : (texts l).texts? = some l := by
  simp only [texts, texts?]
  induction l with
  | nil => rfl
  | cons s l ih => simp [List.mapM_cons, ih]

end Value

end ModelCatalog.Json
