import ModelCatalog.CatalogError

namespace ModelCatalog

/-- The widths of the text columns, in code points. -/
def nameWidth : Nat := 256

def tagWidth : Nat := 256

def labelWidth : Nat := 64

def datasetWidth : Nat := 256

def descriptionWidth : Nat := 5000

/-- What a column keeps of a text. -/
def cut (width : Nat) (s : String) : String :=
  String.ofList (s.toList.take width)

/-- Whether a column takes a text: what it would cut off is spaces only. -/
def fits (width : Nat) (s : String) : Bool :=
  (s.toList.drop width).all (· == ' ')

/-- The text as a column stores it. -/
def fit (width : Nat) (s : String) : Except CatalogError String :=
  if fits width s then .ok (cut width s) else .error (.argument (.tooLong width))

def fitOptional (width : Nat) : Option String → Except CatalogError (Option String)
  | none => .ok none
  | some s => (fit width s).map some

/-- A text no wider than its column is kept as it is. -/
theorem cut_of_length_le {width : Nat} {s : String} (h : s.toList.length ≤ width) :
    cut width s = s := by
  rw [cut, List.take_of_length_le h, String.ofList_toList]

theorem fits_of_length_le {width : Nat} {s : String} (h : s.toList.length ≤ width) :
    fits width s = true := by
  rw [fits, List.drop_of_length_le h]
  rfl

theorem length_cut_le (width : Nat) (s : String) : (cut width s).toList.length ≤ width := by
  simp only [cut, String.toList_ofList, List.length_take]
  omega

end ModelCatalog
