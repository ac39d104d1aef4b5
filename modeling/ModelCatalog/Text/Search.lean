namespace ModelCatalog

/-- The text before the first occurrence of `pattern` and the text after it. -/
def splitFirst (pattern : List Char) : List Char → Option (List Char × List Char)
  | [] => if pattern = [] then some ([], []) else none
  | c :: rest =>
    if pattern.isPrefixOf (c :: rest) then some ([], (c :: rest).drop pattern.length)
    else (splitFirst pattern rest).map fun (before, after) => (c :: before, after)

/-- The text before the last `mark` and the text after it. -/
def splitLast (mark : Char) : List Char → Option (List Char × List Char)
  | [] => none
  | c :: rest =>
    match splitLast mark rest with
    | some (before, after) => some (c :: before, after)
    | none => if c = mark then some ([], rest) else none

/-- The parts of a text between the occurrences of a mark. -/
def splitAll (mark : Char) : List Char → List (List Char)
  | [] => [[]]
  | c :: rest =>
    match splitAll mark rest with
    | [] => [[c]]
    | part :: parts => if c = mark then [] :: part :: parts else (c :: part) :: parts

/-- Whether `needle` stands in `text` as a contiguous run of code points; the empty text does. -/
def occursIn (needle text : String) : Bool :=
  (splitFirst needle.toList text.toList).isSome

end ModelCatalog
