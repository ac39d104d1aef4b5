import ModelCatalog.Settings.Environment
import ModelCatalog.Text.Alphanumeric
import ModelCatalog.Text.Blank

namespace ModelCatalog.EnvFile

/-- Where a line of the file stands: after plain text, after one blank, inside quotes, or after a
backslash in one of these places. -/
inductive Scan where
  | plain
  | blank
  | escape
  | single
  | singleEscape
  | double
  | doubleEscape
deriving DecidableEq, Repr

namespace Scan

/-- What opens in plain text. -/
def opening : Char → Scan
  | '\\' => escape
  | '"' => double
  | '\'' => single
  | _ => plain

def next (state : Scan) (c : Char) : Scan :=
  match state with
  | plain => if isBlank c && c != '\n' && c != '\r' then blank else opening c
  | blank => opening c
  | escape => plain
  | single => if c = '\\' then singleEscape else if c = '\'' then plain else single
  | singleEscape => single
  | double => if c = '\\' then doubleEscape else if c = '"' then plain else double
  | doubleEscape => double

/-- Follows a line to its end, or to a `#` right after a blank, which starts a comment: then only
the text before it is answered. -/
def line (state : Scan) : List Char → Sum (List Char) Scan
  | [] => .inr state
  | c :: rest =>
    if state = blank ∧ c = '#' then .inl []
    else
      match line (state.next c) rest with
      | .inl kept => .inl (c :: kept)
      | .inr state => .inr state

end Scan

/-- The lines of a text, each with its line feed if it has one. -/
def physicalLines : List Char → List (List Char)
  | [] => []
  | c :: rest =>
    if c = '\n' then [c] :: physicalLines rest
    else
      match physicalLines rest with
      | [] => [[c]]
      | line :: lines => (c :: line) :: lines

def dropLineEnd (s : List Char) : List Char :=
  match s.reverse with
  | '\n' :: '\r' :: rest | '\n' :: rest => rest.reverse
  | _ => s

/-- Joins lines as long as quotes, a backslash or a single blank at the end leave them open. The
last entry is `none` if the text ends in an open line. -/
def logicalLines (state : Scan) (buffer : List Char) :
    List (List Char) → List (Option (List Char))
  | [] => if state = .plain then [] else [none]
  | line :: rest =>
    let joined := buffer ++ line
    if (skipBlanks joined).head? = some '#' then some [] :: logicalLines .plain [] rest
    else
      match state.line line with
      | .inl kept => some (buffer ++ kept) :: logicalLines .plain [] rest
      | .inr .plain => some (dropLineEnd joined) :: logicalLines .plain [] rest
      | .inr state => logicalLines state joined rest

def isNameStart (c : Char) : Bool :=
  c.isAlpha || c == '_'

def isNamePart (c : Char) : Bool :=
  c.isAlphanum || c == '_' || c == '.'

def name? (s : List Char) : Option (List Char × List Char) :=
  match s with
  | c :: _ => if isNameStart c then some (s.takeWhile isNamePart, s.dropWhile isNamePart) else none
  | [] => none

/-- The place inside a value. The name of a variable is being read after a dollar sign, with or
without a brace after it. After a blank outside quotes only a comment may follow. -/
inductive Place where
  | bare
  | escaped
  | single
  | double
  | doubleEscaped
  | dollar (quoted : Bool) (name : List Char)
  | braced (quoted : Bool) (name : List Char)
  | ended
deriving DecidableEq, Repr

def Place.within (quoted : Bool) : Place :=
  if quoted then .double else .bare

/-- What a backslash and a character stand for. -/
def unescape? : Char → Option Char
  | 'n' => some '\n'
  | c => if ['\\', '\'', '"', '$', ' '].contains c then some c else none

/-- The text of a value, where `lookup` gives the text of a variable. A character that ends the name
of a variable belongs to the text as it is, even a quote. -/
def value? (lookup : List Char → List Char) (place : Place) (out : List Char) :
    List Char → Option (List Char)
  | [] =>
    match place with
    | .single | .double | .doubleEscaped | .braced _ _ | .dollar true _ => none
    | .dollar false name => some (out ++ lookup name)
    | .bare | .escaped | .ended => some out
  | c :: rest =>
    match place with
    | .ended =>
      if c = ' ' ∨ c = '\t' then value? lookup .ended out rest
      else if c = '#' then some out
      else none
    | .escaped => do value? lookup .bare (out ++ [← unescape? c]) rest
    | .doubleEscaped => do value? lookup .double (out ++ [← unescape? c]) rest
    | .single =>
      if c = '\'' then value? lookup .bare out rest else value? lookup .single (out ++ [c]) rest
    | .dollar quoted name =>
      if isAlphanumeric c then value? lookup (.dollar quoted (name ++ [c])) out rest
      else if c = '\x7b' ∧ name = [] then value? lookup (.braced quoted []) out rest
      else if c = '$' then value? lookup (.dollar quoted []) (out ++ lookup name) rest
      else value? lookup (.within quoted) (out ++ lookup name ++ [c]) rest
    | .braced quoted name =>
      if c = '\x7d' then value? lookup (.within quoted) (out ++ lookup name) rest
      else value? lookup (.braced quoted (name ++ [c])) out rest
    | .double =>
      if c = '$' then value? lookup (.dollar true []) out rest
      else if c = '"' then value? lookup .bare out rest
      else if c = '\\' then value? lookup .doubleEscaped out rest
      else value? lookup .double (out ++ [c]) rest
    | .bare =>
      if c = '$' then value? lookup (.dollar false []) out rest
      else if c = '\'' then value? lookup .single out rest
      else if c = '"' then value? lookup .double out rest
      else if c = '\\' then value? lookup .escaped out rest
      else if c = ' ' ∨ c = '\t' then value? lookup .ended out rest
      else value? lookup .bare (out ++ [c]) rest

/-- One line: nothing, or a name and a value with `=` between them and perhaps `export` before. -/
def entry? (lookup : List Char → List Char) (line : List Char) :
    Option (Option (String × String)) :=
  let s := skipBlanks (dropTrailingBlanks line)
  if s = [] ∨ s.head? = some '#' then some none
  else do
    let (name, rest) ← name? s
    let rest := skipBlanks rest
    let (name, rest) ←
      if name = "export".toList ∧ rest.head? ≠ some '=' then
        (name? rest).map fun (name, rest) => (name, skipBlanks rest)
      else some (name, rest)
    let '=' :: rest := rest | none
    let rest := skipBlanks rest
    let value ←
      if rest = [] ∨ rest.head? = some '#' then some [] else value? lookup .bare [] rest
    return some (String.ofList name, String.ofList value)

/-- Sets the variables of the lines. A variable that is set keeps its value, and the first line that
is malformed ends the file. `seen` holds what the file itself said so far, the latest first. There
is no answer where a variable would be set to a value with U+0000 in it, which no variable holds. -/
def load? (env seen : Environment) : List (Option (List Char)) → Option Environment
  | [] | none :: _ => some env
  | some line :: rest =>
    let lookup (name : List Char) : List Char :=
      let name := String.ofList name
      (((env.value? name).orElse fun _ => seen.lookup name).getD "").toList
    match entry? lookup line with
    | none => some env
    | some none => load? env seen rest
    | some (some (name, value)) =>
      if (env.value? name).isSome then load? env ((name, value) :: seen) rest
      else if value.toList.contains '\x00' then none
      else load? (env ++ [(name, value)]) ((name, value) :: seen) rest

end ModelCatalog.EnvFile

namespace ModelCatalog

/-- The environment together with the variables of an environment file. A byte order mark at the
start of the file is passed over. -/
def Environment.withFile? (env : Environment) (text : String) : Option Environment :=
  let chars := match text.toList with
    | '\ufeff' :: rest => rest
    | chars => chars
  EnvFile.load? env [] (EnvFile.logicalLines .plain [] (EnvFile.physicalLines chars))

end ModelCatalog
