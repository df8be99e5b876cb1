import ProtoSchema.Text.Split

/-!
# Names of the generated declarations

Every name in a generated schema is derived from a protobuf name by two case
conversions. Both look at ASCII letters only, so the same descriptors give
the same names in every locale.

Going to Pascal case drops the underscores and raises the first letter of
each piece. Going to snake case lowers every capital and puts an underscore
in front of those that start a word: a capital after a small letter or a
digit, and the last capital of an acronym that is followed by a small letter.
-/

namespace ProtoSchema.Naming

def capitalize : List Char → List Char
  | [] => []
  | c :: cs => c.toUpper :: cs

/-- Raises the first letter of every piece between underscores and joins the
pieces. -/
def pascalChars (text : List Char) : List Char :=
  ((Text.splitOn '_' text).map capitalize).flatten

/-- A capital starts a word when it follows a small letter or a digit, or
when it follows a capital and a small letter comes next. -/
def startsWord (previous : Option Char) (next : Option Char) : Bool :=
  match previous with
  | none => false
  | some p => p.isLower || p.isDigit || (p.isUpper && next.any Char.isLower)

/-- Snake case of a text that follows the character `previous`. -/
def snakeFrom (previous : Option Char) : List Char → List Char
  | [] => []
  | c :: cs =>
    if c.isUpper then
      if startsWord previous cs.head? then '_' :: c.toLower :: snakeFrom (some c) cs
      else c.toLower :: snakeFrom (some c) cs
    else c :: snakeFrom (some c) cs

def snakeChars (text : List Char) : List Char :=
  snakeFrom none text

/-- `get_point` and `pkg_RunInfo` become `GetPoint` and `PkgRunInfo`. -/
def pascalCase (s : String) : String :=
  String.ofList (pascalChars s.toList)

/-- `HTTPServer` and `runId` become `http_server` and `run_id`. -/
def snakeCase (s : String) : String :=
  String.ofList (snakeChars s.toList)

/-- Turns the dots of a full name into underscores. -/
def flatten (fullName : String) : String :=
  String.ofList (Text.replaceChar '.' '_' fullName.toList)

/-- The class name of a message or enum: `pkg.Outer.Inner` gives
`PkgOuterInner`. -/
def typeName (fullName : String) : String :=
  pascalCase (flatten fullName)

/-- The class name of a message in the role of an input. -/
def inputTypeName (fullName : String) : String :=
  typeName fullName ++ "Input"

/-- The name of a method's field on a root: the flattened package, an
underscore and the method in snake case; without a package only the latter. -/
def operationName (package method : String) : String :=
  if package.isEmpty then snakeCase method
  else flatten package ++ "_" ++ snakeCase method

def handlerName (method : String) : String :=
  snakeCase method ++ "_impl"

def resolverName (operation : String) : String :=
  "resolve_" ++ operation

end ProtoSchema.Naming
