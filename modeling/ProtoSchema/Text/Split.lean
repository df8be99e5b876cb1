/-!
# Cutting text at a separator

The names, paths and parameter strings of a schema are all flat texts with
one-character separators. The three ways of cutting one are kept here, on
`List Char`, so that every later statement about names is a statement about
lists: at every separator, at the first one, at the last one.
-/

namespace ProtoSchema.Text

/-- Cuts a text at every `sep`; the pieces are never fewer than one, and
empty pieces are kept. -/
def splitOn (sep : Char) : List Char → List (List Char)
  | [] => [[]]
  | c :: cs =>
    if c = sep then [] :: splitOn sep cs
    else match splitOn sep cs with
      | [] => [[c]]
      | piece :: pieces => (c :: piece) :: pieces

/-- Cuts a text at its first `sep`, which belongs to neither part. -/
def splitFirst? (sep : Char) : List Char → Option (List Char × List Char)
  | [] => none
  | c :: cs =>
    if c = sep then some ([], cs)
    else (splitFirst? sep cs).map fun (before, after) => (c :: before, after)

/-- Cuts a text at its last `sep`, which belongs to neither part. -/
def splitLast? (sep : Char) : List Char → Option (List Char × List Char)
  | [] => none
  | c :: cs =>
    match splitLast? sep cs with
    | some (before, after) => some (c :: before, after)
    | none => if c = sep then some ([], cs) else none

/-- What follows `start`, if the text starts with it. -/
def dropStart? : List Char → List Char → Option (List Char)
  | [], text => some text
  | _ :: _, [] => none
  | a :: start, c :: text => if a = c then dropStart? start text else none

/-- What precedes `stop`, if the text ends with it. -/
def dropStop? (stop text : List Char) : Option (List Char) :=
  (dropStart? stop.reverse text.reverse).map List.reverse

/-- The text with every `old` replaced by `new`. -/
def replaceChar (old new : Char) (text : List Char) : List Char :=
  text.map fun c => if c = old then new else c

/-- The pieces of `s` between the characters `sep`. -/
def pieces (sep : Char) (s : String) : List String :=
  (splitOn sep s.toList).map String.ofList

/-- The two parts of `s` around its first `sep`. -/
def cutFirst? (sep : Char) (s : String) : Option (String × String) :=
  (splitFirst? sep s.toList).map fun (a, b) => (String.ofList a, String.ofList b)

/-- The two parts of `s` around its last `sep`. -/
def cutLast? (sep : Char) (s : String) : Option (String × String) :=
  (splitLast? sep s.toList).map fun (a, b) => (String.ofList a, String.ofList b)

end ProtoSchema.Text
