/-!
# How line ends are spelled

A line ends in a line feed, with or without a carriage return before it. A text
can be given either spelling, and a place in the text of one spelling can be
found again in the other.
-/

namespace ProtoSchema.Text

/-- A carriage return is put in front of every line feed. -/
def addReturns (text : List Char) : List Char :=
  text.flatMap fun c => if c = '\n' then ['\r', '\n'] else [c]

/-- The carriage returns that stand in front of a line feed are left out. -/
def dropReturns : List Char → List Char
  | [] => []
  | '\r' :: '\n' :: rest => '\n' :: dropReturns rest
  | c :: rest => c :: dropReturns rest

/-- The offset in a text of what is at an offset once the carriage returns in
front of line feeds are left out. -/
def rawOffset : List Char → Nat → Nat
  | _, 0 => 0
  | [], offset + 1 => offset + 1
  | '\r' :: '\n' :: rest, offset + 1 => rawOffset rest offset + 2
  | _ :: rest, offset + 1 => rawOffset rest offset + 1

/-- The text with its line ends spelled with a carriage return. -/
def withReturns (s : String) : String :=
  String.ofList (addReturns s.toList)

/-- The text with its line ends spelled without a carriage return. -/
def withoutReturns (s : String) : String :=
  String.ofList (dropReturns s.toList)

end ProtoSchema.Text
