/-!
# Tokens

A token is a name, a number, a string, a symbol, or one of the marks for the
layout: the end of a logical line, a step deeper, a step back, the end of the
source. Comments and explicitly joined line ends are no tokens; they are kept
with the token that follows them.
-/

namespace ProtoSchema.Extension

/-- A piece of the source: the row on which it starts, counted from zero, and
its offsets. -/
structure Extent where
  row : Nat
  start : Nat
  stop : Nat
  deriving DecidableEq, Repr

/-- What may stand between two tokens besides blanks. -/
inductive TriviaKind where
  | comment
  /-- A backslash and the line end that it hides. -/
  | joining
  deriving DecidableEq, Repr

structure Trivia where
  kind : TriviaKind
  extent : Extent
  deriving DecidableEq, Repr

/-- Why a source cannot be cut into tokens. -/
inductive LexicalFault where
  | badCharacter
  | badNumber
  | unterminatedString
  | unmatchedBracket
  | badJoining
  | badIndentation
  /-- The source ends inside brackets. -/
  | unclosedBracket
  deriving DecidableEq, Repr

inductive TokenKind where
  | name (text : String)
  | number
  /-- A string; an interpolated one comes with its text and says whether
  backslashes are plain characters in it. -/
  | text (interpolated : Option (Bool × List Char))
  | symbol (text : String)
  | newline
  | indent
  | dedent
  | finish
  /-- Takes the place of everything behind a fault. -/
  | fault (reason : LexicalFault)
  deriving DecidableEq, Repr

structure Token where
  kind : TokenKind
  extent : Extent
  /-- The position among all tokens. -/
  index : Nat
  /-- How many brackets are open behind the token. -/
  depth : Nat
  trivia : List Trivia
  deriving DecidableEq, Repr

def reservedWords : List String :=
  ["False", "None", "True", "and", "as", "assert", "async", "await", "break", "class",
   "continue", "def", "del", "elif", "else", "except", "finally", "for", "from", "global",
   "if", "import", "in", "is", "lambda", "nonlocal", "not", "or", "pass", "raise", "return",
   "try", "while", "with", "yield"]

def operandWords : List String :=
  ["False", "None", "True", "lambda", "not"]

end ProtoSchema.Extension
