import ProtoSchema.Extension.Numeral
import ProtoSchema.Extension.Token

/-!
# Cutting a source into tokens

The lexer goes over the plain characters of a source once. At the start of a
logical line it measures the indentation and compares it with the open
blocks; inside brackets line ends are blanks. It never fails: a fault becomes
the last token, so that the grammar decides whether it is reached.
-/

namespace ProtoSchema.Extension

namespace Lexer

/-- Where the lexer stands. -/
structure Cursor where
  /-- The number of lines before. -/
  row : Nat := 0
  offset : Nat := 0
  /-- The offset at which the line starts. -/
  lineStart : Nat := 0
  /-- The open brackets with their rows, the innermost first. -/
  brackets : List (Char × Nat) := []
  /-- The columns of the open blocks, the innermost first; a tab counts up to
  the next multiple of eight in the one and as one column in the other. -/
  indents : List (Nat × Nat) := []
  /-- The number of tokens so far. -/
  count : Nat := 0
  /-- What stands between the last token and here, the latest first. -/
  trivia : List Trivia := []
  /-- Whether the logical line has a token. -/
  begun : Bool := false

namespace Cursor

/-- Behind `n` more characters of the same line. -/
def advance (c : Cursor) (n : Nat) : Cursor :=
  { c with offset := c.offset + n }

def nextLine (c : Cursor) : Cursor :=
  { c with offset := c.offset + 1, row := c.row + 1, lineStart := c.offset + 1 }

/-- Behind a piece that has line ends in it. -/
def advanceOver (c : Cursor) (piece : List Char) : Cursor :=
  piece.foldl (fun c ch => if ch = '\n' then c.nextLine else c.advance 1) c

/-- A token from here up to `stop`. -/
def token (c stop : Cursor) (kind : TokenKind) : Token :=
  { kind, extent := { row := c.row, start := c.offset, stop := stop.offset }
    index := c.count, depth := stop.brackets.length, trivia := c.trivia.reverse }

def past (c : Cursor) : Cursor :=
  { c with count := c.count + 1, trivia := [], begun := true }

def addTrivia (c stop : Cursor) (kind : TriviaKind) : Cursor :=
  { stop with
    trivia := { kind, extent := { row := c.row, start := c.offset, stop := stop.offset } } ::
      c.trivia }

/-- The row on which the source is said to end: a final line end does not
start another line. -/
def finalRow (c : Cursor) : Nat :=
  if c.offset = c.lineStart ∧ 0 < c.row then c.row - 1 else c.row

end Cursor

/-- Blanks between tokens: the visible ones, a return without a line feed,
and the zero-width ones. -/
def isBlank (c : Char) : Bool :=
  c = ' ' || c = '\t' || c = '\x0c' || c = '\x0b' || c = '\r' ||
  c = '\ufeff' || c = '\u2060' || c = '\u200b'

/-- The indentation of a line: its two columns, and the text behind it. A
joined line keeps the columns of its first part. -/
def measure (c : Cursor) (columns : Nat × Nat) (kept : Option (Nat × Nat)) :
    List Char → (Nat × Nat) × Cursor × List Char
  | ' ' :: rest => measure (c.advance 1) (columns.1 + 1, columns.2 + 1) kept rest
  | '\t' :: rest => measure (c.advance 1) ((columns.1 / 8 + 1) * 8, columns.2 + 1) kept rest
  | '\\' :: '\n' :: rest =>
    measure (c.addTrivia (c.advance 1).nextLine .joining) columns (kept <|> some columns) rest
  | ch :: rest =>
    if ch = '\x0c' || ch = '\r' then measure (c.advance 1) (0, 0) kept rest
    else if isBlank ch then measure (c.advance 1) columns kept rest
    else (kept.getD columns, c, ch :: rest)
  | [] => (kept.getD columns, c, [])

/-- Closes the blocks that are deeper than a column; gives their number and
those that stay open. -/
def closeBlocks (column : Nat) : List (Nat × Nat) → Nat × List (Nat × Nat)
  | [] => (0, [])
  | top :: rest =>
    if column < top.1 then
      let (n, kept) := closeBlocks column rest
      (n + 1, kept)
    else (0, top :: rest)

/-- The marks that an indentation gives, or none if it fits no open block. -/
def layout (c : Cursor) (columns : Nat × Nat) : Option (List Token × Cursor) :=
  let top := c.indents.head?.getD (0, 0)
  if columns.1 = top.1 then if columns.2 = top.2 then some ([], c) else none
  else if top.1 < columns.1 then
    if top.2 < columns.2 then
      some ([c.token c .indent], { c.past with indents := columns :: c.indents, begun := false })
    else none
  else
    let (n, kept) := closeBlocks columns.1 c.indents
    if kept.head?.getD (0, 0) = columns then
      let marks := (List.range n).map fun k =>
        { c.token c .dedent with
          index := c.count + k, trivia := if k = 0 then c.trivia.reverse else [] }
      some (marks, { c with indents := kept, count := c.count + n, trivia := [] })
    else none

/-- The fault at the cursor, in place of all that follows. -/
def fail (c : Cursor) (row : Nat) (reason : LexicalFault) : List Token :=
  [{ c.token c (.fault reason) with extent := { row, start := c.offset, stop := c.offset } }]

/-- The marks at the end of the source. -/
def finish (c : Cursor) : List Token :=
  match c.brackets with
  | (_, row) :: _ => fail c row .unclosedBracket
  | [] =>
    let (ends, c) := if c.begun then ([c.token c .newline], c.past) else ([], c)
    let last (k : Nat) (kind : TokenKind) : Token :=
      { c.token c kind with
        extent := { row := c.finalRow, start := c.offset, stop := c.offset }
        index := c.count + k, trivia := if k = 0 then c.trivia.reverse else [] }
    ends ++ (List.range c.indents.length).map (last · .dedent) ++ [last c.indents.length .finish]

/-- The characters of a string up to its closing quotes, and what follows
them. A string in single quotes ends on its line. -/
def takeString (quote : Char) (isTriple : Bool) : List Char → Option (List Char × List Char)
  | [] => none
  | '\\' :: c :: rest =>
    (takeString quote isTriple rest).map fun (body, after) => ('\\' :: c :: body, after)
  | c :: rest =>
    if c = quote && !isTriple then some ([], rest)
    else if c = quote && [quote, quote].isPrefixOf rest then some ([], rest.drop 2)
    else if c = '\n' && !isTriple then none
    else (takeString quote isTriple rest).map fun (body, after) => (c :: body, after)

/-- The letters that may stand before a string. -/
def stringMarks : List String :=
  ["", "b", "br", "rb", "u", "r", "f", "fr", "rf"]

/-- The symbols of several characters, the longer ones first. -/
def longSymbols : List String :=
  ["**=", "//=", ">>=", "<<=", "...", "**", "//", ">>", "<<", "<=", ">=", "==", "!=", "->",
   "+=", "-=", "*=", "/=", "%=", "&=", "|=", "^=", "@=", ":=", "<>"]

/-- The symbol at the front of a text that starts with `c`. -/
def symbolAt (c : Char) (rest : List Char) : String :=
  (longSymbols.find? fun s => s.toList.isPrefixOf (c :: rest)).getD c.toString

def opening? : Char → Option Char
  | ')' => some '('
  | ']' => some '['
  | '\x7d' => some '\x7b'
  | _ => none

def isOpening (c : Char) : Bool :=
  c = '(' || c = '[' || c = '\x7b'

/-- One token other than a layout mark, the cursor behind it, and the text
behind it; or a fault. -/
def tokenAt (c : Cursor) (ch : Char) (rest : List Char) :
    Except (List Token) (Token × Cursor × List Char) :=
  let input := ch :: rest
  let word := input.takeWhile continuesIdentifier
  let mark := if startsIdentifier ch then word else []
  let behind := input.drop mark.length
  let markText := String.ofList (mark.map Char.toLower)
  let quote := behind.head?.getD ' '
  if (quote = '"' || quote = '\'') && stringMarks.contains markText then
    let isTriple := [quote, quote, quote].isPrefixOf behind
    let width := if isTriple then 3 else 1
    match takeString quote isTriple (behind.drop width) with
    | none => .error (fail c c.row .unterminatedString)
    | some (body, after) =>
      let stop := ((c.advance (mark.length + width)).advanceOver body).advance width
      let interpolated :=
        if mark.any (·.toLower = 'f') then some (mark.any (·.toLower = 'r'), body) else none
      .ok (c.token stop (.text interpolated), stop.past, after)
  else if startsIdentifier ch then
    let stop := c.advance word.length
    .ok (c.token stop (.name (String.ofList word)), stop.past, behind)
  else if ch.isDigit || (ch = '.' && rest.head?.any Char.isDigit) then
    match dropNumeral input with
    | none => .error (fail c c.row .badNumber)
    | some after =>
      let stop := c.advance (input.length - after.length)
      .ok (c.token stop .number, stop.past, after)
  else if 128 ≤ ch.toNat || ch.toNat < 0x20 || ch.toNat = 0x7f then
    .error (fail c c.row .badCharacter)
  else
    let symbol := symbolAt ch rest
    let after := input.drop symbol.length
    let stop := c.advance symbol.length
    match opening? ch with
    | some open_ =>
      match c.brackets with
      | (b, _) :: outer =>
        if b = open_ then
          let stop := { stop with brackets := outer }
          .ok (c.token stop (.symbol symbol), stop.past, after)
        else .error (fail c c.row .unmatchedBracket)
      | [] => .error (fail c c.row .unmatchedBracket)
    | none =>
      let stop :=
        if isOpening ch then { stop with brackets := (ch, c.row) :: c.brackets } else stop
      .ok (c.token stop (.symbol symbol), stop.past, after)

/-- The tokens from the cursor on. Every round takes a character or turns
from the start of a line to its rest, so twice the length of the text are
rounds enough. -/
def tokensFrom : Nat → Cursor → Bool → List Char → List Token
  | 0, _, _, _ => []
  | rounds + 1, c, true, input =>
    let (columns, c', rest) := measure c (0, 0) none input
    match rest with
    | [] => finish c'
    | '\n' :: after => tokensFrom rounds c'.nextLine true after
    | '#' :: _ => tokensFrom rounds c' false rest
    | _ =>
      match layout c' columns with
      | none => fail c' c'.row .badIndentation
      | some (marks, c'') => marks ++ tokensFrom rounds c'' false rest
  | rounds + 1, c, false, input =>
    let blanks := input.takeWhile isBlank
    let c := c.advance blanks.length
    match input.drop blanks.length with
    | [] => finish c
    | '\n' :: after =>
      if !c.brackets.isEmpty then tokensFrom rounds c.nextLine false after
      else if c.begun then
        c.token (c.advance 1) .newline ::
          tokensFrom rounds { c.nextLine.past with begun := false } true after
      else tokensFrom rounds c.nextLine true after
    | '#' :: after =>
      let text := after.takeWhile (· ≠ '\n')
      let stop := c.advance (text.length + 1)
      tokensFrom rounds (c.addTrivia stop .comment) false (after.drop text.length)
    | '\\' :: '\n' :: after =>
      if after.isEmpty then fail c c.row .badJoining
      else tokensFrom rounds (c.addTrivia (c.advance 1).nextLine .joining) false after
    | '\\' :: _ => fail c c.row .badJoining
    | ch :: after =>
      match tokenAt c ch after with
      | .error tokens => tokens
      | .ok (token, c', rest) => token :: tokensFrom rounds c' false rest

end Lexer

def tokens (input : List Char) : List Token :=
  Lexer.tokensFrom (2 * input.length + 2) {} true input

end ProtoSchema.Extension
