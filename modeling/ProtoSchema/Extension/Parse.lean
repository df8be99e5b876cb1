import ProtoSchema.Extension.ClassDeclaration
import ProtoSchema.Extension.Grammar.Rules
import ProtoSchema.Extension.Interpolation
import ProtoSchema.Extension.Lexer
import ProtoSchema.Text.LineEnd

/-!
# Parsing a source

Class declarations are taken from what a parser makes of a source. `Parser` is
what is asked of one, and `Parser.TakesReturns` is all that is assumed of the
way in which it takes line ends.

The parser at hand cuts a source into tokens, which are read by the grammar, and
reads the expressions inside interpolated strings by themselves. The tolerant
dialect decides whether a source is accepted; one that is refused is refused
on the row on which a strict reader stops: that of a lexical fault, or that
of the first token that fits nothing. Brackets that are never closed are
reported where they were opened.
-/

namespace ProtoSchema.Extension

/-- How deep a run may go into a text of so many tokens. -/
def depthFor (tokens : List Token) : Nat :=
  400 * (tokens.length + 1)

def runRule (d : Dialect) (g : Grammar Rule) (tokens : List Token) : Trace × Option Parsed :=
  Grammar.run (Rule.definition d) (depthFor tokens) g { tokens, stop := 0 } {}

def interpolations (tokens : List Token) : List (Token × Bool × List Char) :=
  tokens.filterMap fun t =>
    match t.kind with
    | .text (some (isRaw, body)) => some (t, isRaw, body)
    | _ => none

/-- Whether an interpolated string is well-formed, looking `depth` strings
deep. -/
def isInterpolation : Nat → Bool → List Char → Bool
  | 0, _, _ => false
  | depth + 1, isRaw, body =>
    match Interpolation.expressions isRaw body with
    | none => false
    | some expressions => expressions.all fun e =>
      let inner := tokens ('(' :: e ++ [')'])
      let whole := Grammar.seqs [.rule .expressions, .term .newline, .term .finish]
      !e.all Lexer.isBlank && (runRule .tolerant whole inner).2.isSome &&
        (interpolations inner).all fun (_, isRaw, body) => isInterpolation depth isRaw body

/-- The fault of a token, if it is one. -/
def Token.fault? (t : Token) : Option LexicalFault :=
  match t.kind with
  | .fault reason => some reason
  | _ => none

def Token.startsOperand (t : Token) : Bool :=
  match t.kind with
  | .name s => !reservedWords.contains s || operandWords.contains s || s = "await"
  | .number => true
  | .text _ => true
  | .symbol s => ["(", "[", "\x7b", "...", "-", "+", "~"].contains s
  | _ => false

def Token.depthBefore (t : Token) : Nat :=
  match t.kind with
  | .symbol s => if ["(", "[", "\x7b"].contains s then t.depth - 1 else t.depth
  | _ => t.depth

/-- The names that are keywords at some places only. -/
def softWords : List String :=
  ["_", "case", "match"]

/-- Whether an operand that starts with the token `first` is seen as one when
`t` stands behind it. A name is not when it begins like a soft keyword, or
when `t` is a string that it could be the mark of. -/
def Token.isOperandBefore (first t : Token) : Bool :=
  match first.kind with
  | .name s =>
    !softWords.any (fun w => s.toList.isPrefixOf w.toList) &&
    (match t.kind with
     | .text _ => first.index + 1 < t.index
     | _ => true)
  | _ => true

/-- The row of a text that stops fitting at the token `t`. Two operands side
by side in brackets are reported where the first one starts. -/
def misfitRow (trace : Trace) (t : Token) : Nat :=
  match trace.marked with
  | some (index, first) =>
    if index = t.index && 0 < t.depthBefore && t.startsOperand && first.isOperandBefore t then
      first.extent.row
    else t.extent.row
  | none => t.extent.row

/-- Whether a fault is reported even if the text before it does not fit: the
other faults are only met by reading on from a text that fits. -/
def LexicalFault.comesFirst : LexicalFault → Bool
  | badCharacter => true
  | badNumber => true
  | unterminatedString => true
  | unmatchedBracket => true
  | badJoining => false
  | badIndentation => false
  | unclosedBracket => false

/-- Whether the token is where a block should start. -/
def lacksBlock (tokens : List Token) (t : Token) : Bool :=
  ((tokens.take t.index).drop (t.index - 2)).map (·.kind) = [.symbol ":", .newline]

/-- The row on which a source is refused: `t` is the furthest token that was
looked at, and `row` is what it stands for by itself. -/
def faultRow (tokens : List Token) (t : Token) (row : Nat) : Nat :=
  match tokens.find? (·.fault?.isSome) with
  | none => row
  | some fault =>
    if (t.kind = .indent || t.kind = .dedent) && !lacksBlock tokens t then row
    else if fault.index = t.index || (fault.fault?.any (·.comesFirst)) then fault.extent.row
    else if fault.fault? = some .unclosedBracket && fault.extent.row < t.extent.row then
      fault.extent.row
    else row

def badInterpolations (tokens : List Token) : List Token :=
  ((interpolations tokens).filter fun (_, isRaw, body) =>
    !isInterpolation (body.length + 1) isRaw body).map (·.1)

/-- The row on which tokens stop fitting the strict dialect, if they do. -/
def refusalRow? (tokens : List Token) : Option Nat :=
  let (trace, _) := runRule .strict (.rule .file) tokens
  trace.furthest.map fun t =>
    match (badInterpolations tokens).find? (·.index < t.index) with
    | some token => faultRow tokens token token.extent.row
    | none => faultRow tokens t (misfitRow trace t)

/-! ## Parsers -/

/-- What makes trees of a text: the nodes at its top, or the row of the first
fault in it, if one is known. -/
abbrev Parser := List Char → Except (Option Nat) (List Node)

/-- The parser takes a carriage return and a line feed for a line end wherever
it takes a line feed for one. So a text with no other carriage returns has the
rows and the trees of the text without them, and every node is found where it
stands in the longer one. -/
def Parser.TakesReturns (parser : Parser) : Prop :=
  ∀ text, '\r' ∉ Text.dropReturns text → parser text =
    (parser (Text.dropReturns text)).map (moveOf (Text.rawOffset text))

/-- The parser of texts whose line ends are line feeds. -/
def treesOfFeeds : Parser := fun text =>
  let tokens := tokens text
  match runRule .tolerant (.rule .file) tokens, badInterpolations tokens with
  | (_, some (nodes, _)), [] => .ok nodes
  | _, _ => .error (refusalRow? tokens)

/-- The parser of all texts, which reads a text as if its line ends were line
feeds. -/
def treesOf : Parser := fun text =>
  (treesOfFeeds (Text.dropReturns text)).map (moveOf (Text.rawOffset text))

/-- The class declarations that a parser finds in a source, or the line on which
it refuses the source: the first one if it cannot tell. -/
def parseWith (parser : Parser) (text : String) : Except Nat (List ClassDeclaration) :=
  ((parser text.toList).mapError fun row? => row?.elim 1 (· + 1)).map (classesOf text)

def parse (text : String) : Except Nat (List ClassDeclaration) :=
  parseWith treesOf text

end ProtoSchema.Extension
