import ProtoSchema.Extension.Node

/-!
# Parsing expression grammars

A grammar is data: sequences, ordered choices, repetitions and lookahead over
tokens, with named rules for recursion, and instructions for the tree. One
function runs any of them. Of two alternatives the second is tried only where
the first fails, so a grammar never reads a text in two ways.

The run also notes the furthest token that it looked at. When the run fails,
that is the token at which the text stops being a beginning of anything.
-/

namespace ProtoSchema.Extension

/-- What a single token may be. -/
inductive Terminal where
  | symbol (text : String)
  | keyword (text : String)
  /-- A name that is no reserved word. -/
  | identifier
  /-- Any name. -/
  | word
  /-- A reserved word that no expression starts with. -/
  | misplacedWord
  /-- `None`, `True` or `False`. -/
  | constant
  | number
  | text
  | newline
  | indent
  | dedent
  | finish
  deriving DecidableEq, Repr

def Terminal.accepts : Terminal → TokenKind → Bool
  | symbol s, .symbol t => s = t
  | keyword s, .name t => s = t
  | identifier, .name t => !reservedWords.contains t
  | word, .name _ => true
  | misplacedWord, .name t => reservedWords.contains t && !operandWords.contains t
  | constant, .name t => t = "None" || t = "True" || t = "False"
  | number, .number => true
  | text, .text _ => true
  | newline, .newline => true
  | indent, .indent => true
  | dedent, .dedent => true
  | finish, .finish => true
  | _, _ => false

/-- The form of the node that a token becomes, if it becomes one. -/
def Terminal.form? : Terminal → TokenKind → Option Form
  | identifier, .name t => some (.identifier t)
  | word, .name t => some (.identifier t)
  | misplacedWord, .name t => some (.identifier t)
  | constant, _ => some .literal
  | number, _ => some .literal
  | text, _ => some .literal
  | symbol "...", _ => some .literal
  | _, _ => none

/-- A grammar with rules named by `ρ`. -/
inductive Grammar (ρ : Type) where
  | empty
  | term (t : Terminal)
  | rule (r : ρ)
  | seq (first second : Grammar ρ)
  | alt (first second : Grammar ρ)
  /-- As often as possible, possibly never. -/
  | many (item : Grammar ρ)
  | ahead (item : Grammar ρ)
  | notAhead (item : Grammar ρ)
  /-- Puts the nodes of `item` under one node. -/
  | node (form : List Node → Form) (item : Grammar ρ)
  /-- The same, but a single node stays as it is. -/
  | join (form : List Node → Form) (item : Grammar ρ)
  /-- Puts the nodes of `item` under a class statement. -/
  | classNode (item : Grammar ρ)
  /-- Makes the nodes of `item` the part that a field names. -/
  | field (f : Field) (item : Grammar ρ)
  /-- Succeeds only if the nodes of `item` are as wanted. -/
  | check (isFine : List Node → Bool) (item : Grammar ρ)
  /-- Notes where `item` started and ended. -/
  | mark (item : Grammar ρ)

/-- The part of the text that is yet to be read. -/
structure Rest where
  tokens : List Token
  /-- The offset at which the last token read ends. -/
  stop : Nat

/-- What a run has seen. -/
structure Trace where
  /-- The furthest token looked at. -/
  furthest : Option Token := none
  /-- The furthest marked part: the position of the token behind it, and its
  first token. -/
  marked : Option (Nat × Token) := none

namespace Trace

def see (t : Trace) (token : Token) : Trace :=
  match t.furthest with
  | none => { t with furthest := some token }
  | some old => if old.index < token.index then { t with furthest := some token } else t

def note (t : Trace) (first : Option Token) (behind : Option Token) : Trace :=
  match first, behind with
  | some a, some b =>
    if (t.marked.map (·.1)).any (b.index ≤ ·) then t
    else { t with marked := some (b.index, a) }
  | _, _ => t

end Trace

/-- A finished part: its nodes and what follows. -/
abbrev Parsed := List Node × Rest

namespace Rest

/-- The trivia in front of the next token, and the rest without them. -/
def splitTrivia (r : Rest) : List Node × Rest :=
  match r.tokens with
  | [] => ([], r)
  | token :: tokens =>
    (token.trivia.map Node.ofTrivia, { r with tokens := { token with trivia := [] } :: tokens })

def index? (r : Rest) : Option Nat :=
  r.tokens.head?.map (·.index)

/-- From the next token up to the end of the last token of `after`. -/
def extentTo (r after : Rest) : Extent :=
  match r.tokens with
  | [] => { row := 0, start := r.stop, stop := r.stop }
  | token :: _ =>
    if r.index? = after.index? then
      { row := token.extent.row, start := r.stop, stop := r.stop }
    else { token.extent with stop := after.stop }

end Rest

/-- The nodes as the part that a field names; what stands between them is no
part. -/
def labelOf (field : Field) (nodes : List Node) : List Node :=
  nodes.map fun n => if n.isTrivia then n else n.label field

namespace Grammar

variable {ρ : Type}

/-- Runs `build` on what `item` gives, with the trivia before it kept in front. -/
def wrap (build : Extent → List Node → List Node) (start : Rest) (lead : List Node)
    (bare : Rest) (result : Trace × Option Parsed) : Trace × Option Parsed :=
  match result with
  | (trace, none) => (trace, none)
  | (trace, some (nodes, after)) =>
    if start.index? = after.index? then (trace, some (build (start.extentTo after) nodes, start))
    else (trace, some (lead ++ build (bare.extentTo after) nodes, after))

/-- Runs a grammar. The first argument bounds how deep rules and repetitions
go into each other; without it there is no result. -/
def run (rules : ρ → Grammar ρ) : Nat → Grammar ρ → Rest → Trace → Trace × Option Parsed
  | 0, _, _, trace => (trace, none)
  | _ + 1, empty, rest, trace => (trace, some ([], rest))
  | _ + 1, term t, rest, trace =>
    match rest.tokens with
    | [] => (trace, none)
    | token :: tokens =>
      let trace := trace.see token
      if t.accepts token.kind then
        let own := match t.form? token.kind with
          | some form => [Node.leaf form token.extent]
          | none => []
        (trace, some (token.trivia.map Node.ofTrivia ++ own, { tokens, stop := token.extent.stop }))
      else (trace, none)
  | n + 1, rule r, rest, trace => run rules n (rules r) rest trace
  | n + 1, seq a b, rest, trace =>
    match run rules n a rest trace with
    | (trace, none) => (trace, none)
    | (trace, some (xs, rest)) =>
      match run rules n b rest trace with
      | (trace, none) => (trace, none)
      | (trace, some (ys, rest)) => (trace, some (xs ++ ys, rest))
  | n + 1, alt a b, rest, trace =>
    match run rules n a rest trace with
    | (trace, some parsed) => (trace, some parsed)
    | (trace, none) => run rules n b rest trace
  | n + 1, many a, rest, trace =>
    match run rules n a rest trace with
    | (trace, none) => (trace, some ([], rest))
    | (trace, some (xs, after)) =>
      if rest.index? = after.index? then (trace, some ([], rest))
      else
        match run rules n (many a) after trace with
        | (trace, none) => (trace, none)
        | (trace, some (ys, after)) => (trace, some (xs ++ ys, after))
  | n + 1, ahead a, rest, trace =>
    match run rules n a rest trace with
    | (trace, none) => (trace, none)
    | (trace, some _) => (trace, some ([], rest))
  | n + 1, notAhead a, rest, trace =>
    match run rules n a rest trace with
    | (trace, none) => (trace, some ([], rest))
    | (trace, some _) => (trace, none)
  | n + 1, node form a, rest, trace =>
    let (lead, bare) := rest.splitTrivia
    wrap (fun extent nodes => [.branch (form nodes) none extent nodes]) rest lead bare
      (run rules n a bare trace)
  | n + 1, join form a, rest, trace =>
    let (lead, bare) := rest.splitTrivia
    wrap (fun extent nodes =>
        if (significant nodes).length < 2 then nodes else [.branch (form nodes) none extent nodes])
      rest lead bare (run rules n a bare trace)
  | n + 1, classNode a, rest, trace =>
    let (lead, bare) := rest.splitTrivia
    wrap (fun extent nodes => [.classDef extent nodes]) rest lead bare (run rules n a bare trace)
  | n + 1, field f a, rest, trace =>
    match run rules n a rest trace with
    | (trace, none) => (trace, none)
    | (trace, some (xs, after)) => (trace, some (labelOf f xs, after))
  | n + 1, check isFine a, rest, trace =>
    match run rules n a rest trace with
    | (trace, none) => (trace, none)
    | (trace, some (xs, after)) =>
      if isFine (significant xs) then (trace, some (xs, after)) else (trace, none)
  | n + 1, mark a, rest, trace =>
    match run rules n a rest trace with
    | (trace, none) => (trace, none)
    | (trace, some (xs, after)) =>
      (trace.note rest.tokens.head? after.tokens.head?, some (xs, after))

end Grammar

end ProtoSchema.Extension
