import ProtoSchema.Extension.Grammar.Basic

/-!
# The grammar of Python

The rules of the language, statements first and patterns last. Alternatives
that start alike are told apart behind what they share, so that no part of a
text is read again inside itself.

There are two dialects. The strict one is that of a present-day interpreter.
The tolerant one accepts more, because an extension file may be written for
another version of the language: bodies without statements, the statements
`print` and `exec`, the operator `<>`, `except E, e`, a positional base behind
a keyword one, reserved words where only a name fits, a named expression as a
statement and a trailing comma in an import; and type parameters and type
aliases, which are newer. Parameters may come in any order of their defaults
in both.
-/

namespace ProtoSchema.Extension

/-- The names of the rules. -/
inductive Rule where
  | file
  | statement
  | simpleLine
  | simple
  | assignment
  | importing
  | dottedName
  | asName
  | compound
  | decorated
  | funcDef
  | classDef
  | suite
  | parameters
  | typeParameters
  | ifRest
  | tryRest
  | withItem
  | matching
  | arguments
  | baseArguments
  | expressions
  | starExpression
  | starNamed
  | named
  | expression
  | disjunction
  | inversion
  | bitOr
  | shift
  | sum
  | product
  | factor
  | primary
  | trailer
  | atom
  | yielding
  | clauses
  | targets
  | target
  | slice
  | patterns
  | pattern
  | closedPattern
  | patternArgument
  deriving DecidableEq, Repr

/-- How much is accepted. -/
inductive Dialect where
  | strict
  | tolerant
  deriving DecidableEq, Repr

namespace Grammar

variable {ρ : Type}

def never : Grammar ρ := notAhead empty

/-- One after the other. -/
def seqs : List (Grammar ρ) → Grammar ρ
  | [] => empty
  | [g] => g
  | g :: rest => seq g (seqs rest)

/-- The first that succeeds; there has to be one. -/
def alts (first : Grammar ρ) : List (Grammar ρ) → Grammar ρ
  | [] => first
  | g :: rest => alt first (alts g rest)

def optional (g : Grammar ρ) : Grammar ρ := alt g empty

def manyOne (g : Grammar ρ) : Grammar ρ := seq g (many g)

def sym (s : String) : Grammar ρ := term (.symbol s)

def kw (s : String) : Grammar ρ := term (.keyword s)

def syms (first : String) (rest : List String) : Grammar ρ :=
  alts (sym first) (rest.map sym)

/-- A comma that shows in the tree. -/
def comma : Grammar ρ := node (fun _ => .comma) (sym ",")

/-- Items with commas between them and possibly one behind them. -/
def commaList (g : Grammar ρ) : Grammar ρ :=
  seqs [g, many (seq comma g), optional comma]

/-- The same without nodes for the commas. -/
def plainList (g : Grammar ρ) : Grammar ρ :=
  seqs [g, many (seq (sym ",") g), optional (sym ",")]

/-- A part whose form does not matter. -/
def unnamed (g : Grammar ρ) : Grammar ρ := node (fun _ => .other) g

def chain (operand operator : Grammar ρ) : Grammar ρ :=
  join (fun _ => .other) (seq operand (many (seq operator operand)))

def within (left right : String) (g : Grammar ρ) : Grammar ρ :=
  seqs [sym left, g, sym right]

end Grammar

open Grammar

/-! ## Forms -/

def hasForm (form : Form) (nodes : List Node) : Bool :=
  nodes.any (·.form = form)

/-- Elements in parentheses: a tuple if there is a comma or nothing, a
generator if there are clauses. -/
def parenthesizedForm (nodes : List Node) : Form :=
  if hasForm .comprehension nodes then .other
  else if hasForm .comma nodes || (significant nodes).isEmpty then .tuple
  else .parenthesized

def listForm (nodes : List Node) : Form :=
  if hasForm .comprehension nodes then .other else .list

/-- The last trailer of an expression says what the whole is. -/
def primaryForm (nodes : List Node) : Form :=
  match (significant nodes).getLast? with
  | some n =>
    match n.form with
    | .attribute => .attribute
    | .subscript => .subscript
    | _ => .call
  | none => .other

def areAssignable (nodes : List Node) : Bool :=
  Node.areTargets { star := true, several := true } nodes

def areDeletable (nodes : List Node) : Bool :=
  Node.areTargets { star := false, several := true } nodes

def isSingleTarget (nodes : List Node) : Bool :=
  Node.areTargets { star := false, several := false } nodes

/-- A comprehension has no starred element. -/
def isComprehensible (nodes : List Node) : Bool :=
  !(hasForm .comprehension nodes && hasForm .starred nodes)

def parameterMarks (nodes : List Node) : List String :=
  nodes.map fun n =>
    match n.form with
    | .parameterMark s => s
    | _ => "name"

/-- A bare star needs a name behind it, nothing follows a double star, there
is at most one star, and a slash stands behind a name and before the star. -/
def areParameters (nodes : List Node) : Bool :=
  let marks := parameterMarks nodes
  let stars := marks.filter fun s => s = "*" || s = "*name"
  let beforeSlash := marks.takeWhile (· ≠ "/")
  stars.length ≤ 1 &&
  (marks.filter (· = "**")).length ≤ 1 && (!marks.contains "**" || marks.getLast? = some "**") &&
  (match marks.dropWhile (· ≠ "*") with
   | "*" :: next :: _ => next = "name"
   | ["*"] => false
   | _ => true) &&
  (marks.filter (· = "/")).length ≤ 1 &&
  (!marks.contains "/" ||
    (!beforeSlash.isEmpty && beforeSlash.all (· = "name")))

/-! ## Rules -/

/-- Behind the first element of parentheses, brackets or braces: clauses, or
more elements. -/
def elementsRest (g : Grammar Rule) : Grammar Rule :=
  alt (rule .clauses) (seq (many (seq comma g)) (optional comma))

def rightHandSide : Grammar Rule :=
  alt (rule .yielding) (rule .expressions)

def body : Grammar Rule :=
  seq (sym ":") (rule .suite)

/-- Words that an operand may start with, for statements that a call could be
mistaken for. -/
def operandStart : Grammar Rule :=
  alts (term .identifier)
    [term .number, term .text, term .constant, kw "lambda", sym "~", sym "\x7b"]

def parameter (typed : Grammar Rule) : Grammar Rule :=
  let name := seq (term .identifier) typed
  alts (node (fun _ => .parameterMark "/") (sym "/"))
    [node (fun _ => .parameterMark "**") (seq (sym "**") name),
     node (fun _ => .parameterMark "*name") (seq (sym "*") name),
     node (fun _ => .parameterMark "*") (sym "*"),
     node (fun _ => .parameter) (seq name (optional (seq (sym "=") (rule .expression))))]

def Dialect.choose (d : Dialect) (strict tolerant : Grammar Rule) : Grammar Rule :=
  match d with
  | .strict => strict
  | .tolerant => tolerant

/-- What only the tolerant dialect has. -/
def Dialect.tolerate (d : Dialect) (g : Grammar Rule) : Grammar Rule :=
  d.choose never g

/-- A name that is defined or looked up: any word will do if it cannot be
mistaken. -/
def Dialect.name (d : Dialect) : Grammar Rule :=
  d.choose (term .identifier) (term .word)

def comparing (d : Dialect) : Grammar Rule :=
  alts (syms "==" ["!=", "<=", "<", ">=", ">"])
    [d.tolerate (sym "<>"), kw "in", seq (kw "not") (kw "in"),
     seq (kw "is") (optional (kw "not"))]

def Rule.definition (d : Dialect) : Rule → Grammar Rule
  | .file => seq (many (rule .statement)) (term .finish)
  | .statement => alt (rule .compound) (rule .simpleLine)
  | .simpleLine =>
    seqs [rule .simple, many (seq (sym ";") (rule .simple)), optional (sym ";"), term .newline]
  | .simple =>
    alts (d.tolerate (seqs [kw "type", term .identifier, optional (rule .typeParameters), sym "=",
                rule .expression]))
      [d.tolerate (seqs [alt (kw "print") (kw "exec"), ahead operandStart, rule .expressions]),
       rule .assignment,
       rule .yielding,
       seq (kw "return") (optional (rule .expressions)),
       rule .importing,
       seq (kw "raise") (optional (seq (rule .expression)
         (optional (seq (kw "from") (rule .expression))))),
       kw "pass",
       kw "break",
       kw "continue",
       seqs [kw "del", check areDeletable (commaList (rule .primary)),
             ahead (alt (sym ";") (term .newline))],
       seqs [kw "assert", rule .expression, optional (seq (sym ",") (rule .expression))],
       seqs [alt (kw "global") (kw "nonlocal"), term .identifier,
             many (seq (sym ",") (term .identifier))]]
  | .assignment =>
    alts (seqs [check isSingleTarget (rule .primary), sym ":", rule .expression,
                optional (seq (sym "=") rightHandSide)])
      [seqs [manyOne (seq (check areAssignable (rule .expressions)) (sym "=")), rightHandSide,
             notAhead (sym "=")],
       seqs [check isSingleTarget (rule .primary),
             syms "+=" ["-=", "*=", "@=", "/=", "%=", "&=", "|=", "^=", "<<=", ">>=", "**=", "//="],
             rightHandSide],
       d.tolerate (seqs [term .identifier, sym ":=", rule .expression]),
       rule .expressions]
  | .importing =>
    let names := alts (sym "*")
      [within "(" ")" (plainList (rule .asName)),
       seqs [rule .asName, many (seq (sym ",") (rule .asName)), optional (d.tolerate (sym ","))]]
    let dots := manyOne (syms "." ["..."])
    let renamed := optional (seq (kw "as") (term .identifier))
    alt (seqs [kw "import", rule .dottedName, renamed,
               many (seqs [sym ",", rule .dottedName, renamed])])
      (seqs [kw "from", alt (rule .dottedName) (seq dots (optional (rule .dottedName))),
             kw "import", names])
  | .dottedName => seq (term .identifier) (many (seq (sym ".") (term .identifier)))
  | .asName => seq (term .identifier) (optional (seq (kw "as") (term .identifier)))
  | .compound =>
    alts (rule .decorated)
      [rule .classDef,
       rule .funcDef,
       seqs [kw "if", rule .named, body, rule .ifRest],
       seqs [kw "while", rule .named, body, optional (seq (kw "else") body)],
       seqs [optional (kw "async"), kw "for", rule .targets, kw "in", rule .expressions, body,
             optional (seq (kw "else") body)],
       seqs [optional (kw "async"), kw "with",
             alt (seq (within "(" ")" (plainList (rule .withItem))) (ahead (sym ":")))
               (seq (rule .withItem) (many (seq (sym ",") (rule .withItem)))),
             body],
       seqs [kw "try", body, rule .tryRest],
       rule .matching]
  | .decorated =>
    seqs [manyOne (seqs [sym "@", rule .named, term .newline]),
          alt (rule .classDef) (rule .funcDef)]
  | .funcDef =>
    seqs [optional (kw "async"), kw "def", d.name, optional (rule .typeParameters),
          within "(" ")" (optional (rule .parameters)),
          optional (seq (sym "->") (rule .expression)), body]
  | .classDef =>
    let bases := node (fun _ => .arguments) (within "(" ")" (rule .baseArguments))
    classNode (seqs [kw "class", field .name d.name, optional (rule .typeParameters),
      optional (field .superclasses bases), sym ":", field .body (rule .suite)])
  | .suite =>
    node (fun _ => .block)
      (alts (seqs [term .newline, term .indent, manyOne (rule .statement), term .dedent])
        [rule .simpleLine, d.tolerate (seq (term .newline) (notAhead (term .indent)))])
  | .parameters =>
    check areParameters (plainList (parameter (optional (seq (sym ":") (rule .starExpression)))))
  | .typeParameters =>
    d.tolerate <| node (fun _ => .typeParameters)
      (within "[" "]" (plainList (alts (seq (syms "*" ["**"]) (term .identifier))
        [seq (term .identifier) (optional (seq (sym ":") (rule .expression)))])))
  | .ifRest =>
    alts (seqs [kw "elif", rule .named, body, rule .ifRest])
      [seq (kw "else") body, empty]
  | .tryRest =>
    let caught := seq (rule .expression)
      (optional (seq (alt (kw "as") (d.tolerate (sym ","))) (term .identifier)))
    let final := seq (kw "finally") body
    alt final (seqs [manyOne (seqs [kw "except", optional (seq (optional (sym "*")) caught), body]),
      optional (seq (kw "else") body), optional final])
  | .withItem =>
    seq (rule .expression) (optional (seqs [kw "as", rule .target,
      ahead (syms "," [")", ":"])]))
  | .matching =>
    seqs [kw "match", commaList (rule .starNamed), sym ":", term .newline, term .indent,
      manyOne (seqs [kw "case", rule .patterns, optional (seq (kw "if") (rule .named)), body]),
      term .dedent]
  | .arguments =>
    let argument := alts (unnamed (seqs [term .identifier, sym "=", rule .expression]))
      [seq (syms "*" ["**"]) (rule .expression), rule .named]
    optional (seq argument
      (alt (rule .clauses) (seq (many (seq (sym ",") argument)) (optional (sym ",")))))
  | .baseArguments =>
    let argument := alts (node (fun _ => .keywordArgument)
        (seqs [term .word, sym "=", rule .expression]))
      [node (fun _ => .doubleStarred) (seq (sym "**") (rule .expression)),
       node (fun _ => .starred) (seq (sym "*") (rule .expression)),
       join (fun _ => .other) (seq (rule .named)
         (optional (seq (kw "as") (rule .target)))),
       join primaryForm (seq (term .misplacedWord) (many (rule .trailer)))]
    d.choose (rule .arguments)
      (seq (optional (seq argument (many (seq (sym ",") argument)))) (optional (sym ",")))
  | .expressions => join (fun _ => .tuple) (commaList (rule .starExpression))
  | .starExpression =>
    alt (node (fun _ => .starred) (seq (sym "*") (rule .bitOr))) (rule .expression)
  | .starNamed => alt (node (fun _ => .starred) (seq (sym "*") (rule .bitOr))) (rule .named)
  | .named =>
    alt (unnamed (seqs [term .identifier, sym ":=", rule .expression]))
      (seq (rule .expression) (notAhead (sym ":=")))
  | .expression =>
    alt (unnamed (seqs [kw "lambda", optional (check areParameters (plainList (parameter empty))),
                         sym ":", rule .expression]))
      (join (fun _ => .other) (seq (mark (rule .disjunction))
        (optional (seqs [kw "if", rule .disjunction, kw "else", rule .expression]))))
  | .disjunction => chain (chain (rule .inversion) (kw "and")) (kw "or")
  | .inversion =>
    alt (unnamed (seq (kw "not") (rule .inversion))) (chain (rule .bitOr) (comparing d))
  | .bitOr => chain (chain (chain (rule .shift) (sym "&")) (sym "^")) (sym "|")
  | .shift => chain (rule .sum) (syms "<<" [">>"])
  | .sum => chain (rule .product) (syms "+" ["-"])
  | .product => chain (rule .factor) (syms "*" ["//", "/", "%", "@"])
  | .factor =>
    alts (unnamed (seq (syms "+" ["-", "~"]) (rule .factor)))
      [join (fun _ => .other)
        (seq (alt (unnamed (seq (kw "await") (rule .primary))) (rule .primary))
          (optional (seq (sym "**") (rule .factor))))]
  | .primary => join primaryForm (seq (rule .atom) (many (rule .trailer)))
  | .trailer =>
    alts (node (fun _ => .attribute) (seq (sym ".") d.name))
      [node (fun _ => .call) (within "(" ")" (rule .arguments)),
       node (fun _ => .subscript) (within "[" "]" (commaList (rule .slice)))]
  | .atom =>
    alts (term .identifier)
      [term .constant,
       term .number,
       sym "...",
       join (fun _ => .literal) (manyOne (term .text)),
       node parenthesizedForm (within "(" ")" (check isComprehensible
         (alts (rule .yielding)
           [seq (rule .starNamed) (elementsRest (rule .starNamed)), empty]))),
       node listForm (within "[" "]" (check isComprehensible
         (optional (seq (rule .starNamed) (elementsRest (rule .starNamed)))))),
       unnamed (within "\x7b" "\x7d" (check isComprehensible (optional
         (let pair := alt (seq (sym "**") (rule .bitOr))
            (seqs [rule .expression, sym ":", rule .expression])
          alt (seqs [sym "**", rule .bitOr, many (seq comma pair), optional comma])
            (seq (rule .starNamed)
              (alt (seqs [sym ":", rule .expression, elementsRest pair])
                (elementsRest (rule .starNamed))))))))]
  | .yielding =>
    unnamed (seq (kw "yield")
      (alt (seq (kw "from") (rule .expression)) (optional (rule .expressions))))
  | .clauses =>
    node (fun _ => .comprehension) (manyOne (seqs [optional (kw "async"), kw "for", rule .targets,
      kw "in", rule .disjunction, many (seq (kw "if") (rule .disjunction))]))
  | .targets => join (fun _ => .tuple) (commaList (rule .target))
  | .target =>
    check areAssignable
      (alt (node (fun _ => .starred) (seq (sym "*") (rule .primary))) (rule .primary))
  | .slice =>
    let bound := optional (rule .expression)
    let part := seq bound (optional (seq (sym ":") bound))
    alt (seq (sym ":") part) (seq (rule .starNamed) (optional (seq (sym ":") part)))
  | .patterns => commaList (rule .pattern)
  | .pattern =>
    alt (seq (sym "*") (term .identifier))
      (seqs [rule .closedPattern, many (seq (sym "|") (rule .closedPattern)),
        optional (seq (kw "as") (term .identifier))])
  | .closedPattern =>
    let signed := seq (optional (sym "-")) (term .number)
    let path := rule .dottedName
    alts (seq signed (optional (seq (syms "+" ["-"]) (term .number))))
      [manyOne (term .text),
       term .constant,
       within "(" ")" (optional (rule .patterns)),
       within "[" "]" (optional (rule .patterns)),
       within "\x7b" "\x7d" (optional (plainList
         (alt (seq (sym "**") (term .identifier))
           (seqs [alts (seq signed (optional (seq (syms "+" ["-"]) (term .number))))
                   [manyOne (term .text), term .constant, path],
                  sym ":", rule .pattern])))),
       seq path (optional (within "(" ")" (optional (plainList (rule .patternArgument)))))]
  | .patternArgument =>
    alt (seqs [term .identifier, sym "=", rule .pattern]) (rule .pattern)

end ProtoSchema.Extension
