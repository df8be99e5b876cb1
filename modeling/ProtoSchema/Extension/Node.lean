import ProtoSchema.Extension.Token

/-!
# Syntax trees

A tree keeps what the rest of the library asks about a source: where class
statements are, what their parts are, and of an expression only so much of its
form as decides whether it can be assigned to and whether it is a bare name.
Comments and joined line ends are nodes too, at the place where they stand.
-/

namespace ProtoSchema.Extension

/-- The form of a node other than a class statement. -/
inductive Form where
  | identifier (name : String)
  | comment
  | joining
  /-- A comma that makes a tuple. -/
  | comma
  | literal
  | parenthesized
  | tuple
  | list
  | attribute
  | subscript
  | call
  | starred
  | doubleStarred
  | keywordArgument
  /-- `for` clauses behind an element. -/
  | comprehension
  /-- The mark of a parameter list: a slash, a star, or a double star. -/
  | parameterMark (text : String)
  | parameter
  | typeParameters
  | arguments
  | block
  | other
  deriving DecidableEq, Repr

/-- The parts of a class statement that can be asked for. -/
inductive Field where
  | name
  | superclasses
  | body
  deriving DecidableEq, Repr

/-- A syntax tree. A node may be the part of a class statement that a field
names. A class statement itself never is: names are words, base lists are lists,
and bodies are blocks. -/
inductive Node where
  | branch (form : Form) (field : Option Field) (extent : Extent) (children : List Node)
  | classDef (extent : Extent) (children : List Node)

namespace Node

def extent : Node → Extent
  | branch _ _ extent _ => extent
  | classDef extent _ => extent

def form : Node → Form
  | branch form .. => form
  | classDef .. => .other

def field : Node → Option Field
  | branch _ field .. => field
  | classDef .. => none

def children : Node → List Node
  | branch _ _ _ children => children
  | classDef _ children => children

def leaf (form : Form) (extent : Extent) : Node :=
  branch form none extent []

/-- The node as the part that a field names. -/
def label (field : Field) : Node → Node
  | branch form _ extent children => branch form (some field) extent children
  | classDef extent children => classDef extent children

/-- Comments and joined line ends. -/
def isTrivia (n : Node) : Bool :=
  n.form = .comment || n.form = .joining

def ofTrivia (t : Trivia) : Node :=
  match t.kind with
  | .comment => leaf .comment t.extent
  | .joining => leaf .joining t.extent

end Node

def significant (nodes : List Node) : List Node :=
  nodes.filter (!·.isTrivia)

/-! ## Targets -/

/-- What an assignment may have on its left. -/
structure TargetRule where
  /-- Whether a starred target is allowed here. -/
  star : Bool
  /-- Whether tuples and lists are allowed. -/
  several : Bool

namespace Node

mutual

/-- Whether a node can be assigned to. -/
def isTarget (r : TargetRule) : Node → Bool
  | branch form _ _ children =>
    match form with
    | .identifier _ => true
    | .attribute => true
    | .subscript => true
    | .parenthesized => areTargets { r with star := false } children
    | .tuple => r.several && areTargets r children
    | .list => r.several && areTargets r children
    | .starred => r.star && areTargets { r with star := false } children
    | _ => false
  | classDef .. => false

/-- Whether all nodes but commas and trivia can be assigned to. -/
def areTargets (r : TargetRule) : List Node → Bool
  | [] => true
  | n :: rest =>
    (n.isTrivia || n.form = .comma || n.isTarget r) && areTargets r rest

end

end Node

/-! ## Other offsets -/

def Extent.move (f : Nat → Nat) (e : Extent) : Extent :=
  { e with start := f e.start, stop := f e.stop }

mutual

/-- The tree with all offsets passed through `f`. -/
def Node.move (f : Nat → Nat) : Node → Node
  | .branch form field extent children =>
    .branch form field (extent.move f) (moveOf f children)
  | .classDef extent children => .classDef (extent.move f) (moveOf f children)

def moveOf (f : Nat → Nat) : List Node → List Node
  | [] => []
  | n :: rest => n.move f :: moveOf f rest

end

namespace Node

variable (f : Nat → Nat) (n : Node)

@[simp]
theorem form_move : (n.move f).form = n.form := by
  cases n with
  | branch form field extent children => rfl
  | classDef extent children => rfl

@[simp]
theorem field_move : (n.move f).field = n.field := by
  cases n with
  | branch form field extent children => rfl
  | classDef extent children => rfl

@[simp]
theorem children_move : (n.move f).children = moveOf f n.children := by
  cases n with
  | branch form field extent children => rfl
  | classDef extent children => rfl

end Node

end ProtoSchema.Extension
