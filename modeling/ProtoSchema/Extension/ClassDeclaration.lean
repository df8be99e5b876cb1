import ProtoSchema.Extension.Node

/-!
# Class declarations

The class statements of a source, as a forest: a class that stands anywhere
inside the body of another is one of its nested classes, whatever functions,
conditions or decorators are in between. A base is known by its name only if
it is a bare name; any other base is kept as its text.
-/

namespace ProtoSchema.Extension

/-- A base in the header of a class. -/
inductive Base where
  | name (name : String)
  /-- Anything computed, by its text. -/
  | dynamic (text : String)
  deriving DecidableEq, Repr

/-- A class statement with the classes inside its body. -/
structure ClassDeclaration where
  name : String
  bases : List Base
  /-- The line of the keyword, counted from one. -/
  line : Nat
  nested : List ClassDeclaration
  deriving Repr

namespace ClassDeclaration

def simpleBases (d : ClassDeclaration) : List String :=
  d.bases.filterMap fun
    | .name name => some name
    | .dynamic _ => none

end ClassDeclaration

/-- The text of a piece of a source. -/
def slice (s : String) (extent : Extent) : String :=
  String.ofList ((s.toList.drop extent.start).take (extent.stop - extent.start))

mutual

/-- The base that a node of a base list stands for, if it stands for one:
parentheses stand for what is first inside them. -/
def Node.base? (s : String) : Node → Option Base
  | .branch form _ extent children =>
    match form with
    | .identifier name => some (.name name)
    | .parenthesized => firstBase? s children
    | .keywordArgument => none
    | .doubleStarred => none
    | .comment => none
    | _ => some (.dynamic (slice s extent))
  | .classDef extent _ => some (.dynamic (slice s extent))

/-- The base of the first node that is no comment. -/
def firstBase? (s : String) : List Node → Option Base
  | [] => none
  | n :: rest => if n.form = .comment then firstBase? s rest else n.base? s

end

/-- The name of a class statement with these children. -/
def nameOf (children : List Node) : String :=
  match (children.find? (·.field = some .name)).map Node.form with
  | some (.identifier name) => name
  | _ => ""

/-- What stands in the base list of a class statement with these children. -/
def superclassesOf (children : List Node) : List Node :=
  ((children.find? (·.field = some .superclasses)).map Node.children).getD []

mutual

def Node.classes (s : String) : Node → List ClassDeclaration
  | .branch _ _ _ children => classesOf s children
  | .classDef extent children =>
    [{ name := nameOf children
       bases := (superclassesOf children).filterMap (Node.base? s)
       line := extent.row + 1
       nested := bodyClasses s children }]

def classesOf (s : String) : List Node → List ClassDeclaration
  | [] => []
  | n :: rest => n.classes s ++ classesOf s rest

/-- The classes inside the body of a class statement with these children. -/
def bodyClasses (s : String) : List Node → List ClassDeclaration
  | [] => []
  | n :: rest => if n.field = some .body then n.classes s else bodyClasses s rest

end

end ProtoSchema.Extension
