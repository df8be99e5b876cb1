import ProtoSchema.Schema.Type
import ProtoSchema.Text.Split

/-!
# The generated module

A document is the declarations of a generated module in the order in which
they are written: enums, object classes, input classes, and the two roots
with their resolvers. Its text is a list of lines, each of them ended by a
line feed.
-/

namespace ProtoSchema.Schema

/-- The modules that a generated module imports from. -/
structure Modules where
  /-- The package that holds the message classes. -/
  proto : String := "protos"
  /-- The module of the handler functions. -/
  handlers : String := "server.handlers"
  /-- The module of the hand-written classes. -/
  extensions : String := "server.graphql.graphql_schema_extensions"
  /-- The module that defines the 64-bit scalar. -/
  scalars : String := "server.graphql.graphql_custom_scalars"
  /-- The module that defines `parse_dict`. -/
  parseDict : String := "utils.proto_json_utils"
  deriving DecidableEq, Repr

/-- The name that the extension module is bound to: what follows its last
dot. -/
def Modules.extensionsName (m : Modules) : String :=
  match Text.cutLast? '.' m.extensions with
  | some (_, leaf) => leaf
  | none => m.extensions

/-- A class with one member per enum value. -/
structure EnumDecl where
  name : String
  members : List String
  deriving DecidableEq, Repr

/-- One field of a class. -/
structure FieldDecl where
  name : String
  type : TypeExpr
  deriving DecidableEq, Repr

/-- An object class or an input class. -/
structure ClassDecl where
  name : String
  fields : List FieldDecl
  deriving DecidableEq, Repr

/-- The field of a class without fields. -/
def FieldDecl.dummy : FieldDecl :=
  { name := "dummy", type := .placeholder }

/-- The class of the given fields; one without fields gets the placeholder,
because a GraphQL type needs a field. -/
def ClassDecl.ofFields (name : String) (fields : List FieldDecl) : ClassDecl :=
  { name, fields := if fields.isEmpty then [FieldDecl.dummy] else fields }

/-- A field of a root. -/
structure OperationDecl where
  name : String
  /-- The object class that the operation returns. -/
  output : String
  /-- The input class of its argument. -/
  input : String
  deriving DecidableEq, Repr

/-- The function that serves a field of a root. -/
structure ResolverDecl where
  name : String
  /-- The module of the request message inside the proto package. -/
  protoModule : String
  /-- The request message inside that module. -/
  requestClass : String
  /-- The function inside the handlers module. -/
  handler : String
  deriving DecidableEq, Repr

/-- The query root or the mutation root. -/
structure RootDecl where
  name : String
  operations : List OperationDecl := []
  resolvers : List ResolverDecl := []
  deriving DecidableEq, Repr

def queryRootName : String := "QueryType"

def mutationRootName : String := "MutationType"

/-- A generated module. -/
structure Document where
  modules : Modules := {}
  enums : List EnumDecl := []
  objects : List ClassDecl := []
  inputs : List ClassDecl := []
  query : RootDecl := { name := queryRootName }
  mutation : RootDecl := { name := mutationRootName }
  deriving DecidableEq, Repr

/-! ## Lines -/

/-- Puts `s` into a strictly increasing list, unless it is there. -/
def insertSorted (s : String) : List String → List String
  | [] => [s]
  | t :: rest =>
    if s = t then t :: rest
    else if s < t then s :: t :: rest
    else t :: insertSorted s rest

namespace Document

def resolvers (d : Document) : List ResolverDecl :=
  d.query.resolvers ++ d.mutation.resolvers

/-- The path of the module that holds a resolver's request message. -/
def protoPath (m : Modules) (r : ResolverDecl) : String :=
  m.proto ++ "." ++ r.protoModule

/-- The modules that the resolvers need, each once and in increasing
order. -/
def imports (d : Document) : List String :=
  let needed := d.resolvers.map (protoPath d.modules) ++
    if d.resolvers.isEmpty then [] else [d.modules.handlers]
  needed.foldl (fun acc s => insertSorted s acc) []

/-- The line that binds the extension module's name. -/
def extensionImport (m : Modules) : String :=
  match Text.cutLast? '.' m.extensions with
  | some (parent, leaf) => "from " ++ parent ++ " import " ++ leaf
  | none => "import " ++ m.extensions

/-- The import lines and the empty line after them. -/
def header (d : Document) : List String :=
  ["import graphene"] ++
  d.imports.map ("import " ++ ·) ++
  [extensionImport d.modules,
   "from " ++ d.modules.scalars ++ " import LongString",
   "from " ++ d.modules.parseDict ++ " import parse_dict",
   ""]

end Document

def classLine (name base : String) : String :=
  "class " ++ name ++ "(graphene." ++ base ++ "):"

def memberLine (name value : String) : String :=
  "    " ++ name ++ " = " ++ value

def EnumDecl.lines (e : EnumDecl) : List String :=
  ["", classLine e.name "Enum"] ++
  e.members.map (fun m => memberLine m ("'" ++ m ++ "'")) ++ [""]

/-- The lines of a class with the given base. -/
def ClassDecl.lines (base : String) (c : ClassDecl) : List String :=
  ["", classLine c.name base] ++
  c.fields.map (fun f => memberLine f.name f.type.text) ++ [""]

def OperationDecl.line (o : OperationDecl) : String :=
  memberLine o.name ("graphene.Field(" ++ o.output ++ ", input=" ++ o.input ++ "())")

/-- The lines of a resolver: it fills the request message from the input and
hands it to the handler. -/
def ResolverDecl.lines (m : Modules) (r : ResolverDecl) : List String :=
  ["",
   "    def " ++ r.name ++ "(self, info, input):",
   "        input_dict = vars(input)",
   "        request_message = " ++ Document.protoPath m r ++ "." ++ r.requestClass ++ "()",
   "        parse_dict(input_dict, request_message)",
   "        return " ++ m.handlers ++ "." ++ r.handler ++ "(request_message)"]

/-- The lines of a root: its operations, or the placeholder when there are
none, and then its resolvers. -/
def RootDecl.lines (m : Modules) (r : RootDecl) : List String :=
  ["", classLine r.name "ObjectType"] ++
  (if r.operations.isEmpty then [memberLine "dummy" TypeExpr.placeholder.text]
   else r.operations.map OperationDecl.line) ++
  r.resolvers.flatMap (ResolverDecl.lines m)

namespace Document

def lines (d : Document) : List String :=
  d.header ++
  d.enums.flatMap EnumDecl.lines ++
  d.objects.flatMap (ClassDecl.lines "ObjectType") ++
  d.inputs.flatMap (ClassDecl.lines "InputObjectType") ++
  d.query.lines d.modules ++
  [""] ++
  d.mutation.lines d.modules

def render (d : Document) : String :=
  String.join (d.lines.map (· ++ "\n"))

end Document

end ProtoSchema.Schema
