import ProtoSchema.Overrides
import ProtoSchema.Schema.Document
import ProtoSchema.Selection

/-!
# From a selection to a document

Fields become type expressions: scalars by a fixed table that has no default
entry, named types by the class of their name, with overrides applied. A
field whose type is unknown, or whose type and kind disagree, has no
expression and fails the document.
-/

namespace ProtoSchema

open ProtoSchema.Descriptor (FieldType)
open ProtoSchema.Schema

/-- The scalar that a type is shown as; named types have none. -/
def scalarOf? : FieldType → Option Scalar
  | .bool => some .boolean
  | .float => some .float
  | .double => some .float
  | .int32 => some .int
  | .uint32 => some .int
  | .sint32 => some .int
  | .fixed32 => some .int
  | .sfixed32 => some .int
  | .int64 => some .longString
  | .uint64 => some .longString
  | .sint64 => some .longString
  | .fixed64 => some .longString
  | .sfixed64 => some .longString
  | .string => some .string
  | .bytes => some .string
  | .group => none
  | .message => none
  | .enum => none

/-- The type with a written number; `field` is named in the error. -/
def typeOfNumber (field : String) (raw : Int) : Result FieldType :=
  match FieldType.ofNumber? raw with
  | some type => .ok type
  | none => .error (.unsupportedFieldType field raw)

def scalarExpr (field : String) (type : FieldType) (isRepeated : Bool) : Result TypeExpr :=
  match scalarOf? type with
  | some s => .ok (if isRepeated then .scalarList s else .scalar s)
  | none => .error (.unsupportedFieldType field type.number)

/-- The type of a field: the written one, or else that of its kind. -/
def Pool.Field.type {m e : Nat} (f : Pool.Field m e) : Result FieldType :=
  match f.rawType with
  | some raw => typeOfNumber f.fullName raw
  | none =>
    match f.kind with
    | .scalar type => .ok type
    | .message _ => .ok .message
    | .enum _ => .ok .enum

def namedExpr (reference : Reference) (isRepeated isInput : Bool) : TypeExpr :=
  if isRepeated then .nonNullList reference
  else if isInput then .inputField reference
  else .field reference

def fieldExpr (p : Pool) (o : Overrides) (role : Role) (f : Pool.Field p.m p.e) :
    Result TypeExpr := do
  let type ← f.type
  match type, f.kind with
  | .enum, .enum i =>
    return namedExpr (o.reference (Naming.typeName (p.enum i).fullName)) f.isRepeated false
  | .message, .message i =>
    return namedExpr (o.reference (role.typeName (p.message i).fullName)) f.isRepeated
      (role = .input)
  | .group, .message i =>
    return namedExpr (o.reference (role.typeName (p.message i).fullName)) f.isRepeated
      (role = .input)
  | _, _ => scalarExpr f.fullName type f.isRepeated

namespace Selection

variable {p : Pool}

def enumDecl (i : Fin p.e) : EnumDecl :=
  { name := Naming.pascalCase (Naming.typeName (p.enum i).fullName)
    members := (p.enum i).values }

def fieldDecl (o : Overrides) (role : Role) (f : Pool.Field p.m p.e) : Result FieldDecl := do
  let type ← fieldExpr p o role f
  return { name := Naming.snakeCase f.name, type }

def classDecl (o : Overrides) (role : Role) (i : Fin p.m) : Result ClassDecl := do
  let fields ← (p.message i).fields.mapM (fieldDecl o role)
  return ClassDecl.ofFields (role.typeName (p.message i).fullName) fields

def operationDecl (m : Pool.Method p.m) : OperationDecl :=
  { name := m.operation
    output := Naming.typeName (p.message m.output).fullName
    input := Naming.inputTypeName (p.message m.input).fullName }

def resolverDecl (m : Pool.Method p.m) : ResolverDecl :=
  { name := Naming.resolverName m.operation
    protoModule := m.protoModule
    requestClass := p.requestClass m
    handler := Naming.handlerName m.name }

def rootDecl (name : String) (ms : List (Pool.Method p.m)) : RootDecl :=
  { name, operations := ms.map operationDecl, resolvers := ms.map resolverDecl }

def build (s : Selection p) (o : Overrides) (modules : Modules) : Result Document := do
  let objects ← s.types.mapM (classDecl o .object)
  let inputs ← s.inputs.mapM (classDecl o .input)
  return { modules, enums := s.enums.map enumDecl, objects, inputs
           query := rootDecl queryRootName s.queries
           mutation := rootDecl mutationRootName s.mutations }

def synthesize (s : Selection p) (o : Overrides) (modules : Modules) : Result String := do
  let d ← s.build o modules
  return d.render

end Selection

end ProtoSchema
