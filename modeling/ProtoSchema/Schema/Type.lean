/-!
# Types of a schema

What stands on the right-hand side of a field of a generated class. A named
type is either a class of the document itself or a class of the extension
module that stands in for one.
-/

namespace ProtoSchema.Schema

/-- The GraphQL scalars that protobuf scalars are shown as. GraphQL integers
have 32 bits, so the 64-bit ones travel as strings. -/
inductive Scalar where
  | boolean
  | float
  | int
  | string
  | longString
  deriving DecidableEq, Repr

namespace Scalar

def text : Scalar → String
  | boolean => "graphene.Boolean"
  | float => "graphene.Float"
  | int => "graphene.Int"
  | string => "graphene.String"
  | longString => "LongString"

end Scalar

/-- A named type after overrides are applied. -/
inductive Reference where
  /-- A class of the document. -/
  | generated (name : String)
  /-- A class of the module imported as `module`. -/
  | extension (module name : String)
  deriving DecidableEq, Repr

namespace Reference

def name : Reference → String
  | generated name => name
  | extension _ name => name

/-- The expression that names the class in the generated module. -/
def text : Reference → String
  | generated name => name
  | extension module name => module ++ "." ++ name

end Reference

/-- The type of a field declaration. -/
inductive TypeExpr where
  | scalar (s : Scalar)
  | scalarList (s : Scalar)
  | field (r : Reference)
  | inputField (r : Reference)
  | nonNullList (r : Reference)
  /-- Stands in a class that has no fields of its own. -/
  | placeholder
  deriving DecidableEq, Repr

namespace TypeExpr

def isList : TypeExpr → Bool
  | scalarList _ => true
  | nonNullList _ => true
  | _ => false

/-- The named type inside, if there is one. -/
def reference? : TypeExpr → Option Reference
  | field r => some r
  | inputField r => some r
  | nonNullList r => some r
  | _ => none

/-- The expression that builds the type in the generated module. -/
def text : TypeExpr → String
  | scalar s => s.text ++ "()"
  | scalarList s => "graphene.List(" ++ s.text ++ ")"
  | field r => "graphene.Field(" ++ r.text ++ ")"
  | inputField r => "graphene.InputField(" ++ r.text ++ ")"
  | nonNullList r => "graphene.List(graphene.NonNull(" ++ r.text ++ "))"
  | placeholder =>
    "graphene.Boolean(description=" ++
      "'Dummy field required because GraphQL does not support empty types.')"

end TypeExpr

end ProtoSchema.Schema
