import ProtoSchema.FileTree
import ProtoSchema.Json.Fault
import ProtoSchema.Pool.Fault
import ProtoSchema.Wire.Message

/-!
# Errors of a run

Every way in which a run can fail, by its cause. None of them is retried: the
same inputs always fail alike, so the only remedy is to change an input.
-/

namespace ProtoSchema

/-- What is wrong with a parameter string. -/
inductive ParameterFault where
  /-- An entry has no `=`. -/
  | noValue (entry : String)
  /-- The value of `validate` is no boolean. -/
  | badFlag (value : String)
  | unknownKey (key : String)
  /-- Any other complaint about the settings, in the words of whoever raised
  it. -/
  | other (reason : String)
  deriving DecidableEq, Repr

def ParameterFault.message : ParameterFault → String
  | noValue entry => "expected key=value, got '" ++ entry ++ "'"
  | badFlag value => "invalid validate value '" ++ value ++ "'"
  | unknownKey key => "unknown parameter '" ++ key ++ "'"
  | other reason => reason

/-- The sets of a schema that a type can be missing from. -/
inductive Category where
  | enum
  | type
  | input
  deriving DecidableEq, Repr

def Category.text : Category → String
  | enum => "enum"
  | type => "type"
  | input => "input"

/-- Why a run failed. -/
inductive Error where
  /-- A generated class is extended by more than one class. -/
  | duplicateExtension (base file : String)
  /-- The extension file is no Python; the line is that of the first fault. -/
  | extensionSyntax (file : String) (line : Nat)
  /-- There is no parser for extension files. -/
  | extensionParser (reason : String)
  /-- The type of a field has no counterpart. -/
  | unsupportedFieldType (field : String) (raw : Int)
  /-- A declaration refers to a type that is not emitted. -/
  | incomplete (referenced referrer : String) (category : Category)
  /-- Two methods have one operation name. -/
  | duplicateOperation (name : String)
  | unknownMethod (name : String)
  | descriptor (fault : Pool.Fault)
  | decode (refusal : Wire.Refusal)
  | parameter (fault : ParameterFault)
  | io (fault : FileTree.Fault)
  | json (fault : Json.Fault)
  deriving DecidableEq, Repr

namespace Error

def message : Error → String
  | duplicateExtension base file =>
    base ++ " is being extended more than once in " ++ file ++
      ". A GraphQL schema class should not be extended more than once."
  | extensionSyntax file line => "Invalid Python in " ++ file ++ " near line " ++ toString line
  | extensionParser reason => "Python parser error: " ++ reason
  | unsupportedFieldType field raw =>
    "Unsupported protobuf type " ++ toString raw ++ " on field " ++ field
  | incomplete referenced referrer category =>
    referenced ++ " is referenced by " ++ referrer ++ " but is not part of the " ++
      category.text ++ " set"
  | duplicateOperation name => "Operation " ++ name ++ " is generated by more than one method"
  | unknownMethod name => "Unknown method: " ++ name
  | descriptor fault => "Descriptor error: " ++ fault.message
  | decode refusal => "Decode error: " ++ refusal.message
  | parameter fault => "Invalid configuration: " ++ fault.message
  | io fault => "IO error: " ++ fault.message
  | json fault => "Serialization error: " ++ fault.message

/-- A short word for the kind of error, for programs to read. -/
def code : Error → String
  | duplicateExtension .. => "DUPLICATE_EXTENSION"
  | extensionSyntax .. => "EXTENSION_SYNTAX"
  | extensionParser .. => "EXTENSION_PARSER"
  | unsupportedFieldType .. => "UNSUPPORTED_FIELD_TYPE"
  | incomplete .. => "INCOMPLETE_STATE"
  | duplicateOperation .. => "DUPLICATE_OPERATION"
  | unknownMethod .. => "UNKNOWN_METHOD"
  | descriptor .. => "DESCRIPTOR_ERROR"
  | decode .. => "DECODE_ERROR"
  | parameter .. => "CONFIG_ERROR"
  | io .. => "IO_ERROR"
  | json .. => "SERIALIZATION_ERROR"

/-- Whether the settings or the extension file are at fault, and not the
descriptors. -/
def isConfigurationError : Error → Bool
  | duplicateExtension .. => true
  | extensionSyntax .. => true
  | parameter .. => true
  | json .. => true
  | _ => false

end Error

/-- The outcome of a step that may fail. -/
abbrev Result := Except Error

end ProtoSchema
