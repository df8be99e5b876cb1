/-!
# Faults of descriptors

The causes for which a set of descriptor files makes no pool, and how each is
told to the user.
-/

namespace ProtoSchema.Pool

/-- Why descriptor files make no pool. -/
inductive Fault where
  | undecodable
  | duplicateFile (name : String)
  | definedTwice (name : String)
  | alreadyDefined (name file : String)
  | camelCaseConflict (first second : String)
  | emptyEnum
  | firstValueNotZero
  | missingImport (file : String)
  | badImportIndex
  | badFieldNumber (number : Int)
  | inReservedRange (number start last : Int)
  | inExtensionRange (number start last : Int)
  | missingTypeName (path : List Nat)
  | undefined (name : String)
  | shadowed (name resolved : String)
  | notMessageOrEnum (name : String)
  | notMessage (name : String)
  | badDefault (value type : String)
  | badOneofIndex
  | duplicateNumber (number : Int)
  | duplicateJsonName (name : String)
  | notExtensionNumber (message : String) (number : Int)
  | enumInReservedRange (number start last : Int)
  | duplicateEnumNumber (number : Int)
  deriving DecidableEq, Repr

def quoteInt (n : Int) : String :=
  "'" ++ toString n ++ "'"

def quoteRange (start last : Int) : String :=
  "'" ++ toString start ++ " to " ++ toString last ++ "'"

def quote (s : String) : String :=
  "'" ++ s ++ "'"

def Fault.message : Fault → String
  | undecodable => "failed to decode file descriptor set"
  | duplicateFile name => "a different file named " ++ quote name ++ " has already been added"
  | definedTwice name => "name " ++ quote name ++ " is defined twice"
  | alreadyDefined name file =>
    "name " ++ quote name ++ " is already defined in file " ++ quote file
  | camelCaseConflict first second =>
    "camel-case name of field " ++ quote first ++ " conflicts with field " ++ quote second
  | emptyEnum => "enums must have at least one value"
  | firstValueNotZero => "the first value for proto3 enums must be 0"
  | missingImport file => "imported file " ++ quote file ++ " has not been added"
  | badImportIndex => "invalid import index"
  | badFieldNumber number => "invalid field number " ++ quoteInt number
  | inReservedRange number start last =>
    "field number " ++ quoteInt number ++ " conflicts with reserved range " ++
      quoteRange start last
  | inExtensionRange number start last =>
    "field number " ++ quoteInt number ++ " conflicts with extension range " ++
      quoteRange start last
  | missingTypeName path =>
    "missing required field at [" ++ ", ".intercalate (path.map toString) ++ "]"
  | undefined name => "name " ++ quote name ++ " is not defined"
  | shadowed name resolved =>
    quote name ++ " resolves to " ++ quote resolved ++ ", which is not defined"
  | notMessageOrEnum name => quote name ++ " is not a message or enum type"
  | notMessage name => quote name ++ " is not a message type"
  | badDefault value type => "invalid default value " ++ quote value ++ " for type " ++ quote type
  | badOneofIndex => "invalid oneof index"
  | duplicateNumber number => "field number " ++ quoteInt number ++ " is already used"
  | duplicateJsonName name => "a field with JSON name " ++ quote name ++ " is already defined"
  | notExtensionNumber message number =>
    "message " ++ quote message ++ " does not define " ++ quoteInt number ++
      " as an extension number"
  | enumInReservedRange number start last =>
    "enum number " ++ quoteInt number ++ " conflicts with reserved range " ++
      quoteRange start last
  | duplicateEnumNumber number => "enum number " ++ quoteInt number ++ " has already been used"

end ProtoSchema.Pool
