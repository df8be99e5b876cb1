import ProtoSchema.Descriptor.FieldType
import ProtoSchema.Naming
import ProtoSchema.Pool.Item

/-!
# Descriptor pools

A pool holds messages, enums and services in which every name has been
resolved. A reference to a message is an index below the number of messages,
and likewise for enums, so a pool has no dangling references by its type;
message graphs may still be cyclic.
-/

namespace ProtoSchema.Pool

open ProtoSchema.Descriptor (FieldType)

/-- What a field holds, in a pool of `m` messages and `e` enums. -/
inductive Kind (m e : Nat) where
  | scalar (type : FieldType)
  | message (index : Fin m)
  | enum (index : Fin e)
  deriving DecidableEq, Repr

/-- A field of a message. The written type number is kept, since it may be
unknown or disagree with the kind. -/
structure Field (m e : Nat) where
  name : String
  fullName : String
  rawType : Option Int
  kind : Kind m e
  isRepeated : Bool
  deriving DecidableEq, Repr

/-- A message with its fields in the order of their numbers. -/
structure Message (m e : Nat) where
  fullName : String
  package : String
  file : String
  fields : List (Field m e)
  deriving DecidableEq, Repr

/-- An enum with the names of its values in the order of their numbers. -/
structure Enum where
  fullName : String
  values : List String
  deriving DecidableEq, Repr

/-- A method together with what is needed of its service. -/
structure Method (m : Nat) where
  name : String
  service : String
  package : String
  file : String
  input : Fin m
  output : Fin m
  deriving DecidableEq, Repr

/-- A service with its methods in the order of their declaration. -/
structure Service (m : Nat) where
  fullName : String
  methods : List (Method m)
  deriving DecidableEq, Repr

end Pool

/-- A set of descriptors that are complete among themselves. -/
structure Pool where
  /-- The number of messages. -/
  m : Nat
  /-- The number of enums. -/
  e : Nat
  messages : Vector (Pool.Message m e) m
  enums : Vector Pool.Enum e
  services : List (Pool.Service m)
  deriving DecidableEq

namespace Pool

def message (p : Pool) (i : Fin p.m) : Message p.m p.e :=
  p.messages[i]

def enum (p : Pool) (i : Fin p.e) : Enum :=
  p.enums[i]

def findMessage? (p : Pool) (fullName : String) : Option (Fin p.m) :=
  (List.finRange p.m).find? fun i => (p.message i).fullName = fullName

def findEnum? (p : Pool) (fullName : String) : Option (Fin p.e) :=
  (List.finRange p.e).find? fun i => (p.enum i).fullName = fullName

def findService? (p : Pool) (fullName : String) : Option (Service p.m) :=
  p.services.find? (·.fullName = fullName)

/-- The method named by the full name of its service, a dot and its own
name; dots in front are ignored. -/
def findMethod? (p : Pool) (name : String) : Option (Method p.m) := do
  let bare := String.ofList (name.toList.dropWhile (· = '.'))
  let (service, method) ← Text.cutLast? '.' bare
  let s ← p.findService? service
  s.methods.find? (·.name = method)

namespace Method

variable {m : Nat}

/-- The name of the service and the method's own, with a dot in between if
the first is not empty. -/
def fullName (method : Method m) : String :=
  qualify method.service method.name

/-- The name of the field that the method becomes. -/
def operation (method : Method m) : String :=
  Naming.operationName method.package method.name

end Method

/-- The module of a file: its path without `.proto`, with dots for
separators. -/
def moduleOfFile (file : String) : String :=
  let path := file.toList
  let stem := (Text.dropStop? ".proto".toList path).getD path
  String.ofList (stem.map fun c => if c = '/' ∨ c = '\\' then '.' else c) ++ "_pb2"

/-- The module of the file that declares the method's service. -/
def Method.protoModule {m : Nat} (method : Method m) : String :=
  moduleOfFile method.file

/-- The path of a message inside the module of its file: its full name
without its package. -/
def Message.path {m e : Nat} (message : Message m e) : String :=
  if message.package.isEmpty then message.fullName
  else
    match Text.dropStart? (message.package.toList ++ ['.']) message.fullName.toList with
    | some rest => String.ofList rest
    | none => message.fullName

def requestClass (p : Pool) (method : Method p.m) : String :=
  (p.message method.input).path

end Pool

end ProtoSchema
