import ProtoSchema.Descriptor.Basic

/-!
# Items of descriptor files

Descriptor files are trees: messages hold messages, enums and extensions.
Checking and linking go over the same declarations in the same order, so the
trees are flattened once, each declaration with its full name, its file and
its place in the file's descriptor.
-/

namespace ProtoSchema.Pool

open ProtoSchema

/-- The file that an item comes from. -/
structure Origin where
  file : String
  package : String
  isProto3 : Bool
  deriving DecidableEq, Repr

/-- Joins a scope and a name; the outermost scope is empty. -/
def qualify (scope name : String) : String :=
  if scope.isEmpty then name else scope ++ "." ++ name

theorem qualify_empty (name : String) : qualify "" name = name :=
  if_pos rfl

theorem qualify_of_ne_empty {scope : String} (h : scope ≠ "") (name : String) :
    qualify scope name = scope ++ "." ++ name := by
  have hempty : ¬ scope.isEmpty := fun he => h (String.isEmpty_iff.mp he)
  rw [qualify, if_neg hempty]

/-- A declared message without what is declared inside it. -/
structure MessageItem where
  origin : Origin
  fullName : String
  path : List Nat
  descriptor : Descriptor.Message

/-- A declared enum; its values belong to the scope around it. -/
structure EnumItem where
  origin : Origin
  scope : String
  fullName : String
  descriptor : Descriptor.Enum

/-- A declared service. -/
structure ServiceItem where
  origin : Origin
  fullName : String
  descriptor : Descriptor.Service

/-- A declared extension. -/
structure ExtensionItem where
  origin : Origin
  fullName : String
  path : List Nat
  descriptor : Descriptor.Field

/-- One declaration of a file, or the file itself. -/
inductive Item where
  | file (origin : Origin) (descriptor : Descriptor.File)
  | message (item : MessageItem)
  | enum (item : EnumItem)
  | service (item : ServiceItem)
  | extension (item : ExtensionItem)

namespace Item

def message? : Item → Option MessageItem
  | message i => some i
  | _ => none

def enum? : Item → Option EnumItem
  | enum i => some i
  | _ => none

def service? : Item → Option ServiceItem
  | service i => some i
  | _ => none

end Item

def enumItems (origin : Origin) (scope : String) (enums : List Descriptor.Enum) : List Item :=
  enums.map fun d =>
    .enum { origin, scope, fullName := qualify scope (d.name.getD ""), descriptor := d }

/-- The extensions of a scope, in the descriptor field `tag` of `path`. -/
def extensionItems (origin : Origin) (scope : String) (path : List Nat) (tag : Nat)
    (extensions : List Descriptor.Field) : List Item :=
  extensions.zipIdx.map fun (d, i) =>
    .extension { origin, fullName := qualify scope (d.name.getD ""), path := path ++ [tag, i],
                 descriptor := d }

mutual

/-- A message, the messages inside it, and its enums and extensions. -/
def messageItems (origin : Origin) (scope : String) (path : List Nat) :
    Descriptor.Message → List Item
  | ⟨name, fields, nested, enums, extensions, oneofs, ranges, reserved, mapEntry⟩ =>
    let fullName := qualify scope (name.getD "")
    .message { origin, fullName, path,
               descriptor := ⟨name, fields, [], [], [], oneofs, ranges, reserved, mapEntry⟩ } ::
      (messageListItems origin fullName path 3 0 nested ++ enumItems origin fullName enums ++
       extensionItems origin fullName path 6 extensions)

/-- Messages side by side, the first of them at position `i`. -/
def messageListItems (origin : Origin) (scope : String) (path : List Nat) (tag i : Nat) :
    List Descriptor.Message → List Item
  | [] => []
  | d :: rest =>
    messageItems origin scope (path ++ [tag, i]) d ++
    messageListItems origin scope path tag (i + 1) rest

end

/-- All items of a file: the file, its messages, enums, services and
extensions. -/
def fileItems (d : Descriptor.File) : List Item :=
  let package := d.package.getD ""
  let origin : Origin := { file := d.name.getD "", package, isProto3 := d.isProto3 }
  .file origin d ::
    (messageListItems origin package [] 4 0 d.messages ++
     enumItems origin package d.enums ++
     d.services.map (fun s =>
       .service { origin, fullName := qualify package (s.name.getD ""), descriptor := s }) ++
     extensionItems origin package [] 7 d.extensions)

end ProtoSchema.Pool
