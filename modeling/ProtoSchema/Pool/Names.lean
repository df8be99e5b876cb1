import ProtoSchema.Pool.Fault
import ProtoSchema.Pool.Item
import ProtoSchema.Text.Split

/-!
# The table of names

Everything that a file declares has a full name, and no two declarations of a
set share one; only packages may be declared again. The table is filled in
the order of the items, and the first clash refuses the set.
-/

namespace ProtoSchema.Pool

/-- What a name stands for. -/
inductive Role where
  | package
  | message
  | enum
  | service
  /-- A field, oneof, enum value, method or extension. -/
  | member
  deriving DecidableEq, Repr

/-- A name with the file that defines it. -/
structure Entry where
  name : String
  role : Role
  file : String
  deriving DecidableEq, Repr

/-- The names defined so far and the files seen so far. -/
structure Names where
  files : List String := []
  entries : List Entry := []

namespace Names

def find? (t : Names) (name : String) : Option Entry :=
  t.entries.find? (·.name = name)

/-- Defines a name; a package may be there already. -/
def define (t : Names) (role : Role) (file name : String) : Except Fault Names :=
  match t.find? name with
  | none => .ok { t with entries := { name, role, file } :: t.entries }
  | some old =>
    if role = .package ∧ old.role = .package then .ok t
    else if old.file = file then .error (.definedTwice name)
    else .error (.alreadyDefined name old.file)

def defineAll (t : Names) (role : Role) (file : String) (names : List String) :
    Except Fault Names :=
  names.foldlM (fun t name => t.define role file name) t

end Names

/-- A package and all packages around it, the outermost first. -/
def packageNames (package : String) : List String :=
  if package.isEmpty then []
  else
    let rec go (before : List Char) : List Char → List String
      | [] => [String.ofList before.reverse]
      | c :: cs =>
        if c = '.' then String.ofList before.reverse :: go (c :: before) cs
        else go (c :: before) cs
    go [] package.toList

/-- A field name without underscores and in small letters. -/
def foldName (name : String) : List Char :=
  (name.toList.filter (· ≠ '_')).map Char.toLower

/-- No two fields of a proto3 message may differ only in case and
underscores. -/
def checkCamelCase (seen : List (List Char × String)) : List String → Except Fault Unit
  | [] => .ok ()
  | name :: rest =>
    match seen.lookup (foldName name) with
    | some first => .error (.camelCaseConflict first name)
    | none => checkCamelCase ((foldName name, name) :: seen) rest

def Names.add (t : Names) : Item → Except Fault Names
  | .file origin _ => do
    if t.files.contains origin.file then throw (.duplicateFile origin.file)
    let t := { t with files := origin.file :: t.files }
    t.defineAll .package origin.file (packageNames origin.package)
  | .message i => do
    let file := i.origin.file
    let t ← t.define .message file i.fullName
    let fields := i.descriptor.fields.map (·.name.getD "")
    if i.origin.isProto3 then checkCamelCase [] fields
    let t ← t.defineAll .member file
      (i.descriptor.oneofs.map fun o => qualify i.fullName (o.getD ""))
    t.defineAll .member file (fields.map (qualify i.fullName))
  | .enum i => do
    let file := i.origin.file
    let t ← t.define .enum file i.fullName
    match i.descriptor.values with
    | [] => throw .emptyEnum
    | first :: _ =>
      if i.origin.isProto3 ∧ first.number.getD 0 ≠ 0 then throw .firstValueNotZero
    t.defineAll .member file (i.descriptor.values.map fun v => qualify i.scope (v.name.getD ""))
  | .service i => do
    let file := i.origin.file
    let t ← t.define .service file i.fullName
    t.defineAll .member file (i.descriptor.methods.map fun m => qualify i.fullName (m.name.getD ""))
  | .extension i => t.define .member i.origin.file i.fullName

def Names.ofItems (items : List Item) : Except Fault Names :=
  items.foldlM Names.add {}

end ProtoSchema.Pool
