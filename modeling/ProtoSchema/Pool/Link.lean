import ProtoSchema.Descriptor.Decode
import ProtoSchema.Pool.Basic
import ProtoSchema.Pool.Literal
import ProtoSchema.Pool.Resolve

/-!
# Linking

Linking turns declarations into pool entries: numbers are checked, type names
become indices, fields and enum values are put into the order of their
numbers. A set is linked in the order of its items and refused at its first
fault.
-/

namespace ProtoSchema.Pool

open ProtoSchema.Descriptor (FieldType)

/-- The messages and enums of a set, whose positions are the indices of the
pool. -/
structure Declared where
  messages : List MessageItem
  enums : List EnumItem

namespace Declared

/-- The number of messages. -/
abbrev m (d : Declared) : Nat := d.messages.length

/-- The number of enums. -/
abbrev e (d : Declared) : Nat := d.enums.length

def messageIndex? (d : Declared) (name : String) : Option (Fin d.m) :=
  d.messages.findFinIdx? (·.fullName = name)

def enumIndex? (d : Declared) (name : String) : Option (Fin d.e) :=
  d.enums.findFinIdx? (·.fullName = name)

/-- The message that `name`, written inside `scope`, refers to. -/
def resolveMessage (d : Declared) (v : View) (scope name : String) : Except Fault (Fin d.m) := do
  let entry ← v.resolve .message scope name
  match d.messageIndex? entry.name with
  | some i => return i
  | none => throw (.undefined name)

/-- The type number and the kind of a field at `path`. A name decides the
kind, and the type number follows it, except that a group stays a group. -/
def resolveType (d : Declared) (v : View) (scope : String) (path : List Nat)
    (f : Descriptor.Field) : Except Fault (Option Int × Kind d.m d.e) := do
  let name := f.typeName.getD ""
  if name.isEmpty then
    let type := (f.type.bind FieldType.ofNumber?).getD .double
    if type.isNamed then throw (.missingTypeName (path ++ [6]))
    return (f.type, .scalar type)
  else
    let entry ← v.resolve .type scope name
    let raw (type : FieldType) : Option Int :=
      some (if f.type = some FieldType.group.number then FieldType.group.number else type.number)
    match d.messageIndex? entry.name with
    | some i => return (raw .message, .message i)
    | none =>
      match d.enumIndex? entry.name with
      | some i => return (raw .enum, .enum i)
      | none => throw (.undefined name)

/-- A default has to denote a value of the field's kind. -/
def checkDefault (d : Declared) (kind : Kind d.m d.e) : Option String → Except Fault Unit
  | none => .ok ()
  | some value =>
    match kind with
    | .scalar type =>
      if isLiteral type value then .ok () else .error (.badDefault value type.text)
    | .message _ => .error (.badDefault value "message type")
    | .enum i =>
      let item := d.enums[i]
      if item.descriptor.values.any (·.name.getD "" = value) then .ok ()
      else .error (.badDefault value item.fullName)

end Declared

def maxFieldNumber : Int := 0x1FFFFFFF

/-- Field numbers are positive, at most the largest one, and not among those
kept for the implementation. -/
def isFieldNumber (n : Int) : Bool :=
  1 ≤ n && n ≤ maxFieldNumber && !(19000 ≤ n && n ≤ 19999)

/-- A field name in camel case, as JSON spells it. -/
def jsonName : List Char → List Char
  | [] => []
  | '_' :: '_' :: rest => jsonName ('_' :: rest)
  | '_' :: c :: rest => c.toUpper :: jsonName rest
  | ['_'] => []
  | c :: rest => c :: jsonName rest

/-- The fields of a message that have been linked, with their numbers and
JSON names. -/
structure Linked (m e : Nat) where
  fields : List (Int × Field m e) := []
  jsonNames : List String := []

/-- Puts an element before the first one whose number is not smaller. -/
def insertByNumber {α : Type} (n : Int) (a : α) : List (Int × α) → List (Int × α)
  | [] => [(n, a)]
  | (k, b) :: rest =>
    if n ≤ k then (n, a) :: (k, b) :: rest else (k, b) :: insertByNumber n a rest

/-- The number of a field has to be one that the message leaves to fields. -/
def checkFieldNumber (message : Descriptor.Message) (number : Int) : Except Fault Unit :=
  if !isFieldNumber number then .error (.badFieldNumber number)
  else
    match message.reserved.find? fun r => r.start ≤ number && number < r.stop with
    | some r => .error (.inReservedRange number r.start (r.stop - 1))
    | none =>
      match message.extensionRanges.find? fun r => r.start ≤ number && number < r.stop with
      | some r => .error (.inExtensionRange number r.start (r.stop - 1))
      | none => .ok ()

/-- The oneof of a field has to be one of the message's. -/
def checkOneof (message : Descriptor.Message) : Option Int → Except Fault Unit
  | none => .ok ()
  | some i =>
    if i < 0 || (message.oneofs.length : Int) ≤ i then .error .badOneofIndex else .ok ()

/-- A field shares neither its number nor its JSON name with an earlier one;
`written` is the JSON name if the descriptor has one. -/
def Linked.checkNew {m e : Nat} (linked : Linked m e) (number : Int) (json : String)
    (written : Option String) : Except Fault Unit :=
  if linked.fields.any (·.1 = number) then .error (.duplicateNumber number)
  else if linked.jsonNames.contains json then .error (.duplicateJsonName (written.getD ""))
  else .ok ()

/-- Links the field at position `j` of a message. -/
def linkField (d : Declared) (v : View) (item : MessageItem) (linked : Linked d.m d.e)
    (f : Descriptor.Field) (j : Nat) : Except Fault (Linked d.m d.e) := do
  let number := f.number.getD 0
  let name := f.name.getD ""
  let fullName := qualify item.fullName name
  let json := f.jsonName.getD (String.ofList (jsonName name.toList))
  checkFieldNumber item.descriptor number
  let type ← d.resolveType v fullName (item.path ++ [2, j]) f
  d.checkDefault type.2 f.defaultValue
  checkOneof item.descriptor f.oneofIndex
  linked.checkNew number json f.jsonName
  let field := { name, fullName, rawType := type.1, kind := type.2, isRepeated := f.label = some 3 }
  return { fields := insertByNumber number field linked.fields
           jsonNames := json :: linked.jsonNames }

def linkMessage (d : Declared) (v : View) (item : MessageItem) :
    Except Fault (Message d.m d.e) := do
  let linked ← item.descriptor.fields.zipIdx.foldlM
    (fun linked (f, j) => linkField d v item linked f j) ({} : Linked d.m d.e)
  return { fullName := item.fullName, package := item.origin.package, file := item.origin.file
           fields := linked.fields.map (·.2) }

def linkEnum (item : EnumItem) : Except Fault Enum := do
  let values ← item.descriptor.values.foldlM (fun (values : List (Int × String)) value => do
    let number := value.number.getD 0
    if let some r := item.descriptor.reserved.find? fun r =>
        r.start ≤ number && number ≤ r.stop then
      throw (.enumInReservedRange number r.start r.stop)
    if item.descriptor.allowAlias != some true && values.any (·.1 = number) then
      throw (.duplicateEnumNumber number)
    return insertByNumber number (value.name.getD "") values) []
  return { fullName := item.fullName, values := values.map (·.2) }

/-- Links a service: of each method the input first, then the output. -/
def linkService (d : Declared) (v : View) (item : ServiceItem) :
    Except Fault (Service d.m) := do
  let methods ← item.descriptor.methods.mapM fun method => do
    let name := method.name.getD ""
    let scope := qualify item.fullName name
    let input ← d.resolveMessage v scope (method.inputType.getD "")
    let output ← d.resolveMessage v scope (method.outputType.getD "")
    return { name, service := item.fullName, package := item.origin.package
             file := item.origin.file, input, output }
  return { fullName := item.fullName, methods }

/-- Checks an extension: its message has to provide for its number. -/
def linkExtension (d : Declared) (v : View) (item : ExtensionItem) : Except Fault Unit := do
  let f := item.descriptor
  let extendee ← d.resolveMessage v item.fullName (f.extendee.getD "")
  let message := d.messages[extendee]
  let number := f.number.getD 0
  if !(message.descriptor.extensionRanges.any fun r => r.start ≤ number && number < r.stop) then
    throw (.notExtensionNumber message.fullName number)
  let (_, kind) ← d.resolveType v item.fullName item.path f
  d.checkDefault kind f.defaultValue

/-- Whether `i` is a position of a list of the given length. -/
def isIndex (length : Nat) (i : Int) : Bool :=
  0 ≤ i && i < length

/-- The imports of a file have to be in the set. -/
def linkImports (names : Names) (file : Descriptor.File) : Except Fault Unit := do
  for dependency in file.dependencies do
    if !names.files.contains dependency then throw (.missingImport dependency)
  if !(file.publicDependencies ++ file.weakDependencies).all (isIndex file.dependencies.length) then
    throw .badImportIndex

def publicImports (file : Descriptor.File) : List String :=
  file.publicDependencies.filterMap fun i => file.dependencies[i.toNat]?

/-- The files whose declarations the file called `name` sees. -/
def visibleFiles (files : List Descriptor.File) (name : String) : List String :=
  match files.find? (·.name.getD "" = name) with
  | none => [name]
  | some file =>
    name :: file.dependencies.flatMap fun dependency =>
      dependency ::
        match files.find? (·.name.getD "" = dependency) with
        | some imported => publicImports imported
        | none => []

/-- The pool of a set of files. All items are linked in their order first, so
that the first fault is the one reported; then the results are collected by
kind. -/
def ofFiles (files : List Descriptor.File) : Except Fault Pool := do
  let items := files.flatMap fileItems
  let names ← Names.ofItems items
  let d : Declared :=
    { messages := items.filterMap Item.message?, enums := items.filterMap Item.enum? }
  let view (origin : Origin) : View := { names, visible := visibleFiles files origin.file }
  for item in items do
    match item with
    | .file _ file => linkImports names file
    | .message i => discard (linkMessage d (view i.origin) i)
    | .enum i => discard (linkEnum i)
    | .service i => discard (linkService d (view i.origin) i)
    | .extension i => linkExtension d (view i.origin) i
  let messages ← (Vector.mk d.messages.toArray rfl).mapM fun i => linkMessage d (view i.origin) i
  let enums ← (Vector.mk d.enums.toArray rfl).mapM linkEnum
  let services ← (items.filterMap Item.service?).mapM fun i => linkService d (view i.origin) i
  return { m := d.m, e := d.e, messages, enums, services }

def ofBytes (input : Wire.Bytes) : Except Fault Pool :=
  match Descriptor.filesOfBytes input with
  | none => .error .undecodable
  | some files => ofFiles files

end ProtoSchema.Pool
