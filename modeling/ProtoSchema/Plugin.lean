import ProtoSchema.Generate

/-!
# The plugin protocol

The protobuf compiler hands a plugin a serialized request and takes a
serialized response, with the generated file or with the text of the error
that stopped the run.

The descriptor files of a request are kept as bytes. They are put together
into a descriptor set, which is what a pool is made from.
-/

namespace ProtoSchema

open ProtoSchema.Wire

/-- A descriptor set whose files are kept as bytes. -/
structure FileSet where
  files : List Bytes := []
  deriving DecidableEq, Repr

namespace FileSet

def encode (s : FileSet) : Bytes :=
  s.files.flatMap (writePayload 1)

def layout : Layout FileSet where
  name := "RawFileDescriptorSet"
  field? n := if n = 1 then some "file" else none
  put s _ payload := .ok { files := s.files ++ [payload] }

def decode (input : Bytes) : Except Refusal FileSet :=
  layout.decode {} input

end FileSet

def Pool.ofFileBytes (files : List Bytes) : Result Pool :=
  Pool.load (FileSet.encode { files })

namespace Plugin

/-- A field for a text, unless there is none. -/
def writeTextField (number : Nat) (text : Option String) : Bytes :=
  text.elim [] fun s => writePayload number (writeText s)

/-- What the compiler asks for. -/
structure Request where
  filesToGenerate : List String := []
  parameter : Option String := none
  protoFiles : List Bytes := []
  deriving DecidableEq, Repr

namespace Request

def encode (r : Request) : Bytes :=
  r.filesToGenerate.flatMap (fun s => writePayload 1 (writeText s)) ++
  writeTextField 2 r.parameter ++
  r.protoFiles.flatMap (writePayload 15)

def fieldName? : Nat → Option String
  | 1 => some "file_to_generate"
  | 2 => some "parameter"
  | 15 => some "proto_file"
  | _ => none

def put (r : Request) (number : Nat) (payload : Bytes) : Except Fault Request := do
  match number with
  | 1 =>
    let s ← readText payload
    return { r with filesToGenerate := r.filesToGenerate ++ [s] }
  | 2 =>
    let s ← readText payload
    return { r with parameter := some s }
  | _ => return { r with protoFiles := r.protoFiles ++ [payload] }

def layout : Layout Request where
  name := "RawCodeGeneratorRequest"
  field? := fieldName?
  put := put

def decode (input : Bytes) : Except Refusal Request :=
  layout.decode {} input

end Request

/-- A file of an answer, to be made by the compiler or put into one at an
insertion point. -/
structure OutputFile where
  name : Option String := none
  insertionPoint : Option String := none
  content : Option String := none
  deriving DecidableEq, Repr

namespace OutputFile

def encode (file : OutputFile) : Bytes :=
  writeTextField 1 file.name ++ writeTextField 2 file.insertionPoint ++
  writeTextField 15 file.content

end OutputFile

/-- What the plugin answers. The message has room for an error and files at
once. -/
structure Response where
  error : Option String := none
  files : List OutputFile := []
  deriving DecidableEq, Repr

namespace Response

def encode (r : Response) : Bytes :=
  writeTextField 1 r.error ++ r.files.flatMap fun file => writePayload 15 file.encode

end Response

/-- The files that a request asks for. There is one, whatever files the schema
is made from. -/
def generateFiles (files : FileTree) (r : Request) : Result (List OutputFile) := do
  let config ← Config.withParameters files {} r.parameter
  let pool ← Pool.ofFileBytes r.protoFiles
  let content ← generate files pool config
  return [{ name := some config.outputFile, content := some content }]

def respond (files : FileTree) (input : Bytes) : Response :=
  match (Request.decode input).mapError Error.decode >>= generateFiles files with
  | .ok written => { files := written }
  | .error e => { error := some e.message }

/-- The files that the answer to a request depends on, as far as the given
ones tell: the extension file is only known with the configuration. -/
def sources (files : FileTree) (input : Bytes) : List String :=
  match Request.decode input with
  | .error _ => []
  | .ok r =>
    (match r.parameter.map Config.parameters with
      | some (.ok ps) => (Config.configFile? ps).toList
      | _ => []) ++
      match Config.withParameters files {} r.parameter with
      | .ok c => [c.extensions.getD Config.defaultExtensionFile]
      | .error _ => []

end Plugin

end ProtoSchema
