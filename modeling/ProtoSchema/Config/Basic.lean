import ProtoSchema.Error
import ProtoSchema.Json.Record
import ProtoSchema.Json.Value
import ProtoSchema.Schema.Document

/-!
# Configuration

The settings of a run, and their JSON form. Every setting has a default, so
the empty object is a configuration; settings that are not known are ignored.
-/

namespace ProtoSchema

open ProtoSchema.Schema (Modules)

/-- The settings of a run. -/
structure Config where
  /-- The extension file; when it is not set, the default one is used if it
  exists. -/
  extensions : Option String := none
  /-- The methods that become queries, by their full names. -/
  queries : List String := []
  /-- The methods that become mutations, by their full names. -/
  mutations : List String := []
  modules : Modules := {}
  /-- Whether incomplete selections are refused. -/
  validate : Bool := true
  /-- The name of the generated file. -/
  output : Option String := none
  deriving DecidableEq, Repr

namespace Config

/-- The extension file that is used when none is set. -/
def defaultExtensionFile : String := "server/graphql/graphql_schema_extensions.py"

/-- The name of the generated file when none is set. -/
def defaultOutputFile : String := "schema.py"

def outputFile (c : Config) : String :=
  c.output.getD defaultOutputFile

/-- The extension file to read: a file that is set has to exist, the default
one is only used if it does. -/
def extensionFile? (c : Config) (files : FileTree) : Option String :=
  match c.extensions with
  | some path => some path
  | none => if files.contains defaultExtensionFile then some defaultExtensionFile else none

/-! ## JSON form -/

def textMember {σ : Type} (key : String) (set : String → σ → σ) : Json.Member σ :=
  { key, read := (Json.Reader.text "a string").map set }

def modulesLayout : Json.Layout Modules where
  expected := "struct PythonModules"
  members :=
    [textMember "proto" fun s m => { m with proto := s },
     textMember "handlers" fun s m => { m with handlers := s },
     textMember "extensions" fun s m => { m with extensions := s },
     textMember "scalars" fun s m => { m with scalars := s },
     textMember "parse_dict" fun s m => { m with parseDict := s }]
  initial := {}

def texts : Json.Reader (List String) :=
  (Json.Reader.text "a string").list

def layout : Json.Layout Config where
  expected := "struct CodegenConfig"
  members :=
    [{ key := "extensions"
       read := (Json.Reader.text "path string").optional.map fun x c =>
         { c with extensions := x } },
     { key := "queries", read := texts.map fun x c => { c with queries := x } },
     { key := "mutations", read := texts.map fun x c => { c with mutations := x } },
     { key := "modules", read := modulesLayout.reader.map fun x c => { c with modules := x } },
     { key := "validate", read := Json.Reader.flag.map fun x c => { c with validate := x } },
     { key := "output"
       read := (Json.Reader.text "a string").optional.map fun x c => { c with output := x } }]
  initial := {}

def ofJson (text : String) : Result Config :=
  (Json.readAll layout.reader text).mapError .json

def ofFile (files : FileTree) (path : String) : Result Config := do
  let text ← (files.readText path).mapError .io
  ofJson text

/-- A string, or null. -/
def optionalText : Option String → Json.Value
  | none => .null
  | some s => .string s

def modulesToJson (m : Modules) : Json.Value :=
  .object
    [("proto", .string m.proto), ("handlers", .string m.handlers),
     ("extensions", .string m.extensions), ("scalars", .string m.scalars),
     ("parse_dict", .string m.parseDict)]

def toJson (c : Config) : Json.Value :=
  .object
    [("extensions", optionalText c.extensions),
     ("queries", .array (c.queries.map .string)),
     ("mutations", .array (c.mutations.map .string)),
     ("modules", modulesToJson c.modules),
     ("validate", .bool c.validate),
     ("output", optionalText c.output)]

end Config

end ProtoSchema
