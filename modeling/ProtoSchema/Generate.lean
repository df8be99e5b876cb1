import ProtoSchema.Config.Parameters
import ProtoSchema.Pool.Link
import ProtoSchema.Synthesis

/-!
# Generation

From a pool and a configuration to the text of a schema. The extension file
is the only file that is read, and it is read before anything else.
-/

namespace ProtoSchema

def Pool.findMethod (p : Pool) (name : String) : Result (Pool.Method p.m) :=
  match p.findMethod? name with
  | some m => .ok m
  | none => .error (.unknownMethod name)

/-- The complete selection of methods given by their names; queries are looked
up first. -/
def Selection.ofNames (p : Pool) (queries mutations : List String) : Result (Selection p) := do
  let queries ← queries.mapM p.findMethod
  let mutations ← mutations.mapM p.findMethod
  return Selection.ofOperations queries mutations

/-- The overrides that a configuration asks for. -/
def Config.loadOverrides (c : Config) (files : FileTree) : Result Overrides :=
  match c.extensionFile? files with
  | some path => Overrides.load files path c.modules.extensionsName
  | none => .ok (Overrides.empty c.modules.extensionsName)

/-- The text of a selection, validated first if the configuration says so. -/
def Selection.generate {p : Pool} (s : Selection p) (o : Overrides) (c : Config) :
    Result String := do
  if c.validate then s.validate
  s.synthesize o c.modules

/-- The text of the schema that a configuration asks for. -/
def generate (files : FileTree) (p : Pool) (c : Config) : Result String := do
  let o ← c.loadOverrides files
  let s ← Selection.ofNames p c.queries c.mutations
  s.generate o c

def Pool.load (input : Wire.Bytes) : Result Pool :=
  (Pool.ofBytes input).mapError .descriptor

/-- The pool of a descriptor set in a file. -/
def Pool.loadFile (files : FileTree) (path : String) : Result Pool := do
  let input ← (files.read path).mapError .io
  Pool.load input

end ProtoSchema
