import ProtoSchema.Error
import ProtoSchema.Extension.Parse
import ProtoSchema.Schema.Type

/-!
# Overrides

A class of the extension file that has a generated class as a bare base
stands in for it wherever the generated class is referred to. Overrides are a
single level: the class that stands in is never looked up again. A generated
class may have only one.
-/

namespace ProtoSchema

open ProtoSchema.Extension (ClassDeclaration)
open ProtoSchema.Schema (Reference)

mutual

/-- The bare bases of a class and of the classes inside it, each with the
class that lists it: the class's own bases first. -/
def Extension.ClassDeclaration.extensions : ClassDeclaration → List (String × String)
  | ⟨name, bases, line, nested⟩ =>
    (ClassDeclaration.mk name bases line nested).simpleBases.map (·, name) ++
      Extension.extensionsOf nested

def Extension.extensionsOf : List ClassDeclaration → List (String × String)
  | [] => []
  | d :: rest => d.extensions ++ Extension.extensionsOf rest

end

/-- The classes that stand in for generated ones. -/
structure Overrides where
  /-- The name that the extension module is imported as. -/
  module : String
  /-- Generated classes with those that stand in for them. -/
  entries : List (String × String) := []
  deriving DecidableEq, Repr

namespace Overrides

def empty (module : String) : Overrides :=
  { module }

/-- The class that stands in for `name`. -/
def find? (o : Overrides) (name : String) : Option String :=
  o.entries.lookup name

/-- Adds the extension of a base, which must not have one. -/
def add (file : String) (o : Overrides) (extension : String × String) : Result Overrides :=
  match o.find? extension.1 with
  | some _ => .error (.duplicateExtension extension.1 file)
  | none => .ok { o with entries := o.entries ++ [extension] }

def ofDeclarations (file module : String) (ds : List ClassDeclaration) : Result Overrides :=
  (Extension.extensionsOf ds).foldlM (add file) (empty module)

/-- The class declarations of a source; `file` is its name in errors. -/
def declarations (text file : String) : Result (List ClassDeclaration) :=
  (Extension.parse text).mapError (.extensionSyntax file)

def ofSource (text file module : String) : Result Overrides := do
  let ds ← declarations text file
  ofDeclarations file module ds

def load (files : FileTree) (path module : String) : Result Overrides := do
  let text ← (files.readText path).mapError .io
  ofSource text path module

/-- The class to use for `name`. -/
def resolve (o : Overrides) (name : String) : String :=
  (o.find? name).getD name

/-- The reference to use for the generated class `name`. -/
def reference (o : Overrides) (name : String) : Reference :=
  match o.find? name with
  | some other => .extension o.module other
  | none => .generated name

def size (o : Overrides) : Nat :=
  o.entries.length

end Overrides

end ProtoSchema
