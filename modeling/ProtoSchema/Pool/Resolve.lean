import ProtoSchema.Pool.Names

/-!
# Resolving names

A name with a leading dot is absolute. Any other name is tried in every scope
around the place where it is written, the innermost first. A simple name goes
on outwards until something usable is found. Of a dotted name the first
component decides: the innermost scope that has it is the only one where the
rest is looked for.

A file sees its own declarations, those of the files it imports, and those of
the files that these import publicly.
-/

namespace ProtoSchema.Pool

/-- What a reference may name. -/
inductive Wanted where
  | type
  | message
  deriving DecidableEq, Repr

/-- Whether a declaration can be referred to as wanted. -/
def Wanted.accepts : Wanted → Role → Bool
  | _, .message => true
  | .type, .enum => true
  | _, _ => false

/-- The fault of a name that stands for something else. -/
def Wanted.mismatch (w : Wanted) (name : String) : Fault :=
  match w with
  | .type => .notMessageOrEnum name
  | .message => .notMessage name

/-- The names of a set as one of its files sees them. -/
structure View where
  names : Names
  /-- The files whose declarations are seen. -/
  visible : List String

namespace View

/-- The declaration of a full name, if it is seen and wanted. -/
def lookup (v : View) (w : Wanted) (name : String) : Except Fault Entry :=
  match v.names.find? name with
  | none => .error (.undefined name)
  | some entry =>
    if !v.visible.contains entry.file then .error (.undefined name)
    else if !w.accepts entry.role then .error (w.mismatch name)
    else .ok entry

/-- Whether a full name is a declaration that others may be inside, seen or
not. -/
def isScope (v : View) (name : String) : Bool :=
  (v.names.find? name).any (·.role != .member)

/-- The scope itself and the scopes around it, the innermost first and the
empty one last. -/
def scopes (scope : String) : List String :=
  (packageNames scope).reverse ++ [""]

/-- A simple name, looked for in each scope; when there is none, the fault of
the first scope that had something. -/
def simple (v : View) (w : Wanted) (name : String) :
    Option Fault → List String → Except Fault Entry
  | fault, [] => .error (fault.getD (.undefined name))
  | fault, scope :: rest =>
    let candidate := qualify scope name
    match v.lookup w candidate with
    | .ok entry => .ok entry
    | .error reason =>
      let found := (v.names.find? candidate).isSome
      v.simple w name (fault <|> if found then some reason else none) rest

/-- A dotted name, looked for in the innermost scope that has its first
component. -/
def dotted (v : View) (w : Wanted) (first name : String) : List String → Except Fault Entry
  | [] => .error (.undefined name)
  | scope :: rest =>
    if v.isScope (qualify scope first) then
      let resolved := qualify scope name
      if (v.names.find? resolved).isSome then v.lookup w resolved
      else .error (.shadowed name resolved)
    else v.dotted w first name rest

/-- The declaration that `name`, written inside `scope`, refers to. -/
def resolve (v : View) (w : Wanted) (scope name : String) : Except Fault Entry :=
  match name.toList with
  | '.' :: absolute =>
    let full := String.ofList absolute
    if (v.names.find? full).isSome then v.lookup w full else .error (.undefined name)
  | chars =>
    if scope.isEmpty then v.lookup w name
    else match Text.splitFirst? '.' chars with
      | none => v.simple w name none (scopes scope)
      | some (first, _) => v.dotted w (String.ofList first) name (scopes scope)

end View

end ProtoSchema.Pool
