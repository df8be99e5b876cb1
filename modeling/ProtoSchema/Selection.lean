import ProtoSchema.Error
import ProtoSchema.Pool.Basic

/-!
# Selections

A selection says which parts of a pool are emitted, and in which role: enums,
messages as object types, messages as input types, methods as queries and as
mutations. Each is a list without repetitions, in the order of insertion.

A selection that is computed from methods takes in everything that their
messages reach. The walk goes breadth first and ends even on cyclic graphs,
because every round either settles a message for good or shortens the queue.
-/

namespace ProtoSchema

/-- The role of an emitted message. -/
inductive Role where
  | object
  | input
  deriving DecidableEq, Repr

/-- The class name of a message in a role. -/
def Role.typeName : Role → String → String
  | object, fullName => Naming.typeName fullName
  | input, fullName => Naming.inputTypeName fullName

def Role.category : Role → Category
  | object => .type
  | input => .input

/-- The list with an element added at its end, unless it is there. -/
def addNew {α : Type} [DecidableEq α] (l : List α) (a : α) : List α :=
  if a ∈ l then l else l ++ [a]

/-- The parts of a pool that are emitted. -/
structure Selection (p : Pool) where
  enums : List (Fin p.e) := []
  types : List (Fin p.m) := []
  inputs : List (Fin p.m) := []
  queries : List (Pool.Method p.m) := []
  mutations : List (Pool.Method p.m) := []
  deriving DecidableEq

namespace Selection

variable {p : Pool}

def addEnum (s : Selection p) (i : Fin p.e) : Selection p :=
  { s with enums := addNew s.enums i }

def addType (s : Selection p) (i : Fin p.m) : Selection p :=
  { s with types := addNew s.types i }

def addInput (s : Selection p) (i : Fin p.m) : Selection p :=
  { s with inputs := addNew s.inputs i }

def addQuery (s : Selection p) (m : Pool.Method p.m) : Selection p :=
  { s with queries := addNew s.queries m }

def addMutation (s : Selection p) (m : Pool.Method p.m) : Selection p :=
  { s with mutations := addNew s.mutations m }

def messages (s : Selection p) : Role → List (Fin p.m)
  | .object => s.types
  | .input => s.inputs

def addMessage (s : Selection p) : Role → Fin p.m → Selection p
  | .object, i => s.addType i
  | .input, i => s.addInput i

def methods (s : Selection p) : List (Pool.Method p.m) :=
  s.queries ++ s.mutations

end Selection

/-- An element for one of the lists of a selection. -/
inductive Insertion (p : Pool) where
  | enum (index : Fin p.e)
  | type (index : Fin p.m)
  | input (index : Fin p.m)
  | query (method : Pool.Method p.m)
  | mutation (method : Pool.Method p.m)
  deriving DecidableEq

/-- Adds an element to its list and tells whether it was new there. -/
def Selection.insert {p : Pool} (s : Selection p) : Insertion p → Bool × Selection p
  | .enum i => (i ∉ s.enums, s.addEnum i)
  | .type i => (i ∉ s.types, s.addType i)
  | .input i => (i ∉ s.inputs, s.addInput i)
  | .query m => (m ∉ s.queries, s.addQuery m)
  | .mutation m => (m ∉ s.mutations, s.addMutation m)

/-! ## Closure -/

namespace Pool

/-- The messages that the fields of a message hold, in the order of the
fields. -/
def successors (p : Pool) (i : Fin p.m) : List (Fin p.m) :=
  (p.message i).fields.filterMap fun f =>
    match f.kind with
    | .message j => some j
    | _ => none

/-- The enums that the fields of a message hold, in the order of the
fields. -/
def fieldEnums (p : Pool) (i : Fin p.m) : List (Fin p.e) :=
  (p.message i).fields.filterMap fun f =>
    match f.kind with
    | .enum j => some j
    | _ => none

end Pool

/-- How many indices are not in a list. -/
def missing {n : Nat} (l : List (Fin n)) : Nat :=
  ((List.finRange n).filter (· ∉ l)).length

theorem filter_notMem_append {α : Type} [DecidableEq α] (l seen : List α) (a : α) :
    (l.filter (· ∉ seen ++ [a])) = (l.filter (· ∉ seen)).filter (· ≠ a) := by
  rw [List.filter_filter]
  congr 1
  funext x
  by_cases h : x ∈ seen <;> by_cases h' : x = a <;> simp [h, h']

/-- A new element makes one less missing. -/
theorem missing_append_lt {n : Nat} (l : List (Fin n)) (i : Fin n) (h : i ∉ l) :
    missing (l ++ [i]) < missing l := by
  rw [missing, missing, filter_notMem_append]
  apply List.length_filter_lt_length_iff_exists.2
  exact ⟨i, by simp [h], by simp⟩

namespace Selection

variable {p : Pool}

/-- Adds a message in a role with the enums of its fields. -/
def settle (s : Selection p) (role : Role) (i : Fin p.m) : Selection p :=
  (p.fieldEnums i).foldl addEnum (s.addMessage role i)

@[simp]
theorem messages_addEnum (s : Selection p) (role : Role) (j : Fin p.e) :
    (s.addEnum j).messages role = s.messages role := by
  cases role <;> rfl

@[simp]
theorem messages_foldl_addEnum (s : Selection p) (role : Role) (js : List (Fin p.e)) :
    (js.foldl addEnum s).messages role = s.messages role := by
  induction js generalizing s with
  | nil => rfl
  | cons j js ih => simp [ih]

/-- Settling a new message puts it at the end of its role. -/
theorem messages_settle (s : Selection p) (role : Role) (i : Fin p.m) (h : i ∉ s.messages role) :
    (s.settle role i).messages role = s.messages role ++ [i] := by
  rw [settle, messages_foldl_addEnum]
  cases role
  · exact if_neg h
  · exact if_neg h

/-- Walks breadth first over what the queued messages reach, settling each
message that is new in the role. -/
def visit (role : Role) (s : Selection p) (queue : List (Fin p.m)) : Selection p :=
  match queue with
  | [] => s
  | i :: rest =>
    if h : i ∈ s.messages role then visit role s rest
    else
      have := messages_settle s role i h
      have := missing_append_lt (s.messages role) i h
      visit role (s.settle role i) (rest ++ p.successors i)
termination_by (missing (s.messages role), queue.length)
decreasing_by
  · exact Prod.Lex.right _ (Nat.lt_succ_self _)
  · exact Prod.Lex.left _ _ (by simp_all)

/-- Adds a message in a role with everything that it reaches. -/
def close (s : Selection p) (role : Role) (root : Fin p.m) : Selection p :=
  s.visit role [root]

/-- Adds what a method needs: its output as an object type, its input as an
input type. -/
def closeMethod (s : Selection p) (m : Pool.Method p.m) : Selection p :=
  (s.close .object m.output).close .input m.input

/-- The complete selection of the given methods. -/
def ofOperations (queries mutations : List (Pool.Method p.m)) : Selection p :=
  let s := mutations.foldl addMutation (queries.foldl addQuery {})
  s.methods.foldl closeMethod s

end Selection

/-! ## Validation

References are looked up by full name, because names are all that the
generated text has of them. -/

namespace Selection

variable {p : Pool}

def enumNames (s : Selection p) : List String :=
  s.enums.map fun j => (p.enum j).fullName

/-- The full names of the messages in a role. -/
def messageNames (s : Selection p) (role : Role) : List String :=
  (s.messages role).map fun i => (p.message i).fullName

/-- What the fields of a message refer to and the selection does not have. -/
def fieldFaults (s : Selection p) (role : Role) (i : Fin p.m) : List Error :=
  let owner := role.typeName (p.message i).fullName
  (p.message i).fields.filterMap fun f =>
    match f.kind with
    | .enum j =>
      if (p.enum j).fullName ∈ s.enumNames then none
      else some (.incomplete (Naming.typeName (p.enum j).fullName) owner .enum)
    | .message j =>
      if (p.message j).fullName ∈ s.messageNames role then none
      else some (.incomplete (role.typeName (p.message j).fullName) owner role.category)
    | .scalar _ => none

/-- What a method refers to and the selection does not have in a role. -/
def messageFaults (s : Selection p) (role : Role) (operation : String) (i : Fin p.m) :
    List Error :=
  if (p.message i).fullName ∈ s.messageNames role then []
  else [.incomplete (role.typeName (p.message i).fullName) operation role.category]

/-- The faults of methods whose operation names come after those in
`seen`. -/
def methodFaults (s : Selection p) (seen : List String) :
    List (Pool.Method p.m) → List Error
  | [] => []
  | m :: rest =>
    s.messageFaults .object m.operation m.output ++
    s.messageFaults .input m.operation m.input ++
    (if m.operation ∈ seen then [.duplicateOperation m.operation] else []) ++
    s.methodFaults (m.operation :: seen) rest

/-- Everything that is wrong with a selection, in the order in which it is
looked for: the fields of types, the fields of inputs, the operations. -/
def faults (s : Selection p) : List Error :=
  s.types.flatMap (s.fieldFaults .object) ++
  s.inputs.flatMap (s.fieldFaults .input) ++
  s.methodFaults [] s.methods

/-- Succeeds if every reference is to something emitted and no two operations
share a name; otherwise the first fault is the error. -/
def validate (s : Selection p) : Result Unit :=
  match s.faults with
  | [] => .ok ()
  | e :: _ => .error e

end Selection

end ProtoSchema
