import ProtoSchema.Plugin
import ProtoSchema.Proofs.Substitution

/-!
# The first stage that fails decides the answer

A request goes through eight stages, and each of them has its own reason to
fail. `verdict` asks every stage on its own: it looks at what the stage works
on and at nothing else, so a request with several faults has several
verdicts, and a stage whose input could not be made has none. The answer of
the plugin is the first verdict in the order of the stages, or the file if
there is no verdict at all.

The chain of the program is longer than the list of stages, since some of them
go through lists of names. What the proofs need of it is only which error comes
out: `error?` of a chain is the error of its head, or else that of its tail.
-/

namespace ProtoSchema

variable {ε α β : Type}

/-! ## Errors of chains -/

/-- The error of an outcome, if it is one. -/
def error? : Except ε α → Option ε
  | .error e => some e
  | .ok _ => none

theorem error?_eq_some {x : Except ε α} {e : ε} : error? x = some e ↔ x = .error e := by
  cases x with
  | error e' => simp [error?]
  | ok a => simp [error?]

theorem error?_eq_none {x : Except ε α} : error? x = none ↔ ∃ a, x = .ok a := by
  cases x with
  | error e => simp [error?]
  | ok a => simp [error?]

/-- A tail whose error is the same whatever the head gives. -/
theorem error?_bind_const {x : Except ε α} {f : α → Except ε β} {y : Option ε}
    (h : ∀ a, error? (f a) = y) : error? (x >>= f) = (error? x).or y := by
  cases x with
  | error e => rfl
  | ok a => exact h a

theorem error?_bind_pure (x : Except ε α) (g : α → β) :
    error? (x >>= fun a => pure (g a)) = error? x := by
  cases x with
  | error e => rfl
  | ok a => rfl

theorem error?_map (x : Except ε α) (g : α → β) : error? (x.map g) = error? x := by
  cases x with
  | error e => rfl
  | ok a => rfl

theorem findSome?_cons_or (f : α → Option β) (a : α) (l : List α) :
    (a :: l).findSome? f = (f a).or (l.findSome? f) := by
  rw [List.findSome?_cons]
  cases f a with
  | none => rfl
  | some b => rfl

/-- A list of steps fails with the error of its first step that fails. -/
theorem error?_mapM (f : α → Except ε β) (l : List α) :
    error? (l.mapM f) = l.findSome? fun a => error? (f a) := by
  induction l with
  | nil => rfl
  | cons a l ih =>
      have hrest : ∀ b, error? (l.mapM f >>= fun bs => pure (b :: bs)) =
          l.findSome? fun a => error? (f a) := by
        intro b
        rw [error?_bind_pure, ih]
      rw [List.mapM_cons, findSome?_cons_or, error?_bind_const hrest]

/-- A fold whose steps fail whatever they find fails with the error of its first
step that does. -/
theorem error?_foldlM {f : β → α → Except ε β} {g : α → Option ε}
    (h : ∀ b a, error? (f b a) = g a) (l : List α) (b : β) :
    error? (l.foldlM f b) = l.findSome? g := by
  induction l generalizing b with
  | nil => rfl
  | cons a l ih => rw [List.foldlM_cons, error?_bind_const ih, h, findSome?_cons_or]

namespace Pool

end Pool

namespace Selection

variable {p : Pool}

/-- The error for the first field of a message that has no type expression. -/
def unmappedField? (role : Role) (i : Fin p.m) : Option Error :=
  (p.message i).fields.findSome? fun f => error? (fieldExpr p (Overrides.empty "") role f)

/-- The error for the first field without a type expression, types before
inputs. -/
def unmapped? (s : Selection p) : Option Error :=
  (s.types.findSome? (unmappedField? .object)).or (s.inputs.findSome? (unmappedField? .input))

theorem error?_classDecl (o : Overrides) (role : Role) (i : Fin p.m) :
    error? (classDecl o role i) = unmappedField? role i := by
  have hfield : ∀ f, error? (fieldDecl o role f) =
      error? (fieldExpr p (Overrides.empty "") role f) := by
    intro f
    rw [fieldDecl, error?_bind_pure, fieldExpr_eq_map p o "", error?_map]
  rw [classDecl, error?_bind_pure, error?_mapM, unmappedField?]
  simp only [hfield]

/-- Overrides have no part in the errors of a build. -/
theorem error?_build (s : Selection p) (o : Overrides) (modules : Schema.Modules) :
    error? (s.build o modules) = s.unmapped? := by
  have hclasses : ∀ role (is : List (Fin p.m)),
      error? (is.mapM (classDecl o role)) = is.findSome? (unmappedField? role) := by
    intro role is
    rw [error?_mapM]
    simp only [error?_classDecl]
  rw [build, error?_bind_const, hclasses, unmapped?]
  intro objects
  rw [error?_bind_pure, hclasses]

end Selection

namespace Plugin

open ProtoSchema.Wire (Bytes)

/-! ## Stages -/

inductive Stage where
  | request
  | parameters
  | pool
  | overrides
  | queries
  | mutations
  | validation
  | mapping
  deriving DecidableEq, Repr

/-- The stages in the order in which they are gone through. -/
def Stage.order : List Stage :=
  [request, parameters, pool, overrides, queries, mutations, validation, mapping]

def request? (input : Bytes) : Option Request :=
  (Request.decode input).toOption

/-- The configuration that the parameter of a request denotes. -/
def config? (files : FileTree) (input : Bytes) : Option Config :=
  (request? input).bind fun r => (Config.withParameters files {} r.parameter).toOption

/-- The pool of the descriptors of a request. -/
def pool? (input : Bytes) : Option Pool :=
  (request? input).bind fun r => (Pool.ofFileBytes r.protoFiles).toOption

/-- The chain of all stages. -/
def outcome (files : FileTree) (input : Bytes) : Result (List OutputFile) :=
  (Request.decode input).mapError Error.decode >>= generateFiles files

/-- The file is what the configuration and the descriptors of a request stand
for. -/
def Denotes (files : FileTree) (input : Bytes) (file : OutputFile) : Prop :=
  ∃ c p text, config? files input = some c ∧ pool? input = some p ∧
    generate files p c = .ok text ∧
    file = { name := some c.outputFile, insertionPoint := none, content := some text }

theorem Denotes.unique {files : FileTree} {input : Bytes} {file file' : OutputFile}
    (h : Denotes files input file) (h' : Denotes files input file') : file = file' := by
  obtain ⟨c, p, text, hc, hp, htext, rfl⟩ := h
  obtain ⟨c', p', text', hc', hp', htext', rfl⟩ := h'
  obtain rfl := Option.some.inj (hc.symm.trans hc')
  obtain rfl := Option.some.inj (hp.symm.trans hp')
  rw [Except.ok.inj (htext.symm.trans htext')]

end Plugin

end ProtoSchema
