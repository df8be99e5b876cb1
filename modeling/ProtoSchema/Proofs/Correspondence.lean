import Mathlib.Logic.Relator
import ProtoSchema.Generate
import ProtoSchema.Proofs.Insertion
import ProtoSchema.Proofs.Outcome

/-!
# Generation in lock step

Two pools may number their messages and enums differently and still give the
same text. A `Correspondence` matches messages, enums and methods of one pool
with those of the other, one to one, so that what matches is called the same
and leads to what matches again. It need not match everything.

A walk asks two things of a pool: whether a message is settled already, and
what its fields hold. The first has the same answer on both sides because the
matching is one to one, the second because matching messages have matching
fields. So the two walks make the same rounds, and what they have settled
matches place by place. All that comes after a walk reads names only.
-/

namespace ProtoSchema

open Relator (BiUnique)
open ProtoSchema.Descriptor (FieldType)
open ProtoSchema.Schema (Modules)

/-! ## Lists that match -/

section

variable {α β γ : Type} {R : α → β → Prop} {l : List α} {l' : List β}

theorem map_eq_of_forall₂ {f : α → γ} {g : β → γ} (hfg : ∀ {a b}, R a b → f a = g b)
    (h : List.Forall₂ R l l') : l.map f = l'.map g := by
  induction h with
  | nil => rfl
  | cons hab _ ih => rw [List.map_cons, List.map_cons, hfg hab, ih]

theorem forall₂_of_map_eq {f : α → γ} {g : β → γ} (h : l.map f = l'.map g) :
    List.Forall₂ (fun a b => a ∈ l ∧ f a = g b) l l' := by
  have heq : List.Forall₂ (· = ·) (l.map f) (l'.map g) := by
    rw [List.forall₂_eq_eq_eq]
    exact h
  rw [List.forall₂_map_left_iff, List.forall₂_map_right_iff] at heq
  exact (List.forall₂_and_left l l').mpr ⟨fun _ ha => ha, heq⟩

theorem filterMap_eq_of_forall₂ {f : α → Option γ} {g : β → Option γ}
    (hfg : ∀ {a b}, R a b → f a = g b) (h : List.Forall₂ R l l') :
    l.filterMap f = l'.filterMap g := by
  induction h with
  | nil => rfl
  | cons hab _ ih => rw [List.filterMap_cons, List.filterMap_cons, hfg hab, ih]

theorem flatMap_eq_of_forall₂ {f : α → List γ} {g : β → List γ}
    (hfg : ∀ {a b}, R a b → f a = g b) (h : List.Forall₂ R l l') :
    l.flatMap f = l'.flatMap g := by
  rw [List.flatMap_def, List.flatMap_def]
  exact congrArg List.flatten (map_eq_of_forall₂ hfg h)

theorem mapM_eq_of_forall₂ {ε : Type} {f : α → Except ε γ} {g : β → Except ε γ}
    (hfg : ∀ {a b}, R a b → f a = g b) (h : List.Forall₂ R l l') : l.mapM f = l'.mapM g := by
  induction h with
  | nil => rfl
  | cons hab _ ih => rw [List.mapM_cons, List.mapM_cons, hfg hab, ih]

/-- What is new on one side is new on the other. -/
theorem forall₂_addNew [DecidableEq α] [DecidableEq β] (hR : BiUnique R)
    (h : List.Forall₂ R l l') {a : α} {b : β} (hab : R a b) :
    List.Forall₂ R (addNew l a) (addNew l' b) := by
  have hmem : a ∈ l ↔ b ∈ l' := List.rel_mem hR hab h
  rw [addNew, addNew]
  by_cases ha : a ∈ l
  · rw [if_pos ha, if_pos (hmem.mp ha)]
    exact h
  · rw [if_neg ha, if_neg (mt hmem.mpr ha)]
    exact List.rel_append h (.cons hab .nil)

end

/-! ## Pools that correspond -/

namespace Pool

/-- Two kinds that hold the same scalar, or what the relations match. -/
inductive Kind.Match {m e m' e' : Nat} (R : Fin m → Fin m' → Prop) (E : Fin e → Fin e' → Prop) :
    Kind m e → Kind m' e' → Prop
  | scalar (type : FieldType) : Match R E (.scalar type) (.scalar type)
  | message {i : Fin m} {i' : Fin m'} (h : R i i') : Match R E (.message i) (.message i')
  | enum {j : Fin e} {j' : Fin e'} (h : E j j') : Match R E (.enum j) (.enum j')

/-- Two fields that differ in nothing but the indices in their kinds. -/
structure Field.Match {m e m' e' : Nat} (R : Fin m → Fin m' → Prop) (E : Fin e → Fin e' → Prop)
    (f : Field m e) (f' : Field m' e') : Prop where
  name : f.name = f'.name
  fullName : f.fullName = f'.fullName
  rawType : f.rawType = f'.rawType
  kind : Kind.Match R E f.kind f'.kind
  isRepeated : f.isRepeated = f'.isRepeated

/-- A matching between parts of two pools. -/
structure Correspondence (p p' : Pool) where
  message : Fin p.m → Fin p'.m → Prop
  enum : Fin p.e → Fin p'.e → Prop
  method : Method p.m → Method p'.m → Prop
  biUnique_message : BiUnique message
  biUnique_enum : BiUnique enum
  biUnique_method : BiUnique method
  fullName {i i'} : message i i' → (p.message i).fullName = (p'.message i').fullName
  fields {i i'} : message i i' →
    List.Forall₂ (Field.Match message enum) (p.message i).fields (p'.message i').fields
  enum_eq {j j'} : enum j j' → p.enum j = p'.enum j'
  operation {m m'} : method m m' → m.operation = m'.operation
  resolver {m m'} : method m m' →
    Selection.resolverDecl (p := p) m = Selection.resolverDecl (p := p') m'
  input {m m'} : method m m' → message m.input m'.input
  output {m m'} : method m m' → message m.output m'.output

namespace Correspondence

variable {p p' : Pool} (c : Correspondence p p')

theorem successors {i : Fin p.m} {i' : Fin p'.m} (h : c.message i i') :
    List.Forall₂ c.message (p.successors i) (p'.successors i') := by
  refine List.rel_filterMap (fun f f' hf => ?_) (c.fields h)
  match f.kind, f'.kind, hf.kind with
  | _, _, .scalar _ => exact .none
  | _, _, .message hj => exact .some hj
  | _, _, .enum _ => exact .none

theorem fieldEnums {i : Fin p.m} {i' : Fin p'.m} (h : c.message i i') :
    List.Forall₂ c.enum (p.fieldEnums i) (p'.fieldEnums i') := by
  refine List.rel_filterMap (fun f f' hf => ?_) (c.fields h)
  match f.kind, f'.kind, hf.kind with
  | _, _, .scalar _ => exact .none
  | _, _, .message _ => exact .none
  | _, _, .enum hj => exact .some hj

end Correspondence

end Pool

/-! ## Walks -/

namespace Selection

variable {p p' : Pool} {c : Pool.Correspondence p p'} {role : Role}

/-- Two selections that match place by place. -/
structure Match (c : Pool.Correspondence p p') (s : Selection p) (s' : Selection p') : Prop where
  enums : List.Forall₂ c.enum s.enums s'.enums
  types : List.Forall₂ c.message s.types s'.types
  inputs : List.Forall₂ c.message s.inputs s'.inputs
  queries : List.Forall₂ c.method s.queries s'.queries
  mutations : List.Forall₂ c.method s.mutations s'.mutations

namespace Match

variable {s : Selection p} {s' : Selection p'}

theorem empty (c : Pool.Correspondence p p') : Match c {} {} :=
  ⟨.nil, .nil, .nil, .nil, .nil⟩

theorem messages (h : Match c s s') (role : Role) :
    List.Forall₂ c.message (s.messages role) (s'.messages role) := by
  cases role with
  | object => exact h.types
  | input => exact h.inputs

theorem methods (h : Match c s s') : List.Forall₂ c.method s.methods s'.methods :=
  List.rel_append h.queries h.mutations

theorem addEnum (h : Match c s s') {j : Fin p.e} {j' : Fin p'.e} (hj : c.enum j j') :
    Match c (s.addEnum j) (s'.addEnum j') :=
  { h with enums := forall₂_addNew c.biUnique_enum h.enums hj }

theorem addMessage (h : Match c s s') {i : Fin p.m} {i' : Fin p'.m} (hi : c.message i i') :
    Match c (s.addMessage role i) (s'.addMessage role i') := by
  cases role with
  | object => exact { h with types := forall₂_addNew c.biUnique_message h.types hi }
  | input => exact { h with inputs := forall₂_addNew c.biUnique_message h.inputs hi }

theorem addQuery (h : Match c s s') {m : Pool.Method p.m} {m' : Pool.Method p'.m}
    (hm : c.method m m') : Match c (s.addQuery m) (s'.addQuery m') :=
  { h with queries := forall₂_addNew c.biUnique_method h.queries hm }

theorem addMutation (h : Match c s s') {m : Pool.Method p.m} {m' : Pool.Method p'.m}
    (hm : c.method m m') : Match c (s.addMutation m) (s'.addMutation m') :=
  { h with mutations := forall₂_addNew c.biUnique_method h.mutations hm }

theorem settle (h : Match c s s') {i : Fin p.m} {i' : Fin p'.m} (hi : c.message i i') :
    Match c (s.settle role i) (s'.settle role i') :=
  List.rel_foldl (fun _ _ h _ _ hj => h.addEnum hj) (h.addMessage hi) (c.fieldEnums hi)

/-- Matching walks make the same rounds: the induction is on the rounds of the
first one, and the second one has no other choice. -/
theorem visit (h : Match c s s') {queue : List (Fin p.m)} {queue' : List (Fin p'.m)}
    (hq : List.Forall₂ c.message queue queue') :
    Match c (s.visit role queue) (s'.visit role queue') := by
  fun_induction Selection.visit role s queue generalizing s' queue' with
  | case1 s =>
      cases hq
      rw [Selection.visit]
      exact h
  | case2 s i rest hmem ih =>
      obtain - | ⟨hi, hrest⟩ := hq
      have hmem' := (List.rel_mem c.biUnique_message hi (h.messages role)).mp hmem
      rw [Selection.visit, dif_pos hmem']
      exact ih h hrest
  | case3 s i rest hmem _ _ ih =>
      obtain - | ⟨hi, hrest⟩ := hq
      have hmem' := mt (List.rel_mem c.biUnique_message hi (h.messages role)).mpr hmem
      rw [Selection.visit, dif_neg hmem']
      exact ih (h.settle hi) (List.rel_append hrest (c.successors hi))

theorem closeMethod (h : Match c s s') {m : Pool.Method p.m} {m' : Pool.Method p'.m}
    (hm : c.method m m') : Match c (s.closeMethod m) (s'.closeMethod m') := by
  have hout : Match c (s.close .object m.output) (s'.close .object m'.output) :=
    h.visit (.cons (c.output hm) .nil)
  exact hout.visit (.cons (c.input hm) .nil)

end Match

theorem match_ofOperations {queries mutations : List (Pool.Method p.m)}
    {queries' mutations' : List (Pool.Method p'.m)}
    (hq : List.Forall₂ c.method queries queries')
    (hm : List.Forall₂ c.method mutations mutations') :
    Match c (ofOperations queries mutations) (ofOperations queries' mutations') := by
  have hqueries : Match c (queries.foldl addQuery {}) (queries'.foldl addQuery {}) :=
    List.rel_foldl (fun _ _ h _ _ => h.addQuery) (.empty c) hq
  have hseed : Match c (mutations.foldl addMutation (queries.foldl addQuery {}))
      (mutations'.foldl addMutation (queries'.foldl addQuery {})) :=
    List.rel_foldl (fun _ _ h _ _ => h.addMutation) hqueries hm
  exact List.rel_foldl (fun _ _ h _ _ => h.closeMethod) hseed hseed.methods

/-! ## Faults -/

namespace Match

variable {s : Selection p} {s' : Selection p'}

theorem enumNames (h : Match c s s') : s.enumNames = s'.enumNames :=
  map_eq_of_forall₂ (fun hj => congrArg Pool.Enum.fullName (c.enum_eq hj)) h.enums

theorem messageNames (h : Match c s s') (role : Role) :
    s.messageNames role = s'.messageNames role :=
  map_eq_of_forall₂ (fun hi => c.fullName hi) (h.messages role)

theorem fieldFaults (h : Match c s s') {i : Fin p.m} {i' : Fin p'.m} (hi : c.message i i') :
    s.fieldFaults role i = s'.fieldFaults role i' := by
  refine filterMap_eq_of_forall₂ (fun {f f'} hf => ?_) (c.fields hi)
  match f.kind, f'.kind, hf.kind with
  | _, _, .scalar _ => rfl
  | _, _, .message hj => simp only [c.fullName hi, c.fullName hj, h.messageNames]
  | _, _, .enum hj => simp only [c.fullName hi, c.enum_eq hj, h.enumNames]

theorem messageFaults (h : Match c s s') {i : Fin p.m} {i' : Fin p'.m} (hi : c.message i i')
    (operation : String) :
    s.messageFaults role operation i = s'.messageFaults role operation i' := by
  rw [Selection.messageFaults, Selection.messageFaults, c.fullName hi, h.messageNames]

theorem methodFaults (h : Match c s s') {ms : List (Pool.Method p.m)}
    {ms' : List (Pool.Method p'.m)} (hms : List.Forall₂ c.method ms ms') (seen : List String) :
    s.methodFaults seen ms = s'.methodFaults seen ms' := by
  induction hms generalizing seen with
  | nil => rfl
  | cons hm _ ih =>
      rw [Selection.methodFaults, Selection.methodFaults, c.operation hm,
        h.messageFaults (c.output hm), h.messageFaults (c.input hm), ih]

theorem validate (h : Match c s s') : s.validate = s'.validate := by
  have hfaults : s.faults = s'.faults := by
    rw [faults, faults, flatMap_eq_of_forall₂ (fun hi => h.fieldFaults hi) h.types,
      flatMap_eq_of_forall₂ (fun hi => h.fieldFaults hi) h.inputs, h.methodFaults h.methods]
  rw [Selection.validate, Selection.validate, hfaults]

end Match

end Selection

/-! ## Documents -/

section

variable {p p' : Pool} {c : Pool.Correspondence p p'}

/-- The type of a field asks for the sort of its kind, and not for an index. -/
theorem Pool.Field.Match.type {f : Pool.Field p.m p.e} {f' : Pool.Field p'.m p'.e}
    (h : f.Match c.message c.enum f') : f.type = f'.type := by
  rw [Field.type, Field.type, h.rawType, h.fullName]
  cases f'.rawType with
  | some raw => rfl
  | none =>
      match f.kind, f'.kind, h.kind with
      | _, _, .scalar _ => rfl
      | _, _, .message _ => rfl
      | _, _, .enum _ => rfl

theorem fieldExpr_eq_of_match (o : Overrides) (role : Role) {f : Pool.Field p.m p.e}
    {f' : Pool.Field p'.m p'.e} (h : f.Match c.message c.enum f') :
    fieldExpr p o role f = fieldExpr p' o role f' := by
  rw [fieldExpr, fieldExpr, h.type]
  congr 1
  funext type
  rw [h.fullName, h.isRepeated]
  match f.kind, f'.kind, h.kind with
  | _, _, .scalar _ => cases type <;> rfl
  | _, _, .message hj => cases type <;> simp only [c.fullName hj]
  | _, _, .enum hj => cases type <;> simp only [c.enum_eq hj]

namespace Selection

theorem classDecl_eq_of_match (o : Overrides) (role : Role) {i : Fin p.m} {i' : Fin p'.m}
    (h : c.message i i') : classDecl o role i = classDecl o role i' := by
  have hfields : (p.message i).fields.mapM (fieldDecl o role) =
      (p'.message i').fields.mapM (fieldDecl o role) := by
    refine mapM_eq_of_forall₂ (fun {f f'} hf => ?_) (c.fields h)
    rw [fieldDecl, fieldDecl, fieldExpr_eq_of_match o role hf, hf.name]
  rw [classDecl, classDecl, hfields, c.fullName h]

theorem rootDecl_eq_of_match {ms : List (Pool.Method p.m)} {ms' : List (Pool.Method p'.m)}
    (h : List.Forall₂ c.method ms ms') (name : String) : rootDecl name ms = rootDecl name ms' := by
  have hoperations : ms.map operationDecl = ms'.map operationDecl := by
    refine map_eq_of_forall₂ (fun {m m'} hm => ?_) h
    rw [operationDecl, operationDecl, c.operation hm, c.fullName (c.output hm),
      c.fullName (c.input hm)]
  rw [rootDecl, rootDecl, hoperations, map_eq_of_forall₂ (fun hm => c.resolver hm) h]

variable {s : Selection p} {s' : Selection p'}

theorem Match.build (h : Match c s s') (o : Overrides) (modules : Modules) :
    s.build o modules = s'.build o modules := by
  have henums : s.enums.map enumDecl = s'.enums.map enumDecl := by
    refine map_eq_of_forall₂ (fun {j j'} hj => ?_) h.enums
    rw [enumDecl, enumDecl, c.enum_eq hj]
  rw [Selection.build, Selection.build,
    mapM_eq_of_forall₂ (fun hi => classDecl_eq_of_match o .object hi) h.types,
    mapM_eq_of_forall₂ (fun hi => classDecl_eq_of_match o .input hi) h.inputs, henums,
    rootDecl_eq_of_match h.queries, rootDecl_eq_of_match h.mutations]

/-- Selections that match give the same text or the same error. -/
theorem Match.generate (h : Match c s s') (o : Overrides) (config : Config) :
    s.generate o config = s'.generate o config := by
  rw [Selection.generate, Selection.generate, h.validate, synthesize, synthesize, h.build]

end Selection

end

end ProtoSchema
