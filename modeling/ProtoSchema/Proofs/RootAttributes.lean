import ProtoSchema.Proofs.ClassNames
import ProtoSchema.Proofs.Validation

/-!
# When the attributes of a root are distinct

A root class has a field for every operation and a function for every
resolver, and both are attributes of one class. Validation keeps the names of
the operations apart, and with them those of the resolvers, which are the same
names behind one prefix. It does not look across the two: an operation may
have the name of another operation's resolver, and then the function takes the
place of the field. So the attributes are distinct exactly if no operation of
the root is named so.

Where the name of an operation starts is decided by the package, or by the
method if there is none. Hence nothing can clash as long as none of these
starts with the word `resolve`.
-/

namespace ProtoSchema

open ProtoSchema.Schema

/-- The names that a root class defines, in the order of their definitions. -/
def Schema.RootDecl.attributes (r : RootDecl) : List String :=
  r.operations.map (·.name) ++ r.resolvers.map (·.name)

/-! ## First words -/

namespace Naming

/-- The part of a text before its first dot or underscore. -/
def firstWord (s : String) : String :=
  String.ofList (s.toList.takeWhile fun c => c ≠ '.' ∧ c ≠ '_')

theorem resolverName_inj {a b : String} : resolverName a = resolverName b ↔ a = b := by
  rw [resolverName, resolverName, String.append_right_inj]

theorem takeWhile_replaceChar (text rest : List Char) :
    (Text.replaceChar '.' '_' text ++ '_' :: rest).takeWhile (fun c => c ≠ '.' ∧ c ≠ '_') =
      text.takeWhile fun c => c ≠ '.' ∧ c ≠ '_' := by
  induction text with
  | nil => rfl
  | cons c text ih =>
      rw [Text.replaceChar] at ih
      rw [Text.replaceChar, List.map_cons, List.cons_append]
      by_cases hdot : c = '.'
      · subst hdot
        rfl
      · rw [if_neg hdot, List.takeWhile_cons, List.takeWhile_cons, ih]

/-- Dots and underscores both end a word, so it does not matter that a package
is flattened. -/
theorem firstWord_flatten (package rest : String) :
    firstWord (flatten package ++ "_" ++ rest) = firstWord package := by
  have hchars : (flatten package ++ "_" ++ rest).toList =
      Text.replaceChar '.' '_' package.toList ++ '_' :: rest.toList := by
    rw [String.toList_append, String.toList_append, flatten, String.toList_ofList,
      List.append_assoc]
    rfl
  rw [firstWord, hchars, takeWhile_replaceChar, firstWord]

theorem firstWord_resolverName (operation : String) :
    firstWord (resolverName operation) = "resolve" := by
  rw [firstWord, resolverName, String.toList_append]
  rfl

/-- What the name of an operation starts with. -/
theorem firstWord_operationName (package method : String) :
    firstWord (operationName package method) =
      firstWord (if package.isEmpty then snakeCase method else package) := by
  rw [operationName]
  split
  · rfl
  · exact firstWord_flatten package (snakeCase method)

end Naming

/-! ## Roots -/

namespace Selection

variable {p : Pool}

theorem attributes_rootDecl (name : String) (ms : List (Pool.Method p.m)) :
    (rootDecl name ms).attributes =
      ms.map Pool.Method.operation ++
        (ms.map Pool.Method.operation).map Naming.resolverName := by
  rw [RootDecl.attributes, rootDecl, List.map_map, List.map_map, List.map_map]
  rfl

/-- With distinct operation names, only an operation and a resolver can share
a name. -/
theorem nodup_attributes_rootDecl {ms : List (Pool.Method p.m)}
    (h : (ms.map Pool.Method.operation).Nodup) {name : String} :
    (rootDecl name ms).attributes.Nodup ↔
      ∀ m ∈ ms, ∀ k ∈ ms, m.operation ≠ Naming.resolverName k.operation := by
  have hresolvers : ((ms.map Pool.Method.operation).map Naming.resolverName).Nodup :=
    h.map fun _ _ => Naming.resolverName_inj.mp
  rw [attributes_rootDecl, List.nodup_append]
  simp only [List.forall_mem_map]
  constructor
  · exact fun hnodup => hnodup.2.2
  · exact fun hapart => ⟨h, hresolvers, hapart⟩

theorem nodup_attributes_of_firstWord {ms : List (Pool.Method p.m)}
    (h : (ms.map Pool.Method.operation).Nodup)
    (hfirst : ∀ m ∈ ms,
      Naming.firstWord (if m.package.isEmpty then Naming.snakeCase m.name else m.package) ≠
        "resolve") {name : String} :
    (rootDecl name ms).attributes.Nodup := by
  refine (nodup_attributes_rootDecl h).mpr fun m hm k _ heq => hfirst m hm ?_
  rw [← Naming.firstWord_operationName]
  show Naming.firstWord m.operation = "resolve"
  rw [heq, Naming.firstWord_resolverName]

/-- In a valid selection, the attributes of a root are distinct exactly if none
of its operations is named as the resolver of one of them, and always if no
package, and no method without a package, starts with the word `resolve`. -/
theorem nodup_attributes_of_validate {s : Selection p} (hv : s.validate = .ok ())
    {o : Overrides} {modules : Modules} {d : Document} (hb : s.build o modules = .ok d) :
    (d.query.attributes.Nodup ↔
      ∀ m ∈ s.queries, ∀ k ∈ s.queries, m.operation ≠ Naming.resolverName k.operation) ∧
    (d.mutation.attributes.Nodup ↔
      ∀ m ∈ s.mutations, ∀ k ∈ s.mutations, m.operation ≠ Naming.resolverName k.operation) ∧
    ((∀ m ∈ s.methods,
      Naming.firstWord (if m.package.isEmpty then Naming.snakeCase m.name else m.package) ≠
        "resolve") →
      d.query.attributes.Nodup ∧ d.mutation.attributes.Nodup) := by
  obtain ⟨-, -, -, -, hquery, hmutation⟩ := build_eq_ok.mp hb
  have hnames := (complete_of_validate hv).validate_eq_ok.mp hv
  rw [methods, List.map_append] at hnames
  have hqueries := hnames.of_append_left
  have hmutations := hnames.of_append_right
  rw [hquery, hmutation]
  refine ⟨nodup_attributes_rootDecl hqueries, nodup_attributes_rootDecl hmutations, fun h => ?_⟩
  rw [methods, List.forall_mem_append] at h
  exact ⟨nodup_attributes_of_firstWord hqueries h.1,
    nodup_attributes_of_firstWord hmutations h.2⟩

end Selection

/-! ## A tap

One method opens a tap, and another one resolves how it is opened. Neither has
a package in front of its name. -/

namespace Tap

open Selection

def file : Descriptor.File where
  name := some "tap.proto"
  isProto3 := true
  messages := [{ name := some "Drop" }]
  services := [
    { name := some "Tap"
      methods := [
        { name := some "Open", inputType := some ".Drop", outputType := some ".Drop" },
        { name := some "ResolveOpen", inputType := some ".Drop", outputType := some ".Drop" }] }]

def turn : Pool.Method 1 :=
  { name := "Open", service := "Tap", package := "", file := "tap.proto"
    input := Fin.last 0, output := Fin.last 0 }

def resolveTurn : Pool.Method 1 :=
  { turn with name := "ResolveOpen" }

def pool : Pool where
  m := 1
  e := 0
  messages := #v[{ fullName := "Drop", package := "", file := "tap.proto", fields := [] }]
  enums := .emptyWithCapacity 0
  services := [{ fullName := "Tap", methods := [turn, resolveTurn] }]

/-- The selection of the pool with these queries and mutations. -/
def select (queries mutations : List (Pool.Method 1)) : Selection pool :=
  ofOperations queries mutations

/-- The drop in both roles, with these queries and mutations. -/
def withDrop (queries mutations : List (Pool.Method 1)) : Selection pool where
  types := [Fin.last 0]
  inputs := [Fin.last 0]
  queries := queries
  mutations := mutations

def document (queries mutations : List (Pool.Method 1)) : Document where
  objects := [{ name := "Drop", fields := [.dummy] }]
  inputs := [{ name := "DropInput", fields := [.dummy] }]
  query := rootDecl (p := pool) queryRootName queries
  mutation := rootDecl (p := pool) mutationRootName mutations

/-- In two roots the methods do not meet. -/
theorem nodup_attributes_apart :
    (select [turn] [resolveTurn]).validate = .ok () ∧
    (select [turn] [resolveTurn]).build (Overrides.empty "ext") {} =
      .ok (document [turn] [resolveTurn]) ∧
    (document [turn] [resolveTurn]).query.attributes.Nodup ∧
    (document [turn] [resolveTurn]).mutation.attributes.Nodup := by
  have hs : select [turn] [resolveTurn] = withDrop [turn] [resolveTurn] :=
    (ofOperations_eq_layers (p := pool) [turn] [resolveTurn]).trans (by decide +kernel)
  have hv : (select [turn] [resolveTurn]).validate = .ok () := by
    rw [hs]
    decide +kernel
  have hb : (select [turn] [resolveTurn]).build (Overrides.empty "ext") {} =
      .ok (document [turn] [resolveTurn]) := by
    rw [hs]
    decide +kernel
  have hturn : ∀ m ∈ [turn], ∀ k ∈ [turn], m.operation ≠ Naming.resolverName k.operation := by
    decide
  have hresolve : ∀ m ∈ [resolveTurn], ∀ k ∈ [resolveTurn],
      m.operation ≠ Naming.resolverName k.operation := by decide
  obtain ⟨hquery, hmutation, -⟩ := nodup_attributes_of_validate hv hb
  rw [hs] at hquery hmutation
  exact ⟨hv, hb, hquery.mpr hturn, hmutation.mpr hresolve⟩

/-- In one root, a valid selection of a pool whose names are all identifiers
has an operation and a resolver of one name. -/
theorem not_nodup_attributes_together :
    Pool.ofFiles [file] = .ok pool ∧
    (∀ name ∈ pool.typeNames ++ ["Tap", turn.name, resolveTurn.name],
      Naming.isIdentifier name) ∧
    (select [turn, resolveTurn] []).validate = .ok () ∧
    (select [turn, resolveTurn] []).build (Overrides.empty "ext") {} =
      .ok (document [turn, resolveTurn] []) ∧
    ¬ (document [turn, resolveTurn] []).query.attributes.Nodup := by
  have hs : select [turn, resolveTurn] [] = withDrop [turn, resolveTurn] [] :=
    (ofOperations_eq_layers (p := pool) [turn, resolveTurn] []).trans (by decide +kernel)
  rw [hs]
  exact ⟨by decide +kernel, by decide, by decide +kernel, by decide +kernel, by decide⟩

end Tap

end ProtoSchema
