import ProtoSchema.Proofs.Build
import ProtoSchema.Proofs.Validation

/-!
# A valid selection gives a document without dangling references

Validation and synthesis never look at each other. One compares full names
and goes by the kinds of fields, the other writes class names and goes by the
written types as well, and an enum is declared under a name that is computed
once more than the name it is referred to by. They still agree: whatever the
synthesis writes as a reference to a generated class comes from a field of
that kind, validation has found its full name, and one full name has one class
name, wherever it is computed.

Overrides only take references away, since a class of the extension module is
not a generated one, and they leave the declarations alone.
-/

namespace ProtoSchema

open ProtoSchema.Schema

namespace Selection

variable {p : Pool} {s : Selection p} {o : Overrides} {modules : Modules} {d : Document}

theorem mem_names_classes (hb : s.build o modules = .ok d) {role : Role}
    {fullName : String} (h : fullName ∈ s.messageNames role) :
    role.typeName fullName ∈ (d.classes role).map (·.name) := by
  rw [names_classes hb]
  exact List.mem_map_of_mem h

theorem mem_names_enums (hb : s.build o modules = .ok d) {fullName : String}
    (h : fullName ∈ s.enumNames) :
    Naming.typeName fullName ∈ d.enums.map (·.name) := by
  rw [names_enums hb]
  exact List.mem_map_of_mem h

/-- A class of a complete selection uses enums and classes of its own role. -/
theorem Complete.uses_declared (hs : s.Complete) (hb : s.build o modules = .ok d)
    (role : Role) {c : ClassDecl} (hc : c ∈ d.classes role) {n : String}
    (hn : c.Uses n) :
    n ∈ d.enums.map (·.name) ∨ n ∈ (d.classes role).map (·.name) := by
  obtain ⟨i, hi, hic⟩ := exists_step_of_mapM (classes_of_build hb role) hc
  obtain ⟨f, hf, t, ht, href⟩ := (uses_classDecl hic).mp hn
  rcases kind_of_fieldExpr ht href with ⟨j, hk, rfl⟩ | ⟨j, hk, rfl⟩
  · exact Or.inl (mem_names_enums hb (hs.enums role i hi j ⟨f, hf, hk⟩))
  · exact Or.inr (mem_names_classes hb (hs.messages role i hi j ⟨f, hf, hk⟩))

/-- The operation of a method of a complete selection names declared classes. -/
theorem Complete.operation_declared (hs : s.Complete) (hb : s.build o modules = .ok d)
    {m : Pool.Method p.m} (hm : m ∈ s.methods) :
    (operationDecl m).output ∈ d.objects.map (·.name) ∧
      (operationDecl m).input ∈ d.inputs.map (·.name) := by
  have hout := mem_names_classes hb (hs.methods .object m hm)
  have hin := mem_names_classes hb (hs.methods .input m hm)
  exact ⟨hout, hin⟩

/-- After a successful validation nothing in the document dangles: objects
refer to enums and objects, inputs to enums and inputs, and every operation of
both roots returns an object and takes an input of the document. -/
theorem references_declared (hv : s.validate = .ok ()) (hb : s.build o modules = .ok d) :
    (∀ c ∈ d.objects, ∀ n, c.Uses n →
      n ∈ d.enums.map (·.name) ∨ n ∈ d.objects.map (·.name)) ∧
    (∀ c ∈ d.inputs, ∀ n, c.Uses n →
      n ∈ d.enums.map (·.name) ∨ n ∈ d.inputs.map (·.name)) ∧
    ∀ op ∈ d.query.operations ++ d.mutation.operations,
      op.output ∈ d.objects.map (·.name) ∧ op.input ∈ d.inputs.map (·.name) := by
  have hs := complete_of_validate hv
  refine ⟨fun c hc n hn => ?_, fun c hc n hn => ?_, ?_⟩
  · exact hs.uses_declared hb .object hc hn
  · exact hs.uses_declared hb .input hc hn
  · obtain ⟨-, -, -, -, hquery, hmutation⟩ := build_eq_ok.mp hb
    intro op hop
    have hmap : d.query.operations ++ d.mutation.operations = s.methods.map operationDecl := by
      rw [hquery, hmutation, methods, List.map_append]
      rfl
    rw [hmap] at hop
    obtain ⟨m, hm, rfl⟩ := List.mem_map.mp hop
    exact hs.operation_declared hb hm

end Selection

/-! ## A pool of trees

A tree has branches that are trees, so its message holds itself. -/

namespace Orchard

/-- Trees with leaves of some shade, planted on empty plots. -/
def pool : Pool where
  m := 3
  e := 1
  messages := #v[
    { fullName := "flora.Tree", package := "flora", file := "flora.proto"
      fields := [
        { name := "branches", fullName := "flora.Tree.branches", rawType := some 11
          kind := .message 0, isRepeated := true },
        { name := "leafShade", fullName := "flora.Tree.leafShade", rawType := some 14
          kind := .enum 0, isRepeated := false },
        { name := "leaf", fullName := "flora.Tree.leaf", rawType := some 11
          kind := .message 1, isRepeated := false }] },
    { fullName := "flora.Leaf", package := "flora", file := "flora.proto"
      fields := [
        { name := "width", fullName := "flora.Leaf.width", rawType := some 5
          kind := .scalar .int32, isRepeated := false }] },
    { fullName := "flora.Plot", package := "flora", file := "flora.proto", fields := [] }]
  enums := #v[{ fullName := "flora.leaf_shade", values := ["LIGHT", "DARK"] }]
  services := []

/-- Planting takes a plot and gives a tree. -/
def plant : Pool.Method pool.m :=
  { name := "Plant", service := "flora.Garden", package := "flora", file := "flora.proto"
    input := (2 : Fin 3), output := (0 : Fin 3) }

/-- What planting needs, put together by hand. -/
def planted : Selection pool :=
  (((((({} : Selection pool).addQuery plant).addType (0 : Fin 3)).addType (1 : Fin 3)).addInput
    (2 : Fin 3)).addEnum (0 : Fin 1))

/-- The same without the shade and without the plot. -/
def bare : Selection pool :=
  (((({} : Selection pool).addQuery plant).addType (1 : Fin 3)).addType (0 : Fin 3))

/-- The extension module has a leaf of its own. -/
def overrides : Overrides where
  module := "ext"
  entries := [("FloraLeaf", "Leaf")]

/-- Its tree refers to itself, to the enum, and to the leaf of the extension. -/
def document : Document where
  enums := [{ name := "FloraLeafShade", members := ["LIGHT", "DARK"] }]
  objects := [
    { name := "FloraTree"
      fields := [
        { name := "branches", type := .nonNullList (.generated "FloraTree") },
        { name := "leaf_shade", type := .field (.generated "FloraLeafShade") },
        { name := "leaf", type := .field (.extension "ext" "Leaf") }] },
    { name := "FloraLeaf", fields := [{ name := "width", type := .scalar .int }] }]
  inputs := [{ name := "FloraPlotInput", fields := [.dummy] }]
  query :=
    { name := queryRootName
      operations := [
        { name := "flora_plant", output := "FloraTree", input := "FloraPlotInput" }]
      resolvers := [
        { name := "resolve_flora_plant", protoModule := "flora_pb2", requestClass := "Plot"
          handler := "plant_impl" }] }

theorem references_declared_planted :
    planted.validate = .ok () ∧ planted.build overrides {} = .ok document ∧
    (∀ c ∈ document.objects, ∀ n, c.Uses n →
      n ∈ document.enums.map (·.name) ∨ n ∈ document.objects.map (·.name)) ∧
    (∀ c ∈ document.inputs, ∀ n, c.Uses n →
      n ∈ document.enums.map (·.name) ∨ n ∈ document.inputs.map (·.name)) ∧
    ∀ op ∈ document.query.operations ++ document.mutation.operations,
      op.output ∈ document.objects.map (·.name) ∧
        op.input ∈ document.inputs.map (·.name) := by
  have hv : planted.validate = .ok () := by decide +kernel
  have hb : planted.build overrides {} = .ok document := by decide +kernel
  exact ⟨hv, hb, Selection.references_declared hv hb⟩

end Orchard

end ProtoSchema
