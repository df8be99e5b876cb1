import ProtoSchema.Proofs.Closure
import ProtoSchema.Proofs.Outcome
import ProtoSchema.Proofs.PascalCase
import ProtoSchema.Synthesis

/-!
# What a document is built from

A document that was built has one class for each message of the selection, in
the same order and under the name of the message in its role, and each class
is made from the fields of its message. These statements read a success of
`build` back into its parts, so that nothing after them has to look into the
chain of steps again.

A class uses a generated class if one of its fields refers to it. The mapping
of fields goes by the written type and the kind together, so it has to be read
off both: a reference to a generated class comes from a field of enum kind or
of message kind, and its name is the one under which that enum or message is
declared.
-/

namespace ProtoSchema

open ProtoSchema.Descriptor (FieldType)
open ProtoSchema.Schema

/-- A field of the class refers to the generated class `n`. -/
def Schema.ClassDecl.Uses (c : ClassDecl) (n : String) : Prop :=
  ∃ f ∈ c.fields, f.type.reference? = some (.generated n)

/-! ## Fields -/

theorem reference?_namedExpr (r : Reference) (isRepeated isInput : Bool) :
    (namedExpr r isRepeated isInput).reference? = some r := by
  cases isRepeated <;> cases isInput <;> rfl

theorem name_of_reference {o : Overrides} {name n : String}
    (h : o.reference name = .generated n) : name = n := by
  rw [Overrides.reference] at h
  split at h
  · cases h
  · exact Reference.generated.inj h

theorem reference?_scalarExpr {field : String} {type : FieldType} {isRepeated : Bool}
    {t : TypeExpr} (h : scalarExpr field type isRepeated = .ok t) :
    t.reference? = none := by
  rw [scalarExpr] at h
  split at h
  · rw [← Except.ok.inj h]
    cases isRepeated <;> rfl
  · cases h

/-- What a field that refers to a generated class holds. -/
theorem kind_of_fieldExpr {p : Pool} {o : Overrides} {role : Role}
    {f : Pool.Field p.m p.e} {t : TypeExpr} {n : String}
    (h : fieldExpr p o role f = .ok t) (ht : t.reference? = some (.generated n)) :
    (∃ j, f.kind = .enum j ∧ n = Naming.typeName (p.enum j).fullName) ∨
    ∃ j, f.kind = .message j ∧ n = role.typeName (p.message j).fullName := by
  obtain ⟨type, -, h⟩ := bind_eq_ok.mp h
  split at h
  · next j hk =>
      rw [← Except.ok.inj h, reference?_namedExpr] at ht
      exact Or.inl ⟨j, hk, (name_of_reference (Option.some.inj ht)).symm⟩
  · next j hk =>
      rw [← Except.ok.inj h, reference?_namedExpr] at ht
      exact Or.inr ⟨j, hk, (name_of_reference (Option.some.inj ht)).symm⟩
  · next j hk =>
      rw [← Except.ok.inj h, reference?_namedExpr] at ht
      exact Or.inr ⟨j, hk, (name_of_reference (Option.some.inj ht)).symm⟩
  · rw [reference?_scalarExpr h] at ht
    cases ht

/-- A field of message kind whose type says so refers to the class of its
message. -/
theorem reference?_fieldExpr {p : Pool} {o : Overrides} {role : Role}
    {f : Pool.Field p.m p.e} {t : TypeExpr} {j : Fin p.m}
    (h : fieldExpr p o role f = .ok t) (hk : f.kind = .message j)
    (ht : f.type = .ok .message ∨ f.type = .ok .group) :
    t.reference? = some (o.reference (role.typeName (p.message j).fullName)) := by
  obtain ⟨type, htype, h⟩ := bind_eq_ok.mp h
  rw [hk] at h
  rcases ht with ht | ht
  · obtain rfl := Except.ok.inj (htype.symm.trans ht)
    rw [← Except.ok.inj h, reference?_namedExpr]
  · obtain rfl := Except.ok.inj (htype.symm.trans ht)
    rw [← Except.ok.inj h, reference?_namedExpr]

/-! ## Classes -/

namespace Selection

variable {p : Pool} {o : Overrides} {role : Role}

theorem name_classDecl {i : Fin p.m} {c : ClassDecl} (h : classDecl o role i = .ok c) :
    c.name = role.typeName (p.message i).fullName := by
  obtain ⟨fields, -, h⟩ := bind_eq_ok.mp h
  rw [← Except.ok.inj h]
  rfl

/-- The fields of a class that refer to something are those of its message. -/
theorem uses_classDecl {i : Fin p.m} {c : ClassDecl} (h : classDecl o role i = .ok c)
    {n : String} :
    c.Uses n ↔ ∃ f ∈ (p.message i).fields, ∃ t,
      fieldExpr p o role f = .ok t ∧ t.reference? = some (.generated n) := by
  obtain ⟨fields, hfields, h⟩ := bind_eq_ok.mp h
  obtain rfl := Except.ok.inj h
  constructor
  · rintro ⟨d, hd, href⟩
    rw [ClassDecl.ofFields] at hd
    split at hd
    · -- The placeholder of a class without fields refers to nothing.
      rw [List.mem_singleton.mp hd] at href
      cases href
    · obtain ⟨f, hf, hfd⟩ := exists_step_of_mapM hfields hd
      obtain ⟨t, ht, hfd⟩ := bind_eq_ok.mp hfd
      obtain rfl := Except.ok.inj hfd
      exact ⟨f, hf, t, ht, href⟩
  · rintro ⟨f, hf, t, ht, href⟩
    obtain ⟨d, hd, hfd⟩ := exists_result_of_mapM hfields hf
    obtain ⟨t', ht', hfd⟩ := bind_eq_ok.mp hfd
    obtain rfl := Except.ok.inj hfd
    obtain rfl := Except.ok.inj (ht.symm.trans ht')
    have hne : fields.isEmpty = false := by
      cases fields with
      | nil => cases hd
      | cons _ _ => rfl
    exact ⟨_, by rw [ClassDecl.ofFields, hne]; exact hd, href⟩

theorem fieldExpr_of_classDecl {i : Fin p.m} {c : ClassDecl}
    (h : classDecl o role i = .ok c) {f : Pool.Field p.m p.e}
    (hf : f ∈ (p.message i).fields) : ∃ t, fieldExpr p o role f = .ok t := by
  obtain ⟨fields, hfields, -⟩ := bind_eq_ok.mp h
  obtain ⟨d, -, hfd⟩ := exists_result_of_mapM hfields hf
  obtain ⟨t, ht, -⟩ := bind_eq_ok.mp hfd
  exact ⟨t, ht⟩

/-! ## Documents -/

theorem build_eq_ok {s : Selection p} {modules : Modules} {d : Document} :
    s.build o modules = .ok d ↔
      s.types.mapM (classDecl o .object) = .ok d.objects ∧
      s.inputs.mapM (classDecl o .input) = .ok d.inputs ∧
      d.modules = modules ∧ d.enums = s.enums.map enumDecl ∧
      d.query = rootDecl queryRootName s.queries ∧
      d.mutation = rootDecl mutationRootName s.mutations := by
  constructor
  · intro h
    obtain ⟨objects, hobjects, h⟩ := bind_eq_ok.mp h
    obtain ⟨inputs, hinputs, h⟩ := bind_eq_ok.mp h
    obtain rfl := Except.ok.inj h
    exact ⟨hobjects, hinputs, rfl, rfl, rfl, rfl⟩
  · rintro ⟨hobjects, hinputs, hmodules, henums, hquery, hmutation⟩
    refine bind_eq_ok.mpr ⟨_, hobjects, bind_eq_ok.mpr ⟨_, hinputs, ?_⟩⟩
    rw [← hmodules, ← henums, ← hquery, ← hmutation]
    rfl

end Selection

/-- The classes of a document in a role. -/
def Schema.Document.classes (d : Document) : Role → List ClassDecl
  | .object => d.objects
  | .input => d.inputs

namespace Selection

variable {p : Pool} {o : Overrides}

theorem classes_of_build {s : Selection p} {modules : Modules} {d : Document}
    (h : s.build o modules = .ok d) (role : Role) :
    (s.messages role).mapM (classDecl o role) = .ok (d.classes role) := by
  obtain ⟨hobjects, hinputs, -⟩ := build_eq_ok.mp h
  cases role with
  | object => exact hobjects
  | input => exact hinputs

theorem names_classes {s : Selection p} {modules : Modules} {d : Document}
    (h : s.build o modules = .ok d) (role : Role) :
    (d.classes role).map (·.name) =
      (s.messageNames role).map role.typeName := by
  rw [messageNames, List.map_map]
  exact map_eq_of_mapM (classes_of_build h role) name_classDecl

/-- The enums are declared under the names by which fields refer to them. -/
theorem names_enums {s : Selection p} {modules : Modules} {d : Document}
    (h : s.build o modules = .ok d) :
    d.enums.map (·.name) = s.enumNames.map Naming.typeName := by
  obtain ⟨-, -, -, henums, -⟩ := build_eq_ok.mp h
  rw [henums, enumNames, List.map_map, List.map_map]
  exact List.map_congr_left fun j _ => Naming.pascalCase_typeName (p.enum j).fullName

end Selection

end ProtoSchema
