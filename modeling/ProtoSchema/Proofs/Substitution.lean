import ProtoSchema.Proofs.Build

/-!
# Overrides are a substitution

A build with overrides and a build without them are two runs over the same
selection. They fail alike, since overrides are only asked once a field has
turned out to hold an enum or a message. Where they succeed, the two documents
differ in what fields refer to and in nothing else: the document with
overrides is the other one with every generated class that a field refers to
replaced by the class to use for it.

The replacement is a single pass. A class of the extension module is left
alone, also where its name is that of a generated class with an override of
its own, so the result of one replacement is never the start of another.

Each stage of a build is shown to commute with the substitution, and chains of
stages are carried through by `map_bind` and `mapM_eq_map`.
-/

namespace ProtoSchema

open ProtoSchema.Schema

/-! ## The substitution -/

/-- What the overrides make of a reference: a generated class is looked up, a
class of the extension module stays. -/
def Overrides.substitute (o : Overrides) : Reference → Reference
  | .generated name => o.reference name
  | .extension module name => .extension module name

/-- The expression with another named type inside. -/
def Schema.TypeExpr.mapReference (g : Reference → Reference) : TypeExpr → TypeExpr
  | .scalar s => .scalar s
  | .scalarList s => .scalarList s
  | .field r => .field (g r)
  | .inputField r => .inputField (g r)
  | .nonNullList r => .nonNullList (g r)
  | .placeholder => .placeholder

def Schema.FieldDecl.substitute (o : Overrides) (f : FieldDecl) : FieldDecl :=
  { f with type := f.type.mapReference o.substitute }

def Schema.ClassDecl.substitute (o : Overrides) (c : ClassDecl) : ClassDecl :=
  { c with fields := c.fields.map (FieldDecl.substitute o) }

/-- The document with the overrides applied to the fields of its classes. -/
def Schema.Document.substitute (o : Overrides) (d : Document) : Document :=
  { d with
    objects := d.objects.map (ClassDecl.substitute o)
    inputs := d.inputs.map (ClassDecl.substitute o) }

theorem map_namedExpr (o : Overrides) (module name : String) (isRepeated isInput : Bool) :
    (pure (namedExpr ((Overrides.empty module).reference name) isRepeated isInput) :
      Result TypeExpr).map (TypeExpr.mapReference o.substitute) =
      pure (namedExpr (o.reference name) isRepeated isInput) := by
  cases isRepeated <;> cases isInput <;> rfl

theorem map_scalarExpr (g : Reference → Reference) (field : String)
    (type : Descriptor.FieldType) (isRepeated : Bool) :
    (scalarExpr field type isRepeated).map (TypeExpr.mapReference g) =
      scalarExpr field type isRepeated := by
  rw [scalarExpr]
  split
  · cases isRepeated <;> rfl
  · rfl

/-! ## The stages of a build -/

/-- The type of a field is decided before the overrides are asked. -/
theorem fieldExpr_eq_map (p : Pool) (o : Overrides) (module : String) (role : Role)
    (f : Pool.Field p.m p.e) :
    fieldExpr p o role f =
      (fieldExpr p (Overrides.empty module) role f).map
        (TypeExpr.mapReference o.substitute) := by
  rw [fieldExpr, fieldExpr, map_bind]
  congr 1
  funext type
  split
  · exact (map_namedExpr o module _ _ _).symm
  · exact (map_namedExpr o module _ _ _).symm
  · exact (map_namedExpr o module _ _ _).symm
  · exact (map_scalarExpr _ _ _ _).symm

theorem ofFields_substitute (o : Overrides) (name : String) (fields : List FieldDecl) :
    ClassDecl.ofFields name (fields.map (FieldDecl.substitute o)) =
      (ClassDecl.ofFields name fields).substitute o := by
  cases fields with
  | nil => rfl
  | cons f fields => rfl

namespace Selection

variable {p : Pool}

theorem fieldDecl_eq_map (o : Overrides) (module : String) (role : Role)
    (f : Pool.Field p.m p.e) :
    fieldDecl o role f =
      (fieldDecl (Overrides.empty module) role f).map (FieldDecl.substitute o) := by
  rw [fieldDecl, fieldDecl, fieldExpr_eq_map p o module role f, map_bind, bind_map]
  rfl

theorem classDecl_eq_map (o : Overrides) (module : String) (role : Role) (i : Fin p.m) :
    classDecl o role i =
      (classDecl (Overrides.empty module) role i).map (ClassDecl.substitute o) := by
  rw [classDecl, classDecl, mapM_eq_map (fieldDecl_eq_map o module role), map_bind, bind_map]
  congr 1
  funext fields
  exact congrArg Except.ok (ofFields_substitute o _ fields)

theorem build_eq_map (s : Selection p) (o : Overrides) (module : String) (modules : Modules) :
    s.build o modules =
      (s.build (Overrides.empty module) modules).map (Document.substitute o) := by
  rw [build, build, mapM_eq_map (classDecl_eq_map o module .object),
    mapM_eq_map (classDecl_eq_map o module .input), map_bind, bind_map]
  congr 1
  funext objects
  rw [map_bind, bind_map]
  rfl

end Selection

/-! ## The two documents -/

theorem classes_substitute (o : Overrides) (d : Document) (role : Role) :
    (d.substitute o).classes role = (d.classes role).map (ClassDecl.substitute o) := by
  cases role <;> rfl

theorem names_substitute (o : Overrides) (d : Document) (role : Role) :
    ((d.substitute o).classes role).map (·.name) = (d.classes role).map (·.name) := by
  rw [classes_substitute, List.map_map]
  rfl

theorem fieldNames_substitute (o : Overrides) (d : Document) (role : Role) :
    ((d.substitute o).classes role).map (·.fields.map (·.name)) =
      (d.classes role).map (·.fields.map (·.name)) := by
  rw [classes_substitute, List.map_map]
  refine List.map_congr_left fun c _ => ?_
  show (c.fields.map (FieldDecl.substitute o)).map (·.name) = c.fields.map (·.name)
  rw [List.map_map]
  rfl

/-- A build with overrides fails exactly as the build without them does, and
otherwise its document is that of the other with the overrides applied once to
what fields refer to. Nothing else is touched. -/
theorem Selection.build_substitutes {p : Pool} (s : Selection p) (o : Overrides)
    (module : String) (modules : Modules) :
    (∀ e, s.build o modules = .error e ↔
      s.build (Overrides.empty module) modules = .error e) ∧
    ∀ d', s.build o modules = .ok d' ↔
      ∃ d, s.build (Overrides.empty module) modules = .ok d ∧ d' = d.substitute o ∧
        d'.modules = d.modules ∧ d'.enums = d.enums ∧
        d'.query = d.query ∧ d'.mutation = d.mutation ∧
        ∀ role, (d'.classes role).map (·.name) = (d.classes role).map (·.name) ∧
          (d'.classes role).map (·.fields.map (·.name)) =
            (d.classes role).map (·.fields.map (·.name)) := by
  rw [build_eq_map s o module modules]
  cases s.build (Overrides.empty module) modules with
  | error e' =>
      refine ⟨fun e => Iff.rfl, fun d' => ⟨fun h => (nomatch h), ?_⟩⟩
      rintro ⟨d, hd, -⟩
      cases hd
  | ok d =>
      refine ⟨fun e => ⟨fun h => (nomatch h), fun h => (nomatch h)⟩, fun d' => ⟨?_, ?_⟩⟩
      · intro h
        obtain rfl : d.substitute o = d' := Except.ok.inj h
        exact ⟨d, rfl, rfl, rfl, rfl, rfl, rfl,
          fun role => ⟨names_substitute o d role, fieldNames_substitute o d role⟩⟩
      · rintro ⟨d₁, hd, rfl, -⟩
        rw [← Except.ok.inj hd]
        rfl

end ProtoSchema
