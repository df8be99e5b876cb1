import ProtoSchema.Proofs.FirstFailure

/-!
# A document fails on unsupported fields and on nothing else

The mapping of a field looks at two things, the number of its type and its
kind, and they come from different places: the number may be written in the
descriptor, while the kind is what the name of the type was resolved to. So a
number can be unknown, and the two can disagree. `Unsupported` says when,
without the table of scalars and without the order in which the mapping asks.

Neither the role of a message nor the overrides are asked before a field is
found to be supported. A build therefore scans one list of fields, those of the
types and then those of the inputs, and its error is that of the first field
that is not supported.
-/

namespace ProtoSchema

open ProtoSchema.Descriptor (FieldType)
open ProtoSchema.Schema (Modules TypeExpr)

namespace Pool

variable {m e : Nat}

/-- The number that stands for a kind. -/
def Kind.typeNumber : Kind m e → Int
  | .scalar type => type.number
  | .message _ => FieldType.message.number
  | .enum _ => FieldType.enum.number

/-- The number of a field's type, which is that of its kind if none is written. -/
def Field.typeNumber (f : Field m e) : Int :=
  f.rawType.getD f.kind.typeNumber

/-- The number of the type is none of the eighteen, or it stands for an enum or
a message and the kind is not that. -/
inductive Field.Unsupported (f : Field m e) : Prop
  | unknown {raw : Int} (hraw : f.rawType = some raw) (hrange : ¬ (1 ≤ raw ∧ raw ≤ 18))
  | enum (htype : f.typeNumber = FieldType.enum.number) (hkind : ∀ j, f.kind ≠ .enum j)
  | message
      (htype : f.typeNumber = FieldType.message.number ∨ f.typeNumber = FieldType.group.number)
      (hkind : ∀ j, f.kind ≠ .message j)

/-- What a build says of a field that is not supported. -/
def Field.refusal (f : Field m e) : Error :=
  .unsupportedFieldType f.fullName f.typeNumber

end Pool

/-! ## Types of fields -/

theorem ofNumber?_eq_some {n : Int} {t : FieldType} :
    FieldType.ofNumber? n = some t ↔ n = t.number := by
  constructor
  · exact fun h => (FieldType.number_of_ofNumber? h).symm
  · rintro rfl
    exact FieldType.ofNumber?_number t

theorem ofNumber?_eq_none {n : Int} :
    FieldType.ofNumber? n = none ↔ ¬ (1 ≤ n ∧ n ≤ 18) := by
  have hall : (∀ t ∈ FieldType.all, t.number ≠ n) ↔ ¬ (1 ≤ n ∧ n ≤ 18) := by
    simp only [FieldType.all, List.forall_mem_cons, FieldType.number, List.not_mem_nil,
      false_implies, implies_true, and_true]
    omega
  rw [← hall, FieldType.ofNumber?, List.find?_eq_none]
  simp

namespace Pool.Field

variable {m e : Nat} {f : Field m e}

theorem type_eq_ok {t : FieldType} : f.type = .ok t ↔ f.typeNumber = t.number := by
  rw [type, typeNumber]
  cases f.rawType with
  | none =>
      have hkind : ∀ t' : FieldType, (Except.ok t' : Result FieldType) = .ok t ↔
          t'.number = t.number := by
        intro t'
        rw [Except.ok.injEq, ← ofNumber?_eq_some, FieldType.ofNumber?_number, Option.some.injEq]
      cases f.kind with
      | scalar t' => exact hkind t'
      | message j => exact hkind .message
      | enum j => exact hkind .enum
  | some raw =>
      rw [Option.getD_some, ← ofNumber?_eq_some]
      show typeOfNumber f.fullName raw = .ok t ↔ _
      rw [typeOfNumber]
      cases FieldType.ofNumber? raw with
      | none => simp
      | some t' => simp

theorem type_eq_error {err : Error} :
    f.type = .error err ↔
      ∃ raw, f.rawType = some raw ∧ ¬ (1 ≤ raw ∧ raw ≤ 18) ∧ err = f.refusal := by
  rw [type, refusal, typeNumber]
  cases f.rawType with
  | none => cases f.kind <;> simp
  | some raw =>
      simp only [← ofNumber?_eq_none, typeOfNumber, Option.some.injEq, Option.getD_some,
        exists_eq_left']
      cases FieldType.ofNumber? raw with
      | none => simp [eq_comm]
      | some t => simp

end Pool.Field

/-- Only the types that name something have no scalar. -/
theorem scalarOf?_eq_none {t : FieldType} :
    scalarOf? t = none ↔ t = .enum ∨ t = .message ∨ t = .group := by
  cases t <;> decide

theorem scalarExpr_eq_error {field : String} {t : FieldType} {isRepeated : Bool} {err : Error} :
    scalarExpr field t isRepeated = .error err ↔
      (t = .enum ∨ t = .message ∨ t = .group) ∧ err = .unsupportedFieldType field t.number := by
  rw [scalarExpr, ← scalarOf?_eq_none]
  cases scalarOf? t with
  | none => simp [eq_comm]
  | some s => simp

/-! ## Fields -/

section

variable {p : Pool} {o : Overrides} {role : Role} {f : Pool.Field p.m p.e}

theorem unsupported_of_fieldExpr {err : Error} (h : fieldExpr p o role f = .error err) :
    f.Unsupported ∧ err = f.refusal := by
  rcases bind_eq_error.mp h with h | ⟨t, htype, h⟩
  · obtain ⟨raw, hraw, hrange, herr⟩ := Pool.Field.type_eq_error.mp h
    exact ⟨.unknown hraw hrange, herr⟩
  rw [Pool.Field.type_eq_ok] at htype
  split at h
  · cases h
  · cases h
  · cases h
  · next henum hmessage hgroup =>
      -- The kind is not the one that the type asks for, or a case above had it.
      obtain ⟨hnamed, rfl⟩ := scalarExpr_eq_error.mp h
      rw [Pool.Field.refusal, htype]
      refine ⟨?_, rfl⟩
      rcases hnamed with rfl | rfl | rfl
      · exact .enum htype fun j hj => henum j rfl hj
      · exact .message (.inl htype) fun j hj => hmessage j rfl hj
      · exact .message (.inr htype) fun j hj => hgroup j rfl hj

/-- A type that is not met by its kind is looked for among the scalars. -/
theorem fieldExpr_eq_scalarExpr {t : FieldType} (htype : f.typeNumber = t.number)
    (henum : t = .enum → ∀ j, f.kind ≠ .enum j)
    (hmessage : t = .message ∨ t = .group → ∀ j, f.kind ≠ .message j) :
    fieldExpr p o role f = scalarExpr f.fullName t f.isRepeated := by
  rw [fieldExpr, Pool.Field.type_eq_ok.mpr htype]
  refine (pure_bind t _).trans ?_
  split
  · next j hk => exact absurd hk (henum rfl j)
  · next j hk => exact absurd hk (hmessage (.inl rfl) j)
  · next j hk => exact absurd hk (hmessage (.inr rfl) j)
  · rfl

theorem fieldExpr_of_unsupported (h : f.Unsupported) :
    fieldExpr p o role f = .error f.refusal := by
  have hnamed : ∀ t : FieldType, f.typeNumber = t.number →
      (t = .enum ∨ t = .message ∨ t = .group) → (t = .enum → ∀ j, f.kind ≠ .enum j) →
      (t = .message ∨ t = .group → ∀ j, f.kind ≠ .message j) →
      fieldExpr p o role f = .error f.refusal := by
    intro t htype ht henum hmessage
    rw [fieldExpr_eq_scalarExpr htype henum hmessage, Pool.Field.refusal, htype]
    exact scalarExpr_eq_error.mpr ⟨ht, rfl⟩
  cases h with
  | unknown hraw hrange =>
      have htype : f.type = .error f.refusal :=
        Pool.Field.type_eq_error.mpr ⟨_, hraw, hrange, rfl⟩
      exact bind_eq_error.mpr (.inl htype)
  | enum htype hkind => exact hnamed .enum htype (by simp) (fun _ => hkind) (by simp)
  | message htype hkind =>
      rcases htype with htype | htype
      · exact hnamed .message htype (by simp) (by simp) (fun _ => hkind)
      · exact hnamed .group htype (by simp) (by simp) (fun _ => hkind)

theorem fieldExpr_eq_error {err : Error} :
    fieldExpr p o role f = .error err ↔ f.Unsupported ∧ err = f.refusal := by
  constructor
  · exact unsupported_of_fieldExpr
  · rintro ⟨h, rfl⟩
    exact fieldExpr_of_unsupported h

end

/-- A field is refused alike in both roles and whatever the overrides are. -/
theorem error?_fieldExpr (p : Pool) (o o' : Overrides) (role role' : Role)
    (f : Pool.Field p.m p.e) :
    error? (fieldExpr p o role f) = error? (fieldExpr p o' role' f) := by
  refine Option.ext fun err => ?_
  rw [error?_eq_some, error?_eq_some, fieldExpr_eq_error, fieldExpr_eq_error]

theorem error?_fieldExpr_eq_none {p : Pool} {o : Overrides} {role : Role}
    {f : Pool.Field p.m p.e} : error? (fieldExpr p o role f) = none ↔ ¬ f.Unsupported := by
  rw [Option.eq_none_iff_forall_ne_some]
  simp only [ne_eq, error?_eq_some, fieldExpr_eq_error, not_and]
  exact ⟨fun h hf => h _ hf rfl, fun h _ hf => absurd hf h⟩

/-! ## Documents -/

theorem findSome?_flatMap {α β γ : Type} (g : β → Option γ) (f : α → List β) (l : List α) :
    (l.flatMap f).findSome? g = l.findSome? fun a => (f a).findSome? g := by
  induction l with
  | nil => rfl
  | cons a l ih => rw [List.flatMap_cons, List.findSome?_append, ih, findSome?_cons_or]

namespace Selection

variable {p : Pool}

/-- The fields of the emitted messages, those of the types first. -/
def fields (s : Selection p) : List (Pool.Field p.m p.e) :=
  (s.types ++ s.inputs).flatMap fun i => (p.message i).fields

theorem error?_build_eq (s : Selection p) (o : Overrides) (modules : Modules) :
    error? (s.build o modules) = s.fields.findSome? fun f => error? (fieldExpr p o .object f) := by
  have hmessage : ∀ role, unmappedField? (p := p) role =
      fun i => (p.message i).fields.findSome? fun f => error? (fieldExpr p o .object f) := by
    intro role
    funext i
    rw [unmappedField?]
    congr 1
    funext f
    exact error?_fieldExpr p _ _ _ _ f
  rw [error?_build, unmapped?, hmessage, hmessage, fields, findSome?_flatMap,
    List.findSome?_append]

/-- The error is that of the first unsupported field. -/
theorem build_eq_error {s : Selection p} {o : Overrides} {modules : Modules} {err : Error} :
    s.build o modules = .error err ↔
      ∃ before f after, s.fields = before ++ f :: after ∧ (∀ g ∈ before, ¬ g.Unsupported) ∧
        f.Unsupported ∧ err = f.refusal := by
  rw [← error?_eq_some, error?_build_eq, List.findSome?_eq_some_iff]
  simp only [error?_fieldExpr_eq_none, error?_eq_some, fieldExpr_eq_error]
  constructor
  · rintro ⟨before, f, after, hsplit, hf, hbefore⟩
    exact ⟨before, f, after, hsplit, hbefore, hf⟩
  · rintro ⟨before, f, after, hsplit, hbefore, hf⟩
    exact ⟨before, f, after, hsplit, hf, hbefore⟩

theorem exists_error_of_build_iff {s : Selection p} {o : Overrides} {modules : Modules} :
    (∃ err, s.build o modules = .error err) ↔ ∃ f ∈ s.fields, f.Unsupported := by
  constructor
  · rintro ⟨err, h⟩
    obtain ⟨before, f, after, hsplit, -, hf, -⟩ := build_eq_error.mp h
    exact ⟨f, by simp [hsplit], hf⟩
  · rintro ⟨f, hmem, hf⟩
    cases h : s.build o modules with
    | error err => exact ⟨err, rfl⟩
    | ok d =>
        have hnone := error?_eq_none.mpr ⟨d, h⟩
        rw [error?_build_eq, List.findSome?_eq_none_iff] at hnone
        exact absurd hf (error?_fieldExpr_eq_none.mp (hnone f hmem))

/-- A document cannot be built exactly if some field of an emitted message is
not supported, and the error is that of the first one, types before inputs. What
is supported, and the error, depend on the field alone. -/
theorem build_fails_iff_unsupported (s : Selection p) :
    (∀ o modules, (∃ err, s.build o modules = .error err) ↔
      ∃ i, (i ∈ s.types ∨ i ∈ s.inputs) ∧ ∃ f ∈ (p.message i).fields, f.Unsupported) ∧
    (∀ o modules err, s.build o modules = .error err ↔
      ∃ before f after, s.fields = before ++ f :: after ∧ (∀ g ∈ before, ¬ g.Unsupported) ∧
        f.Unsupported ∧ err = .unsupportedFieldType f.fullName f.typeNumber) ∧
    ∀ o role (f : Pool.Field p.m p.e) err, fieldExpr p o role f = .error err ↔
      f.Unsupported ∧ err = .unsupportedFieldType f.fullName f.typeNumber := by
  refine ⟨fun o modules => ?_, fun o modules err => build_eq_error,
    fun o role f err => fieldExpr_eq_error⟩
  rw [exists_error_of_build_iff]
  simp only [fields, List.mem_flatMap, List.mem_append]
  constructor
  · rintro ⟨f, ⟨i, hi, hmem⟩, hf⟩
    exact ⟨i, hi, f, hmem, hf⟩
  · rintro ⟨i, hi, f, hmem, hf⟩
    exact ⟨f, ⟨i, hi, hmem⟩, hf⟩

end Selection

end ProtoSchema
