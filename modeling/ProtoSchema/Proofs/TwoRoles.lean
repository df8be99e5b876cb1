import ProtoSchema.Proofs.ClassNames
import ProtoSchema.Proofs.UnsupportedFields

/-!
# A field in its two roles

A message is emitted as an object class, as an input class or as both, and its
fields are mapped once for each. The role is asked in one place only, where a
field has turned out to hold a message. So all other fields look the same in
both classes, and whether a field is a list does not depend on the role at all.

A field that holds a message refers to two classes whose names differ by the
suffix of inputs. Without overrides the two references therefore differ. With
overrides they can meet in one way: both names have one and the same class
that stands in for them. One override alone does not do it, since a class of
the extension module is never a class of the document, not even by its text:
the first is written with a dot, and class names have none.
-/

namespace ProtoSchema

open ProtoSchema.Schema

/-! ## Lists -/

theorem isList_namedExpr (r : Reference) (isRepeated isInput : Bool) :
    (namedExpr r isRepeated isInput).isList = isRepeated := by
  cases isRepeated <;> cases isInput <;> rfl

theorem isList_scalarExpr {field : String} {type : Descriptor.FieldType} {isRepeated : Bool}
    {t : TypeExpr} (h : scalarExpr field type isRepeated = .ok t) : t.isList = isRepeated := by
  rw [scalarExpr] at h
  split at h
  · rw [← Except.ok.inj h]
    cases isRepeated <;> rfl
  · cases h

section

variable {p : Pool} {o : Overrides} {role : Role} {f : Pool.Field p.m p.e} {t : TypeExpr}

theorem isList_fieldExpr (h : fieldExpr p o role f = .ok t) : t.isList = f.isRepeated := by
  obtain ⟨type, -, h⟩ := bind_eq_ok.mp h
  split at h
  · rw [← Except.ok.inj h, isList_namedExpr]
  · rw [← Except.ok.inj h, isList_namedExpr]
  · rw [← Except.ok.inj h, isList_namedExpr]
  · exact isList_scalarExpr h

end

/-! ## Where the role is asked -/

/-- The field is a message field or a group of the message: its kind is the
message, and its type says so. -/
def Pool.Field.HoldsMessage {m e : Nat} (f : Field m e) (i : Fin m) : Prop :=
  f.kind = .message i ∧ (f.type = .ok .message ∨ f.type = .ok .group)

theorem fieldExpr_eq_of_not_holdsMessage {p : Pool} {f : Pool.Field p.m p.e}
    (h : ∀ i, ¬ f.HoldsMessage i) (o : Overrides) (role role' : Role) :
    fieldExpr p o role f = fieldExpr p o role' f := by
  rw [fieldExpr, fieldExpr]
  cases htype : f.type with
  | error e => rfl
  | ok type =>
      refine (pure_bind type _).trans ((pure_bind type _).trans ?_).symm
      split
      · rfl
      · next i hk => exact absurd ⟨hk, .inl htype⟩ (h i)
      · next i hk => exact absurd ⟨hk, .inr htype⟩ (h i)
      · rfl

/-- A field that is mapped in one role is mapped in the other. -/
theorem exists_fieldExpr {p : Pool} {o : Overrides} {role : Role} {f : Pool.Field p.m p.e}
    {t : TypeExpr} (h : fieldExpr p o role f = .ok t) (role' : Role) :
    ∃ t', fieldExpr p o role' f = .ok t' := by
  rw [← error?_eq_none, error?_fieldExpr p o o role' role]
  exact error?_eq_none.mpr ⟨t, h⟩

/-! ## References -/

/-- Two names have one and the same class that stands in for them. -/
def Overrides.Shared (o : Overrides) (a b : String) : Prop :=
  ∃ c, o.find? a = some c ∧ o.find? b = some c

namespace Overrides

variable {o : Overrides} {a b : String}

theorem reference_of_find?_some {c : String} (h : o.find? a = some c) :
    o.reference a = .extension o.module c := by
  rw [reference, h]

theorem reference_of_find?_none (h : o.find? a = none) : o.reference a = .generated a := by
  rw [reference, h]

theorem reference_eq_iff (hab : a ≠ b) : o.reference a = o.reference b ↔ o.Shared a b := by
  rw [Shared]
  cases ha : o.find? a with
  | none =>
      rw [reference_of_find?_none ha]
      cases hb : o.find? b with
      | none => simpa [reference_of_find?_none hb] using hab
      | some d => simp [reference_of_find?_some hb]
  | some c =>
      rw [reference_of_find?_some ha]
      cases hb : o.find? b with
      | none => simp [reference_of_find?_none hb]
      | some d => simp [reference_of_find?_some hb, eq_comm]

/-- References to names without dots are told apart by their text. -/
theorem text_reference_inj (ha : '.' ∉ a.toList) (hb : '.' ∉ b.toList) :
    (o.reference a).text = (o.reference b).text ↔ o.reference a = o.reference b := by
  have hdot : ∀ name : String, '.' ∈ (Reference.extension o.module name).text.toList := by
    intro name
    simp [Reference.text]
  refine ⟨fun h => ?_, congrArg _⟩
  cases hfa : o.find? a with
  | none =>
      rw [reference_of_find?_none hfa] at h ⊢
      cases hfb : o.find? b with
      | none =>
          rw [reference_of_find?_none hfb] at h ⊢
          exact congrArg Reference.generated h
      | some d =>
          rw [reference_of_find?_some hfb] at h
          have ha' : '.' ∉ (Reference.generated a).text.toList := ha
          exact absurd (h ▸ hdot d) ha'
  | some c =>
      rw [reference_of_find?_some hfa] at h ⊢
      cases hfb : o.find? b with
      | none =>
          rw [reference_of_find?_none hfb] at h
          have hb' : '.' ∉ (Reference.generated b).text.toList := hb
          exact absurd (h ▸ hdot c) hb'
      | some d =>
          rw [reference_of_find?_some hfb] at h ⊢
          exact congrArg (Reference.extension o.module) ((String.append_right_inj _).mp h)

end Overrides

namespace Naming

theorem typeName_ne_inputTypeName (fullName : String) :
    typeName fullName ≠ inputTypeName fullName := by
  intro h
  have hsuffix : typeName fullName ++ "" = typeName fullName ++ "Input" :=
    String.append_empty.trans h
  exact absurd ((String.append_right_inj _).mp hsuffix) (by decide)

theorem dot_notMem_inputTypeName (fullName : String) :
    '.' ∉ (inputTypeName fullName).toList := by
  rw [inputTypeName_eq]
  exact dot_notMem_typeName _

end Naming

/-- A field that is mapped in one role is mapped in both, to a list exactly if
it is repeated. If it holds no message, the two expressions are the same. If it
holds a message, they refer to the object class and to the input class of the
message with overrides applied, and these are one type, by what they are or by
how they are written, exactly if both have one and the same class that stands
in for them. -/
theorem fieldExpr_in_both_roles {p : Pool} {o : Overrides} {role : Role}
    {f : Pool.Field p.m p.e} {t : TypeExpr} (h : fieldExpr p o role f = .ok t) :
    ∃ object input, fieldExpr p o .object f = .ok object ∧ fieldExpr p o .input f = .ok input ∧
      object.isList = f.isRepeated ∧ input.isList = f.isRepeated ∧
      ((∀ i, ¬ f.HoldsMessage i) → object = input) ∧
      ∀ i, f.HoldsMessage i → ∃ r r',
        object.reference? = some r ∧ input.reference? = some r' ∧
        r = o.reference (Naming.typeName (p.message i).fullName) ∧
        r' = o.reference (Naming.typeName (p.message i).fullName ++ "Input") ∧
        (r = r' ↔ o.Shared (Naming.typeName (p.message i).fullName)
          (Naming.typeName (p.message i).fullName ++ "Input")) ∧
        (r.text = r'.text ↔ r = r') := by
  obtain ⟨object, hobject⟩ := exists_fieldExpr h .object
  obtain ⟨input, hinput⟩ := exists_fieldExpr h .input
  refine ⟨object, input, hobject, hinput, isList_fieldExpr hobject, isList_fieldExpr hinput,
    fun hnone => ?_, fun i hi => ?_⟩
  · rw [fieldExpr_eq_of_not_holdsMessage hnone o .object .input] at hobject
    exact Except.ok.inj (hobject.symm.trans hinput)
  · refine ⟨_, _, reference?_fieldExpr hobject hi.1 hi.2, reference?_fieldExpr hinput hi.1 hi.2,
      rfl, rfl, ?_, ?_⟩
    · exact Overrides.reference_eq_iff (Naming.typeName_ne_inputTypeName _)
    · exact Overrides.text_reference_inj (Naming.dot_notMem_typeName _)
        (Naming.dot_notMem_inputTypeName _)

/-! ## A lamp

A lamp has a wick, which is a message of its own. -/

namespace Lamp

def wick : Pool.Field 2 0 :=
  { name := "wick", fullName := "lamp.Lamp.wick", rawType := some 11
    kind := .message (Fin.last 1), isRepeated := false }

def pool : Pool where
  m := 2
  e := 0
  messages := #v[
    { fullName := "lamp.Lamp", package := "lamp", file := "lamp.proto", fields := [wick] },
    { fullName := "lamp.Wick", package := "lamp", file := "lamp.proto", fields := [] }]
  enums := .emptyWithCapacity 0
  services := []

/-- One class stands in for the wick in both roles. -/
def both : Overrides :=
  { module := "ext", entries := [("LampWick", "Wick"), ("LampWickInput", "Wick")] }

/-- The class that stands in for the wick as an object has the name of the wick
as an input. -/
def crossed : Overrides :=
  { module := "ext", entries := [("LampWick", "LampWickInput")] }

/-- The two roles meet in the first case only. -/
theorem fieldExpr_in_both_roles_wick :
    fieldExpr pool both .object wick = .ok (.field (.extension "ext" "Wick")) ∧
    fieldExpr pool crossed .input wick = .ok (.inputField (.generated "LampWickInput")) ∧
    wick.HoldsMessage (Fin.last 1) ∧
    (∃ object input r, fieldExpr pool both .object wick = .ok object ∧
      fieldExpr pool both .input wick = .ok input ∧
      object.reference? = some r ∧ input.reference? = some r) ∧
    ∃ object input r r', fieldExpr pool crossed .object wick = .ok object ∧
      fieldExpr pool crossed .input wick = .ok input ∧
      object.reference? = some r ∧ input.reference? = some r' ∧ r ≠ r' := by
  have hboth : fieldExpr pool both .object wick =
      .ok (.field (.extension "ext" "Wick")) := by decide +kernel
  have hcrossed : fieldExpr pool crossed .input wick =
      .ok (.inputField (.generated "LampWickInput")) := by decide +kernel
  have hholds : wick.HoldsMessage (Fin.last 1) := ⟨rfl, .inl rfl⟩
  have hshared : both.Shared "LampWick" "LampWickInput" := ⟨"Wick", by decide, by decide⟩
  have hapart : ¬ crossed.Shared "LampWick" "LampWickInput" := by
    rintro ⟨c, -, hc⟩
    have hnone : crossed.find? "LampWickInput" = none := by decide
    rw [hnone] at hc
    cases hc
  have hname : Naming.typeName (pool.message (Fin.last 1)).fullName = "LampWick" := by decide
  refine ⟨hboth, hcrossed, hholds, ?_, ?_⟩
  · obtain ⟨object, input, hobject, hinput, -, -, -, href⟩ := fieldExpr_in_both_roles hboth
    obtain ⟨r, r', hr, hr', -, -, hiff, -⟩ := href _ hholds
    rw [hname] at hiff
    rw [← hiff.mpr hshared] at hr'
    exact ⟨object, input, r, hobject, hinput, hr, hr'⟩
  · obtain ⟨object, input, hobject, hinput, -, -, -, href⟩ := fieldExpr_in_both_roles hcrossed
    obtain ⟨r, r', hr, hr', -, -, hiff, -⟩ := href _ hholds
    rw [hname] at hiff
    exact ⟨object, input, r, r', hobject, hinput, hr, hr', fun heq => hapart (hiff.mp heq)⟩

end Lamp

end ProtoSchema
