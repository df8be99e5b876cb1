import ProtoSchema.Proofs.Build
import ProtoSchema.Proofs.Correspondence
import ProtoSchema.Proofs.RequestClasses
import ProtoSchema.Proofs.SnakeCase

/-!
# No field is lost to renaming

The fields of a class carry the names of the message's fields in snake case. A
class body in which two of them are the same keeps only the last one. Snake
case is not one-to-one, but names that it makes equal fold to the same letters,
and fields that fold to the same letters are not allowed in one message: the
pool refuses such a message if its file is in proto3.

The pool puts the fields of a message into the order of their numbers, so what
was checked of the written fields is carried over to a permutation of them.
-/

namespace ProtoSchema

open ProtoSchema.Schema

/-! ## The fields of linked messages -/

namespace Pool

theorem perm_insertByNumber {α : Type} (n : Int) (a : α) (l : List (Int × α)) :
    (insertByNumber n a l).Perm ((n, a) :: l) := by
  induction l with
  | nil => exact .refl _
  | cons b l ih =>
      rw [insertByNumber]
      split
      · exact .refl _
      · exact (ih.cons b).trans (.swap (n, a) b l)

/-- The message is what linking made of the item. -/
structure Message.ComesFrom {m e : Nat} (message : Message m e) (item : MessageItem) : Prop where
  place : message.place = item.place
  names : (message.fields.map (·.name)).Perm (item.descriptor.fields.map (·.name.getD ""))
  qualified : ∀ f ∈ message.fields, f.fullName = qualify message.fullName f.name

section

variable {d : Declared} {v : View} {item : MessageItem}

theorem fields_linkField {linked linked' : Linked d.m d.e} {f : Descriptor.Field} {j : Nat}
    (h : linkField d v item linked f j = .ok linked') :
    ∃ number field, linked'.fields = insertByNumber number field linked.fields ∧
      field.name = f.name.getD "" ∧ field.fullName = qualify item.fullName field.name := by
  obtain ⟨-, -, h⟩ := bind_eq_ok.mp h
  obtain ⟨type, -, h⟩ := bind_eq_ok.mp h
  obtain ⟨-, -, h⟩ := bind_eq_ok.mp h
  obtain ⟨-, -, h⟩ := bind_eq_ok.mp h
  obtain ⟨-, -, h⟩ := bind_eq_ok.mp h
  rw [← Except.ok.inj h]
  exact ⟨_, _, rfl, rfl, rfl⟩

theorem qualified_linkField {linked linked' : Linked d.m d.e} {f : Descriptor.Field} {j : Nat}
    (h : linkField d v item linked f j = .ok linked')
    (hl : ∀ x ∈ linked.fields, x.2.fullName = qualify item.fullName x.2.name) :
    ∀ x ∈ linked'.fields, x.2.fullName = qualify item.fullName x.2.name := by
  obtain ⟨number, field, hfields, -, hfull⟩ := fields_linkField h
  rw [hfields]
  intro x hx
  rcases mem_insertByNumber hx with rfl | hx
  · exact hfull
  · exact hl x hx

theorem names_foldlM_linkField {fields : List (Descriptor.Field × Nat)}
    {linked linked' : Linked d.m d.e}
    (h : fields.foldlM (fun linked x => linkField d v item linked x.1 x.2) linked = .ok linked') :
    (linked'.fields.map (·.2.name)).Perm
      (fields.map (·.1.name.getD "") ++ linked.fields.map (·.2.name)) := by
  induction fields generalizing linked with
  | nil =>
      rw [← Except.ok.inj h]
      exact .refl _
  | cons x fields ih =>
      rw [List.foldlM_cons] at h
      obtain ⟨linked₁, h₁, h⟩ := bind_eq_ok.mp h
      obtain ⟨number, field, hfields, hname, -⟩ := fields_linkField h₁
      have hstep : (linked₁.fields.map (·.2.name)).Perm
          (x.1.name.getD "" :: linked.fields.map (·.2.name)) := by
        rw [hfields, ← hname]
        exact (perm_insertByNumber number field linked.fields).map (·.2.name)
      exact (ih h).trans ((hstep.append_left _).trans List.perm_middle)

theorem comesFrom_linkMessage {message : Message d.m d.e}
    (h : linkMessage d v item = .ok message) : message.ComesFrom item := by
  have hplace := place_linkMessage h
  obtain ⟨linked, hlinked, h⟩ := bind_eq_ok.mp h
  obtain rfl := Except.ok.inj h
  refine ⟨hplace, ?_, ?_⟩
  · have hnames := names_foldlM_linkField hlinked
    rw [List.map_nil, List.append_nil] at hnames
    rw [List.map_map]
    refine hnames.trans (.of_eq ?_)
    show item.descriptor.fields.zipIdx.map ((·.name.getD "") ∘ Prod.fst) = _
    rw [← List.map_map, List.zipIdx_map_fst]
  · have hqualified := foldlM_preserves
      (P := fun linked : Linked d.m d.e =>
        ∀ x ∈ linked.fields, x.2.fullName = qualify item.fullName x.2.name)
      qualified_linkField hlinked (fun x hx => absurd hx List.not_mem_nil)
    intro f hf
    obtain ⟨x, hx, rfl⟩ := List.mem_map.mp hf
    exact hqualified x hx

end

/-- Every message of a linked pool comes from an item of the set. -/
theorem exists_comesFrom {files : List Descriptor.File} {p : Pool} (h : ofFiles files = .ok p)
    (i : Fin p.m) : ∃ item, .message item ∈ itemsOf files ∧ (p.message i).ComesFrom item := by
  obtain ⟨names, -, h⟩ := bind_eq_ok.mp h
  obtain ⟨-, -, h⟩ := bind_eq_ok.mp h
  obtain ⟨messages, hmessages, h⟩ := bind_eq_ok.mp h
  obtain ⟨enums, -, h⟩ := bind_eq_ok.mp h
  obtain ⟨services, -, h⟩ := bind_eq_ok.mp h
  obtain rfl := Except.ok.inj h
  have hmem : messages[i] ∈ messages.toList := by simp
  obtain ⟨item, hitem, hlink⟩ := exists_step_of_mapM (mapM_toList_of_vector hmessages) hmem
  obtain ⟨x, hx, hpick⟩ := List.mem_filterMap.mp hitem
  obtain rfl := message?_eq_some hpick
  exact ⟨item, hx, comesFrom_linkMessage hlink⟩

/-! ## Folded names -/

/-- The names of the message's fields, folded. -/
def Message.foldedNames {m e : Nat} (message : Message m e) : List (List Char) :=
  message.fields.map fun f => foldName f.name

theorem nodup_of_checkCamelCase {seen : List (List Char × String)} {names : List String}
    (h : checkCamelCase seen names = .ok ()) :
    (names.map foldName).Nodup ∧ ∀ name ∈ names, foldName name ∉ seen.map Prod.fst := by
  induction names generalizing seen with
  | nil => exact ⟨List.nodup_nil, fun _ hname => absurd hname List.not_mem_nil⟩
  | cons name names ih =>
      rw [checkCamelCase] at h
      split at h
      · cases h
      · next hnone =>
          obtain ⟨hnodup, hnew⟩ := ih h
          simp only [List.map_cons, List.mem_cons, not_or] at hnew
          refine ⟨List.nodup_cons.mpr ⟨fun hmem => ?_, hnodup⟩, ?_⟩
          · obtain ⟨other, hother, heq⟩ := List.mem_map.mp hmem
            exact (hnew other hother).1 heq
          · refine List.forall_mem_cons.mpr
              ⟨fun hmem => ?_, fun other hother => (hnew other hother).2⟩
            obtain ⟨pair, hpair, heq⟩ := List.mem_map.mp hmem
            rw [List.lookup_eq_none_iff] at hnone
            exact absurd (hnone pair hpair) (by simp [heq])

theorem checkCamelCase_of_add {t t' : Names} {i : MessageItem}
    (h : t.add (.message i) = .ok t') (hproto3 : i.origin.isProto3) :
    checkCamelCase [] (i.descriptor.fields.map (·.name.getD "")) = .ok () := by
  obtain ⟨t₁, -, h⟩ := bind_eq_ok.mp h
  simp only [hproto3, if_true] at h
  obtain ⟨⟨⟩, hcheck, -⟩ := bind_eq_ok.mp h
  exact hcheck

/-- In a proto3 file, the fields of a message have different folded names. -/
theorem nodup_foldedNames {files : List Descriptor.File} {p : Pool} (h : ofFiles files = .ok p)
    (hproto3 : ∀ f ∈ files, f.isProto3) (i : Fin p.m) : (p.message i).foldedNames.Nodup := by
  obtain ⟨item, hitem, hfrom⟩ := exists_comesFrom h i
  obtain ⟨f, hf, hmem⟩ := List.mem_flatMap.mp hitem
  obtain ⟨names, hnames, -⟩ := bind_eq_ok.mp h
  obtain ⟨t, t', hadd⟩ := exists_step_of_foldlM hnames hitem
  have horigin : item.origin.isProto3 := by
    rcases mem_fileItems hmem with ⟨hnone, -⟩ | hmessages | ⟨s, -, heq⟩
    · cases hnone
    · rw [(hmessages.message item rfl).1]
      exact hproto3 f hf
    · cases heq
  have hnodup := (nodup_of_checkCamelCase (checkCamelCase_of_add hadd horigin)).1
  have hfolded := (hfrom.names.map foldName).nodup_iff.mpr hnodup
  rwa [List.map_map] at hfolded

end Pool

/-! ## Classes -/

namespace Selection

variable {p : Pool} {o : Overrides} {role : Role}

/-- A class has the fields of its message in their order, or the placeholder if
there are none. -/
theorem fields_classDecl {i : Fin p.m} {c : ClassDecl} (h : classDecl o role i = .ok c) :
    ((p.message i).fields = [] → c.fields = [FieldDecl.dummy]) ∧
    ((p.message i).fields ≠ [] →
      List.Forall₂ (fun f d => d.name = Naming.snakeCase f.name ∧ fieldExpr p o role f = .ok d.type)
        (p.message i).fields c.fields) := by
  obtain ⟨fields, hfields, h⟩ := bind_eq_ok.mp h
  obtain rfl := Except.ok.inj h
  have hsteps := mapM_eq_ok.mp hfields
  constructor
  · intro hnone
    rw [hnone, List.forall₂_nil_left_iff] at hsteps
    rw [hsteps]
    rfl
  · intro hsome
    have hne : fields.isEmpty = false := by
      cases fields with
      | nil => exact absurd (List.forall₂_nil_right_iff.mp hsteps) hsome
      | cons d fields => rfl
    rw [ClassDecl.ofFields, hne]
    refine hsteps.imp fun f d hfd => ?_
    obtain ⟨t, ht, hfd⟩ := bind_eq_ok.mp hfd
    obtain rfl := Except.ok.inj hfd
    exact ⟨rfl, ht⟩

theorem names_classDecl {i : Fin p.m} {c : ClassDecl} (h : classDecl o role i = .ok c) :
    c.fields.map (·.name) =
      if (p.message i).fields.isEmpty then ["dummy"]
      else (p.message i).fields.map fun f => Naming.snakeCase f.name := by
  obtain ⟨hnone, hsome⟩ := fields_classDecl h
  split
  · next hempty =>
      rw [hnone (List.isEmpty_iff.mp hempty)]
      rfl
  · next hne =>
      refine (map_eq_of_forall₂ ?_ (hsome fun hnil => hne (List.isEmpty_iff.mpr hnil))).symm
      intro f d hfd
      exact hfd.1.symm

/-- The names of a class are distinct if the folded names of its message are. -/
theorem nodup_names_classDecl {i : Fin p.m} {c : ClassDecl} (h : classDecl o role i = .ok c)
    (hfolded : (p.message i).foldedNames.Nodup) : (c.fields.map (·.name)).Nodup := by
  rw [names_classDecl h]
  split
  · exact List.nodup_singleton _
  · -- Folded names can be read off the names in snake case, so they tell these apart.
    refine List.Nodup.of_map (fun name => name.toList.filter (· ≠ '_')) ?_
    rw [List.map_map]
    have hfold : (fun name => name.toList.filter (· ≠ '_')) ∘
        (fun f : Pool.Field p.m p.e => Naming.snakeCase f.name) = fun f => Pool.foldName f.name :=
      funext fun f => Naming.filter_snakeCase f.name
    rwa [hfold]

/-- The fields of a class are those of its message in their order, or the
placeholder if there are none, and if the message's fields are told apart by
their folded names, so are those of the class by their names. -/
theorem nodup_fieldNames_of_folded {i : Fin p.m} {c : ClassDecl}
    (hfolded : (p.message i).foldedNames.Nodup) (h : classDecl o role i = .ok c) :
    (c.fields.map (·.name)).Nodup ∧
    ((p.message i).fields = [] → c.fields = [FieldDecl.dummy]) ∧
    ((p.message i).fields ≠ [] →
      List.Forall₂ (fun f d => d.name = Naming.snakeCase f.name ∧ fieldExpr p o role f = .ok d.type)
        (p.message i).fields c.fields) :=
  ⟨nodup_names_classDecl h hfolded, fields_classDecl h⟩

/-- A set of proto3 files loses no field in any class of any document. -/
theorem nodup_fieldNames_of_isProto3 {files : List Descriptor.File}
    (hp : Pool.ofFiles files = .ok p) (hproto3 : ∀ f ∈ files, f.isProto3) {s : Selection p}
    {modules : Modules} {d : Document} (hb : s.build o modules = .ok d) :
    ∀ role, ∀ c ∈ d.classes role, (c.fields.map (·.name)).Nodup := by
  intro role c hc
  obtain ⟨i, -, hclass⟩ := exists_step_of_mapM (classes_of_build hb role) hc
  exact nodup_names_classDecl hclass (Pool.nodup_foldedNames hp hproto3 i)

end Selection

/-! ## A panel

Its fields are written in three ways, with an acronym, a digit and an underscore
in front. -/

namespace Panel

open Selection

def field (name : String) : Pool.Field 1 0 :=
  { name, fullName := "Panel." ++ name, rawType := some 8, kind := .scalar .bool
    isRepeated := false }

def pool : Pool where
  m := 1
  e := 0
  messages := #v[
    { fullName := "Panel", package := "", file := "panel.proto"
      fields := [field "HTTPPort2Open", field "http_port", field "_isOn"] }]
  enums := .emptyWithCapacity 0
  services := []

def panel : Fin pool.m := Fin.last 0

def panelClass : ClassDecl where
  name := "PanelInput"
  fields := [
    { name := "http_port2_open", type := .scalar .boolean },
    { name := "http_port", type := .scalar .boolean },
    { name := "_is_on", type := .scalar .boolean }]

theorem nodup_fieldNames_of_folded_panel :
    (pool.message panel).foldedNames.Nodup ∧
    classDecl (Overrides.empty "ext") .input panel = .ok panelClass ∧
    (panelClass.fields.map (·.name)).Nodup := by
  have hfolded : (pool.message panel).foldedNames.Nodup := by decide
  have hclass : classDecl (Overrides.empty "ext") .input panel = .ok panelClass := by decide +kernel
  exact ⟨hfolded, hclass, (nodup_fieldNames_of_folded hfolded hclass).1⟩

/-! Two fields that only differ in how they are written would become one. -/

example : Naming.snakeCase "isOn" = Naming.snakeCase "is_on" ∧
    Pool.foldName "isOn" = Pool.foldName "is_on" := by
  decide

end Panel

end ProtoSchema
