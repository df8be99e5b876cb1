import ProtoSchema.Proofs.FieldNames
import ProtoSchema.Proofs.HandlerPaths
import ProtoSchema.Proofs.Identifiers

/-!
# Emitted names are identifiers

The full names of a pool are put together from scopes and names with dots in
between. If all of their pieces are identifiers, so are those of the names and
packages that they are put together from, and every name of a document is made
from these.

Class names are therefore always identifiers. The names of fields, operations,
resolvers and handlers are exactly if no dot is in the names that fields and
methods are declared with: the full name of a field does not show whether there
is one, and the pool does not ask.
-/

namespace ProtoSchema

open ProtoSchema.Schema

/-! ## The names of a pool -/

namespace Pool

open Naming (isFullName)

/-- The full names of a pool: those of its types, of their fields, of its
services and of their methods. -/
def fullNames (p : Pool) : List String :=
  p.typeNames ++
    (List.finRange p.m).flatMap (fun i => (p.message i).fields.map (·.fullName)) ++
    p.services.flatMap fun s => s.fullName :: s.methods.map (·.fullName)

theorem isFullName_qualify {scope name : String} (h : isFullName (qualify scope name)) :
    isFullName name ∧ (scope ≠ "" → isFullName scope) := by
  by_cases hscope : scope = ""
  · rw [hscope, qualify_empty] at h
    exact ⟨h, fun hne => absurd hscope hne⟩
  · rw [qualify_of_ne_empty hscope, Naming.isFullName_dotted] at h
    exact ⟨h.2, fun _ => h.1⟩

theorem package_of_linkService {d : Declared} {v : View} {item : ServiceItem}
    {service : Service d.m} (h : linkService d v item = .ok service) {method : Method d.m}
    (hmethod : method ∈ service.methods) : method.package = item.origin.package := by
  obtain ⟨methods, hmethods, h⟩ := bind_eq_ok.mp h
  obtain rfl := Except.ok.inj h
  obtain ⟨m, -, hlink⟩ := exists_step_of_mapM hmethods hmethod
  obtain ⟨input, -, hlink⟩ := bind_eq_ok.mp hlink
  obtain ⟨output, -, hlink⟩ := bind_eq_ok.mp hlink
  rw [← Except.ok.inj hlink]

section

variable {files : List Descriptor.File} {p : Pool}

/-- A service stands in the package of its methods. -/
theorem exists_qualify_package (h : ofFiles files = .ok p) {service : Service p.m}
    (hservice : service ∈ p.services) {m : Method p.m} (hm : m ∈ service.methods) :
    ∃ name, service.fullName = qualify m.package name := by
  obtain ⟨names, -, h⟩ := bind_eq_ok.mp h
  obtain ⟨-, -, h⟩ := bind_eq_ok.mp h
  obtain ⟨messages, -, h⟩ := bind_eq_ok.mp h
  obtain ⟨enums, -, h⟩ := bind_eq_ok.mp h
  obtain ⟨services, hservices, h⟩ := bind_eq_ok.mp h
  obtain rfl := Except.ok.inj h
  obtain ⟨item, hitem, hlink⟩ := exists_step_of_mapM hservices hservice
  obtain ⟨x, hx, hpick⟩ := List.mem_filterMap.mp hitem
  obtain rfl := service?_eq_some hpick
  obtain ⟨f, -, hmem⟩ := List.mem_flatMap.mp hx
  obtain ⟨horigin, -, hname⟩ := service_of_mem_fileItems hmem
  refine ⟨item.descriptor.name.getD "", ?_⟩
  rw [fullName_linkService hlink, hname, package_of_linkService hlink hm, horigin]
  rfl

/-- The name of a field is made of identifiers, if its full name is. -/
theorem isFullName_field (h : ofFiles files = .ok p)
    (hnames : ∀ name ∈ p.fullNames, isFullName name) {i : Fin p.m} {f : Field p.m p.e}
    (hf : f ∈ (p.message i).fields) : isFullName f.name := by
  obtain ⟨item, -, hfrom⟩ := exists_comesFrom h i
  have hmem : f.fullName ∈ p.fullNames := by
    refine List.mem_append_left _ (List.mem_append_right _ ?_)
    exact List.mem_flatMap.mpr ⟨i, List.mem_finRange i, List.mem_map_of_mem hf⟩
  have hfull := hnames _ hmem
  rw [hfrom.qualified f hf] at hfull
  exact (isFullName_qualify hfull).1

/-- So are the name and the package of a method. -/
theorem isFullName_method (h : ofFiles files = .ok p)
    (hnames : ∀ name ∈ p.fullNames, isFullName name) {service : Service p.m}
    (hservice : service ∈ p.services) {m : Method p.m} (hm : m ∈ service.methods) :
    isFullName m.name ∧ (m.package ≠ "" → isFullName m.package) := by
  have hmem : ∀ name ∈ service.fullName :: service.methods.map (·.fullName), isFullName name := by
    intro name hname
    exact hnames name (List.mem_append_right _ (List.mem_flatMap.mpr ⟨service, hservice, hname⟩))
  obtain ⟨name, hname⟩ := exists_qualify_package h hservice hm
  have hfull := hmem _ List.mem_cons_self
  rw [hname] at hfull
  have hmethod := hmem _ (List.mem_cons_of_mem _ (List.mem_map_of_mem hm))
  exact ⟨(isFullName_qualify hmethod).1, (isFullName_qualify hfull).2⟩

end

end Pool

/-! ## The names of a document -/

namespace Schema.Document

def fieldNames (d : Document) : List String :=
  (d.objects ++ d.inputs).flatMap fun c => c.fields.map (·.name)

def operationNames (d : Document) : List String :=
  (d.query.operations ++ d.mutation.operations).map (·.name)

def resolverNames (d : Document) : List String :=
  d.resolvers.map (·.name)

def handlerNames (d : Document) : List String :=
  d.resolvers.map (·.handler)

end Schema.Document

namespace Selection

variable {p : Pool} {s : Selection p} {o : Overrides} {modules : Modules} {d : Document}

theorem isClassName_of_build (hnames : ∀ name ∈ p.typeNames, Naming.isFullName name)
    (hletter : ∀ name ∈ p.typeNames, name.toList.head?.any Char.isAlpha)
    (hb : s.build o modules = .ok d) : ∀ name ∈ d.classNames, Naming.IsClassName name := by
  have henum : ∀ name ∈ s.enumNames, name ∈ p.typeNames := by
    intro name hname
    obtain ⟨j, -, rfl⟩ := List.mem_map.mp hname
    exact List.mem_append_left _ (List.mem_map_of_mem (List.mem_finRange j))
  have hmessage : ∀ role, ∀ name ∈ s.messageNames role, name ∈ p.typeNames := by
    intro role name hname
    obtain ⟨i, -, rfl⟩ := List.mem_map.mp hname
    exact List.mem_append_right _ (List.mem_map_of_mem (List.mem_finRange i))
  have hclass : ∀ role, ∀ name ∈ (d.classes role).map (·.name), Naming.IsClassName name := by
    intro role name hname
    rw [names_classes hb role] at hname
    obtain ⟨full, hfull, rfl⟩ := List.mem_map.mp hname
    have hmem := hmessage role full hfull
    cases role with
    | object => exact Naming.isClassName_typeName (hnames full hmem) (hletter full hmem)
    | input => exact Naming.isClassName_inputTypeName (hnames full hmem) (hletter full hmem)
  intro name hname
  rw [Document.classNames, names_enums hb, List.map_append] at hname
  rcases List.mem_append.mp hname with hname | hname
  · obtain ⟨full, hfull, rfl⟩ := List.mem_map.mp hname
    have hmem := henum full hfull
    exact Naming.isClassName_typeName (hnames full hmem) (hletter full hmem)
  · rcases List.mem_append.mp hname with hname | hname
    · exact hclass .object name hname
    · exact hclass .input name hname

/-- The fields of a document have the names of the emitted messages' fields in
snake case, apart from placeholders. -/
theorem mem_fieldNames_of_build (hb : s.build o modules = .ok d) {name : String} :
    (name ∈ d.fieldNames → name = "dummy" ∨
      ∃ role, ∃ i ∈ s.messages role, ∃ f ∈ (p.message i).fields, name = Naming.snakeCase f.name) ∧
    ((∃ role, ∃ i ∈ s.messages role, ∃ f ∈ (p.message i).fields,
      name = Naming.snakeCase f.name) → name ∈ d.fieldNames) := by
  have hclasses : name ∈ d.fieldNames ↔
      ∃ role, ∃ c ∈ d.classes role, name ∈ c.fields.map (·.name) := by
    rw [Document.fieldNames, List.flatMap_append, List.mem_append, List.mem_flatMap,
      List.mem_flatMap]
    constructor
    · rintro (h | h)
      · exact ⟨.object, h⟩
      · exact ⟨.input, h⟩
    · rintro ⟨role, h⟩
      cases role with
      | object => exact Or.inl h
      | input => exact Or.inr h
  rw [hclasses]
  constructor
  · rintro ⟨role, c, hc, hname⟩
    obtain ⟨i, hi, hclass⟩ := exists_step_of_mapM (classes_of_build hb role) hc
    rw [names_classDecl hclass] at hname
    split at hname
    · exact Or.inl (List.mem_singleton.mp hname)
    · obtain ⟨f, hf, rfl⟩ := List.mem_map.mp hname
      exact Or.inr ⟨role, i, hi, f, hf, rfl⟩
  · rintro ⟨role, i, hi, f, hf, rfl⟩
    obtain ⟨c, hc, hclass⟩ := exists_result_of_mapM (classes_of_build hb role) hi
    refine ⟨role, c, hc, ?_⟩
    have hne : ¬ (p.message i).fields.isEmpty := by
      rw [List.isEmpty_iff]
      exact List.ne_nil_of_mem hf
    rw [names_classDecl hclass, if_neg hne]
    exact List.mem_map_of_mem hf

theorem operationNames_of_build (hb : s.build o modules = .ok d) :
    d.operationNames = s.methods.map (·.operation) := by
  obtain ⟨-, -, -, -, hquery, hmutation⟩ := build_eq_ok.mp hb
  rw [Document.operationNames, hquery, hmutation, rootDecl, rootDecl, ← List.map_append,
    List.map_map, methods]
  rfl

/-- The three names that are made from a method are identifiers together. -/
theorem isIdentifier_method_iff {m : Pool.Method p.m} (hname : Naming.isFullName m.name)
    (hpackage : m.package ≠ "" → Naming.isFullName m.package) :
    (Naming.isIdentifier m.operation ∧ Naming.isIdentifier (resolverDecl m).name ∧
      Naming.isIdentifier (resolverDecl m).handler) ↔ '.' ∉ m.name.toList := by
  have hoperation : Naming.isIdentifier m.operation ↔ '.' ∉ m.name.toList :=
    Naming.isIdentifier_operationName hpackage hname
  constructor
  · exact fun h => hoperation.mp h.1
  · intro hdot
    have hid := hoperation.mpr hdot
    exact ⟨hid, (Naming.isIdentifier_resolverName _).mpr (Naming.isIdentifier_iff.mp hid).1,
      (Naming.isIdentifier_handlerName hname).mpr hdot⟩

/-- The names of fields and handlers have no capitals, whatever they are made
from. -/
theorem not_isUpper_of_build (hb : s.build o modules = .ok d) :
    ∀ name ∈ d.fieldNames ++ d.handlerNames, ∀ c ∈ name.toList, ¬ c.isUpper := by
  intro name hname c hc
  rcases List.mem_append.mp hname with hname | hname
  · rcases (mem_fieldNames_of_build hb).1 hname with rfl | ⟨role, i, -, f, -, rfl⟩
    · have hdummy : Naming.snakeCase "dummy" = "dummy" := by decide
      exact Naming.not_isUpper_of_mem_snakeCase (hdummy ▸ hc)
    · exact Naming.not_isUpper_of_mem_snakeCase hc
  · rw [Document.handlerNames, resolvers_of_build hb, List.map_map] at hname
    obtain ⟨m, -, rfl⟩ := List.mem_map.mp hname
    exact Naming.not_isUpper_of_mem_handlerName hc

theorem isIdentifier_fieldNames_iff
    (hfields : ∀ i, ∀ f ∈ (p.message i).fields, Naming.isFullName f.name)
    (hb : s.build o modules = .ok d) :
    (∀ name ∈ d.fieldNames, Naming.isIdentifier name) ↔
      ∀ role, ∀ i ∈ s.messages role, ∀ f ∈ (p.message i).fields, '.' ∉ f.name.toList := by
  have hsnake : ∀ i, ∀ f ∈ (p.message i).fields,
      (Naming.isIdentifier (Naming.snakeCase f.name) ↔ '.' ∉ f.name.toList) := by
    intro i f hf
    rw [Naming.isIdentifier_snakeCase, Naming.isIdentifier_iff_of_isFullName (hfields i f hf)]
  constructor
  · intro h role i hi f hf
    exact (hsnake i f hf).mp (h _ ((mem_fieldNames_of_build hb).2 ⟨role, i, hi, f, hf, rfl⟩))
  · intro h name hname
    rcases (mem_fieldNames_of_build hb).1 hname with rfl | ⟨role, i, hi, f, hf, rfl⟩
    · decide
    · exact (hsnake i f hf).mpr (h role i hi f hf)

theorem isIdentifier_methodNames_iff
    (hmethods : ∀ m ∈ s.methods,
      Naming.isFullName m.name ∧ (m.package ≠ "" → Naming.isFullName m.package))
    (hb : s.build o modules = .ok d) :
    (∀ name ∈ d.operationNames ++ d.resolverNames ++ d.handlerNames, Naming.isIdentifier name) ↔
      ∀ m ∈ s.methods, '.' ∉ m.name.toList := by
  rw [Document.resolverNames, Document.handlerNames, operationNames_of_build hb,
    resolvers_of_build hb, List.map_map, List.map_map]
  simp only [List.mem_append, List.mem_map, Function.comp_apply]
  constructor
  · intro h m hm
    obtain ⟨hname, hpackage⟩ := hmethods m hm
    exact (isIdentifier_method_iff hname hpackage).mp
      ⟨h _ (.inl (.inl ⟨m, hm, rfl⟩)), h _ (.inl (.inr ⟨m, hm, rfl⟩)), h _ (.inr ⟨m, hm, rfl⟩)⟩
  · intro h
    have hall : ∀ m ∈ s.methods, Naming.isIdentifier m.operation ∧
        Naming.isIdentifier (resolverDecl m).name ∧
        Naming.isIdentifier (resolverDecl m).handler := by
      intro m hm
      obtain ⟨hname, hpackage⟩ := hmethods m hm
      exact (isIdentifier_method_iff hname hpackage).mpr (h m hm)
    rintro name ((⟨m, hm, rfl⟩ | ⟨m, hm, rfl⟩) | ⟨m, hm, rfl⟩)
    · exact (hall m hm).1
    · exact (hall m hm).2.1
    · exact (hall m hm).2.2

/-- In a document from a pool whose full names are made of identifiers, and in
which types have full names that start with a letter, the class names are
identifiers that start with a capital and have no underscores, and the names of
fields and handlers have no capitals. The names of fields are identifiers
exactly if no field of an emitted message has a dot in its own name, and those
of operations, resolvers and handlers exactly if no method of the selection
has. -/
theorem isIdentifier_of_build {files : List Descriptor.File} (hp : Pool.ofFiles files = .ok p)
    (hnames : ∀ name ∈ p.fullNames, Naming.isFullName name)
    (hletter : ∀ name ∈ p.typeNames, name.toList.head?.any Char.isAlpha)
    (hs : ∀ m ∈ s.methods, ∃ service ∈ p.services, m ∈ service.methods)
    (hb : s.build o modules = .ok d) :
    (∀ name ∈ d.classNames, Naming.IsClassName name) ∧
    (∀ name ∈ d.fieldNames ++ d.handlerNames, ∀ c ∈ name.toList, ¬ c.isUpper) ∧
    ((∀ name ∈ d.fieldNames, Naming.isIdentifier name) ↔
      ∀ role, ∀ i ∈ s.messages role, ∀ f ∈ (p.message i).fields, '.' ∉ f.name.toList) ∧
    ((∀ name ∈ d.operationNames ++ d.resolverNames ++ d.handlerNames,
        Naming.isIdentifier name) ↔
      ∀ m ∈ s.methods, '.' ∉ m.name.toList) := by
  have htypes : ∀ name ∈ p.typeNames, Naming.isFullName name := fun name hname =>
    hnames name (List.mem_append_left _ (List.mem_append_left _ hname))
  have hmethods : ∀ m ∈ s.methods,
      Naming.isFullName m.name ∧ (m.package ≠ "" → Naming.isFullName m.package) := by
    intro m hm
    obtain ⟨service, hservice, hmem⟩ := hs m hm
    exact Pool.isFullName_method hp hnames hservice hmem
  exact ⟨isClassName_of_build htypes hletter hb, not_isUpper_of_build hb,
    isIdentifier_fieldNames_iff (fun i f hf => Pool.isFullName_field hp hnames hf) hb,
    isIdentifier_methodNames_iff hmethods hb⟩

end Selection

/-! ## A yard

Its gate has a field with a dot in its name, and so has a method for it. Its
post is written in lower case and with an underscore. -/

namespace Yard

open Selection

def file : Descriptor.File where
  name := some "yard.proto"
  package := some "yard"
  isProto3 := true
  messages := [
    { name := some "Gate"
      fields := [
        { name := some "bolt.size", number := some 1, label := some 1, type := some 5 }] },
    { name := some "old_post"
      fields := [
        { name := some "topHeight2", number := some 1, label := some 1, type := some 5 }] }]
  services := [
    { name := some "Keeper"
      methods := [
        { name := some "PaintPost", inputType := some ".yard.old_post"
          outputType := some ".yard.old_post" },
        { name := some "Open.Slowly", inputType := some ".yard.Gate"
          outputType := some ".yard.Gate" }] }]

def gate : Fin 2 := ⟨0, Nat.two_pos⟩

def post : Fin 2 := ⟨1, Nat.one_lt_two⟩

def paint : Pool.Method 2 :=
  { name := "PaintPost", service := "yard.Keeper", package := "yard"
    file := "yard.proto", input := post, output := post }

def openSlowly : Pool.Method 2 :=
  { paint with name := "Open.Slowly", input := gate, output := gate }

def pool : Pool where
  m := 2
  e := 0
  messages := #v[
    { fullName := "yard.Gate", package := "yard", file := "yard.proto"
      fields := [
        { name := "bolt.size", fullName := "yard.Gate.bolt.size", rawType := some 5
          kind := .scalar .int32, isRepeated := false }] },
    { fullName := "yard.old_post", package := "yard", file := "yard.proto"
      fields := [
        { name := "topHeight2", fullName := "yard.old_post.topHeight2", rawType := some 5
          kind := .scalar .int32, isRepeated := false }] }]
  enums := .emptyWithCapacity 0
  services := [{ fullName := "yard.Keeper", methods := [paint, openSlowly] }]

/-- The selection with one message in both roles and one query. -/
def select (i : Fin 2) (query : Pool.Method 2) : Selection pool where
  types := [i]
  inputs := [i]
  queries := [query]

def document (name field : String) (query : Pool.Method 2) : Document where
  objects := [{ name, fields := [{ name := field, type := .scalar .int }] }]
  inputs := [{ name := name ++ "Input", fields := [{ name := field, type := .scalar .int }] }]
  query := rootDecl (p := pool) queryRootName [query]

theorem ofFiles_file : Pool.ofFiles [file] = .ok pool := by decide +kernel

theorem isFullName_pool : ∀ name ∈ pool.fullNames, Naming.isFullName name := by
  decide +kernel

theorem isAlpha_pool : ∀ name ∈ pool.typeNames, name.toList.head?.any Char.isAlpha := by decide

theorem methods_select (i : Fin 2) {query : Pool.Method 2}
    (h : query ∈ [paint, openSlowly]) :
    ∀ m ∈ (select i query).methods, ∃ service ∈ pool.services, m ∈ service.methods := by
  intro m hm
  rw [List.mem_singleton.mp hm]
  exact ⟨_, List.mem_singleton_self _, h⟩

/-- Without dots in them, all names of the document are identifiers. -/
theorem isIdentifier_of_build_paint :
    Pool.ofFiles [file] = .ok pool ∧
    (∀ name ∈ pool.fullNames, Naming.isFullName name) ∧
    (∀ name ∈ pool.typeNames, name.toList.head?.any Char.isAlpha) ∧
    (∀ m ∈ (select post paint).methods, ∃ service ∈ pool.services, m ∈ service.methods) ∧
    (select post paint).build (Overrides.empty "ext") {} =
      .ok (document "YardOldPost" "top_height2" paint) ∧
    Naming.IsClassName "YardOldPostInput" ∧
    Naming.isIdentifier "top_height2" ∧
    Naming.isIdentifier "yard_paint_post" := by
  have hpaint : paint ∈ [paint, openSlowly] := List.mem_cons_self
  have hs := methods_select post hpaint
  have hb : (select post paint).build (Overrides.empty "ext") {} =
      .ok (document "YardOldPost" "top_height2" paint) := by decide +kernel
  obtain ⟨hclass, -, hfield, hmethod⟩ :=
    isIdentifier_of_build ofFiles_file isFullName_pool isAlpha_pool hs hb
  refine ⟨ofFiles_file, isFullName_pool, isAlpha_pool, hs, hb, hclass _ (by decide), ?_, ?_⟩
  · refine hfield.mpr ?_ _ (by decide)
    intro role i hi
    have hpost : i = post := by
      cases role with
      | object => exact List.mem_singleton.mp hi
      | input => exact List.mem_singleton.mp hi
    rw [hpost]
    decide
  · refine hmethod.mpr ?_ _ (by decide)
    intro m hm
    rw [List.mem_singleton.mp hm]
    decide

/-- The names with a dot are parts of full names like all others, and they are
emitted with it. -/
theorem not_isIdentifier_gate :
    Pool.ofFiles [file] = .ok pool ∧
    (∀ name ∈ pool.fullNames, Naming.isFullName name) ∧
    (∀ name ∈ pool.typeNames, name.toList.head?.any Char.isAlpha) ∧
    (∀ m ∈ (select gate openSlowly).methods, ∃ service ∈ pool.services, m ∈ service.methods) ∧
    (select gate openSlowly).build (Overrides.empty "ext") {} =
      .ok (document "YardGate" "bolt.size" openSlowly) ∧
    (document "YardGate" "bolt.size" openSlowly).operationNames = ["yard_open.slowly"] ∧
    (¬ ∀ name ∈ (document "YardGate" "bolt.size" openSlowly).fieldNames,
      Naming.isIdentifier name) ∧
    ¬ ∀ name ∈ (document "YardGate" "bolt.size" openSlowly).operationNames,
      Naming.isIdentifier name :=
  ⟨ofFiles_file, isFullName_pool, isAlpha_pool, methods_select gate (by decide),
    by decide +kernel, by decide, by decide, by decide⟩

end Yard

end ProtoSchema
