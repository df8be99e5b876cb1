import ProtoSchema.Proofs.HandlerPaths
import ProtoSchema.Proofs.MethodLookup
import ProtoSchema.Proofs.OverrideEntries
import ProtoSchema.Proofs.Unambiguous

/-!
# What a generated module uses is imported

Three places write the path of a module. The header imports it, a resolver
looks its request and its handler up in it, and a field refers to a class of
the extension module through the name that the module is bound to. The header
and the resolvers take their paths from one function, and the imports are a
sorted set of them, so each path that a resolver uses is imported, once and in
its place. The name of the extension module is computed twice, when the
overrides are loaded and when the header is written. Both times it is what
follows the last dot, and the overrides never change it afterwards.

The header is read off the text itself. Its lines come first, and none of them
has a line feed inside as long as the modules and the paths of the files have
none; what follows may be anything.
-/

namespace ProtoSchema

open ProtoSchema.Schema
open ProtoSchema.Text (OneLine)

/-! ## Lines of a text -/

theorem splitOn_lines {lines : List String} (h : ∀ line ∈ lines, OneLine line)
    (rest : List Char) :
    Text.splitOn '\n' ((lines.flatMap fun line => line.toList ++ ['\n']) ++ rest) =
      lines.map String.toList ++ Text.splitOn '\n' rest := by
  induction lines with
  | nil => rfl
  | cons line lines ih =>
      rw [List.forall_mem_cons] at h
      rw [List.flatMap_cons, List.append_assoc, List.append_assoc, List.singleton_append,
        splitOn_append h.1, ih h.2, List.map_cons, List.cons_append]

/-- The first lines of a text are its first pieces. -/
theorem pieces_join_lines {lines : List String} (h : ∀ line ∈ lines, OneLine line)
    (more : List String) :
    Text.pieces '\n' (String.join ((lines ++ more).map (· ++ "\n"))) =
      lines ++ Text.pieces '\n' (String.join (more.map (· ++ "\n"))) := by
  have hid : lines.map (String.ofList ∘ String.toList) = lines := by
    rw [← List.map_id lines, List.map_map]
    exact List.map_congr_left fun line _ => String.ofList_toList
  rw [Text.pieces, Text.pieces, Text.toList_join_lines, Text.toList_join_lines,
    List.flatMap_append, splitOn_lines h, List.map_append, List.map_map, hid]

/-! ## Modules of files -/

theorem eq_of_dropStart? {start text rest : List Char}
    (h : Text.dropStart? start text = some rest) : text = start ++ rest := by
  induction start generalizing text with
  | nil => exact Option.some.inj h
  | cons c start ih =>
      cases text with
      | nil => cases h
      | cons d text =>
          rw [Text.dropStart?] at h
          split at h
          · next hcd => rw [hcd, ih h, List.cons_append]
          · cases h

theorem eq_of_dropStop? {stop text rest : List Char}
    (h : Text.dropStop? stop text = some rest) : text = rest ++ stop := by
  obtain ⟨reversed, hdrop, rfl⟩ := Option.map_eq_some_iff.mp h
  rw [← List.reverse_reverse text, eq_of_dropStart? hdrop, List.reverse_append,
    List.reverse_reverse]

theorem oneLine_moduleOfFile {file : String} (h : OneLine file) :
    OneLine (Pool.moduleOfFile file) := by
  have hstem : '\n' ∉ (Text.dropStop? ".proto".toList file.toList).getD file.toList := by
    cases hdrop : Text.dropStop? ".proto".toList file.toList with
    | none => exact h
    | some stem =>
        rw [OneLine, eq_of_dropStop? hdrop, List.mem_append, not_or] at h
        exact h.1
  rw [Pool.moduleOfFile, Text.oneLine_append]
  refine ⟨?_, by decide⟩
  rw [OneLine, String.toList_ofList]
  intro hmem
  obtain ⟨c, hc, heq⟩ := List.mem_map.mp hmem
  split at heq
  · cases heq
  · exact hstem (heq ▸ hc)

/-! ## The header -/

namespace Schema

/-- The order of the imports is strict. -/
theorem pairwise_insertSorted {s : String} {l : List String} (h : l.Pairwise (· < ·)) :
    (insertSorted s l).Pairwise (· < ·) := by
  induction l with
  | nil => exact List.pairwise_singleton _ s
  | cons t l ih =>
      obtain ⟨ht, hl⟩ := List.pairwise_cons.mp h
      rw [insertSorted]
      split
      · exact h
      · next hne =>
          split
          · next hlt =>
              refine List.pairwise_cons.mpr ⟨List.forall_mem_cons.mpr ⟨hlt, ?_⟩, h⟩
              exact fun u hu => String.lt_trans hlt (ht u hu)
          · next hnlt =>
              have hts : t < s := by
                refine String.not_le.mp fun hle => hne ?_
                exact String.le_antisymm hle (String.not_lt.mp hnlt)
              refine List.pairwise_cons.mpr ⟨fun u hu => ?_, ih hl⟩
              rcases mem_insertSorted.mp hu with rfl | hu
              · exact hts
              · exact ht u hu

namespace Document

theorem pairwise_imports (d : Document) : d.imports.Pairwise (· < ·) := by
  have hfold : ∀ (needed sorted : List String), sorted.Pairwise (· < ·) →
      (needed.foldl (fun acc s => insertSorted s acc) sorted).Pairwise (· < ·) := by
    intro needed
    induction needed with
    | nil => exact fun sorted h => h
    | cons s needed ih => exact fun sorted h => ih _ (pairwise_insertSorted h)
  exact hfold _ [] List.Pairwise.nil

/-- The text of a document starts with its imports, one on each line. -/
theorem pieces_render {d : Document} (hm : d.modules.areLines)
    (hr : ∀ r ∈ d.resolvers, OneLine r.protoModule) :
    ∃ rest, Text.pieces '\n' d.render = "import graphene" ::
      (d.imports.map ("import " ++ ·) ++ extensionImport d.modules :: rest) := by
  have hlines : ∀ line ∈ d.importLines, OneLine line :=
    fun line hline => (isImportLine_importLines hm hr line hline).2
  rw [render, lines_eq, pieces_join_lines hlines, importLines, List.cons_append, List.append_assoc]
  exact ⟨_, rfl⟩

end Document

/-- The line of a resolver that makes the request. -/
def ResolverDecl.requestLine (m : Modules) (r : ResolverDecl) : String :=
  "        request_message = " ++ Document.protoPath m r ++ "." ++ r.requestClass ++ "()"

theorem ResolverDecl.requestLine_mem_lines (m : Modules) (r : ResolverDecl) :
    r.requestLine m ∈ r.lines m :=
  List.mem_cons_of_mem _ (List.mem_cons_of_mem _ (List.mem_cons_of_mem _ List.mem_cons_self))

/-- The line imports the extension module and binds it to the name, which is
what follows the last dot. -/
inductive Modules.BindsExtensions (m : Modules) : (line name : String) → Prop
  | leaf {parent name : String} (hpath : m.extensions = parent ++ "." ++ name)
      (hname : '.' ∉ name.toList) :
      BindsExtensions m ("from " ++ parent ++ " import " ++ name) name
  | whole (hpath : '.' ∉ m.extensions.toList) :
      BindsExtensions m ("import " ++ m.extensions) m.extensions

/-- The overrides and the header take the same name from the path. -/
theorem Modules.bindsExtensions (m : Modules) :
    m.BindsExtensions (Document.extensionImport m) m.extensionsName := by
  have hdot : ".".toList = ['.'] := by decide
  rw [Document.extensionImport, extensionsName]
  cases hcut : Text.cutLast? '.' m.extensions with
  | none => exact .whole (Text.cutLast?_eq_none.mp hcut)
  | some parts =>
      obtain ⟨hpath, hname⟩ := (Text.cutLast?_eq_some hdot).mp hcut
      exact .leaf hpath hname

end Schema

/-! ## Classes of the extension module -/

theorem module_of_reference {o : Overrides} {name module n : String}
    (h : o.reference name = .extension module n) : module = o.module := by
  rw [Overrides.reference] at h
  split at h
  · exact (Reference.extension.inj h).1.symm
  · cases h

theorem module_of_fieldExpr {p : Pool} {o : Overrides} {role : Role} {f : Pool.Field p.m p.e}
    {t : TypeExpr} {module n : String} (h : fieldExpr p o role f = .ok t)
    (ht : t.reference? = some (.extension module n)) : module = o.module := by
  obtain ⟨type, -, h⟩ := bind_eq_ok.mp h
  split at h
  · rw [← Except.ok.inj h, reference?_namedExpr] at ht
    exact module_of_reference (Option.some.inj ht)
  · rw [← Except.ok.inj h, reference?_namedExpr] at ht
    exact module_of_reference (Option.some.inj ht)
  · rw [← Except.ok.inj h, reference?_namedExpr] at ht
    exact module_of_reference (Option.some.inj ht)
  · rw [reference?_scalarExpr h] at ht
    cases ht

namespace Selection

variable {p : Pool} {o : Overrides}

theorem module_of_classDecl {role : Role} {i : Fin p.m} {c : ClassDecl}
    (h : classDecl o role i = .ok c) {f : FieldDecl} (hf : f ∈ c.fields) {module n : String}
    (ht : f.type.reference? = some (.extension module n)) : module = o.module := by
  obtain ⟨fields, hfields, h⟩ := bind_eq_ok.mp h
  obtain rfl := Except.ok.inj h
  rw [ClassDecl.ofFields] at hf
  split at hf
  · rw [List.mem_singleton.mp hf] at ht
    cases ht
  · obtain ⟨g, -, hg⟩ := exists_step_of_mapM hfields hf
    obtain ⟨t, hexpr, hg⟩ := bind_eq_ok.mp hg
    obtain rfl := Except.ok.inj hg
    exact module_of_fieldExpr hexpr ht

theorem module_of_build {s : Selection p} {modules : Modules} {d : Document}
    (h : s.build o modules = .ok d) {role : Role} {c : ClassDecl} (hc : c ∈ d.classes role)
    {f : FieldDecl} (hf : f ∈ c.fields) {module n : String}
    (ht : f.type.reference? = some (.extension module n)) : module = o.module := by
  obtain ⟨i, -, hi⟩ := exists_step_of_mapM (classes_of_build h role) hc
  exact module_of_classDecl hi hf ht

end Selection

theorem module_of_loadOverrides {files : FileTree} {c : Config} {o : Overrides}
    (h : c.loadOverrides files = .ok o) : o.module = c.modules.extensionsName := by
  rw [Config.loadOverrides] at h
  split at h
  · obtain ⟨text, -, h⟩ := bind_eq_ok.mp h
    obtain ⟨ds, -, h⟩ := bind_eq_ok.mp h
    rw [(Overrides.ofDeclarations_eq_ok.mp h).2]
  · rw [← Except.ok.inj h]
    rfl

/-! ## From the configuration to the text -/

theorem Selection.generate_eq_ok {p : Pool} {s : Selection p} {o : Overrides} {c : Config}
    {text : String} :
    s.generate o c = .ok text ↔
      (c.validate → s.validate = .ok ()) ∧ ∃ d, s.build o c.modules = .ok d ∧ text = d.render := by
  have hsynthesize : s.synthesize o c.modules = .ok text ↔
      ∃ d, s.build o c.modules = .ok d ∧ text = d.render := by
    rw [synthesize, bind_eq_ok]
    refine exists_congr fun d => and_congr_right fun _ => ?_
    exact ⟨fun h => (Except.ok.inj h).symm, fun h => congrArg _ h.symm⟩
  rw [← hsynthesize, generate]
  cases c.validate with
  | false => simp
  | true =>
      simp only [forall_const, ↓reduceIte]
      rw [bind_eq_ok]
      constructor
      · rintro ⟨⟨⟩, hv, h⟩
        exact ⟨hv, h⟩
      · rintro ⟨hv, h⟩
        exact ⟨(), hv, h⟩

theorem generate_eq_ok {files : FileTree} {p : Pool} {c : Config} {text : String} :
    generate files p c = .ok text ↔
      ∃ o s, c.loadOverrides files = .ok o ∧
        Selection.ofNames p c.queries c.mutations = .ok s ∧ s.generate o c = .ok text := by
  rw [generate, bind_eq_ok]
  refine exists_congr fun o => ?_
  rw [bind_eq_ok]
  exact exists_and_left.symm

/-- The methods of a selection by names are methods of the pool. -/
theorem mem_services_of_ofNames {p : Pool} {queries mutations : List String} {s : Selection p}
    (h : Selection.ofNames p queries mutations = .ok s) {m : Pool.Method p.m}
    (hm : m ∈ s.methods) : ∃ service ∈ p.services, m ∈ service.methods := by
  obtain ⟨qs, hqs, h⟩ := bind_eq_ok.mp h
  obtain ⟨ms, hms, h⟩ := bind_eq_ok.mp h
  obtain rfl := Except.ok.inj h
  have hfound : ∃ name, p.findMethod name = .ok m := by
    rw [Selection.methods_eq_ofOperations, List.mem_append, List.mem_eraseDups,
      List.mem_eraseDups] at hm
    rcases hm with hm | hm
    · obtain ⟨name, -, hname⟩ := exists_step_of_mapM hqs hm
      exact ⟨name, hname⟩
    · obtain ⟨name, -, hname⟩ := exists_step_of_mapM hms hm
      exact ⟨name, hname⟩
  obtain ⟨name, hname⟩ := hfound
  obtain ⟨_, _, service, -, hservice, hmethod⟩ :=
    Pool.findMethod?_eq_some.mp (Pool.findMethod_eq_ok.mp hname)
  exact ⟨service, List.mem_of_find?_eq_some hservice, List.mem_of_find?_eq_some hmethod⟩

/-- Between the first line of a generated text and the import of the extension
module stand, in strictly increasing order, the imports of exactly the modules
that its resolvers use: those of their requests, and the handlers if there is a
resolver. And a field refers to a class of the extension module by the name
that the import binds. -/
theorem generate_imports_used_modules {files : FileTree} {p : Pool} {c : Config} {text : String}
    (hg : generate files p c = .ok text) (hm : c.modules.areLines)
    (hfiles : ∀ service ∈ p.services, ∀ m ∈ service.methods, OneLine m.file) :
    ∃ o s d, c.loadOverrides files = .ok o ∧
      Selection.ofNames p c.queries c.mutations = .ok s ∧ s.build o c.modules = .ok d ∧
      text = d.render ∧ d.resolvers = s.methods.map Selection.resolverDecl ∧
      ∃ (imports : List String) (line name : String) (rest : List String),
        Text.pieces '\n' text =
          "import graphene" :: (imports.map ("import " ++ ·) ++ line :: rest) ∧
        imports.Pairwise (· < ·) ∧
        (∀ path, path ∈ imports ↔
          (∃ r ∈ d.resolvers, path = c.modules.proto ++ "." ++ r.protoModule) ∨
          (d.resolvers ≠ [] ∧ path = c.modules.handlers)) ∧
        (∀ r ∈ d.resolvers, Document.protoPath c.modules r ∈ imports ∧
          r.requestLine c.modules ∈ d.lines ∧
          c.modules.handlers ∈ imports ∧ r.callLine c.modules ∈ d.lines) ∧
        c.modules.BindsExtensions line name ∧
        ∀ role, ∀ cls ∈ d.classes role, ∀ f ∈ cls.fields, ∀ module n,
          f.type.reference? = some (.extension module n) → module = name := by
  obtain ⟨o, s, ho, hs, hg⟩ := generate_eq_ok.mp hg
  obtain ⟨-, d, hb, rfl⟩ := Selection.generate_eq_ok.mp hg
  have hresolvers := Selection.resolvers_of_build hb
  obtain ⟨-, -, hmodules, -⟩ := Selection.build_eq_ok.mp hb
  have hlines : ∀ r ∈ d.resolvers, OneLine r.protoModule := by
    intro r hr
    rw [hresolvers] at hr
    obtain ⟨m, hmethod, rfl⟩ := List.mem_map.mp hr
    obtain ⟨service, hservice, hmem⟩ := mem_services_of_ofNames hs hmethod
    exact oneLine_moduleOfFile (hfiles service hservice m hmem)
  refine ⟨o, s, d, ho, hs, hb, rfl, hresolvers, ?_⟩
  rw [← hmodules] at hm ⊢
  obtain ⟨rest, hpieces⟩ := Document.pieces_render hm hlines
  refine ⟨d.imports, _, d.modules.extensionsName, rest, hpieces, d.pairwise_imports,
    fun path => Document.mem_imports, fun r hr => ?_, d.modules.bindsExtensions,
    fun role cls hcls f hf module n href => ?_⟩
  · refine ⟨Document.mem_imports.mpr (.inl ⟨r, hr, rfl⟩),
      Document.mem_lines_of_resolver hr (r.requestLine_mem_lines _),
      Document.mem_imports.mpr (.inr ⟨List.ne_nil_of_mem hr, rfl⟩),
      Document.callLine_mem_lines hr⟩
  · rw [Selection.module_of_build hb hcls hf href, module_of_loadOverrides ho, hmodules]

/-! ## A mill

A mill grinds grain to flour, which knows its grain. The grain is a
hand-written class. -/

namespace Mill

def grain : Pool.Field 2 0 :=
  { name := "grain", fullName := "mill.Flour.grain", rawType := some 11
    kind := .message ⟨0, Nat.two_pos⟩, isRepeated := true }

def grind : Pool.Method 2 :=
  { name := "Grind", service := "mill.Wheel", package := "mill", file := "sites/mill.proto"
    input := ⟨0, Nat.two_pos⟩, output := Fin.last 1 }

def pool : Pool where
  m := 2
  e := 0
  messages := #v[
    { fullName := "mill.Grain", package := "mill", file := "sites/mill.proto", fields := [] },
    { fullName := "mill.Flour", package := "mill", file := "sites/mill.proto", fields := [grain] }]
  enums := .emptyWithCapacity 0
  services := [{ fullName := "mill.Wheel", methods := [grind] }]

def files : FileTree :=
  { entries := [(["ext.py"], .file (Wire.writeText "class Grain(MillGrain): pass\n"))] }

def config : Config :=
  { extensions := some "ext.py", mutations := ["mill.Wheel.Grind"]
    modules := { handlers := "mill", extensions := "mill.ext" } }

def overrides : Overrides :=
  { module := "ext", entries := [("MillGrain", "Grain")] }

def selection : Selection pool :=
  { types := [Fin.last 1, ⟨0, Nat.two_pos⟩], inputs := [⟨0, Nat.two_pos⟩], mutations := [grind] }

def document : Document where
  modules := config.modules
  objects := [
    { name := "MillFlour"
      fields := [{ name := "grain", type := .nonNullList (.extension "ext" "Grain") }] },
    { name := "MillGrain", fields := [.dummy] }]
  inputs := [{ name := "MillGrainInput", fields := [.dummy] }]
  mutation := Selection.rootDecl (p := pool) mutationRootName [grind]

/-- The modules of the one resolver are imported, and the grain is referred to
by what the last import binds. -/
theorem generate_imports_used_modules_mill :
    generate files pool config = .ok document.render ∧
    ∃ (imports : List String) (line name : String) (rest : List String),
      Text.pieces '\n' document.render =
        "import graphene" :: (imports.map ("import " ++ ·) ++ line :: rest) ∧
      imports.Pairwise (· < ·) ∧
      (∀ path, path ∈ imports ↔ path = "protos.sites.mill_pb2" ∨ path = "mill") ∧
      config.modules.BindsExtensions line name ∧ name = "ext" := by
  have ho : config.loadOverrides files = .ok overrides := by decide +kernel
  have hs : Selection.ofNames pool config.queries config.mutations = .ok selection := by
    simp only [Selection.ofNames, Selection.ofOperations_eq_layers]
    decide +kernel
  have hv : selection.validate = .ok () := by decide +kernel
  have hb : selection.build overrides config.modules = .ok document := by decide +kernel
  have hg : generate files pool config = .ok document.render :=
    generate_eq_ok.mpr ⟨_, _, ho, hs,
      Selection.generate_eq_ok.mpr ⟨fun _ => hv, _, hb, rfl⟩⟩
  obtain ⟨o, s, d, ho', hs', hb', -, -, imports, line, name, rest, hpieces, hordered, hmem, -,
    hbinds, href⟩ := generate_imports_used_modules hg (by decide) (by decide)
  obtain rfl := Except.ok.inj (ho.symm.trans ho')
  obtain rfl := Except.ok.inj (hs.symm.trans hs')
  obtain rfl := Except.ok.inj (hb.symm.trans hb')
  refine ⟨hg, imports, line, name, rest, hpieces, hordered, fun path => ?_, hbinds, ?_⟩
  · have hresolvers : document.resolvers = [Selection.resolverDecl (p := pool) grind] := rfl
    have hmodule : (Selection.resolverDecl (p := pool) grind).protoModule = "sites.mill_pb2" := by
      decide
    rw [hmem, hresolvers]
    simp [hmodule, config]
  · exact (href .object _ List.mem_cons_self _ List.mem_cons_self _ _ rfl).symm

end Mill

end ProtoSchema
