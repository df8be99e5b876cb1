import ProtoSchema.Proofs.UniqueLines

/-!
# The text of a module determines its declarations

Two documents with the same modules that are rendered to the same text have
the same declarations. The text is taken apart in three steps. It is cut into
lines, since no name has a line feed inside. The lines are cut into a header,
which ends with the first empty line, and into sections, each of which starts
with a class statement; nothing else starts with the word `class`, because the
lines of a class body are empty or indented. Then each section is read on its
own: the base in its first line says which kind of declaration it is, and the
last two sections are the roots, whatever the classes before them are called.
-/

namespace ProtoSchema.Schema

open ProtoSchema.Text

/-! ## Sections

A section is a class statement and all that follows it, up to the empty line
in front of the next class statement. -/

/-- Whether a line starts like a class statement. In a section this tells it
from the other lines, which are empty or indented. -/
def startsClass (line : String) : Bool :=
  line.toList.head? = some 'c'

/-- A line that may follow a class statement. -/
def IsBodyLine (line : String) : Prop :=
  ¬ startsClass line ∧ OneLine line

/-- A class statement and its body. -/
def IsSection (lines : List String) : Prop :=
  ∃ head body, lines = head :: body ∧ startsClass head ∧ OneLine head ∧
    ∀ line ∈ body, IsBodyLine line

theorem IsSection.isGroup {s : List String} (h : IsSection s) :
    IsGroup (startsClass ·) (s ++ [""]) := by
  obtain ⟨head, body, rfl, hhead, -, hbody⟩ := h
  refine ⟨head, body ++ [""], rfl, hhead, fun line hline => ?_⟩
  rcases List.mem_append.mp hline with hline | hline
  · exact (hbody line hline).1
  · rw [List.mem_singleton.mp hline]
    decide

theorem IsSection.oneLine {s : List String} (h : IsSection s) : ∀ line ∈ s, OneLine line := by
  obtain ⟨head, body, rfl, -, hhead, hbody⟩ := h
  exact List.forall_mem_cons.mpr ⟨hhead, fun line hline => (hbody line hline).2⟩

theorem flatten_shifted (ss : List (List String)) :
    "" :: (ss.map (· ++ [""])).flatten = ss.flatMap ("" :: ·) ++ [""] := by
  induction ss with
  | nil => rfl
  | cons s ss ih =>
      rw [List.map_cons, List.flatten_cons, List.flatMap_cons, List.append_assoc,
        List.append_assoc, ← ih]
      rfl

/-- Sections are determined by their lines. The empty line in front of each is
moved behind it, so that a section ends where the next class statement is. -/
theorem sections_unique {ss ss' : List (List String)} (h : ∀ s ∈ ss, IsSection s)
    (h' : ∀ s ∈ ss', IsSection s)
    (heq : ss.flatMap ("" :: ·) = ss'.flatMap ("" :: ·)) : ss = ss' := by
  have hflat : (ss.map (· ++ [""])).flatten = (ss'.map (· ++ [""])).flatten := by
    have hall := congrArg (· ++ [""]) heq
    simp only [← flatten_shifted] at hall
    exact (List.cons.inj hall).2
  have hgroups : ∀ {ss : List (List String)}, (∀ s ∈ ss, IsSection s) →
      ∀ g ∈ ss.map (· ++ [""]), IsGroup (startsClass ·) g := by
    intro ss h g hg
    obtain ⟨s, hs, rfl⟩ := List.mem_map.mp hg
    exact (h s hs).isGroup
  exact map_inj_of_forall (fun s _ s' _ => List.append_cancel_right)
    (groups_unique (hgroups h) (hgroups h') hflat)

/-! ## The sections of a document -/

theorem isBodyLine_empty : IsBodyLine "" :=
  ⟨by decide, by decide⟩

/-- Whatever is indented is no class statement. -/
theorem isBodyLine_indented {start rest : String} (hstart : start.toList.head? = some ' ')
    (h : OneLine (start ++ rest)) : IsBodyLine (start ++ rest) := by
  refine ⟨?_, h⟩
  obtain ⟨c, cs, hcs⟩ : ∃ c cs, start.toList = c :: cs :=
    List.exists_cons_of_ne_nil fun hnil => by rw [hnil] at hstart; cases hstart
  rw [hcs] at hstart
  obtain rfl : c = ' ' := Option.some.inj hstart
  rw [startsClass, String.toList_append, hcs]
  simp

theorem isBodyLine_memberLine {name value : String} (h : isWord name) (hv : OneLine value) :
    IsBodyLine (memberLine name value) := by
  simp only [memberLine, String.append_assoc]
  refine isBodyLine_indented (by decide) ?_
  simp only [oneLine_append]
  exact ⟨by decide, oneLine_of_isWord h, by decide, hv⟩

theorem isSection_classLine {name base : String} (h : isWord name) (hb : OneLine base)
    {body : List String} (hbody : ∀ line ∈ body, IsBodyLine line) :
    IsSection (classLine name base :: body) := by
  refine ⟨_, body, rfl, ?_, ?_, hbody⟩
  · simp only [classLine, startsClass, String.append_assoc, String.toList_append]
    rfl
  · simp only [classLine, oneLine_append]
    exact ⟨⟨⟨⟨by decide, oneLine_of_isWord h⟩, by decide⟩, hb⟩, by decide⟩

def EnumDecl.sectionLines (e : EnumDecl) : List String :=
  classLine e.name "Enum" :: (e.members.map (fun m => memberLine m ("'" ++ m ++ "'")) ++ [""])

def ClassDecl.sectionLines (base : String) (c : ClassDecl) : List String :=
  classLine c.name base :: (c.fields.map (fun f => memberLine f.name f.type.text) ++ [""])

/-- The fields of a root. -/
def RootDecl.operationLines (r : RootDecl) : List String :=
  if r.operations.isEmpty then [memberLine "dummy" TypeExpr.placeholder.text]
  else r.operations.map OperationDecl.line

def RootDecl.sectionLines (m : Modules) (r : RootDecl) : List String :=
  classLine r.name "ObjectType" :: (r.operationLines ++ r.resolvers.flatMap (ResolverDecl.lines m))

theorem EnumDecl.lines_eq (e : EnumDecl) : e.lines = "" :: e.sectionLines :=
  rfl

theorem ClassDecl.lines_eq (base : String) (c : ClassDecl) :
    c.lines base = "" :: c.sectionLines base :=
  rfl

theorem EnumDecl.isSection {e : EnumDecl} (h : e.isWellNamed) : IsSection e.sectionLines := by
  rw [EnumDecl.isWellNamed_iff] at h
  refine isSection_classLine h.1 (by decide) fun line hline => ?_
  rcases List.mem_append.mp hline with hline | hline
  · obtain ⟨m, hm, rfl⟩ := List.mem_map.mp hline
    refine isBodyLine_memberLine (h.2 m hm) ?_
    simp only [oneLine_append]
    exact ⟨⟨by decide, oneLine_of_isWord (h.2 m hm)⟩, by decide⟩
  · rw [List.mem_singleton.mp hline]
    exact isBodyLine_empty

theorem Reference.oneLine_text {r : Reference} (h : r.isWellNamed) : OneLine r.text := by
  cases r with
  | generated name => exact oneLine_of_isWord h
  | extension module name =>
      rw [Reference.isWellNamed, Bool.and_eq_true] at h
      simp only [Reference.text, oneLine_append]
      exact ⟨⟨oneLine_of_isWord h.1, by decide⟩, oneLine_of_isWord h.2⟩

theorem TypeExpr.oneLine_text {t : TypeExpr} (h : t.isWellNamed) : OneLine t.text := by
  have hscalar : ∀ s : Scalar, OneLine s.text := by
    intro s
    cases s <;> decide
  cases t with
  | scalar s => exact oneLine_append.mpr ⟨hscalar s, by decide⟩
  | scalarList s =>
      exact oneLine_append.mpr ⟨oneLine_append.mpr ⟨by decide, hscalar s⟩, by decide⟩
  | field r =>
      exact oneLine_append.mpr ⟨oneLine_append.mpr ⟨by decide, r.oneLine_text h⟩, by decide⟩
  | inputField r =>
      exact oneLine_append.mpr ⟨oneLine_append.mpr ⟨by decide, r.oneLine_text h⟩, by decide⟩
  | nonNullList r =>
      exact oneLine_append.mpr ⟨oneLine_append.mpr ⟨by decide, r.oneLine_text h⟩, by decide⟩
  | placeholder => decide +kernel

theorem ClassDecl.isSection {c : ClassDecl} (h : c.isWellNamed) {base : String}
    (hb : OneLine base) : IsSection (c.sectionLines base) := by
  rw [ClassDecl.isWellNamed_iff] at h
  refine isSection_classLine h.1 hb fun line hline => ?_
  rcases List.mem_append.mp hline with hline | hline
  · obtain ⟨f, hf, rfl⟩ := List.mem_map.mp hline
    obtain ⟨hname, htype⟩ := FieldDecl.isWellNamed_iff.mp (h.2 f hf)
    exact isBodyLine_memberLine hname (f.type.oneLine_text htype)
  · rw [List.mem_singleton.mp hline]
    exact isBodyLine_empty

theorem OperationDecl.isBodyLine {o : OperationDecl} (h : o.isWellNamed) :
    IsBodyLine o.line := by
  obtain ⟨hname, houtput, hinput⟩ := OperationDecl.isWellNamed_iff.mp h
  refine isBodyLine_memberLine hname ?_
  simp only [oneLine_append]
  exact ⟨⟨⟨⟨by decide, oneLine_of_isWord houtput⟩, by decide⟩, oneLine_of_isWord hinput⟩,
    by decide⟩

theorem RootDecl.isBodyLine_operationLines {r : RootDecl} (h : r.isWellNamed) :
    ∀ line ∈ r.operationLines, IsBodyLine line := by
  rw [RootDecl.isWellNamed_iff] at h
  intro line hline
  rw [operationLines] at hline
  split at hline
  · rw [List.mem_singleton.mp hline]
    exact isBodyLine_memberLine (by decide) (TypeExpr.oneLine_text (by decide))
  · obtain ⟨o, ho, rfl⟩ := List.mem_map.mp hline
    exact o.isBodyLine (h.2.1 o ho)

theorem ResolverDecl.isBodyLine {m : Modules} (hm : m.areLines) {r : ResolverDecl}
    (h : r.isWellNamed) : ∀ line ∈ r.lines m, IsBodyLine line := by
  obtain ⟨hname, hmodule, hclass, hhandler⟩ := ResolverDecl.isWellNamed_iff.mp h
  obtain ⟨hproto, hhandlers, -⟩ := Modules.areLines_iff.mp hm
  simp only [ResolverDecl.lines, Document.protoPath, String.append_assoc, List.forall_mem_cons]
  refine ⟨isBodyLine_empty, ?_, ?_, ?_, ?_, ?_, ?_⟩
  · refine isBodyLine_indented (by decide) ?_
    simp only [oneLine_append]
    exact ⟨by decide, hname, by decide⟩
  · exact ⟨by decide, by decide⟩
  · refine isBodyLine_indented (by decide) ?_
    simp only [oneLine_append]
    exact ⟨by decide, hproto, by decide, hmodule, by decide, hclass, by decide⟩
  · exact ⟨by decide, by decide⟩
  · refine isBodyLine_indented (by decide) ?_
    simp only [oneLine_append]
    exact ⟨by decide, hhandlers, by decide, hhandler, by decide⟩
  · exact fun line hline => absurd hline List.not_mem_nil

theorem RootDecl.isSection {m : Modules} (hm : m.areLines) {r : RootDecl} (h : r.isWellNamed)
    {tail : List String} (htail : ∀ line ∈ tail, line = "") :
    IsSection (r.sectionLines m ++ tail) := by
  obtain ⟨hname, -, hresolvers⟩ := RootDecl.isWellNamed_iff.mp h
  show IsSection (classLine r.name "ObjectType" ::
    (r.operationLines ++ r.resolvers.flatMap (ResolverDecl.lines m) ++ tail))
  refine isSection_classLine hname (by decide) fun line hline => ?_
  simp only [List.mem_append, List.mem_flatMap] at hline
  rcases hline with (hline | ⟨r', hr', hline⟩) | hline
  · exact r.isBodyLine_operationLines h line hline
  · exact r'.isBodyLine hm (hresolvers r' hr') line hline
  · rw [htail line hline]
    exact isBodyLine_empty

/-! ## Sections that are the same -/

theorem EnumDecl.sectionLines_unique {e e' : EnumDecl} (h : e.isWellNamed)
    (h' : e'.isWellNamed) (heq : e.sectionLines = e'.sectionLines) : e = e' := by
  rw [EnumDecl.isWellNamed_iff] at h h'
  obtain ⟨hclass, hbody⟩ := List.cons.inj heq
  have hname := (classLine_unique h.1 h'.1 hclass).1
  have hmembers := map_inj_of_forall
    (fun m hm m' hm' => EnumDecl.member_unique (h.2 m hm) (h'.2 m' hm'))
    (List.append_cancel_right hbody)
  cases e
  cases e'
  cases hname
  cases hmembers
  rfl

theorem ClassDecl.sectionLines_unique {base : String} {c c' : ClassDecl} (h : c.isWellNamed)
    (h' : c'.isWellNamed) (heq : c.sectionLines base = c'.sectionLines base) : c = c' := by
  rw [ClassDecl.isWellNamed_iff] at h h'
  obtain ⟨hclass, hbody⟩ := List.cons.inj heq
  have hname := (classLine_unique h.1 h'.1 hclass).1
  have hfields := map_inj_of_forall
    (fun f hf f' hf' => FieldDecl.line_unique (h.2 f hf) (h'.2 f' hf'))
    (List.append_cancel_right hbody)
  cases c
  cases c'
  cases hname
  cases hfields
  rfl

theorem RootDecl.operationLines_unique {r r' : RootDecl} (h : r.isWellNamed)
    (h' : r'.isWellNamed) (heq : r.operationLines = r'.operationLines) :
    r.operations = r'.operations := by
  rw [RootDecl.isWellNamed_iff] at h h'
  rw [operationLines, operationLines] at heq
  split at heq
  next hempty =>
    split at heq
    next hempty' => rw [List.isEmpty_iff.mp hempty, List.isEmpty_iff.mp hempty']
    next =>
      obtain ⟨o, ho, hline⟩ := List.mem_map.mp (heq ▸ List.mem_singleton_self _)
      exact absurd hline (OperationDecl.line_ne_dummy (h'.2.1 o ho))
  next =>
    split at heq
    next =>
      obtain ⟨o, ho, hline⟩ := List.mem_map.mp (heq ▸ List.mem_singleton_self _)
      exact absurd hline (OperationDecl.line_ne_dummy (h.2.1 o ho))
    next =>
      exact map_inj_of_forall
        (fun o ho o' ho' => OperationDecl.line_unique (h.2.1 o ho) (h'.2.1 o' ho')) heq

theorem memberLine_ne_empty (name value : String) : memberLine name value ≠ "" := by
  simp only [memberLine, String.append_assoc]
  exact append_ne_empty (by decide) _

theorem RootDecl.operationLines_ne_empty {r : RootDecl} {line : String}
    (h : line ∈ r.operationLines) : line ≠ "" := by
  rw [operationLines] at h
  split at h
  · rw [List.mem_singleton.mp h]
    exact memberLine_ne_empty _ _
  · obtain ⟨o, -, rfl⟩ := List.mem_map.mp h
    exact memberLine_ne_empty _ _

/-- The resolvers of a root start with an empty line, if there are any. -/
theorem head_resolvers {m : Modules} {rs : List ResolverDecl} :
    ∀ line ∈ (rs.flatMap (ResolverDecl.lines m)).head?, ¬ line ≠ "" := by
  cases rs with
  | nil => exact fun line hline => nomatch hline
  | cons r rs => exact fun line hline hne => hne (Option.some.inj hline).symm

theorem RootDecl.sectionLines_unique {m : Modules} {r r' : RootDecl} (h : r.isWellNamed)
    (h' : r'.isWellNamed) (heq : r.sectionLines m = r'.sectionLines m) :
    r.name = r'.name ∧ r.operations = r'.operations ∧
      r.resolvers.map ResolverDecl.signature = r'.resolvers.map ResolverDecl.signature := by
  obtain ⟨hclass, hbody⟩ := List.cons.inj heq
  have hname := (RootDecl.isWellNamed_iff.mp h).1
  have hname' := (RootDecl.isWellNamed_iff.mp h').1
  obtain ⟨hoperations, hresolvers⟩ := span_unique (p := (· ≠ ""))
    (fun _ => RootDecl.operationLines_ne_empty) (fun _ => RootDecl.operationLines_ne_empty)
    head_resolvers head_resolvers hbody
  refine ⟨(classLine_unique hname hname' hclass).1, r.operationLines_unique h h' hoperations, ?_⟩
  have hlines : r.resolvers.map (ResolverDecl.lines m) = r'.resolvers.map (ResolverDecl.lines m) :=
    map_eq_of_flatMap (n := 5) (fun _ => rfl) hresolvers
  exact map_eq_of_forall (fun _ _ _ _ => ResolverDecl.lines_unique) hlines

/-! ## The header -/

theorem mem_insertSorted {s t : String} {l : List String} :
    t ∈ insertSorted s l ↔ t = s ∨ t ∈ l := by
  induction l with
  | nil => rw [insertSorted, List.mem_cons]
  | cons u l ih =>
      rw [insertSorted]
      split
      next hsu =>
        rw [hsu]
        exact ⟨Or.inr, fun h => h.elim (fun heq => heq ▸ List.mem_cons_self) id⟩
      next =>
        split
        next => exact List.mem_cons
        next => rw [List.mem_cons, ih, List.mem_cons, or_left_comm]

theorem mem_foldl_insertSorted {needed sorted : List String} {t : String} :
    t ∈ needed.foldl (fun acc s => insertSorted s acc) sorted ↔ t ∈ needed ∨ t ∈ sorted := by
  induction needed generalizing sorted with
  | nil => simp
  | cons s needed ih =>
      rw [List.foldl_cons, ih, mem_insertSorted, List.mem_cons, or_left_comm, or_assoc]

namespace Document

/-- The header without the empty line that ends it. -/
def importLines (d : Document) : List String :=
  "import graphene" :: (d.imports.map ("import " ++ ·) ++
  [extensionImport d.modules,
   "from " ++ d.modules.scalars ++ " import LongString",
   "from " ++ d.modules.parseDict ++ " import parse_dict"])

/-- The imports are what the resolvers need: the modules of their requests, and
the handlers if there is anything to handle. -/
theorem mem_imports {d : Document} {path : String} :
    path ∈ d.imports ↔ (∃ r ∈ d.resolvers, path = protoPath d.modules r) ∨
      (d.resolvers ≠ [] ∧ path = d.modules.handlers) := by
  have hhandlers : path ∈ (if d.resolvers.isEmpty then [] else [d.modules.handlers]) ↔
      d.resolvers ≠ [] ∧ path = d.modules.handlers := by
    cases d.resolvers <;> simp
  rw [imports, mem_foldl_insertSorted, List.mem_append, hhandlers, List.mem_map]
  simp only [List.not_mem_nil, or_false, eq_comm]

theorem oneLine_imports {d : Document} (hm : d.modules.areLines)
    (hr : ∀ r ∈ d.resolvers, OneLine r.protoModule) {path : String} (h : path ∈ d.imports) :
    OneLine path := by
  obtain ⟨hproto, hhandlers, -⟩ := Modules.areLines_iff.mp hm
  rcases mem_imports.mp h with ⟨r, hmem, rfl⟩ | ⟨-, rfl⟩
  · simp only [protoPath, oneLine_append]
    exact ⟨⟨hproto, by decide⟩, hr r hmem⟩
  · exact hhandlers

/-- A line that is not the end of the header. -/
def IsImportLine (line : String) : Prop :=
  line ≠ "" ∧ OneLine line

theorem isImportLine_append {start rest : String} (hstart : start ≠ "") (hs : OneLine start)
    (h : OneLine rest) : IsImportLine (start ++ rest) :=
  ⟨append_ne_empty hstart rest, oneLine_append.mpr ⟨hs, h⟩⟩

theorem isImportLine_extensionImport {m : Modules} (hm : m.areLines) :
    IsImportLine (extensionImport m) := by
  obtain ⟨-, -, hext, -⟩ := Modules.areLines_iff.mp hm
  rw [extensionImport]
  split
  next parent leaf hcut =>
    have hdot : ".".toList = ['.'] := by decide
    rw [((cutLast?_eq_some hdot).mp hcut).1, oneLine_append, oneLine_append] at hext
    rw [String.append_assoc, String.append_assoc]
    refine isImportLine_append (by decide) (by decide) ?_
    simp only [oneLine_append]
    exact ⟨hext.1.1, by decide, hext.2⟩
  next => exact isImportLine_append (by decide) (by decide) hext

theorem isImportLine_importLines {d : Document} (hm : d.modules.areLines)
    (hr : ∀ r ∈ d.resolvers, OneLine r.protoModule) :
    ∀ line ∈ d.importLines, IsImportLine line := by
  have hext := isImportLine_extensionImport hm
  have himports : ∀ path ∈ d.imports, OneLine path := fun _ => oneLine_imports hm hr
  obtain ⟨-, -, -, hscalars, hparse⟩ := Modules.areLines_iff.mp hm
  simp only [importLines, List.forall_mem_cons, List.forall_mem_append, List.forall_mem_map,
    String.append_assoc]
  refine ⟨⟨by decide, by decide⟩, ?_, hext, ?_, ?_, ?_⟩
  · exact fun path hpath => isImportLine_append (by decide) (by decide) (himports path hpath)
  · exact isImportLine_append (by decide) (by decide)
      (oneLine_append.mpr ⟨hscalars, by decide⟩)
  · exact isImportLine_append (by decide) (by decide)
      (oneLine_append.mpr ⟨hparse, by decide⟩)
  · exact fun line hline => absurd hline List.not_mem_nil

/-! ## The document -/

/-- The sections in front of the roots. -/
def declarations (d : Document) : List (List String) :=
  d.enums.map EnumDecl.sectionLines ++
  (d.objects.map (ClassDecl.sectionLines "ObjectType") ++
   d.inputs.map (ClassDecl.sectionLines "InputObjectType"))

/-- The last two sections; one more empty line stands between them. -/
def roots (d : Document) : List (List String) :=
  [d.query.sectionLines d.modules ++ [""], d.mutation.sectionLines d.modules]

theorem flatMap_map_cons {α : Type} {f g : α → List String} (h : ∀ a, g a = "" :: f a)
    (l : List α) : (l.map f).flatMap ("" :: ·) = l.flatMap g := by
  rw [List.flatMap_map]
  exact congrArg (l.flatMap ·) (funext fun a => (h a).symm)

theorem lines_eq (d : Document) :
    d.lines = d.importLines ++ "" :: (d.declarations ++ d.roots).flatMap ("" :: ·) := by
  have henums := flatMap_map_cons EnumDecl.lines_eq d.enums
  have hclasses := fun base => flatMap_map_cons (ClassDecl.lines_eq base)
  rw [declarations, roots, List.flatMap_append, List.flatMap_append, List.flatMap_append, henums,
    hclasses, hclasses]
  simp [lines, header, importLines, RootDecl.lines, RootDecl.sectionLines,
    RootDecl.operationLines]

theorem sections_isSection {d : Document} (hm : d.modules.areLines) (h : d.isWellNamed) :
    ∀ s ∈ d.declarations ++ d.roots, IsSection s := by
  obtain ⟨henums, hobjects, hinputs, hquery, hmutation⟩ := isWellNamed_iff.mp h
  simp only [declarations, roots, List.forall_mem_append, List.forall_mem_map,
    List.forall_mem_cons]
  refine ⟨⟨?_, ?_, ?_⟩, ?_, ?_, ?_⟩
  · exact fun e he => e.isSection (henums e he)
  · exact fun c hc => c.isSection (hobjects c hc) (by decide)
  · exact fun c hc => c.isSection (hinputs c hc) (by decide)
  · exact RootDecl.isSection hm hquery fun line => List.mem_singleton.mp
  · rw [← List.append_nil (RootDecl.sectionLines d.modules d.mutation)]
    exact RootDecl.isSection hm hmutation fun line hline => absurd hline List.not_mem_nil
  · exact fun s hs => absurd hs List.not_mem_nil

/-- The class statement of a section has the given base. -/
def HasBase (base : String) (s : List String) : Prop :=
  ∃ name, isWord name ∧ s.head? = some (classLine name base)

theorem HasBase.unique {base base' : String} {s : List String} (h : HasBase base s)
    (h' : HasBase base' s) : base = base' := by
  obtain ⟨name, hname, hhead⟩ := h
  obtain ⟨name', hname', hhead'⟩ := h'
  exact (classLine_unique hname hname' (Option.some.inj (hhead.symm.trans hhead'))).2

theorem hasBase_enums {es : List EnumDecl} (h : ∀ e ∈ es, e.isWellNamed) :
    ∀ s ∈ es.map EnumDecl.sectionLines, HasBase "Enum" s := by
  intro s hs
  obtain ⟨e, he, rfl⟩ := List.mem_map.mp hs
  exact ⟨e.name, (EnumDecl.isWellNamed_iff.mp (h e he)).1, rfl⟩

theorem hasBase_classes {cs : List ClassDecl} (h : ∀ c ∈ cs, c.isWellNamed) (base : String) :
    ∀ s ∈ cs.map (ClassDecl.sectionLines base), HasBase base s := by
  intro s hs
  obtain ⟨c, hc, rfl⟩ := List.mem_map.mp hs
  exact ⟨c.name, (ClassDecl.isWellNamed_iff.mp (h c hc)).1, rfl⟩

/-- The declarations are cut where the base changes. -/
theorem declarations_unique {d d' : Document} (h : d.isWellNamed) (h' : d'.isWellNamed)
    (heq : d.declarations = d'.declarations) :
    d.enums = d'.enums ∧ d.objects = d'.objects ∧ d.inputs = d'.inputs := by
  obtain ⟨henums, hobjects, hinputs, -⟩ := isWellNamed_iff.mp h
  obtain ⟨henums', hobjects', hinputs', -⟩ := isWellNamed_iff.mp h'
  have hinput : ∀ {cs : List ClassDecl}, (∀ c ∈ cs, c.isWellNamed) →
      ∀ s ∈ (cs.map (ClassDecl.sectionLines "InputObjectType")).head?,
        ¬ HasBase "ObjectType" s := by
    intro cs hcs s hs hobject
    have hbase := (hasBase_classes hcs "InputObjectType" s (List.mem_of_mem_head? hs)).unique
      hobject
    exact absurd hbase (by decide)
  have hclass : ∀ {cs cs' : List ClassDecl}, (∀ c ∈ cs, c.isWellNamed) →
      (∀ c ∈ cs', c.isWellNamed) →
      ∀ s ∈ (cs.map (ClassDecl.sectionLines "ObjectType") ++
        cs'.map (ClassDecl.sectionLines "InputObjectType")).head?, ¬ HasBase "Enum" s := by
    intro cs cs' hcs hcs' s hs henum
    rcases List.mem_append.mp (List.mem_of_mem_head? hs) with hs | hs
    · exact absurd ((hasBase_classes hcs "ObjectType" s hs).unique henum) (by decide)
    · exact absurd ((hasBase_classes hcs' "InputObjectType" s hs).unique henum) (by decide)
  obtain ⟨heqEnums, heqClasses⟩ := span_unique (hasBase_enums henums) (hasBase_enums henums')
    (hclass hobjects hinputs) (hclass hobjects' hinputs') heq
  obtain ⟨heqObjects, heqInputs⟩ := span_unique (hasBase_classes hobjects "ObjectType")
    (hasBase_classes hobjects' "ObjectType") (hinput hinputs) (hinput hinputs') heqClasses
  refine ⟨?_, ?_, ?_⟩
  · exact map_inj_of_forall (fun e he e' he' =>
      EnumDecl.sectionLines_unique (henums e he) (henums' e' he')) heqEnums
  · exact map_inj_of_forall (fun c hc c' hc' =>
      ClassDecl.sectionLines_unique (hobjects c hc) (hobjects' c' hc')) heqObjects
  · exact map_inj_of_forall (fun c hc c' hc' =>
      ClassDecl.sectionLines_unique (hinputs c hc) (hinputs' c' hc')) heqInputs

theorem oneLine_protoModule {d : Document} (h : d.isWellNamed) :
    ∀ r ∈ d.resolvers, OneLine r.protoModule := by
  obtain ⟨-, -, -, hquery, hmutation⟩ := isWellNamed_iff.mp h
  have hroot : ∀ {root : RootDecl}, root.isWellNamed →
      ∀ r ∈ root.resolvers, OneLine r.protoModule := by
    intro root hroot r hr
    have hnames := (RootDecl.isWellNamed_iff.mp hroot).2.2 r hr
    exact (ResolverDecl.isWellNamed_iff.mp hnames).2.1
  exact List.forall_mem_append.mpr ⟨hroot hquery, hroot hmutation⟩

theorem oneLine_lines {d : Document} (hm : d.modules.areLines) (h : d.isWellNamed) :
    ∀ line ∈ d.lines, OneLine line := by
  have himports := isImportLine_importLines hm (oneLine_protoModule h)
  have hempty : OneLine "" := isBodyLine_empty.2
  rw [lines_eq]
  simp only [List.forall_mem_append, List.forall_mem_cons, List.mem_flatMap]
  refine ⟨fun line hline => (himports line hline).2, hempty, ?_⟩
  rintro line ⟨s, hs, hline⟩
  rcases List.mem_cons.mp hline with rfl | hline
  · exact hempty
  · exact (sections_isSection hm h s hs).oneLine line hline

/-- The header ends with the first empty line, and the sections follow. -/
theorem sections_unique_of_lines {d d' : Document} (hm : d.modules.areLines)
    (hm' : d'.modules.areLines) (h : d.isWellNamed) (h' : d'.isWellNamed)
    (heq : d.lines = d'.lines) :
    d.declarations = d'.declarations ∧ d.roots = d'.roots := by
  have hne : ∀ {d : Document}, d.modules.areLines → d.isWellNamed → "" ∉ d.importLines :=
    fun hm h hmem => (isImportLine_importLines hm (oneLine_protoModule h) _ hmem).1 rfl
  rw [lines_eq, lines_eq] at heq
  obtain ⟨-, hsections⟩ := cut_unique (hne hm h) (hne hm' h') heq
  exact List.append_inj' (sections_unique (sections_isSection hm h) (sections_isSection hm' h')
    hsections) rfl

/-- The text of a module determines what is declared in it, and in which
order. -/
theorem declarations_of_render {d d' : Document} (hmodules : d.modules = d'.modules)
    (hm : d.modules.areLines) (h : d.isWellNamed) (h' : d'.isWellNamed)
    (heq : d.render = d'.render) :
    d.enums = d'.enums ∧ d.objects = d'.objects ∧ d.inputs = d'.inputs ∧
    d.query.name = d'.query.name ∧ d.mutation.name = d'.mutation.name ∧
    d.query.operations = d'.query.operations ∧ d.mutation.operations = d'.mutation.operations ∧
    d.query.resolvers.map ResolverDecl.signature =
      d'.query.resolvers.map ResolverDecl.signature ∧
    d.mutation.resolvers.map ResolverDecl.signature =
      d'.mutation.resolvers.map ResolverDecl.signature := by
  have hm' : d'.modules.areLines := hmodules ▸ hm
  have hlines : d.lines = d'.lines :=
    lines_unique (oneLine_lines hm h) (oneLine_lines hm' h') heq
  obtain ⟨hdeclarations, hroots⟩ := sections_unique_of_lines hm hm' h h' hlines
  obtain ⟨henums, hobjects, hinputs⟩ := declarations_unique h h' hdeclarations
  rw [roots, roots, ← hmodules] at hroots
  obtain ⟨hquery, hmutation⟩ := List.cons.inj hroots
  obtain ⟨-, -, -, hq, hmut⟩ := isWellNamed_iff.mp h
  obtain ⟨-, -, -, hq', hmut'⟩ := isWellNamed_iff.mp h'
  obtain ⟨hqueryName, hqueries, hqueryResolvers⟩ :=
    RootDecl.sectionLines_unique hq hq' (List.append_cancel_right hquery)
  obtain ⟨hmutationName, hmutations, hmutationResolvers⟩ :=
    RootDecl.sectionLines_unique hmut hmut' (List.cons.inj hmutation).1
  exact ⟨henums, hobjects, hinputs, hqueryName, hmutationName, hqueries, hmutations,
    hqueryResolvers, hmutationResolvers⟩

end Document

end ProtoSchema.Schema

namespace ProtoSchema.Reed

open ProtoSchema.Schema

/-- Two requests with one path, cut at different dots. -/
def resolvers : List ResolverDecl :=
  [{ name := "bow", protoModule := "a.b", requestClass := "C", handler := "bow" },
   { name := "bow", protoModule := "a", requestClass := "b.C", handler := "bow" }]

def document (resolvers : List ResolverDecl) : Document :=
  { objects :=
      [{ name := "Leaf", fields := [{ name := "up", type := .nonNullList (.generated "Leaf") }] }]
    query :=
      { name := queryRootName
        operations := [{ name := "bow", output := "Leaf", input := "Leaf" }], resolvers } }

theorem declarations_of_render_document :
    document resolvers ≠ document resolvers.reverse ∧
    (document resolvers).render = (document resolvers.reverse).render ∧
    resolvers.map ResolverDecl.signature = resolvers.reverse.map ResolverDecl.signature := by
  have heq : (document resolvers).render = (document resolvers.reverse).render := by
    decide +kernel
  obtain ⟨-, -, -, -, -, -, -, hquery, -⟩ :=
    Document.declarations_of_render rfl (by decide +kernel) (by decide +kernel)
      (by decide +kernel) heq
  exact ⟨by decide, heq, hquery⟩

end ProtoSchema.Reed
