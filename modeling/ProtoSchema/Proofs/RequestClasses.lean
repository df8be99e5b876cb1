import ProtoSchema.Proofs.LinkedNames

/-!
# Where resolvers look for the request message

A resolver names a class by a module and a path inside it. The path is the full
name of the input message without its package, so it is the way from the top of
the file that declares the message down to the message, and it is right in
every pool. The module is that of another file: the one that declares the
method's service. A message may be declared anywhere that this file imports,
and then the module does not have the class.

So the pair is right exactly if the two files have the same module. This is
the case if they are one file, and otherwise only if their paths differ in
nothing but the ending `.proto` and the characters that separate their parts.
-/

namespace ProtoSchema

/-! ## Declarations in files -/

namespace Descriptor

/-- A list of messages has one along a path of names: in the list itself, or
inside a message of the list. -/
inductive Nested : List Message → List String → Prop
  | here {ms : List Message} {d : Message} (h : d ∈ ms) : Nested ms [d.name.getD ""]
  | inside {ms : List Message} {d : Message} {path : List String} (h : d ∈ ms)
      (hin : Nested d.nested path) : Nested ms (d.name.getD "" :: path)

theorem Nested.mono {ms ms' : List Message} (hsub : ∀ d ∈ ms, d ∈ ms') {path : List String}
    (h : Nested ms path) : Nested ms' path := by
  cases h with
  | here h => exact .here (hsub _ h)
  | inside h hin => exact .inside (hsub _ h) hin

theorem Nested.ne_nil {ms : List Message} {path : List String} (h : Nested ms path) :
    path ≠ [] := by
  cases h <;> exact List.cons_ne_nil _ _

/-- The file declares a message with the full name `name` along `path`. -/
def File.Declares (f : File) (path : List String) (name : String) : Prop :=
  Nested f.messages path ∧ path.foldl Pool.qualify (f.package.getD "") = name

/-- The file declares a service with the full name `service` that has a method
with the name `method`. -/
def File.DeclaresMethod (f : File) (service method : String) : Prop :=
  ∃ s ∈ f.services, Pool.qualify (f.package.getD "") (s.name.getD "") = service ∧
    ∃ m ∈ s.methods, m.name.getD "" = method

end Descriptor

namespace Pool

open ProtoSchema.Descriptor (Nested)

theorem kind_of_mem_enumItems {origin : Origin} {scope : String} {enums : List Descriptor.Enum}
    {x : Item} (h : x ∈ enumItems origin scope enums) : x.message? = none ∧ x.service? = none := by
  obtain ⟨d, -, rfl⟩ := List.mem_map.mp h
  exact ⟨rfl, rfl⟩

theorem kind_of_mem_extensionItems {origin : Origin} {scope : String} {path : List Nat} {tag : Nat}
    {extensions : List Descriptor.Field} {x : Item}
    (h : x ∈ extensionItems origin scope path tag extensions) :
    x.message? = none ∧ x.service? = none := by
  obtain ⟨d, -, rfl⟩ := List.mem_map.mp h
  exact ⟨rfl, rfl⟩

/-- An item that comes from messages: it is no service, and a message among
them is declared along some path. -/
structure FromMessages (origin : Origin) (scope : String) (ms : List Descriptor.Message)
    (x : Item) : Prop where
  service : x.service? = none
  message : ∀ i, x.message? = some i → i.origin = origin ∧
    ∃ names, Nested ms names ∧ names.foldl qualify scope = i.fullName

theorem FromMessages.of_kind {origin : Origin} {scope : String} {ms : List Descriptor.Message}
    {x : Item} (h : x.message? = none ∧ x.service? = none) : FromMessages origin scope ms x where
  service := h.2
  message _ hi := nomatch h.1.symm.trans hi

theorem FromMessages.mono {origin : Origin} {scope : String} {ms ms' : List Descriptor.Message}
    (hsub : ∀ d ∈ ms, d ∈ ms') {x : Item} (h : FromMessages origin scope ms x) :
    FromMessages origin scope ms' x where
  service := h.service
  message i hi := by
    obtain ⟨horigin, names, hnested, hname⟩ := h.message i hi
    exact ⟨horigin, names, hnested.mono hsub, hname⟩

/-- What comes from the messages inside a message comes from the message. -/
theorem FromMessages.inside {origin : Origin} {scope : String} {d : Descriptor.Message} {x : Item}
    (h : FromMessages origin (qualify scope (d.name.getD "")) d.nested x) :
    FromMessages origin scope [d] x where
  service := h.service
  message i hi := by
    obtain ⟨horigin, names, hnested, hname⟩ := h.message i hi
    exact ⟨horigin, _, .inside (List.mem_singleton_self d) hnested, hname⟩

mutual

theorem fromMessages_messageItems {origin : Origin} {scope : String} {path : List Nat}
    {d : Descriptor.Message} {x : Item} (h : x ∈ messageItems origin scope path d) :
    FromMessages origin scope [d] x := by
  match d with
  | ⟨name, fields, nested, enums, extensions, oneofs, ranges, reserved, mapEntry⟩ =>
      rw [messageItems] at h
      rcases List.mem_cons.mp h with rfl | h
      · refine ⟨rfl, fun i hi => ?_⟩
        obtain rfl := Option.some.inj hi
        exact ⟨rfl, _, .here (List.mem_singleton_self _), rfl⟩
      · rcases List.mem_append.mp h with h | h
        · rcases List.mem_append.mp h with h | h
          · exact .inside (fromMessages_messageListItems h)
          · exact .of_kind (kind_of_mem_enumItems h)
        · exact .of_kind (kind_of_mem_extensionItems h)

theorem fromMessages_messageListItems {origin : Origin} {scope : String} {path : List Nat}
    {tag k : Nat} {ms : List Descriptor.Message} {x : Item}
    (h : x ∈ messageListItems origin scope path tag k ms) : FromMessages origin scope ms x := by
  match ms with
  | [] => exact absurd h List.not_mem_nil
  | d :: rest =>
      rw [messageListItems] at h
      rcases List.mem_append.mp h with h | h
      · refine (fromMessages_messageItems h).mono fun d' hd' => ?_
        rw [List.mem_singleton.mp hd']
        exact List.mem_cons_self
      · exact (fromMessages_messageListItems h).mono fun d' hd' => List.mem_cons_of_mem d hd'

end

theorem messageItems_subset {ms : List Descriptor.Message} {d : Descriptor.Message} (h : d ∈ ms)
    (origin : Origin) (scope : String) (path : List Nat) (tag k : Nat) :
    ∃ path', messageItems origin scope path' d ⊆ messageListItems origin scope path tag k ms := by
  induction ms generalizing k with
  | nil => exact absurd h List.not_mem_nil
  | cons d' ms ih =>
      rw [messageListItems]
      rcases List.mem_cons.mp h with rfl | h
      · exact ⟨_, List.subset_append_left _ _⟩
      · obtain ⟨path', hsub⟩ := ih h (k + 1)
        exact ⟨path', List.subset_append_of_subset_right _ hsub⟩

/-- What is declared along a path is an item. -/
theorem mem_messageListItems_of_nested {ms : List Descriptor.Message} {names : List String}
    (h : Nested ms names) (origin : Origin) (scope : String) (path : List Nat) (tag k : Nat) :
    ∃ i, .message i ∈ messageListItems origin scope path tag k ms ∧ i.origin = origin ∧
      i.fullName = names.foldl qualify scope := by
  induction h generalizing scope path tag k with
  | @here ms d h =>
      obtain ⟨path', hsub⟩ := messageItems_subset h origin scope path tag k
      obtain ⟨name, fields, nested, enums, extensions, oneofs, ranges, reserved, mapEntry⟩ := d
      rw [messageItems] at hsub
      exact ⟨_, hsub List.mem_cons_self, rfl, rfl⟩
  | @inside ms d names h hin ih =>
      obtain ⟨path', hsub⟩ := messageItems_subset h origin scope path tag k
      obtain ⟨name, fields, nested, enums, extensions, oneofs, ranges, reserved, mapEntry⟩ := d
      rw [messageItems] at hsub
      obtain ⟨i, hi, horigin, hname⟩ := ih (qualify scope (name.getD "")) path' 3 0
      refine ⟨i, hsub (List.mem_cons_of_mem _ ?_), horigin, hname⟩
      exact List.mem_append_left _ (List.mem_append_left _ hi)

/-- Where the items of a file come from. -/
def originOf (f : Descriptor.File) : Origin :=
  { file := f.name.getD "", package := f.package.getD "", isProto3 := f.isProto3 }

/-- The items of a file are the file itself, those that come from its messages,
its services, and others. -/
theorem mem_fileItems {f : Descriptor.File} {x : Item} (h : x ∈ fileItems f) :
    (x.message? = none ∧ x.service? = none) ∨
      FromMessages (originOf f) (f.package.getD "") f.messages x ∨
      ∃ s ∈ f.services, x = .service
        { origin := originOf f, fullName := qualify (f.package.getD "") (s.name.getD "")
          descriptor := s } := by
  rw [fileItems] at h
  rcases List.mem_cons.mp h with rfl | h
  · exact Or.inl ⟨rfl, rfl⟩
  rcases List.mem_append.mp h with h | h
  · rcases List.mem_append.mp h with h | h
    · rcases List.mem_append.mp h with h | h
      · exact Or.inr (Or.inl (fromMessages_messageListItems h))
      · exact Or.inl (kind_of_mem_enumItems h)
    · obtain ⟨s, hs, rfl⟩ := List.mem_map.mp h
      exact Or.inr (Or.inr ⟨s, hs, rfl⟩)
  · exact Or.inl (kind_of_mem_extensionItems h)

theorem declares_of_mem_fileItems {f : Descriptor.File} {i : MessageItem}
    (h : .message i ∈ fileItems f) : ∃ path, f.Declares path i.fullName := by
  rcases mem_fileItems h with ⟨hnone, -⟩ | hmessages | ⟨s, -, heq⟩
  · cases hnone
  · obtain ⟨-, path, hnested, hname⟩ := hmessages.message i rfl
    exact ⟨path, hnested, hname⟩
  · cases heq

theorem service_of_mem_fileItems {f : Descriptor.File} {i : ServiceItem}
    (h : .service i ∈ fileItems f) :
    i.origin = originOf f ∧ i.descriptor ∈ f.services ∧
      i.fullName = qualify (f.package.getD "") (i.descriptor.name.getD "") := by
  rcases mem_fileItems h with ⟨-, hnone⟩ | hmessages | ⟨s, hs, heq⟩
  · cases hnone
  · cases hmessages.service
  · obtain rfl := Item.service.inj heq
    exact ⟨rfl, hs, rfl⟩

theorem mem_fileItems_of_declares {f : Descriptor.File} {path : List String} {name : String}
    (h : f.Declares path name) :
    ∃ i, .message i ∈ fileItems f ∧ i.origin = originOf f ∧ i.fullName = name := by
  obtain ⟨hnested, hname⟩ := h
  obtain ⟨i, hi, horigin, hfull⟩ :=
    mem_messageListItems_of_nested hnested (originOf f) (f.package.getD "") [] 4 0
  refine ⟨i, ?_, horigin, hfull.trans hname⟩
  rw [fileItems]
  refine List.mem_cons_of_mem _ (List.mem_append_left _ (List.mem_append_left _ ?_))
  exact List.mem_append_left _ hi

/-! ## The file of a message -/

section

variable {files : List Descriptor.File} {p : Pool}

theorem LinkedFrom.item_of_message (h : p.LinkedFrom (itemsOf files)) (i : Fin p.m) :
    ∃ item, .message item ∈ itemsOf files ∧ (p.message i).place = item.place := by
  have hmem : (p.message i).place ∈ (List.finRange p.m).map fun i => (p.message i).place :=
    List.mem_map_of_mem (List.mem_finRange i)
  rw [h.messages] at hmem
  obtain ⟨item, hitem, hplace⟩ := List.mem_map.mp hmem
  obtain ⟨x, hx, hpick⟩ := List.mem_filterMap.mp hitem
  obtain rfl := message?_eq_some hpick
  exact ⟨item, hx, hplace.symm⟩

/-- Every message of a pool is declared in a file of its set. -/
theorem LinkedFrom.declared (h : p.LinkedFrom (itemsOf files)) (i : Fin p.m) :
    ∃ f ∈ files, ∃ path, f.Declares path (p.message i).fullName := by
  obtain ⟨item, hitem, hplace⟩ := h.item_of_message i
  obtain ⟨f, hf, hmem⟩ := List.mem_flatMap.mp hitem
  obtain ⟨path, hdeclares⟩ := declares_of_mem_fileItems hmem
  obtain ⟨hname, -⟩ := Prod.mk.inj hplace
  rw [← hname] at hdeclares
  exact ⟨f, hf, path, hdeclares⟩

/-- There is only one such file, and the message knows its package and its
name. -/
theorem LinkedFrom.place_of_declares (h : p.LinkedFrom (itemsOf files)) {i : Fin p.m}
    {f : Descriptor.File} (hf : f ∈ files) {path : List String}
    (hdeclares : f.Declares path (p.message i).fullName) :
    (p.message i).package = f.package.getD "" ∧ (p.message i).file = f.name.getD "" := by
  obtain ⟨item, hitem, hplace⟩ := h.item_of_message i
  obtain ⟨item', hitem', horigin, hname'⟩ := mem_fileItems_of_declares hdeclares
  obtain ⟨hname, hrest⟩ := Prod.mk.inj hplace
  obtain ⟨hpackage, hfile⟩ := Prod.mk.inj hrest
  have heq := h.eq_of_fullName hitem (List.mem_flatMap.mpr ⟨f, hf, hitem'⟩) rfl rfl
    (hname.symm.trans hname'.symm)
  obtain rfl := Item.message.inj heq
  rw [hpackage, hfile, horigin]
  exact ⟨rfl, rfl⟩

/-- A method knows the file that declares it. -/
theorem LinkedFrom.declares_method (h : p.LinkedFrom (itemsOf files)) {service : Service p.m}
    (hservice : service ∈ p.services) {m : Method p.m} (hm : m ∈ service.methods) :
    ∃ f ∈ files, f.name.getD "" = m.file ∧ f.DeclaresMethod m.service m.name := by
  obtain ⟨i, hi, -, hmethods⟩ := h.methods service hservice
  obtain ⟨hname, hfile, d, hd, hmethod⟩ := hmethods m hm
  obtain ⟨f, hf, hmem⟩ := List.mem_flatMap.mp hi
  obtain ⟨horigin, hdescriptor, hfull⟩ := service_of_mem_fileItems hmem
  refine ⟨f, hf, ?_, i.descriptor, hdescriptor, ?_, d, hd, hmethod.symm⟩
  · rw [hfile, horigin]
    rfl
  · rw [hname, hfull]

end

/-! ## The path inside the module -/

theorem dropStart?_append (start rest : List Char) :
    Text.dropStart? start (start ++ rest) = some rest := by
  induction start with
  | nil => rfl
  | cons c start ih =>
      rw [List.cons_append, Text.dropStart?, if_pos rfl]
      exact ih

/-- What follows the package in a full name is the path. -/
theorem path_of_qualify {m e : Nat} {message : Message m e} {rest : String}
    (h : message.fullName = qualify message.package rest) : message.path = rest := by
  rw [Message.path]
  by_cases hpackage : message.package.isEmpty
  · rw [if_pos hpackage, h, qualify, if_pos hpackage]
  · have hchars : message.fullName.toList = message.package.toList ++ ['.'] ++ rest.toList := by
      rw [h, qualify, if_neg hpackage, String.toList_append, String.toList_append]
      rfl
    rw [if_neg hpackage, hchars, dropStart?_append]
    exact String.ofList_toList

/-- In a scope that is not empty, names are joined by dots. -/
theorem foldl_qualify {scope : String} (h : scope ≠ "") (names : List String) :
    names.foldl qualify scope = ".".intercalate (scope :: names) := by
  induction names generalizing scope with
  | nil => rw [List.foldl_nil, String.intercalate_singleton]
  | cons name names ih =>
      have hne : scope ++ "." ++ name ≠ "" := by
        intro hempty
        rw [String.append_eq_empty_iff, String.append_eq_empty_iff] at hempty
        exact h hempty.1.1
      rw [List.foldl_cons, qualify_of_ne_empty h, ih hne, String.intercalate_cons_cons]
      cases names with
      | nil => rw [String.intercalate_singleton, String.intercalate_singleton]
      | cons next names =>
          rw [String.intercalate_cons_cons, String.intercalate_cons_cons]
          simp only [String.append_assoc]

/-- A full name is its package with something behind it, and this is the joined
path if the names in it are not empty. -/
theorem foldl_qualify_eq {package : String} {names : List String} (hne : names ≠ []) :
    (∃ rest, names.foldl qualify package = qualify package rest) ∧
      ((∀ name ∈ names, name ≠ "") →
        names.foldl qualify package = qualify package (".".intercalate names)) := by
  by_cases hpackage : package = ""
  · subst hpackage
    refine ⟨⟨_, (qualify_empty _).symm⟩, fun hnames => ?_⟩
    obtain ⟨name, names, rfl⟩ := List.exists_cons_of_ne_nil hne
    rw [List.foldl_cons, qualify_empty, qualify_empty,
      foldl_qualify (hnames name List.mem_cons_self)]
  · obtain ⟨name, names, rfl⟩ := List.exists_cons_of_ne_nil hne
    have hjoined : (name :: names).foldl qualify package =
        qualify package (".".intercalate (name :: names)) := by
      rw [foldl_qualify hpackage, String.intercalate_cons_cons, qualify_of_ne_empty hpackage]
    exact ⟨⟨_, hjoined⟩, fun _ => hjoined⟩

/-! ## Modules -/

/-- The characters of a path without the ending `.proto`. -/
def stem (file : String) : List Char :=
  (Text.dropStop? ".proto".toList file.toList).getD file.toList

/-- Whether a character separates the parts of a path or of a module. -/
def isSeparator (c : Char) : Bool :=
  c = '/' || c = '\\' || c = '.'

/-- Two paths differ in their endings and their separators only. -/
def SamePath (file file' : String) : Prop :=
  List.Forall₂ (fun c c' => c = c' ∨ isSeparator c ∧ isSeparator c') (stem file) (stem file')

theorem SamePath.refl (file : String) : SamePath file file :=
  List.forall₂_same.mpr fun _ _ => Or.inl rfl

theorem dotted_eq_iff {c c' : Char} :
    (if c = '/' ∨ c = '\\' then '.' else c) = (if c' = '/' ∨ c' = '\\' then '.' else c') ↔
      c = c' ∨ isSeparator c ∧ isSeparator c' := by
  simp only [isSeparator, Bool.or_eq_true, decide_eq_true_eq]
  grind

theorem moduleOfFile_eq_iff {file file' : String} :
    moduleOfFile file = moduleOfFile file' ↔ SamePath file file' := by
  rw [moduleOfFile, moduleOfFile, String.append_left_inj, String.ofList_inj,
    ← List.forall₂_eq_eq_eq, List.forall₂_map_left_iff, List.forall₂_map_right_iff]
  simp only [dotted_eq_iff]
  rfl

end Pool

/-! ## Resolvers -/

open ProtoSchema.Schema

/-- The resolver instantiates the class that the module of the file has for the
message of the given full name. -/
structure Schema.ResolverDecl.Instantiates (r : ResolverDecl) (f : Descriptor.File)
    (name : String) : Prop where
  protoModule : r.protoModule = Pool.moduleOfFile (f.name.getD "")
  requestClass : Pool.qualify (f.package.getD "") r.requestClass = name

/-- What can be said of the resolver of a method: some file declares the input
message, and for every such file the class is right, while the class and the
module are right together exactly if the file has the module of the service's
file. -/
structure Pool.Method.ServedBy {p : Pool} (files : List Descriptor.File) (m : Pool.Method p.m)
    (r : ResolverDecl) : Prop where
  declared : ∃ f ∈ files, ∃ path, f.Declares path (p.message m.input).fullName
  requestClass : ∀ f ∈ files, ∀ path, f.Declares path (p.message m.input).fullName →
    Pool.qualify (f.package.getD "") r.requestClass = (p.message m.input).fullName ∧
      ((∀ name ∈ path, name ≠ "") → r.requestClass = ".".intercalate path)
  instantiates : ∀ f ∈ files, ∀ path, f.Declares path (p.message m.input).fullName →
    (r.Instantiates f (p.message m.input).fullName ↔ Pool.SamePath m.file (f.name.getD ""))

namespace Selection

variable {p : Pool} {files : List Descriptor.File}

theorem servedBy_resolverDecl (h : p.LinkedFrom (Pool.itemsOf files)) (m : Pool.Method p.m) :
    m.ServedBy files (resolverDecl m) := by
  have hclass : ∀ f ∈ files, ∀ path, f.Declares path (p.message m.input).fullName →
      Pool.qualify (f.package.getD "") (p.requestClass m) = (p.message m.input).fullName ∧
        ((∀ name ∈ path, name ≠ "") → p.requestClass m = ".".intercalate path) := by
    intro f hf path hdeclares
    obtain ⟨hpackage, -⟩ := h.place_of_declares hf hdeclares
    obtain ⟨hnested, hname⟩ := hdeclares
    rw [← hpackage] at hname ⊢
    obtain ⟨⟨rest, hrest⟩, hjoined⟩ := Pool.foldl_qualify_eq hnested.ne_nil
    constructor
    · rw [Pool.requestClass, Pool.path_of_qualify (hname.symm.trans hrest), ← hrest, hname]
    · intro hnames
      exact Pool.path_of_qualify (hname.symm.trans (hjoined hnames))
  refine ⟨h.declared m.input, hclass, fun f hf path hdeclares => ?_⟩
  rw [← Pool.moduleOfFile_eq_iff]
  constructor
  · exact fun hr => hr.protoModule
  · exact fun hmodule => ⟨hmodule, (hclass f hf path hdeclares).1⟩

theorem servedBy_rootDecl (h : p.LinkedFrom (Pool.itemsOf files)) (name : String)
    (ms : List (Pool.Method p.m)) :
    List.Forall₂ (Pool.Method.ServedBy files) ms (rootDecl name ms).resolvers := by
  rw [rootDecl, List.forall₂_map_right_iff, List.forall₂_same]
  exact fun m _ => servedBy_resolverDecl h m

/-- In a document that is built from a linked pool, each resolver has the path
of its request message in the file that declares the message. It has the module
of this file exactly if the file has the same path as the one that declares the
method, up to separators and endings. -/
theorem servedBy_of_build (hp : Pool.ofFiles files = .ok p) {s : Selection p} {o : Overrides}
    {modules : Modules} {d : Document} (hb : s.build o modules = .ok d) :
    List.Forall₂ (Pool.Method.ServedBy files) s.queries d.query.resolvers ∧
    List.Forall₂ (Pool.Method.ServedBy files) s.mutations d.mutation.resolvers ∧
    ∀ service ∈ p.services, ∀ m ∈ service.methods,
      ∃ f ∈ files, f.name.getD "" = m.file ∧ f.DeclaresMethod m.service m.name := by
  have hlinked := Pool.linkedFrom_ofFiles hp
  obtain ⟨-, -, -, -, hquery, hmutation⟩ := build_eq_ok.mp hb
  rw [hquery, hmutation]
  exact ⟨servedBy_rootDecl hlinked _ s.queries, servedBy_rootDecl hlinked _ s.mutations,
    fun service hservice m hm => hlinked.declares_method hservice hm⟩

end Selection

/-! ## A kiln

Pots are made in one file and fired in another one. The first file also has a
method that takes the lid of a pot. -/

namespace Kiln

open Selection

def clay : Descriptor.File where
  name := some "clay.proto"
  package := some "clay"
  isProto3 := true
  messages := [{ name := some "Pot", nested := [{ name := some "Lid" }] }]
  services := [
    { name := some "Shop"
      methods := [
        { name := some "Cover", inputType := some ".clay.Pot.Lid"
          outputType := some ".clay.Pot" }] }]

def kiln : Descriptor.File where
  name := some "kiln.proto"
  package := some "kiln"
  isProto3 := true
  dependencies := ["clay.proto"]
  services := [
    { name := some "Oven"
      methods := [
        { name := some "Fire", inputType := some ".clay.Pot", outputType := some ".clay.Pot" }] }]

def cover : Pool.Method 2 :=
  { name := "Cover", service := "clay.Shop", package := "clay", file := "clay.proto"
    input := ⟨1, Nat.one_lt_two⟩, output := ⟨0, Nat.two_pos⟩ }

def fire : Pool.Method 2 :=
  { name := "Fire", service := "kiln.Oven", package := "kiln", file := "kiln.proto"
    input := ⟨0, Nat.two_pos⟩, output := ⟨0, Nat.two_pos⟩ }

def pool : Pool where
  m := 2
  e := 0
  messages := #v[
    { fullName := "clay.Pot", package := "clay", file := "clay.proto", fields := [] },
    { fullName := "clay.Pot.Lid", package := "clay", file := "clay.proto", fields := [] }]
  enums := .emptyWithCapacity 0
  services := [
    { fullName := "clay.Shop", methods := [cover] },
    { fullName := "kiln.Oven", methods := [fire] }]

/-- The selection of the pool with one query. -/
def select (query : Pool.Method 2) : Selection pool :=
  ofOperations [query] []

def document (query : Pool.Method 2) (inputs : List ClassDecl) : Document where
  objects := [{ name := "ClayPot", fields := [.dummy] }]
  inputs := inputs
  query := rootDecl (p := pool) queryRootName [query]

def resolver (query : Pool.Method 2) : ResolverDecl :=
  resolverDecl (p := pool) query

theorem declares_pot : clay.Declares ["Pot"] "clay.Pot" :=
  ⟨.here List.mem_cons_self, by decide⟩

theorem declares_lid : clay.Declares ["Pot", "Lid"] "clay.Pot.Lid" :=
  ⟨.inside List.mem_cons_self (.here List.mem_cons_self), by decide⟩

/-- A method that stands beside its message finds it. -/
theorem servedBy_of_build_cover :
    Pool.ofFiles [clay, kiln] = .ok pool ∧
    (select cover).build (Overrides.empty "ext") {} =
      .ok (document cover [{ name := "ClayPotLidInput", fields := [.dummy] }]) ∧
    (resolver cover).requestClass = "Pot.Lid" ∧
    (resolver cover).Instantiates clay "clay.Pot.Lid" := by
  have hp : Pool.ofFiles [clay, kiln] = .ok pool := by decide +kernel
  have hb : (select cover).build (Overrides.empty "ext") {} =
      .ok (document cover [{ name := "ClayPotLidInput", fields := [.dummy] }]) := by
    rw [select, ofOperations_eq_layers]
    decide +kernel
  have hqueries : (select cover).queries = [cover] :=
    (methods_ofOperations (p := pool) [cover] []).1
  obtain ⟨hserved, -, -⟩ := servedBy_of_build hp hb
  rw [hqueries] at hserved
  obtain ⟨hcover, -⟩ := List.forall₂_cons.mp hserved
  have hnames : ∀ name ∈ ["Pot", "Lid"], name ≠ "" := by decide
  exact ⟨hp, hb,
    (hcover.requestClass clay List.mem_cons_self _ declares_lid).2 hnames,
    (hcover.instantiates clay List.mem_cons_self _ declares_lid).mpr (Pool.SamePath.refl _)⟩

/-- A method that stands elsewhere looks for it in its own file. -/
theorem not_instantiates_fire :
    Pool.ofFiles [clay, kiln] = .ok pool ∧
    (select fire).build (Overrides.empty "ext") {} =
      .ok (document fire [{ name := "ClayPotInput", fields := [.dummy] }]) ∧
    (document fire [{ name := "ClayPotInput", fields := [.dummy] }]).query.resolvers =
      [resolver fire] ∧
    clay.Declares ["Pot"] "clay.Pot" ∧
    (resolver fire).protoModule = "kiln_pb2" ∧
    ¬ (resolver fire).Instantiates clay "clay.Pot" := by
  refine ⟨by decide +kernel, ?_, rfl, declares_pot, by decide, fun h => ?_⟩
  · rw [select, ofOperations_eq_layers]
    decide +kernel
  · have hmodule := h.protoModule
    revert hmodule
    decide

end Kiln

end ProtoSchema
