import ProtoSchema.Proofs.DefinitionOrder

/-!
# When class names are distinct

A class name is a full name without its dots and underscores, and with the
first letter of every word raised. What is dropped cannot be told from the
result, so two full names may give one class name: the words may be cut in
other places, or start with a letter of the other case. `Alike` says this of
two full names letter by letter, without going through their class names.

The suffix of inputs and the fixed names of the two roots are further sources
of clashes. An input class is named as an object class would be whose full
name has one word `Input` more, and a root as a type of the root's own name
without a package.

Nothing of this is looked for when a selection is validated. With unique full
names the class names of a computed selection are distinct exactly if none of
these clashes happens among the names that are emitted, and the sample at the
end has one.
-/

namespace ProtoSchema

open ProtoSchema.Schema

/-- The names of the two roots. -/
def Schema.rootNames : List String :=
  [queryRootName, mutationRootName]

/-! ## Class names letter by letter -/

namespace Naming

/-- The characters of a full name other than its separators, with a mark on
those that start a word; `start` says whether one is due. -/
def letters (start : Bool) : List Char → List (Char × Bool)
  | [] => []
  | c :: cs => if c = '.' ∨ c = '_' then letters true cs else (c, start) :: letters false cs

/-- Whether a text is an identifier of the protobuf language. -/
def isIdentifier (s : String) : Bool :=
  match s.toList with
  | [] => false
  | c :: cs => (c.isAlpha || c = '_') && cs.all fun d => d.isAlphanum || d = '_'

/-- What a class name has of a marked character. -/
def raised : Char × Bool → Char
  | (c, true) => c.toUpper
  | (c, false) => c

/-- Two full names have the same characters between their separators, up to
the case of letters that start a word. -/
def Alike (a b : String) : Prop :=
  List.Forall₂ (fun x y => raised x = raised y) (letters true a.toList) (letters true b.toList)

theorem map_raised_letters (start : Bool) (text : List Char) :
    (letters start text).map raised = pascalFrom start (Text.replaceChar '.' '_' text) := by
  induction text generalizing start with
  | nil => rfl
  | cons c text ih =>
      rw [Text.replaceChar] at ih
      rw [Text.replaceChar, List.map_cons, pascalFrom, letters]
      by_cases hc : c = '.' ∨ c = '_'
      · have hsep : (if c = '.' then '_' else c) = '_' := by
          rcases hc with rfl | rfl <;> rfl
        rw [if_pos hc, if_pos hsep, ih]
      · obtain ⟨hdot, hunder⟩ := not_or.mp hc
        rw [if_neg hc, if_neg hdot, if_neg hunder, List.map_cons, ih]
        cases start <;> rfl

theorem toList_typeName (fullName : String) :
    (typeName fullName).toList = (letters true fullName.toList).map raised := by
  rw [typeName, pascalCase, flatten, String.toList_ofList, String.toList_ofList,
    pascalChars_eq_pascalFrom, map_raised_letters]

theorem typeName_eq_iff {a b : String} : typeName a = typeName b ↔ Alike a b := by
  rw [← String.toList_inj, toList_typeName, toList_typeName, ← List.forall₂_eq_eq_eq,
    List.forall₂_map_left_iff, List.forall₂_map_right_iff]
  exact Iff.rfl

/-- The suffix of inputs counts as a word of its own. -/
theorem inputTypeName_eq (fullName : String) :
    inputTypeName fullName = typeName (fullName ++ "_Input") := by
  have hflat : flatten (fullName ++ "_Input") = flatten fullName ++ "_" ++ "Input" := by
    rw [flatten, flatten, Text.replaceChar, Text.replaceChar, String.toList_append,
      List.map_append, String.ofList_append, String.append_assoc]
    rfl
  have hinput : pascalCase "Input" = "Input" := by decide
  rw [inputTypeName, typeName, typeName, hflat, pascalCase_append, hinput]

theorem inputTypeName_inj {a b : String} : inputTypeName a = inputTypeName b ↔ Alike a b := by
  rw [inputTypeName, inputTypeName, String.append_left_inj, typeName_eq_iff]

/-- A root is named as a type of its own name. -/
theorem typeName_eq_root {a root : String} (h : root ∈ rootNames) :
    typeName a = root ↔ Alike a root := by
  have hroot : typeName root = root := by
    simp only [rootNames, List.mem_cons, List.not_mem_nil, or_false] at h
    rcases h with rfl | rfl <;> decide
  rw [← typeName_eq_iff, hroot]

theorem inputTypeName_ne_root {root : String} (h : root ∈ rootNames) (fullName : String) :
    inputTypeName fullName ≠ root := by
  intro heq
  have hlast : (inputTypeName fullName).toList.getLast? = some 't' := by
    rw [inputTypeName, String.toList_append, List.getLast?_append]
    rfl
  rw [heq] at hlast
  have hroots : ∀ root ∈ rootNames, root.toList.getLast? ≠ some 't' := by decide
  exact hroots root h hlast

end Naming

/-! ## The names of a selection -/

/-- The full names of the messages and enums of a pool. -/
def Pool.typeNames (p : Pool) : List String :=
  (List.finRange p.e).map (fun j => (p.enum j).fullName) ++
    (List.finRange p.m).map (fun i => (p.message i).fullName)

/-- No two messages or enums have the same full name. -/
def Pool.UniqueNames (p : Pool) : Prop :=
  p.typeNames.Nodup

theorem Pool.UniqueNames.enum_injective {p : Pool} (hp : p.UniqueNames) :
    Function.Injective fun j => (p.enum j).fullName := by
  intro i j h
  exact List.inj_on_of_nodup_map (List.nodup_append.mp hp).1 (List.mem_finRange i)
    (List.mem_finRange j) h

theorem Pool.UniqueNames.message_injective {p : Pool} (hp : p.UniqueNames) :
    Function.Injective fun i => (p.message i).fullName := by
  intro i j h
  exact List.inj_on_of_nodup_map (List.nodup_append.mp hp).2.1 (List.mem_finRange i)
    (List.mem_finRange j) h

/-- The names of all classes, those of the roots at the end. -/
def Schema.Document.declaredNames (d : Document) : List String :=
  d.classNames ++ [d.query.name, d.mutation.name]

namespace Selection

variable {p : Pool}

/-- The full names whose classes carry no suffix. -/
def plainNames (s : Selection p) : List String :=
  s.enumNames ++ s.messageNames .object

/-- No two of the emitted names give the same class name. -/
structure NamesApart (s : Selection p) : Prop where
  plain : ∀ a ∈ s.plainNames, ∀ b ∈ s.plainNames, Naming.Alike a b → a = b
  inputs : ∀ a ∈ s.messageNames .input, ∀ b ∈ s.messageNames .input, Naming.Alike a b → a = b
  suffixed : ∀ a ∈ s.plainNames, ∀ b ∈ s.messageNames .input, ¬ Naming.Alike a (b ++ "_Input")
  roots : ∀ a ∈ s.plainNames, ∀ root ∈ rootNames, ¬ Naming.Alike a root

theorem nodup_messageNames (hp : p.UniqueNames) {s : Selection p} (hs : s.Distinct)
    (role : Role) : (s.messageNames role).Nodup :=
  (hs.messages role).map hp.message_injective

theorem nodup_plainNames (hp : p.UniqueNames) {s : Selection p} (hs : s.Distinct) :
    s.plainNames.Nodup := by
  obtain ⟨-, -, hacross⟩ := List.nodup_append.mp hp
  refine List.nodup_append.mpr
    ⟨hs.enums.map hp.enum_injective, nodup_messageNames hp hs .object, ?_⟩
  intro a ha b hb
  obtain ⟨j, -, rfl⟩ := List.mem_map.mp ha
  obtain ⟨i, -, rfl⟩ := List.mem_map.mp hb
  exact hacross _ (List.mem_map_of_mem (List.mem_finRange j)) _
    (List.mem_map_of_mem (List.mem_finRange i))

theorem declaredNames_of_build {s : Selection p} {o : Overrides} {modules : Modules}
    {d : Document} (hb : s.build o modules = .ok d) :
    d.declaredNames =
      s.plainNames.map Naming.typeName ++
        ((s.messageNames .input).map Naming.inputTypeName ++ rootNames) := by
  have hobjects : d.objects.map (·.name) = (s.messageNames .object).map Naming.typeName :=
    names_classes hb .object
  have hinputs : d.inputs.map (·.name) = (s.messageNames .input).map Naming.inputTypeName :=
    names_classes hb .input
  have hroots : [d.query.name, d.mutation.name] = rootNames := by
    obtain ⟨-, -, -, -, hquery, hmutation⟩ := build_eq_ok.mp hb
    rw [hquery, hmutation]
    rfl
  rw [Document.declaredNames, Document.classNames, names_enums hb, List.map_append, hobjects,
    hinputs, plainNames, List.map_append, List.append_assoc, List.append_assoc,
    List.append_assoc, hroots]

/-- A plain name clashes with an input or a root exactly if the two are
alike. -/
theorem apart_iff {s : Selection p} :
    (∀ n ∈ s.plainNames.map Naming.typeName,
      ∀ k ∈ (s.messageNames .input).map Naming.inputTypeName ++ rootNames, n ≠ k) ↔
      (∀ a ∈ s.plainNames, ∀ b ∈ s.messageNames .input, ¬ Naming.Alike a (b ++ "_Input")) ∧
      ∀ a ∈ s.plainNames, ∀ root ∈ rootNames, ¬ Naming.Alike a root := by
  constructor
  · intro h
    constructor
    · intro a ha b hb halike
      rw [← Naming.typeName_eq_iff, ← Naming.inputTypeName_eq] at halike
      exact h _ (List.mem_map_of_mem ha) _
        (List.mem_append_left _ (List.mem_map_of_mem hb)) halike
    · intro a ha root hr halike
      exact h _ (List.mem_map_of_mem ha) root (List.mem_append_right _ hr)
        ((Naming.typeName_eq_root hr).mpr halike)
  · rintro ⟨hsuffixed, hroots⟩ n hn k hk heq
    obtain ⟨a, ha, rfl⟩ := List.mem_map.mp hn
    rcases List.mem_append.mp hk with hk | hk
    · obtain ⟨b, hb, rfl⟩ := List.mem_map.mp hk
      rw [Naming.inputTypeName_eq, Naming.typeName_eq_iff] at heq
      exact hsuffixed a ha b hb heq
    · exact hroots a ha k hk ((Naming.typeName_eq_root hk).mp heq)

theorem nodup_suffixed_iff (hp : p.UniqueNames) {s : Selection p} (hs : s.Distinct) :
    ((s.messageNames .input).map Naming.inputTypeName ++ rootNames).Nodup ↔
      ∀ a ∈ s.messageNames .input, ∀ b ∈ s.messageNames .input,
        Naming.Alike a b → a = b := by
  have hinputs := List.nodup_map_iff_inj_on (f := Naming.inputTypeName)
    (nodup_messageNames hp hs .input)
  have hroots : rootNames.Nodup := by decide
  rw [List.nodup_append, hinputs]
  simp only [Naming.inputTypeName_inj]
  constructor
  · exact And.left
  · intro h
    refine ⟨h, hroots, fun n hn root hr heq => ?_⟩
    obtain ⟨a, -, rfl⟩ := List.mem_map.mp hn
    exact Naming.inputTypeName_ne_root hr a heq

theorem nodup_declaredNames_iff (hp : p.UniqueNames) {s : Selection p} (hs : s.Distinct)
    {o : Overrides} {modules : Modules} {d : Document} (hb : s.build o modules = .ok d) :
    d.declaredNames.Nodup ↔ s.NamesApart := by
  have hplain := List.nodup_map_iff_inj_on (f := Naming.typeName) (nodup_plainNames hp hs)
  rw [declaredNames_of_build hb, List.nodup_append, hplain, nodup_suffixed_iff hp hs, apart_iff]
  simp only [Naming.typeName_eq_iff]
  constructor
  · rintro ⟨hplain, hinputs, hsuffixed, hroots⟩
    exact ⟨hplain, hinputs, hsuffixed, hroots⟩
  · rintro ⟨hplain, hinputs, hsuffixed, hroots⟩
    exact ⟨hplain, hinputs, hsuffixed, hroots⟩

/-- With unique full names, the class names of a computed selection are
distinct exactly if no two of the names that it emits give the same one. -/
theorem nodup_declaredNames_ofOperations (hp : p.UniqueNames)
    {queries mutations : List (Pool.Method p.m)} {o : Overrides} {modules : Modules}
    {d : Document} (hb : (ofOperations queries mutations).build o modules = .ok d) :
    d.declaredNames.Nodup ↔ (ofOperations queries mutations).NamesApart :=
  nodup_declaredNames_iff hp (covers_ofOperations queries mutations).distinct hb

end Selection

/-! ## An elm

A bud has a tip inside, and there is also a message `BudTip` that holds one.
The full names differ in a dot, so the class names do not differ. -/

namespace Elm

open Selection

def file : Descriptor.File where
  name := some "elm.proto"
  package := some "elm"
  isProto3 := true
  messages := [
    { name := some "Bud", nested := [{ name := some "Tip" }] },
    { name := some "BudTip"
      fields := [
        { name := some "tip", number := some 1, label := some 1, type := some 11
          typeName := some ".elm.Bud.Tip" }] }]
  services := [
    { name := some "Saw"
      methods := [
        { name := some "Cut", inputType := some ".elm.Bud", outputType := some ".elm.BudTip" }] }]

def pool : Pool where
  m := 3
  e := 0
  messages := #v[
    { fullName := "elm.Bud", package := "elm", file := "elm.proto", fields := [] },
    { fullName := "elm.Bud.Tip", package := "elm", file := "elm.proto", fields := [] },
    { fullName := "elm.BudTip", package := "elm", file := "elm.proto"
      fields := [
        { name := "tip", fullName := "elm.BudTip.tip", rawType := some 11
          kind := .message ⟨1, by decide⟩, isRepeated := false }] }]
  enums := .emptyWithCapacity 0
  services := [
    { fullName := "elm.Saw"
      methods := [
        { name := "Cut", service := "elm.Saw", package := "elm", file := "elm.proto"
          input := ⟨0, by decide⟩, output := ⟨2, by decide⟩ }] }]

/-- Cutting takes a bud and gives the message with its tip. -/
def cut : Pool.Method pool.m :=
  { name := "Cut", service := "elm.Saw", package := "elm", file := "elm.proto"
    input := ⟨0, by decide⟩, output := ⟨2, by decide⟩ }

/-- A method that gives the tip itself would not need the other message. -/
def clip : Pool.Method pool.m :=
  { cut with name := "Clip", output := ⟨1, by decide⟩ }

def budInputClass : ClassDecl where
  name := "ElmBudInput"
  fields := [.dummy]

/-- The class of `elm.Bud.Tip`. -/
def tipClass : ClassDecl where
  name := "ElmBudTip"
  fields := [.dummy]

/-- The class of `elm.BudTip`, with a field of the class above. -/
def budTipClass : ClassDecl where
  name := "ElmBudTip"
  fields := [{ name := "tip", type := .field (.generated "ElmBudTip") }]

def document (query : Pool.Method pool.m) (objects : List ClassDecl) : Document where
  objects := objects
  inputs := [budInputClass]
  query := rootDecl queryRootName [query]

theorem uniqueNames_pool : pool.UniqueNames := by
  rw [Pool.UniqueNames]
  decide

/-- With the tip alone, the names are distinct. -/
theorem nodup_declaredNames_clip :
    pool.UniqueNames ∧
    (ofOperations [clip] []).build (Overrides.empty "ext") {} =
      .ok (document clip [tipClass]) ∧
    (document clip [tipClass]).declaredNames.Nodup ∧
    (ofOperations [clip] []).NamesApart := by
  have hb : (ofOperations [clip] []).build (Overrides.empty "ext") {} =
      .ok (document clip [tipClass]) := by
    rw [ofOperations_eq_layers]
    decide +kernel
  have hn : (document clip [tipClass]).declaredNames.Nodup := by decide
  exact ⟨uniqueNames_pool, hb, hn,
    (nodup_declaredNames_ofOperations uniqueNames_pool hb).mp hn⟩

/-- With both, a valid selection of a pool with unique full names, all of them
made of identifiers, has two classes of one name. -/
theorem not_nodup_declaredNames_cut :
    Pool.ofFiles [file] = .ok pool ∧ pool.UniqueNames ∧
    (∀ name ∈ pool.typeNames, ∀ piece ∈ Text.pieces '.' name, Naming.isIdentifier piece) ∧
    (ofOperations [cut] []).validate = .ok () ∧
    (ofOperations [cut] []).build (Overrides.empty "ext") {} =
      .ok (document cut [budTipClass, tipClass]) ∧
    ¬ (document cut [budTipClass, tipClass]).declaredNames.Nodup := by
  rw [ofOperations_eq_layers]
  exact ⟨by decide +kernel, uniqueNames_pool, by decide, by decide +kernel, by decide +kernel,
    by decide⟩

end Elm

end ProtoSchema
