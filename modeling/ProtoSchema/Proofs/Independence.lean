import ProtoSchema.Proofs.Closure
import ProtoSchema.Proofs.Correspondence
import ProtoSchema.Proofs.Cutting
import ProtoSchema.Proofs.LinkedNames

/-!
# Generation depends on what is reached

The text of a schema depends on the configured methods and on what their
messages reach, and on nothing else in the pool. What is compared of two pools
are outlines, in which every index is replaced by the full name that it leads
to, so the pools may be of different sizes and in different orders.

Agreement is asked for along the reach of the first pool only. That is enough:
a message that it reaches has its counterpart by name, and the counterpart has
fields of the same outline, so it leads to counterparts again and to nothing
else. Since full names are unique, counterparts are matched one to one, and
two configured names find one method in the first pool exactly if they do in
the second, for a method knows the full name under which it is found.
-/

namespace ProtoSchema

open ProtoSchema.Descriptor (FieldType)

/-! ## Outlines -/

namespace Pool

/-- What a field holds, by its full name. -/
inductive Content where
  | scalar (type : FieldType)
  | message (fullName : String)
  | enum (fullName : String)
  deriving DecidableEq, Repr

structure FieldOutline where
  name : String
  fullName : String
  rawType : Option Int
  content : Content
  isRepeated : Bool
  deriving DecidableEq, Repr

/-- A method with its file and the package of its service; messages are given
by their full names and packages. -/
structure MethodOutline where
  name : String
  package : String
  file : String
  input : String × String
  output : String × String
  deriving DecidableEq, Repr

def content (p : Pool) : Kind p.m p.e → Content
  | .scalar type => .scalar type
  | .message i => .message (p.message i).fullName
  | .enum j => .enum (p.enum j).fullName

def fieldOutline (p : Pool) (f : Field p.m p.e) : FieldOutline :=
  { name := f.name, fullName := f.fullName, rawType := f.rawType, content := p.content f.kind
    isRepeated := f.isRepeated }

def fieldOutlines (p : Pool) (i : Fin p.m) : List FieldOutline :=
  (p.message i).fields.map p.fieldOutline

def methodOutline (p : Pool) (m : Method p.m) : MethodOutline :=
  { name := m.name, package := m.package, file := m.file
    input := ((p.message m.input).fullName, (p.message m.input).package)
    output := ((p.message m.output).fullName, (p.message m.output).package) }

/-- A method with one of the names takes or returns what reaches the
message. -/
def LeadsTo (p : Pool) (names : List String) (i : Fin p.m) : Prop :=
  ∃ name ∈ names, ∃ m, p.findMethod? name = some m ∧
    (p.Reaches m.input i ∨ p.Reaches m.output i)

/-- The names find methods of the same outline, and what they lead to in the
first pool has the same outline in the second. -/
structure Agree (p p' : Pool) (names : List String) : Prop where
  methods : ∀ name ∈ names,
    (p.findMethod? name).map p.methodOutline = (p'.findMethod? name).map p'.methodOutline
  messages : ∀ i, p.LeadsTo names i →
    ∃ i', (p'.message i').fullName = (p.message i).fullName ∧
      p'.fieldOutlines i' = p.fieldOutlines i
  enums : ∀ i, p.LeadsTo names i → ∀ j, p.HoldsEnum i j → ∃ j', p'.enum j' = p.enum j

/-- All messages, enums and services of the first pool are in the second. -/
structure Within (p p' : Pool) : Prop where
  messages : ∀ i, ∃ i', (p'.message i').place = (p.message i).place ∧
    p'.fieldOutlines i' = p.fieldOutlines i
  enums : ∀ j, ∃ j', p'.enum j' = p.enum j
  services : ∀ s ∈ p.services, ∃ s' ∈ p'.services, s'.fullName = s.fullName ∧
    s'.methods.map p'.methodOutline = s.methods.map p.methodOutline

theorem LeadsTo.tail {p : Pool} {names : List String} {i j : Fin p.m} (h : p.LeadsTo names i)
    (hij : p.Holds i j) : p.LeadsTo names j := by
  obtain ⟨name, hname, m, hm, hreach⟩ := h
  exact ⟨name, hname, m, hm, hreach.imp (·.tail hij) (·.tail hij)⟩

/-! ## Finding methods -/

/-- A configured name without the dots in front. -/
def bareName (name : String) : String :=
  String.ofList (name.toList.dropWhile (· = '.'))

theorem findMethod?_eq_some {p : Pool} {name : String} {m : Method p.m} :
    p.findMethod? name = some m ↔ ∃ service method s,
      Text.cutLast? '.' (bareName name) = some (service, method) ∧
      p.findService? service = some s ∧ s.methods.find? (·.name = method) = some m := by
  simp only [findMethod?, bareName, Option.bind_eq_bind, Option.bind_eq_some_iff, Prod.exists]
  constructor
  · rintro ⟨service, method, hcut, s, hs, hm⟩
    exact ⟨service, method, s, hcut, hs, hm⟩
  · rintro ⟨service, method, s, hcut, hs, hm⟩
    exact ⟨service, method, hcut, s, hs, hm⟩

theorem findMethod?_congr (p : Pool) {a b : String} (h : bareName a = bareName b) :
    p.findMethod? a = p.findMethod? b := by
  ext m
  rw [findMethod?_eq_some, findMethod?_eq_some, h]

/-- Nothing stands in front of the first dot of a bare name but a name. -/
theorem ne_empty_of_bareName {name a b : String} (h : bareName name = a ++ "." ++ b) :
    a ≠ "" := by
  rintro rfl
  have hhead := List.head?_dropWhile_not (· = '.') name.toList
  have hchars : name.toList.dropWhile (· = '.') = '.' :: b.toList := by
    rw [← String.toList_ofList (l := name.toList.dropWhile (· = '.')), ← bareName, h]
    simp
  rw [hchars] at hhead
  cases hhead

/-- A method that is found has the full name that it is found by. -/
theorem WellNamed.fullName_of_findMethod? {p : Pool} (hp : p.WellNamed) {name : String}
    {m : Method p.m} (h : p.findMethod? name = some m) : bareName name = m.fullName := by
  obtain ⟨service, method, s, hcut, hs, hm⟩ := findMethod?_eq_some.mp h
  have hdot : ".".toList = ['.'] := by decide
  obtain ⟨hbare, -⟩ := (Text.cutLast?_eq_some hdot).mp hcut
  have hservice : s.fullName = service := by simpa using List.find?_some hs
  have hmethod : m.name = method := by simpa using List.find?_some hm
  have hin : m.service = s.fullName :=
    hp.methods s (List.mem_of_find?_eq_some hs) m (List.mem_of_find?_eq_some hm)
  rw [Method.fullName, hin, hservice, hmethod, qualify_of_ne_empty (ne_empty_of_bareName hbare),
    hbare]

/-- Two names that find one method in a pool find the same in every pool. -/
theorem WellNamed.findMethod?_eq {p : Pool} (hp : p.WellNamed) {a b : String} {m : Method p.m}
    (ha : p.findMethod? a = some m) (hb : p.findMethod? b = some m) (p' : Pool) :
    p'.findMethod? a = p'.findMethod? b :=
  p'.findMethod?_congr
    ((hp.fullName_of_findMethod? ha).trans (hp.fullName_of_findMethod? hb).symm)

/-! ## From agreement to a correspondence -/

section

variable {p p' : Pool} {names : List String}

/-- Kinds of the same content match, if the relations match what they lead
to. -/
theorem match_of_content {R : Fin p.m → Fin p'.m → Prop} {E : Fin p.e → Fin p'.e → Prop}
    {k : Kind p.m p.e} {k' : Kind p'.m p'.e} (h : p.content k = p'.content k')
    (hR : ∀ i i', k = .message i → (p.message i).fullName = (p'.message i').fullName → R i i')
    (hE : ∀ j j', k = .enum j → (p.enum j).fullName = (p'.enum j').fullName → E j j') :
    Kind.Match R E k k' := by
  cases k with
  | scalar type =>
      cases k' with
      | scalar type' =>
          rw [Content.scalar.inj h]
          exact .scalar type'
      | message _ => cases h
      | enum _ => cases h
  | message i =>
      cases k' with
      | scalar _ => cases h
      | message i' => exact .message (hR i i' rfl (Content.message.inj h))
      | enum _ => cases h
  | enum j =>
      cases k' with
      | scalar _ => cases h
      | message _ => cases h
      | enum j' => exact .enum (hE j j' rfl (Content.enum.inj h))

theorem operation_of_methodOutline {m : Method p.m} {m' : Method p'.m}
    (h : p.methodOutline m = p'.methodOutline m') : m.operation = m'.operation := by
  obtain ⟨hname, hpackage, -, -, -⟩ := MethodOutline.mk.inj h
  rw [Method.operation, Method.operation, hname, hpackage]

theorem resolverDecl_of_methodOutline {m : Method p.m} {m' : Method p'.m}
    (h : p.methodOutline m = p'.methodOutline m') :
    Selection.resolverDecl (p := p) m = Selection.resolverDecl (p := p') m' := by
  obtain ⟨hname, -, hfile, hinput, -⟩ := MethodOutline.mk.inj h
  obtain ⟨hfull, hpackage⟩ := Prod.mk.inj hinput
  have hclass : p.requestClass m = p'.requestClass m' := by
    rw [requestClass, requestClass, Message.path, Message.path, hfull, hpackage]
  rw [Selection.resolverDecl, Selection.resolverDecl, operation_of_methodOutline h,
    Method.protoModule, Method.protoModule, hfile, hclass, hname]

theorem Agree.methodOutline (h : p.Agree p' names) {name : String} (hname : name ∈ names)
    {m : Method p.m} {m' : Method p'.m} (hm : p.findMethod? name = some m)
    (hm' : p'.findMethod? name = some m') : p.methodOutline m = p'.methodOutline m' := by
  have heq := h.methods name hname
  rw [hm, hm'] at heq
  exact Option.some.inj heq

/-- What is reached and what has its full name in the other pool. -/
def Counterpart (p p' : Pool) (names : List String) (i : Fin p.m) (i' : Fin p'.m) : Prop :=
  p.LeadsTo names i ∧ (p.message i).fullName = (p'.message i').fullName

theorem Agree.fields (h : p.Agree p' names) (hp' : p'.WellNamed) {i : Fin p.m} {i' : Fin p'.m}
    (hi : Counterpart p p' names i i') :
    List.Forall₂ (Field.Match (Counterpart p p' names) fun j j' => p.enum j = p'.enum j')
      (p.message i).fields (p'.message i').fields := by
  obtain ⟨hlead, hname⟩ := hi
  obtain ⟨k, hk, houtline⟩ := h.messages i hlead
  obtain rfl : k = i' := hp'.message_inj (hk.trans hname)
  refine (forall₂_of_map_eq houtline.symm).imp fun f f' ⟨hf, heq⟩ => ?_
  obtain ⟨hname, hfull, hraw, hcontent, hrepeated⟩ := FieldOutline.mk.inj heq
  refine ⟨hname, hfull, hraw, match_of_content hcontent ?_ ?_, hrepeated⟩
  · exact fun j j' hj hname => ⟨hlead.tail ⟨f, hf, hj⟩, hname⟩
  · -- The enum of that name in the other pool is the one that has the same values.
    intro j j' hj hname
    obtain ⟨k', hk'⟩ := h.enums i hlead j ⟨f, hf, hj⟩
    have hsame : k' = j' := hp'.enum_inj ((congrArg Enum.fullName hk').trans hname)
    rw [← hk', hsame]

/-- Messages and enums correspond by their full names, a method by the name
that it is configured with. -/
def Agree.correspondence (h : p.Agree p' names) (hp : p.WellNamed) (hp' : p'.WellNamed) :
    Correspondence p p' where
  message := Counterpart p p' names
  enum j j' := p.enum j = p'.enum j'
  method m m' := ∃ name ∈ names, p.findMethod? name = some m ∧ p'.findMethod? name = some m'
  biUnique_message :=
    ⟨fun _ _ _ ha hb => hp.message_inj (ha.2.trans hb.2.symm),
      fun _ _ _ hb hc => hp'.message_inj (hb.2.symm.trans hc.2)⟩
  biUnique_enum :=
    ⟨fun _ _ _ ha hb => hp.enum_inj (congrArg Enum.fullName (ha.trans hb.symm)),
      fun _ _ _ hb hc => hp'.enum_inj (congrArg Enum.fullName (hb.symm.trans hc))⟩
  biUnique_method := by
    constructor
    · rintro m₁ m₂ m' ⟨a, -, ha, ha'⟩ ⟨b, -, hb, hb'⟩
      have hab := hp'.findMethod?_eq ha' hb' p
      exact Option.some.inj (ha.symm.trans (hab.trans hb))
    · rintro m m₁ m₂ ⟨a, -, ha, ha'⟩ ⟨b, -, hb, hb'⟩
      have hab := hp.findMethod?_eq ha hb p'
      exact Option.some.inj (ha'.symm.trans (hab.trans hb'))
  fullName hi := hi.2
  fields hi := h.fields hp' hi
  enum_eq hj := hj
  operation := by
    rintro m m' ⟨name, hname, hm, hm'⟩
    exact operation_of_methodOutline (h.methodOutline hname hm hm')
  resolver := by
    rintro m m' ⟨name, hname, hm, hm'⟩
    exact resolverDecl_of_methodOutline (h.methodOutline hname hm hm')
  input := by
    rintro m m' ⟨name, hname, hm, hm'⟩
    obtain ⟨-, -, -, hinput, -⟩ := MethodOutline.mk.inj (h.methodOutline hname hm hm')
    exact ⟨⟨name, hname, m, hm, Or.inl .refl⟩, (Prod.mk.inj hinput).1⟩
  output := by
    rintro m m' ⟨name, hname, hm, hm'⟩
    obtain ⟨-, -, -, -, houtput⟩ := MethodOutline.mk.inj (h.methodOutline hname hm hm')
    exact ⟨⟨name, hname, m, hm, Or.inr .refl⟩, (Prod.mk.inj houtput).1⟩

theorem Within.findMethod? (h : p.Within p') (hp' : p'.WellNamed) {name : String}
    {m : Method p.m} (hm : p.findMethod? name = some m) :
    ∃ m', p'.findMethod? name = some m' ∧ p'.methodOutline m' = p.methodOutline m := by
  obtain ⟨service, method, s, hcut, hs, hfind⟩ := findMethod?_eq_some.mp hm
  obtain ⟨s', hs', hsame, hmethods⟩ := h.services s (List.mem_of_find?_eq_some hs)
  have hservice : s.fullName = service := by simpa using List.find?_some hs
  have hfound : p'.findService? service = some s' := by
    rw [← hservice, ← hsame]
    exact hp'.findService?_of_mem hs'
  -- A method is looked for by a part of its outline, so the outlines can be searched.
  have houtline : (s'.methods.find? (·.name = method)).map p'.methodOutline =
      some (p.methodOutline m) := by
    calc (s'.methods.find? (·.name = method)).map p'.methodOutline
        = (s'.methods.map p'.methodOutline).find? (·.name = method) := by
          rw [List.find?_map]
          rfl
      _ = (s.methods.map p.methodOutline).find? (·.name = method) := by rw [hmethods]
      _ = (s.methods.find? (·.name = method)).map p.methodOutline := List.find?_map
      _ = some (p.methodOutline m) := by rw [hfind, Option.map_some]
  obtain ⟨m', hm', heq⟩ := Option.map_eq_some_iff.mp houtline
  exact ⟨m', findMethod?_eq_some.mpr ⟨service, method, s', hcut, hfound, hm'⟩, heq⟩

/-- A pool agrees with every pool that it is within, for all names that find
nothing new there. -/
theorem Within.agree (h : p.Within p') (hp' : p'.WellNamed)
    (hnew : ∀ name ∈ names, p.findMethod? name = none → p'.findMethod? name = none) :
    p.Agree p' names where
  methods name hname := by
    cases hm : p.findMethod? name with
    | none => rw [hnew name hname hm, Option.map_none, Option.map_none]
    | some m =>
        obtain ⟨m', hm', heq⟩ := h.findMethod? hp' hm
        rw [hm', Option.map_some, Option.map_some, heq]
  messages i _ := by
    obtain ⟨i', hplace, hfields⟩ := h.messages i
    exact ⟨i', (Prod.mk.inj hplace).1, hfields⟩
  enums _ _ j _ := h.enums j

end

end Pool

/-! ## From a correspondence to one outcome -/

/-- Outcomes that fail alike, or succeed with results that match. -/
inductive Coincide {ε α β : Type} (R : α → β → Prop) : Except ε α → Except ε β → Prop
  | ok {a : α} {b : β} (h : R a b) : Coincide R (.ok a) (.ok b)
  | error (e : ε) : Coincide R (.error e) (.error e)

namespace Coincide

variable {ε α β γ δ : Type} {R : α → β → Prop} {x : Except ε α} {y : Except ε β}

theorem bind {S : γ → δ → Prop} {f : α → Except ε γ} {g : β → Except ε δ} (h : Coincide R x y)
    (hfg : ∀ {a b}, R a b → Coincide S (f a) (g b)) : Coincide S (x >>= f) (y >>= g) := by
  cases h with
  | ok h => exact hfg h
  | error e => exact .error e

theorem bind_eq {f : α → Except ε γ} {g : β → Except ε γ} (h : Coincide R x y)
    (hfg : ∀ {a b}, R a b → f a = g b) : x >>= f = y >>= g := by
  cases h with
  | ok h => exact hfg h
  | error e => rfl

theorem mapM {f : γ → Except ε α} {g : γ → Except ε β} {l : List γ}
    (h : ∀ a ∈ l, Coincide R (f a) (g a)) :
    Coincide (List.Forall₂ R) (l.mapM f) (l.mapM g) := by
  induction l with
  | nil => exact .ok .nil
  | cons a l ih =>
      rw [List.mapM_cons, List.mapM_cons]
      have hrest := ih fun b hb => h b (List.mem_cons_of_mem a hb)
      exact (h a List.mem_cons_self).bind fun hab => hrest.bind fun hl => .ok (.cons hab hl)

end Coincide

namespace Pool.Agree

variable {p p' : Pool} {names : List String}

theorem findMethod (h : p.Agree p' names) (hp : p.WellNamed) (hp' : p'.WellNamed)
    {name : String} (hname : name ∈ names) :
    Coincide (h.correspondence hp hp').method (p.findMethod name) (p'.findMethod name) := by
  have heq := h.methods name hname
  rw [Pool.findMethod, Pool.findMethod]
  cases hm : p.findMethod? name with
  | none =>
      rw [hm, Option.map_none, eq_comm, Option.map_eq_none_iff] at heq
      rw [heq]
      exact .error _
  | some m =>
      rw [hm, Option.map_some, eq_comm, Option.map_eq_some_iff] at heq
      obtain ⟨m', hm', -⟩ := heq
      rw [hm']
      exact .ok ⟨name, hname, hm, hm'⟩

theorem ofNames {queries mutations : List String} (h : p.Agree p' (queries ++ mutations))
    (hp : p.WellNamed) (hp' : p'.WellNamed) :
    Coincide (Selection.Match (h.correspondence hp hp'))
      (Selection.ofNames p queries mutations) (Selection.ofNames p' queries mutations) := by
  have hqueries := Coincide.mapM fun name hname =>
    h.findMethod hp hp' (List.mem_append_left mutations hname)
  have hmutations := Coincide.mapM fun name hname =>
    h.findMethod hp hp' (List.mem_append_right queries hname)
  exact hqueries.bind fun hq => hmutations.bind fun hm => .ok (Selection.match_ofOperations hq hm)

end Pool.Agree

/-- If two pools agree on what the configured methods lead to, they give the
same text or the same error. A pool agrees so with every pool that has all that
it has, unless a configured name that finds no method in the one finds a method
in the other. -/
theorem generate_eq_of_agree {p p' : Pool} (hp : p.WellNamed) (hp' : p'.WellNamed)
    (files : FileTree) (c : Config) :
    (p.Agree p' (c.queries ++ c.mutations) → generate files p c = generate files p' c) ∧
    (p.Within p' →
      (∀ name ∈ c.queries ++ c.mutations,
        p.findMethod? name = none → p'.findMethod? name = none) →
      generate files p c = generate files p' c) := by
  have hagree (h : p.Agree p' (c.queries ++ c.mutations)) :
      generate files p c = generate files p' c := by
    rw [generate, generate]
    refine bind_congr fun o => ?_
    exact (h.ofNames hp hp').bind_eq fun hs => hs.generate o c
  exact ⟨hagree, fun hwithin hnew => hagree (hwithin.agree hp' hnew)⟩

/-! ## A ferry

Boats cross a ford, and there are storms, which no method leads to. Another set
has storms of another sort, and in front of the ford a harbor that the boats can
be hauled into, so all indices differ. -/

namespace Ferry

def ford (force : FieldType) : Descriptor.File where
  name := some "ford.proto"
  package := some "ford"
  isProto3 := true
  messages := [
    { name := some "Storm"
      fields := [
        { name := some "force", number := some 1, label := some 1, type := some force.number }] },
    { name := some "Boat"
      fields := [
        { name := some "tenders", number := some 1, label := some 3, type := some 11
          typeName := some ".ford.Boat" },
        { name := some "rig", number := some 2, label := some 1, type := some 14
          typeName := some ".ford.Rig" }] }]
  enums := [{ name := some "Rig", values := [{ name := some "SLOOP", number := some 0 }] }]
  services := [
    { name := some "Ferry"
      methods := [
        { name := some "Cross", inputType := some ".ford.Boat"
          outputType := some ".ford.Boat" }] }]

def harbor : Descriptor.File where
  name := some "harbor.proto"
  package := some "harbor"
  isProto3 := true
  dependencies := ["ford.proto"]
  messages := [{ name := some "Crane" }]
  enums := [{ name := some "Tide", values := [{ name := some "LOW", number := some 0 }] }]
  services := [
    { name := some "Port"
      methods := [
        { name := some "Haul", inputType := some ".ford.Boat"
          outputType := some ".ford.Boat" }] }]

section

variable {m e : Nat} (i : Fin m) (j : Fin e)

def storm (force : FieldType) : Pool.Message m e where
  fullName := "ford.Storm"
  package := "ford"
  file := "ford.proto"
  fields := [
    { name := "force", fullName := "ford.Storm.force", rawType := some force.number
      kind := .scalar force, isRepeated := false }]

def boat : Pool.Message m e where
  fullName := "ford.Boat"
  package := "ford"
  file := "ford.proto"
  fields := [
    { name := "tenders", fullName := "ford.Boat.tenders", rawType := some 11, kind := .message i
      isRepeated := true },
    { name := "rig", fullName := "ford.Boat.rig", rawType := some 14, kind := .enum j
      isRepeated := false }]

def cross : Pool.Method m where
  name := "Cross"
  service := "ford.Ferry"
  package := "ford"
  file := "ford.proto"
  input := i
  output := i

def haul : Pool.Method m where
  name := "Haul"
  service := "harbor.Port"
  package := "harbor"
  file := "harbor.proto"
  input := i
  output := i

end

def rig : Pool.Enum where
  fullName := "ford.Rig"
  values := ["SLOOP"]

/-- The ford alone. -/
def river : Pool where
  m := 2
  e := 1
  messages := #v[storm .int32, boat (Fin.last 1) (Fin.last 0)]
  enums := #v[rig]
  services := [{ fullName := "ford.Ferry", methods := [cross (Fin.last 1)] }]

/-- The ford behind the harbor. -/
def coast (force : FieldType) : Pool where
  m := 3
  e := 2
  messages := #v[
    { fullName := "harbor.Crane", package := "harbor", file := "harbor.proto", fields := [] },
    storm force, boat (Fin.last 2) (Fin.last 1)]
  enums := #v[{ fullName := "harbor.Tide", values := ["LOW"] }, rig]
  services := [
    { fullName := "harbor.Port", methods := [haul (Fin.last 2)] },
    { fullName := "ford.Ferry", methods := [cross (Fin.last 2)] }]

/-- The method is configured twice, once with a dot in front. -/
def config : Config where
  queries := ["ford.Ferry.Cross", ".ford.Ferry.Cross"]

/-- The index of the boat. -/
def boats : Fin river.m := Fin.last 1

theorem eq_of_reaches {i : Fin river.m} (h : river.Reaches boats i) : i = boats := by
  induction h with
  | refl => rfl
  | tail _ hk ih =>
      have hsucc : river.successors boats = [boats] := by decide
      rw [ih, ← Pool.mem_successors, hsucc] at hk
      exact List.mem_singleton.mp hk

theorem eq_of_leadsTo {i : Fin river.m}
    (h : river.LeadsTo (config.queries ++ config.mutations) i) : i = boats := by
  obtain ⟨name, hname, m, hm, hreach⟩ := h
  have hfound : (config.queries ++ config.mutations).map river.findMethod? =
      [some (cross boats), some (cross boats)] := by decide
  have hmem : some m ∈ (config.queries ++ config.mutations).map river.findMethod? :=
    List.mem_map.mpr ⟨name, hname, hm⟩
  rw [hfound] at hmem
  obtain rfl : m = cross boats := by simpa using hmem
  rcases hreach with hreach | hreach
  · exact eq_of_reaches hreach
  · exact eq_of_reaches hreach

theorem agree_coast : river.Agree (coast .string) (config.queries ++ config.mutations) where
  methods := by decide
  messages i hi := by
    rw [eq_of_leadsTo hi]
    decide
  enums _ _ j _ := by
    have henums : ∀ j, ∃ j', (coast .string).enum j' = river.enum j := by decide
    exact henums j

theorem within_coast : river.Within (coast .int32) where
  messages := by decide
  enums := by decide
  services := by decide

/-- Neither the harbor nor the other storms change the outcome. -/
theorem generate_eq_of_agree_coast :
    Pool.ofFiles [ford .int32] = .ok river ∧
    Pool.ofFiles [harbor, ford .string] = .ok (coast .string) ∧
    Pool.ofFiles [harbor, ford .int32] = .ok (coast .int32) ∧
    generate {} river config = generate {} (coast .string) config ∧
    generate {} river config = generate {} (coast .int32) config := by
  have hriver : Pool.ofFiles [ford .int32] = .ok river := by decide +kernel
  have hstring : Pool.ofFiles [harbor, ford .string] = .ok (coast .string) := by decide +kernel
  have hint : Pool.ofFiles [harbor, ford .int32] = .ok (coast .int32) := by decide +kernel
  have hp := Pool.wellNamed_ofFiles hriver
  refine ⟨hriver, hstring, hint, ?_, ?_⟩
  · exact (generate_eq_of_agree hp (Pool.wellNamed_ofFiles hstring) {} config).1 agree_coast
  · exact (generate_eq_of_agree hp (Pool.wellNamed_ofFiles hint) {} config).2 within_coast
      (by decide)

end Ferry

end ProtoSchema
