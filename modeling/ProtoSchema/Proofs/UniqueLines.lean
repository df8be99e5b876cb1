import ProtoSchema.Proofs.Cutting
import ProtoSchema.Schema.Document

/-!
# Lines that can be read in one way only

In a line, names are words and what follows a name is no part of a word, so
each name is as long as it can be. Expressions for types are read from their
outside: what is called is known up to the first parenthesis, and what it is
called with then tells apart the few expressions that call the same.

The module and the class of a resolver's request are written with a dot in
between, and both may have dots of their own. So only the whole path is
determined, not where the module ends.
-/

namespace ProtoSchema.Schema

open ProtoSchema.Text

/-! ## Names -/

def Reference.isWellNamed : Reference → Bool
  | .generated name => isWord name
  | .extension module name => isWord module && isWord name

def TypeExpr.isWellNamed (t : TypeExpr) : Bool :=
  t.reference?.all Reference.isWellNamed

def EnumDecl.isWellNamed (e : EnumDecl) : Bool :=
  isWord e.name && e.members.all isWord

def FieldDecl.isWellNamed (f : FieldDecl) : Bool :=
  isWord f.name && f.type.isWellNamed

def ClassDecl.isWellNamed (c : ClassDecl) : Bool :=
  isWord c.name && c.fields.all FieldDecl.isWellNamed

def OperationDecl.isWellNamed (o : OperationDecl) : Bool :=
  isWord o.name && isWord o.output && isWord o.input

/-- Of a resolver it is enough that nothing in it ends a line. -/
def ResolverDecl.isWellNamed (r : ResolverDecl) : Bool :=
  [r.name, r.protoModule, r.requestClass, r.handler].all (OneLine ·)

def RootDecl.isWellNamed (r : RootDecl) : Bool :=
  isWord r.name && r.operations.all OperationDecl.isWellNamed &&
  r.resolvers.all ResolverDecl.isWellNamed

/-- Whether the names of a document are words, those of its resolvers lines. -/
def Document.isWellNamed (d : Document) : Bool :=
  d.enums.all EnumDecl.isWellNamed && d.objects.all ClassDecl.isWellNamed &&
    d.inputs.all ClassDecl.isWellNamed && d.query.isWellNamed && d.mutation.isWellNamed

/-- Whether no module has a line feed in its name. -/
def Modules.areLines (m : Modules) : Bool :=
  [m.proto, m.handlers, m.extensions, m.scalars, m.parseDict].all (OneLine ·)

theorem EnumDecl.isWellNamed_iff {e : EnumDecl} :
    e.isWellNamed ↔ isWord e.name ∧ ∀ m ∈ e.members, isWord m := by
  rw [isWellNamed, Bool.and_eq_true, List.all_eq_true]

theorem FieldDecl.isWellNamed_iff {f : FieldDecl} :
    f.isWellNamed ↔ isWord f.name ∧ f.type.isWellNamed := by
  rw [isWellNamed, Bool.and_eq_true]

theorem ClassDecl.isWellNamed_iff {c : ClassDecl} :
    c.isWellNamed ↔ isWord c.name ∧ ∀ f ∈ c.fields, f.isWellNamed := by
  rw [isWellNamed, Bool.and_eq_true, List.all_eq_true]

theorem OperationDecl.isWellNamed_iff {o : OperationDecl} :
    o.isWellNamed ↔ isWord o.name ∧ isWord o.output ∧ isWord o.input := by
  rw [isWellNamed, Bool.and_eq_true, Bool.and_eq_true, and_assoc]

theorem ResolverDecl.isWellNamed_iff {r : ResolverDecl} :
    r.isWellNamed ↔
      OneLine r.name ∧ OneLine r.protoModule ∧ OneLine r.requestClass ∧ OneLine r.handler := by
  simp [isWellNamed]

theorem RootDecl.isWellNamed_iff {r : RootDecl} :
    r.isWellNamed ↔ isWord r.name ∧ (∀ o ∈ r.operations, o.isWellNamed) ∧
      ∀ s ∈ r.resolvers, s.isWellNamed := by
  simp only [isWellNamed, Bool.and_eq_true, List.all_eq_true, and_assoc]

theorem Document.isWellNamed_iff {d : Document} :
    d.isWellNamed ↔ (∀ e ∈ d.enums, e.isWellNamed) ∧ (∀ c ∈ d.objects, c.isWellNamed) ∧
      (∀ c ∈ d.inputs, c.isWellNamed) ∧ d.query.isWellNamed ∧ d.mutation.isWellNamed := by
  simp only [isWellNamed, Bool.and_eq_true, List.all_eq_true, and_assoc]

theorem Modules.areLines_iff {m : Modules} :
    m.areLines ↔ OneLine m.proto ∧ OneLine m.handlers ∧ OneLine m.extensions ∧
      OneLine m.scalars ∧ OneLine m.parseDict := by
  simp [areLines]

/-! ## Types -/

theorem Reference.text_unique {r r' : Reference} (hr : r.isWellNamed) (hr' : r'.isWellNamed)
    (h : r.text = r'.text) : r = r' := by
  have hdot : ∀ {module name : String}, '.' ∈ (module ++ "." ++ name).toList := by
    intro module name
    simp
  cases r with
  | generated name =>
      cases r' with
      | generated name' => exact congrArg _ h
      | extension module' name' =>
          rw [Reference.text, Reference.text] at h
          exact absurd (h ▸ hdot) (notMem_of_isWord (by decide) hr)
  | extension module name =>
      cases r' with
      | generated name' =>
          rw [Reference.text, Reference.text] at h
          exact absurd (h ▸ hdot) (notMem_of_isWord (by decide) hr')
      | extension module' name' =>
          rw [Reference.isWellNamed, Bool.and_eq_true] at hr hr'
          rw [Reference.text, Reference.text, String.append_assoc, String.append_assoc] at h
          obtain ⟨rfl, hname⟩ := word_unique hr.1 hr'.1
            (endsWord_append (by decide) (by decide) name)
            (endsWord_append (by decide) (by decide) name') h
          rw [String.append_right_inj] at hname
          rw [hname]

/-- A call is cut at its first parenthesis. -/
theorem call_unique {f f' x x' : String} (hf : '(' ∉ f.toList) (hf' : '(' ∉ f'.toList)
    (h : f ++ ("(" ++ x) = f' ++ ("(" ++ x')) : f = f' ∧ x = x' := by
  have hchars := congrArg String.toList h
  rw [String.toList_append, String.toList_append, String.toList_append, String.toList_append]
    at hchars
  obtain ⟨hf, hx⟩ := cut_unique hf hf' hchars
  exact ⟨String.toList_inj.mp hf, String.toList_inj.mp hx⟩

/-- What the expression of a type calls. -/
inductive Callee where
  | scalar (s : Scalar)
  | list
  | field
  | inputField
  deriving DecidableEq, Repr

namespace Callee

def all : List Callee :=
  [scalar .boolean, scalar .float, scalar .int, scalar .string, scalar .longString, list, field,
   inputField]

def text : Callee → String
  | scalar s => s.text
  | list => "graphene.List"
  | field => "graphene.Field"
  | inputField => "graphene.InputField"

theorem mem_all (c : Callee) : c ∈ all := by
  cases c with
  | scalar s => cases s <;> decide
  | _ => decide

theorem text_injective {c c' : Callee} (h : c.text = c'.text) : c = c' := by
  have hall : ∀ c ∈ all, ∀ c' ∈ all, c.text = c'.text → c = c' := by decide
  exact hall c (mem_all c) c' (mem_all c') h

theorem paren_notMem_text (c : Callee) : '(' ∉ c.text.toList := by
  have hall : ∀ c ∈ all, '(' ∉ c.text.toList := by decide
  exact hall c (mem_all c)

end Callee

namespace TypeExpr

def callee : TypeExpr → Callee
  | scalar s => .scalar s
  | scalarList _ => .list
  | field _ => .field
  | inputField _ => .inputField
  | nonNullList _ => .list
  | placeholder => .scalar .boolean

/-- The words of the placeholder, with the parenthesis that ends it. -/
def dummyWords : String :=
  "'Dummy field required because GraphQL does not support empty types.')"

/-- What follows the parenthesis after what is called. -/
def arguments : TypeExpr → String
  | scalar _ => ")"
  | scalarList s => s.text ++ ")"
  | field r => r.text ++ ")"
  | inputField r => r.text ++ ")"
  | nonNullList r => "graphene.NonNull(" ++ (r.text ++ "))")
  | placeholder => "description=" ++ dummyWords

theorem append_call {start f x y : String} (h : start = f ++ "(") :
    start ++ x ++ y = f ++ ("(" ++ (x ++ y)) := by
  rw [h, String.append_assoc, String.append_assoc]

theorem text_eq_call (t : TypeExpr) : t.text = t.callee.text ++ ("(" ++ t.arguments) := by
  cases t with
  | scalar s => rfl
  | scalarList s =>
      show "graphene.List(" ++ s.text ++ ")" = "graphene.List" ++ ("(" ++ (s.text ++ ")"))
      exact append_call (by decide)
  | field r =>
      show "graphene.Field(" ++ r.text ++ ")" = "graphene.Field" ++ ("(" ++ (r.text ++ ")"))
      exact append_call (by decide)
  | inputField r =>
      show "graphene.InputField(" ++ r.text ++ ")" =
        "graphene.InputField" ++ ("(" ++ (r.text ++ ")"))
      exact append_call (by decide)
  | nonNullList r =>
      have hstart : "graphene.List(graphene.NonNull(" =
          "graphene.List(" ++ "graphene.NonNull(" := by decide
      show "graphene.List(graphene.NonNull(" ++ r.text ++ "))" =
        "graphene.List" ++ ("(" ++ ("graphene.NonNull(" ++ (r.text ++ "))")))
      rw [hstart, String.append_assoc]
      exact append_call (by decide)
  | placeholder =>
      have hstart : "graphene.Boolean(description=" = "graphene.Boolean(" ++ "description=" := by
        decide
      show "graphene.Boolean(description=" ++ dummyWords =
        "graphene.Boolean" ++ ("(" ++ ("description=" ++ dummyWords))
      rw [hstart]
      exact append_call (by decide)

/-- The two kinds of lists differ in a parenthesis. -/
theorem scalar_ne_nonNull (s : Scalar) (rest : String) :
    s.text ++ ")" ≠ "graphene.NonNull(" ++ rest := by
  intro h
  have hmem : '(' ∈ ("graphene.NonNull(" ++ rest).toList := by
    rw [String.toList_append]
    exact List.mem_append_left _ (by decide)
  have hnot : '(' ∉ (s.text ++ ")").toList := by
    cases s <;> decide
  exact hnot (h ▸ hmem)

theorem scalar_ne_placeholder : ")" ≠ "description=" ++ dummyWords := by
  intro h
  have hmem : 'd' ∈ ("description=" ++ dummyWords).toList := by
    rw [String.toList_append]
    exact List.mem_append_left _ (by decide)
  have hnot : 'd' ∉ ")".toList := by decide
  exact hnot (h ▸ hmem)

theorem text_unique {t t' : TypeExpr} (ht : t.isWellNamed) (ht' : t'.isWellNamed)
    (h : t.text = t'.text) : t = t' := by
  rw [text_eq_call, text_eq_call] at h
  obtain ⟨hcallee, harguments⟩ :=
    call_unique t.callee.paren_notMem_text t'.callee.paren_notMem_text h
  replace hcallee := Callee.text_injective hcallee
  cases t with
  | scalar s =>
      cases t' with
      | scalar s' => cases hcallee; rfl
      | placeholder => exact absurd harguments scalar_ne_placeholder
      | _ => cases hcallee
  | scalarList s =>
      cases t' with
      | scalarList s' =>
          have htext : s.text = s'.text := (String.append_left_inj ")").mp harguments
          have hscalar : Callee.scalar s = .scalar s' := Callee.text_injective htext
          rw [Callee.scalar.inj hscalar]
      | nonNullList r => exact absurd harguments (scalar_ne_nonNull s _)
      | _ => cases hcallee
  | field r =>
      cases t' with
      | field r' =>
          have htext : r.text = r'.text := (String.append_left_inj ")").mp harguments
          rw [Reference.text_unique ht ht' htext]
      | _ => cases hcallee
  | inputField r =>
      cases t' with
      | inputField r' =>
          have htext : r.text = r'.text := (String.append_left_inj ")").mp harguments
          rw [Reference.text_unique ht ht' htext]
      | _ => cases hcallee
  | nonNullList r =>
      cases t' with
      | nonNullList r' =>
          have htext : r.text = r'.text :=
            (String.append_left_inj "))").mp
              ((String.append_right_inj "graphene.NonNull(").mp harguments)
          rw [Reference.text_unique ht ht' htext]
      | scalarList s => exact absurd harguments.symm (scalar_ne_nonNull s _)
      | _ => cases hcallee
  | placeholder =>
      cases t' with
      | placeholder => rfl
      | scalar s => exact absurd harguments.symm scalar_ne_placeholder
      | _ => cases hcallee

end TypeExpr

/-! ## Lines -/

theorem memberLine_unique {name name' value value' : String} (h : isWord name)
    (h' : isWord name') (heq : memberLine name value = memberLine name' value') :
    name = name' ∧ value = value' := by
  simp only [memberLine, String.append_assoc] at heq
  obtain ⟨hname, hvalue⟩ := word_unique h h' (endsWord_append (by decide) (by decide) value)
    (endsWord_append (by decide) (by decide) value') ((String.append_right_inj "    ").mp heq)
  exact ⟨hname, (String.append_right_inj " = ").mp hvalue⟩

theorem classLine_unique {name name' base base' : String} (h : isWord name)
    (h' : isWord name') (heq : classLine name base = classLine name' base') :
    name = name' ∧ base = base' := by
  simp only [classLine, String.append_assoc] at heq
  obtain ⟨hname, hbase⟩ := word_unique h h' (endsWord_append (by decide) (by decide) _)
    (endsWord_append (by decide) (by decide) _) ((String.append_right_inj "class ").mp heq)
  exact ⟨hname, (String.append_left_inj "):").mp ((String.append_right_inj "(graphene.").mp hbase)⟩

theorem EnumDecl.member_unique {m m' : String} (h : isWord m) (h' : isWord m')
    (heq : memberLine m ("'" ++ m ++ "'") = memberLine m' ("'" ++ m' ++ "'")) : m = m' :=
  (memberLine_unique h h' heq).1

theorem FieldDecl.line_unique {f f' : FieldDecl} (h : f.isWellNamed) (h' : f'.isWellNamed)
    (heq : memberLine f.name f.type.text = memberLine f'.name f'.type.text) : f = f' := by
  rw [FieldDecl.isWellNamed_iff] at h h'
  obtain ⟨hname, htext⟩ := memberLine_unique h.1 h'.1 heq
  have htype := TypeExpr.text_unique h.2 h'.2 htext
  cases f
  cases f'
  cases hname
  cases htype
  rfl

theorem OperationDecl.line_unique {o o' : OperationDecl} (h : o.isWellNamed)
    (h' : o'.isWellNamed) (heq : o.line = o'.line) : o = o' := by
  rw [OperationDecl.isWellNamed_iff] at h h'
  obtain ⟨hname, hvalue⟩ := memberLine_unique h.1 h'.1 heq
  simp only [String.append_assoc] at hvalue
  obtain ⟨houtput, hinput⟩ := word_unique h.2.1 h'.2.1 (endsWord_append (by decide) (by decide) _)
    (endsWord_append (by decide) (by decide) _)
    ((String.append_right_inj "graphene.Field(").mp hvalue)
  replace hinput :=
    (String.append_left_inj "())").mp ((String.append_right_inj ", input=").mp hinput)
  cases o
  cases o'
  cases hname
  cases houtput
  cases hinput
  rfl

/-- An operation is not the placeholder of a root without operations. -/
theorem OperationDecl.line_ne_dummy {o : OperationDecl} (h : o.isWellNamed) :
    o.line ≠ memberLine "dummy" TypeExpr.placeholder.text := by
  rw [OperationDecl.isWellNamed_iff] at h
  intro heq
  obtain ⟨-, hvalue⟩ := memberLine_unique h.1 (by decide) heq
  have hstart : "graphene.Field(" = "graphene.Field" ++ "(" := by decide
  rw [TypeExpr.text_eq_call, hstart] at hvalue
  simp only [String.append_assoc] at hvalue
  obtain ⟨hcallee, -⟩ := call_unique (by decide) (by decide) hvalue
  exact absurd hcallee (by decide)

/-- What the text shows of a resolver. -/
def ResolverDecl.signature (r : ResolverDecl) : String × String × String :=
  (r.name, r.handler, r.protoModule ++ "." ++ r.requestClass)

theorem ResolverDecl.lines_unique {m : Modules} {r r' : ResolverDecl}
    (h : r.lines m = r'.lines m) : r.signature = r'.signature := by
  simp only [ResolverDecl.lines, List.cons.injEq, and_true, true_and, Document.protoPath,
    String.append_assoc, String.append_right_inj] at h
  obtain ⟨hname, hpath, hhandler⟩ := h
  rw [← String.append_assoc, ← String.append_assoc, ← String.append_assoc,
    ← String.append_assoc] at hpath
  rw [signature, signature, (String.append_left_inj _).mp hname,
    (String.append_left_inj _).mp hpath, (String.append_left_inj _).mp hhandler]

end ProtoSchema.Schema
