import ProtoSchema.Proofs.Layers
import ProtoSchema.Proofs.Linking
import ProtoSchema.Proofs.References

/-!
# When classes are declared before they are used

A generated module is read from top to bottom, and a class body that names a
class needs the class statement that binds the name to come first. References
to enums always are in order, since all enums come before all classes. Those
between classes are not: a computed selection lists a message before what its
fields hold, because the walk settles a message when it takes it from the
queue and queues its fields behind it.

So the order is right only if a walk never finds anything new behind its
start. `Ordered` says of a list that everything is used after it has become
known, and the statement is then one about two lists: the messages of a
selection are in order exactly if the messages of its methods are, which is to
say that each method's message holds only messages of methods before it. For
such methods every walk ends where it starts.

Names stand in for messages in the text. If two classes share one, a reference
may find the wrong class above it, so the order of the text determines that of
the messages only if the names are distinct.
-/

namespace ProtoSchema

open ProtoSchema.Schema

/-! ## Lists in order -/

/-- Every element uses only what is known before it, and becomes known under
its name. -/
def Ordered {α β : Type} (uses : α → β → Prop) (name : α → β) (known : List β) :
    List α → Prop
  | [] => True
  | a :: rest => (∀ b, uses a b → b ∈ known) ∧ Ordered uses name (known ++ [name a]) rest

section Ordered

variable {α β : Type} {uses : α → β → Prop} {name : α → β} {known : List β}

theorem ordered_append {l l' : List α} :
    Ordered uses name known (l ++ l') ↔
      Ordered uses name known l ∧ Ordered uses name (known ++ l.map name) l' := by
  induction l generalizing known with
  | nil => simp [Ordered]
  | cons a l ih =>
      rw [List.cons_append, Ordered, Ordered, ih, and_assoc, List.append_assoc,
        List.singleton_append, List.map_cons]

theorem Ordered.mem {l : List α} (h : Ordered uses name known l) {a : α} (ha : a ∈ l)
    {b : β} (hb : uses a b) : b ∈ known ++ l.map name := by
  induction l generalizing known with
  | nil => cases ha
  | cons x l ih =>
      rcases List.mem_cons.mp ha with rfl | ha
      · exact List.mem_append_left _ (h.1 b hb)
      · have hmem := ih h.2 ha
        rwa [List.append_assoc, List.singleton_append] at hmem

end Ordered

namespace Pool

variable {p : Pool}

/-- Every message comes after the messages that its fields hold. -/
def InOrder (p : Pool) (l : List (Fin p.m)) : Prop :=
  Ordered p.Holds id [] l

theorem inOrder_concat {l : List (Fin p.m)} {i : Fin p.m} :
    p.InOrder (l ++ [i]) ↔ p.InOrder l ∧ ∀ j, p.Holds i j → j ∈ l := by
  rw [InOrder, ordered_append, List.map_id, List.nil_append]
  simp [Ordered, InOrder]

theorem InOrder.of_prefix {l l' : List (Fin p.m)} (h : p.InOrder l') (hl : l <+: l') :
    p.InOrder l := by
  obtain ⟨rest, rfl⟩ := hl
  exact (ordered_append.mp h).1

theorem InOrder.held {l : List (Fin p.m)} (h : p.InOrder l) {i j : Fin p.m}
    (hi : i ∈ l) (hj : p.Holds i j) : j ∈ l := by
  have hmem := h.mem hi hj
  rwa [List.map_id, List.nil_append] at hmem

theorem inOrder_addNew {l : List (Fin p.m)} {i : Fin p.m} :
    p.InOrder (addNew l i) ↔ p.InOrder l ∧ ∀ j, p.Holds i j → j ∈ l := by
  rw [addNew]
  split
  · next hi => exact ⟨fun h => ⟨h, fun j hj => h.held hi hj⟩, And.left⟩
  · exact inOrder_concat

end Pool

/-! ## The messages of a selection -/

namespace Selection

variable {p : Pool} {role : Role}

theorem prefix_visit (s : Selection p) (role : Role) (queue : List (Fin p.m)) :
    s.messages role <+: (s.visit role queue).messages role := by
  refine visit_preserves role (P := fun w => s.messages role <+: w.1.messages role) ?_
    List.prefix_rfl
  intro w w' h hw
  cases h with
  | skip _ => exact hw
  | @settle s' i _ hi =>
      refine hw.trans ?_
      rw [messages_settle s' role i hi]
      exact List.prefix_append _ [i]

theorem close_of_mem {s : Selection p} {r : Fin p.m} (h : r ∈ s.messages role) :
    s.close role r = s := by
  rw [close]
  exact visit_of_settled fun i hi => List.mem_singleton.mp hi ▸ h

theorem close_of_notMem {s : Selection p} {r : Fin p.m} (h : r ∉ s.messages role) :
    s.close role r = (s.settle role r).visit role (p.successors r) := by
  rw [close, visit, dif_neg h, List.nil_append]

/-- The first thing that a walk does is to settle its start. -/
theorem prefix_close (s : Selection p) (role : Role) (r : Fin p.m) :
    addNew (s.messages role) r <+: (s.close role r).messages role := by
  rw [addNew]
  split
  · next h =>
      have hsame := close_of_mem h
      exact hsame.symm ▸ List.prefix_rfl
  · next h =>
      rw [close_of_notMem h, ← messages_settle s role r h]
      exact prefix_visit (s.settle role r) role (p.successors r)

/-- It is also the last thing if all that the start holds is settled. -/
theorem messages_close_of_held {s : Selection p} {r : Fin p.m}
    (h : ∀ j, p.Holds r j → j ∈ s.messages role) :
    (s.close role r).messages role = addNew (s.messages role) r := by
  rw [addNew]
  split
  · next hr => rw [close_of_mem hr]
  · next hr =>
      have hsettled := messages_settle s role r hr
      rw [close_of_notMem hr, visit_of_settled, hsettled]
      intro j hj
      rw [hsettled]
      exact List.mem_append_left _ (h j (Pool.mem_successors.mp hj))

theorem messages_closeMethod_of_held {s : Selection p} {m : Pool.Method p.m}
    (h : ∀ j, p.Holds (m.root role) j → j ∈ s.messages role) :
    (s.closeMethod m).messages role = addNew (s.messages role) (m.root role) := by
  obtain ⟨s', hsame, heq⟩ := messages_closeMethod s m role
  rw [heq, ← hsame]
  exact messages_close_of_held (hsame ▸ h)

theorem inOrder_closeMethod {s : Selection p} {m : Pool.Method p.m} :
    p.InOrder ((s.closeMethod m).messages role) ↔
      p.InOrder (s.messages role) ∧ ∀ j, p.Holds (m.root role) j → j ∈ s.messages role := by
  constructor
  · intro h
    obtain ⟨s', hsame, heq⟩ := messages_closeMethod s m role
    rw [heq] at h
    have hnew := h.of_prefix (prefix_close s' role (m.root role))
    rw [hsame] at hnew
    exact Pool.inOrder_addNew.mp hnew
  · intro h
    rw [messages_closeMethod_of_held h.2]
    exact Pool.inOrder_addNew.mpr h

/-- Along the methods, the messages of a role are in order as long as those of
the methods are, and then they are the same messages. -/
structure Tracks (role : Role) (done : List (Pool.Method p.m)) (s : Selection p) : Prop where
  inOrder : p.InOrder (s.messages role) ↔ p.InOrder (done.map (·.root role))
  same : p.InOrder (s.messages role) →
    ∀ i, i ∈ s.messages role ↔ i ∈ done.map (·.root role)

theorem Tracks.closeMethod {done : List (Pool.Method p.m)} {s : Selection p}
    (h : Tracks role done s) (m : Pool.Method p.m) :
    Tracks role (done ++ [m]) (s.closeMethod m) where
  inOrder := by
    rw [inOrder_closeMethod, List.map_append, List.map_singleton, Pool.inOrder_concat]
    constructor
    · rintro ⟨hs, hheld⟩
      exact ⟨h.inOrder.mp hs, fun j hj => (h.same hs j).mp (hheld j hj)⟩
    · rintro ⟨hdone, hheld⟩
      have hs := h.inOrder.mpr hdone
      exact ⟨hs, fun j hj => (h.same hs j).mpr (hheld j hj)⟩
  same hs i := by
    obtain ⟨hold, hheld⟩ := inOrder_closeMethod.mp hs
    rw [messages_closeMethod_of_held hheld, mem_addNew, h.same hold i, List.map_append,
      List.mem_append, List.map_singleton, List.mem_singleton]

theorem inOrder_ofOperations (queries mutations : List (Pool.Method p.m)) (role : Role) :
    p.InOrder ((ofOperations queries mutations).messages role) ↔
      p.InOrder ((queries.eraseDups ++ mutations.eraseDups).map (·.root role)) := by
  have hseed : Tracks role [] (seed queries mutations) := by
    have hnil : (seed queries mutations).messages role = [] := by cases role <;> rfl
    exact ⟨by rw [hnil]; rfl, fun _ i => by rw [hnil]; rfl⟩
  exact (ofOperations_induction hseed fun m h => h.closeMethod m).inOrder

end Selection

/-! ## The classes of a document -/

/-- The class name of a message in a role. -/
def Pool.className (p : Pool) (role : ProtoSchema.Role) (i : Fin p.m) : String :=
  role.typeName (p.message i).fullName

/-- The names of all classes but the roots, in the order of the text. -/
def Schema.Document.classNames (d : Document) : List String :=
  d.enums.map (·.name) ++ (d.objects ++ d.inputs).map (·.name)

/-- Every class that a field refers to is an enum, or an object or input class
further up in the text. -/
def Schema.Document.DefinesBeforeUse (d : Document) : Prop :=
  Ordered ClassDecl.Uses ClassDecl.name (d.enums.map (·.name)) (d.objects ++ d.inputs)

namespace Selection

variable {p : Pool} {role : Role}

/-- Classes of messages in order are in order, whatever their names. -/
theorem ordered_classes {o : Overrides} {known : List String} {done l : List (Fin p.m)}
    {cs : List ClassDecl}
    (hcs : List.Forall₂ (fun i c => classDecl o role i = .ok c) l cs)
    (henums : ∀ i ∈ l, ∀ j, p.HoldsEnum i j →
      Naming.typeName (p.enum j).fullName ∈ known)
    (hdone : ∀ j ∈ done, p.className role j ∈ known)
    (h : Ordered p.Holds id done l) : Ordered ClassDecl.Uses ClassDecl.name known cs := by
  induction hcs generalizing known done with
  | nil => exact trivial
  | @cons i c l cs hic _ ih =>
      constructor
      · intro n hn
        obtain ⟨f, hf, t, ht, href⟩ := (uses_classDecl hic).mp hn
        rcases kind_of_fieldExpr ht href with ⟨j, hk, rfl⟩ | ⟨j, hk, rfl⟩
        · exact henums i List.mem_cons_self j ⟨f, hf, hk⟩
        · exact hdone j (h.1 j ⟨f, hf, hk⟩)
      · refine ih ?_ ?_ h.2
        · intro k hk j hj
          exact List.mem_append_left _ (henums k (List.mem_cons_of_mem i hk) j hj)
        · intro j hj
          rw [name_classDecl hic]
          rcases List.mem_append.mp hj with hj | hj
          · exact List.mem_append_left _ (hdone j hj)
          · rw [List.mem_singleton.mp hj]
            exact List.mem_append_right _ (List.mem_singleton.mpr rfl)

/-- Classes in order come from messages in order, if a name that is known
belongs to a message that is done. -/
theorem ordered_of_classes (hp : p.KindsAgree) {module : String} {s : Selection p}
    (hclosed : s.Closed role)
    (hinj : ∀ i ∈ s.messages role, ∀ j ∈ s.messages role,
      p.className role i = p.className role j → i = j)
    {known : List String} {done l : List (Fin p.m)} {cs : List ClassDecl}
    (hcs : List.Forall₂ (fun i c => classDecl (Overrides.empty module) role i = .ok c) l cs)
    (hl : ∀ i ∈ l, i ∈ s.messages role)
    (hdone : ∀ j ∈ s.messages role, p.className role j ∈ known → j ∈ done)
    (h : Ordered ClassDecl.Uses ClassDecl.name known cs) : Ordered p.Holds id done l := by
  induction hcs generalizing known done with
  | nil => exact trivial
  | @cons i c l cs hic _ ih =>
      have hi := hl i List.mem_cons_self
      constructor
      · rintro j ⟨f, hf, hk⟩
        have huses : c.Uses (p.className role j) := by
          obtain ⟨t, ht⟩ := fieldExpr_of_classDecl hic hf
          have href := reference?_fieldExpr ht hk (hp i f hf j hk)
          exact (uses_classDecl hic).mpr ⟨f, hf, t, ht, href⟩
        exact hdone j (hclosed i hi j ⟨f, hf, hk⟩) (h.1 _ huses)
      · refine ih (fun k hk => hl k (List.mem_cons_of_mem i hk)) ?_ h.2
        intro j hj hname
        rw [name_classDecl hic] at hname
        rcases List.mem_append.mp hname with hname | hname
        · exact List.mem_append_left _ (hdone j hj hname)
        · have hij := hinj j hj i hi (List.mem_singleton.mp hname)
          exact List.mem_append_right _ (List.mem_singleton.mpr hij)

section

variable {queries mutations : List (Pool.Method p.m)} {modules : Modules} {d : Document}

theorem definesBeforeUse_of_inOrder {o : Overrides}
    (hb : (ofOperations queries mutations).build o modules = .ok d)
    (h : ∀ role, p.InOrder ((ofOperations queries mutations).messages role)) :
    d.DefinesBeforeUse := by
  have hcomplete := complete_ofOperations queries mutations
  have hclasses : ∀ role known, (∀ n ∈ d.enums.map (·.name), n ∈ known) →
      Ordered ClassDecl.Uses ClassDecl.name known (d.classes role) := by
    intro role known hknown
    refine ordered_classes (mapM_eq_ok.mp (classes_of_build hb role)) ?_ ?_ (h role)
    · intro i hi j hj
      exact hknown _ (mem_names_enums hb (hcomplete.enums role i hi j hj))
    · exact fun j hj => absurd hj List.not_mem_nil
  rw [Document.DefinesBeforeUse, ordered_append]
  exact ⟨hclasses .object _ fun n hn => hn,
    hclasses .input _ fun n hn => List.mem_append_left _ hn⟩

/-- With distinct names, the classes of a role come in order after names that
are not theirs. -/
theorem ordered_role_of_definesBeforeUse (hn : d.classNames.Nodup)
    (h : d.DefinesBeforeUse) (role : Role) :
    ∃ known, Ordered ClassDecl.Uses ClassDecl.name known (d.classes role) ∧
      ((d.classes role).map (·.name)).Nodup ∧
      ∀ n ∈ (d.classes role).map (·.name), n ∉ known := by
  rw [Document.DefinesBeforeUse, ordered_append] at h
  rw [Document.classNames, List.map_append, List.nodup_append, List.nodup_append] at hn
  obtain ⟨-, ⟨hobjects, hinputs, hacross⟩, henums⟩ := hn
  cases role with
  | object =>
      refine ⟨_, h.1, hobjects, fun n hn hknown => ?_⟩
      exact henums n hknown n (List.mem_append_left _ hn) rfl
  | input =>
      refine ⟨_, h.2, hinputs, fun n hn hknown => ?_⟩
      rcases List.mem_append.mp hknown with hknown | hknown
      · exact henums n hknown n (List.mem_append_right _ hn) rfl
      · exact hacross n hknown n hn rfl

theorem inOrder_of_definesBeforeUse (hp : p.KindsAgree) {module : String}
    (hb : (ofOperations queries mutations).build (Overrides.empty module) modules = .ok d)
    (hn : d.classNames.Nodup) (h : d.DefinesBeforeUse) (role : Role) :
    p.InOrder ((ofOperations queries mutations).messages role) := by
  obtain ⟨known, hordered, hnodup, hfresh⟩ := ordered_role_of_definesBeforeUse hn h role
  have hnames : (d.classes role).map (·.name) =
      ((ofOperations queries mutations).messages role).map (p.className role) := by
    rw [names_classes hb, messageNames, List.map_map]
    rfl
  rw [hnames] at hnodup hfresh
  have hclosed := (covers_ofOperations queries mutations).closed role
  refine ordered_of_classes hp hclosed ?_ (mapM_eq_ok.mp (classes_of_build hb role))
    (fun i hi => hi) ?_ hordered
  · exact fun i hi j hj => List.inj_on_of_nodup_map hnodup hi hj
  · exact fun j hj hknown => absurd hknown (hfresh _ (List.mem_map_of_mem hj))

/-- The classes of a computed selection are declared before they are used if
the message of every method holds only messages of methods before it, outputs
for the object classes and inputs for the input classes, and if the class names
are distinct, then only so. -/
theorem definesBeforeUse_ofOperations {files : List Descriptor.File}
    (hp : Pool.ofFiles files = .ok p) {module : String}
    (hb : (ofOperations queries mutations).build (Overrides.empty module) modules = .ok d) :
    ((∀ role, p.InOrder ((queries.eraseDups ++ mutations.eraseDups).map (·.root role))) →
      d.DefinesBeforeUse) ∧
    (d.classNames.Nodup → d.DefinesBeforeUse →
      ∀ role, p.InOrder ((queries.eraseDups ++ mutations.eraseDups).map (·.root role))) := by
  constructor
  · intro h
    exact definesBeforeUse_of_inOrder hb fun role =>
      (inOrder_ofOperations queries mutations role).mpr (h role)
  · intro hn h role
    exact (inOrder_ofOperations queries mutations role).mp
      (inOrder_of_definesBeforeUse (Pool.kindsAgree_ofFiles hp) hb hn h role)

end

end Selection

/-! ## A grove

A tree holds a leaf. One method gives a leaf and another one a tree, and it
depends on which of them comes first whether the tree's class finds the
leaf's. -/

namespace Grove

open Selection

/-- Leaves, trees with a leaf, and a method for either. -/
def file : Descriptor.File where
  name := some "grove.proto"
  package := some "grove"
  isProto3 := true
  messages := [
    { name := some "Leaf"
      fields := [{ name := some "width", number := some 1, label := some 1, type := some 5 }] },
    { name := some "Tree"
      fields := [
        { name := some "leaf", number := some 1, label := some 1, type := some 11
          typeName := some ".grove.Leaf" }] }]
  services := [
    { name := some "Garden"
      methods := [
        { name := some "Pick", inputType := some ".grove.Leaf", outputType := some ".grove.Leaf" },
        { name := some "Grow", inputType := some ".grove.Leaf"
          outputType := some ".grove.Tree" }] }]

def pool : Pool where
  m := 2
  e := 0
  messages := #v[
    { fullName := "grove.Leaf", package := "grove", file := "grove.proto"
      fields := [
        { name := "width", fullName := "grove.Leaf.width", rawType := some 5
          kind := .scalar .int32, isRepeated := false }] },
    { fullName := "grove.Tree", package := "grove", file := "grove.proto"
      fields := [
        { name := "leaf", fullName := "grove.Tree.leaf", rawType := some 11
          kind := .message 0, isRepeated := false }] }]
  enums := #v[]
  services := [
    { fullName := "grove.Garden"
      methods := [
        { name := "Pick", service := "grove.Garden", package := "grove", file := "grove.proto"
          input := 0, output := 0 },
        { name := "Grow", service := "grove.Garden", package := "grove", file := "grove.proto"
          input := 0, output := 1 }] }]

def leaf : Fin pool.m := (0 : Fin 2)

def tree : Fin pool.m := (1 : Fin 2)

def pick : Pool.Method pool.m :=
  { name := "Pick", service := "grove.Garden", package := "grove", file := "grove.proto"
    input := leaf, output := leaf }

def grow : Pool.Method pool.m :=
  { name := "Grow", service := "grove.Garden", package := "grove", file := "grove.proto"
    input := leaf, output := tree }

def leafClass : ClassDecl where
  name := "GroveLeaf"
  fields := [{ name := "width", type := .scalar .int }]

def treeClass : ClassDecl where
  name := "GroveTree"
  fields := [{ name := "leaf", type := .field (.generated "GroveLeaf") }]

def leafInputClass : ClassDecl where
  name := "GroveLeafInput"
  fields := [{ name := "width", type := .scalar .int }]

/-- The document of the given queries, with the object classes in the given
order. -/
def document (queries : List (Pool.Method pool.m)) (objects : List ClassDecl) : Document where
  objects := objects
  inputs := [leafInputClass]
  query := rootDecl queryRootName queries

/-- Only the tree holds something, and that is the leaf. -/
theorem holds_iff {i j : Fin pool.m} : pool.Holds i j ↔ i = tree ∧ j = leaf := by
  have hall : ∀ i j : Fin 2, (∃ f ∈ (pool.message i).fields, f.kind = .message j) ↔
      i = 1 ∧ j = 0 := by decide
  exact hall i j

/-- With the leaf's method first, the order is right. -/
theorem definesBeforeUse_pick_grow :
    Pool.ofFiles [file] = .ok pool ∧
    (ofOperations [pick, grow] []).build (Overrides.empty "ext") {} =
      .ok (document [pick, grow] [leafClass, treeClass]) ∧
    (document [pick, grow] [leafClass, treeClass]).classNames.Nodup ∧
    (document [pick, grow] [leafClass, treeClass]).DefinesBeforeUse ∧
    ∀ role, pool.InOrder ([pick, grow].map (·.root role)) := by
  have hp : Pool.ofFiles [file] = .ok pool := by decide +kernel
  have hb : (ofOperations [pick, grow] []).build (Overrides.empty "ext") {} =
      .ok (document [pick, grow] [leafClass, treeClass]) := by
    rw [ofOperations_eq_layers]
    decide +kernel
  have hn : (document [pick, grow] [leafClass, treeClass]).classNames.Nodup := by decide
  have hgiven : [pick, grow].eraseDups ++ [].eraseDups = [pick, grow] := by decide
  obtain ⟨hif, honly⟩ := definesBeforeUse_ofOperations hp hb
  rw [hgiven] at hif honly
  have hd : (document [pick, grow] [leafClass, treeClass]).DefinesBeforeUse := by
    refine hif fun role => ?_
    have hpick : pick.root role = leaf := by cases role <;> rfl
    rw [List.map_cons, hpick]
    refine ⟨fun j hj => ?_, fun j hj => ?_, trivial⟩
    · exact absurd (holds_iff.mp hj).1 (by decide)
    · rw [(holds_iff.mp hj).2]
      exact List.mem_singleton.mpr rfl
  exact ⟨hp, hb, hn, hd, honly hn hd⟩

/-- With the tree's method alone, its class uses that of the leaf further
down, although no message reaches itself. -/
theorem not_definesBeforeUse_grow :
    Pool.ofFiles [file] = .ok pool ∧
    (∀ i, ¬ Relation.TransGen pool.Holds i i) ∧
    (ofOperations [grow] []).build (Overrides.empty "ext") {} =
      .ok (document [grow] [treeClass, leafClass]) ∧
    ¬ (document [grow] [treeClass, leafClass]).DefinesBeforeUse := by
  refine ⟨by decide +kernel, fun i h => ?_, ?_, fun h => ?_⟩
  · -- A way back to its start would leave from the tree and arrive at the leaf.
    obtain ⟨j, hij, -⟩ := Relation.TransGen.head'_iff.mp h
    obtain ⟨k, -, hki⟩ := Relation.TransGen.tail'_iff.mp h
    exact absurd ((holds_iff.mp hij).1.symm.trans (holds_iff.mp hki).2) (by decide)
  · rw [ofOperations_eq_layers]
    decide +kernel
  · have hknown := h.1 "GroveLeaf" ⟨_, List.mem_cons_self, rfl⟩
    exact absurd hknown List.not_mem_nil

end Grove

end ProtoSchema
