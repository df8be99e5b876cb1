import ProtoSchema.Proofs.DefinitionOrder

/-!
# Further mutations only append

The declarations of a schema keep their places when mutations are added at the
end of the list. Walks read and write the emitted types and never the methods,
so the methods that were there before are closed as if no others had come
after them, and the new ones are closed on top of that. A walk, in turn, only
puts things at the ends of lists.

Queries are different: they are closed before all mutations, so the messages
of a new one come before those that only mutations reach.
-/

namespace ProtoSchema

open ProtoSchema.Schema

theorem prefix_foldl_addNew {α : Type} [DecidableEq α] (l acc : List α) :
    acc <+: l.foldl addNew acc := by
  rw [foldl_addNew]
  exact List.prefix_append _ _

/-! ## Walks do not see the methods -/

namespace Selection

variable {p : Pool}

/-- The selection with other mutations. -/
def setMutations (s : Selection p) (ms : List (Pool.Method p.m)) : Selection p :=
  { s with mutations := ms }

theorem messages_setMutations (s : Selection p) (ms : List (Pool.Method p.m)) (role : Role) :
    (s.setMutations ms).messages role = s.messages role := by
  cases role <;> rfl

theorem settle_setMutations (s : Selection p) (ms : List (Pool.Method p.m)) (role : Role)
    (i : Fin p.m) : (s.setMutations ms).settle role i = (s.settle role i).setMutations ms := by
  have hadd : (s.setMutations ms).addMessage role i = (s.addMessage role i).setMutations ms := by
    cases role <;> rfl
  rw [settle, settle, hadd]
  generalize s.addMessage role i = s'
  induction p.fieldEnums i generalizing s' with
  | nil => rfl
  | cons j js ih => exact ih (s'.addEnum j)

theorem visit_setMutations (s : Selection p) (ms : List (Pool.Method p.m)) (role : Role)
    (queue : List (Fin p.m)) :
    (s.setMutations ms).visit role queue = (s.visit role queue).setMutations ms := by
  fun_induction visit role s queue with
  | case1 s => rw [visit]
  | case2 s i rest h ih =>
      rw [visit, dif_pos (by rwa [messages_setMutations])]
      exact ih
  | case3 s i rest h _ _ ih =>
      rw [visit, dif_neg (by rwa [messages_setMutations])]
      show visit role ((s.setMutations ms).settle role i) _ = _
      rw [settle_setMutations]
      exact ih

theorem closeMethod_setMutations (s : Selection p) (ms : List (Pool.Method p.m))
    (m : Pool.Method p.m) :
    (s.setMutations ms).closeMethod m = (s.closeMethod m).setMutations ms := by
  rw [closeMethod, close, close, visit_setMutations, visit_setMutations]
  rfl

theorem foldl_closeMethod_setMutations (methods ms : List (Pool.Method p.m))
    (s : Selection p) :
    methods.foldl closeMethod (s.setMutations ms) =
      (methods.foldl closeMethod s).setMutations ms := by
  induction methods generalizing s with
  | nil => rfl
  | cons m methods ih => rw [List.foldl_cons, closeMethod_setMutations, ih, List.foldl_cons]

/-- What is computed for some mutations is where the computation for more of
them gets to before it comes to the new ones. -/
theorem ofOperations_append (queries mutations extra : List (Pool.Method p.m)) :
    ofOperations queries (mutations ++ extra) =
      (extra.removeAll mutations).eraseDups.foldl closeMethod
        ((ofOperations queries mutations).setMutations (mutations ++ extra).eraseDups) := by
  have hseed : seed queries (mutations ++ extra) =
      (seed queries mutations).setMutations (mutations ++ extra).eraseDups := rfl
  rw [ofOperations_eq, ofOperations_eq, hseed, List.eraseDups_append, ← List.append_assoc,
    List.foldl_append, foldl_closeMethod_setMutations]

/-! ## Walks append -/

/-- The second selection goes on where the first one ends: the queries are the
same, and every other list starts with that of the first. -/
structure Extends (s t : Selection p) : Prop where
  enums : s.enums <+: t.enums
  types : s.types <+: t.types
  inputs : s.inputs <+: t.inputs
  queries : t.queries = s.queries
  mutations : s.mutations <+: t.mutations

theorem Extends.refl (s : Selection p) : s.Extends s :=
  ⟨List.prefix_rfl, List.prefix_rfl, List.prefix_rfl, rfl, List.prefix_rfl⟩

theorem Extends.trans {s t u : Selection p} (h : s.Extends t) (h' : t.Extends u) :
    s.Extends u where
  enums := h.enums.trans h'.enums
  types := h.types.trans h'.types
  inputs := h.inputs.trans h'.inputs
  queries := h'.queries.trans h.queries
  mutations := h.mutations.trans h'.mutations

theorem enums_prefix_visit (s : Selection p) (role : Role) (queue : List (Fin p.m)) :
    s.enums <+: (s.visit role queue).enums := by
  refine visit_preserves role (P := fun w => s.enums <+: w.1.enums) ?_ List.prefix_rfl
  intro w w' h hw
  cases h with
  | skip _ => exact hw
  | settle _ =>
      rw [enums_settle]
      exact hw.trans (prefix_foldl_addNew _ _)

theorem extends_visit (s : Selection p) (role : Role) (queue : List (Fin p.m)) :
    s.Extends (s.visit role queue) := by
  have hmessages : ∀ role', s.messages role' <+: (s.visit role queue).messages role' := by
    intro role'
    by_cases hr : role' = role
    · subst hr
      exact prefix_visit s role' queue
    · simp only [messages_visit_of_ne hr, List.prefix_rfl]
  obtain ⟨hqueries, hmutations⟩ := methods_visit s role queue
  exact {
    enums := enums_prefix_visit s role queue
    types := hmessages .object
    inputs := hmessages .input
    queries := hqueries
    mutations := hmutations ▸ List.prefix_rfl }

theorem extends_foldl_closeMethod (methods : List (Pool.Method p.m)) (s : Selection p) :
    s.Extends (methods.foldl closeMethod s) := by
  induction methods generalizing s with
  | nil => exact .refl s
  | cons m methods ih =>
      have hclose : s.Extends (s.closeMethod m) :=
        (extends_visit s .object [m.output]).trans (extends_visit _ .input [m.input])
      exact hclose.trans (ih (s.closeMethod m))

theorem extends_ofOperations (queries mutations extra : List (Pool.Method p.m)) :
    (ofOperations queries mutations).Extends (ofOperations queries (mutations ++ extra)) := by
  have hmore : (ofOperations queries mutations).Extends
      ((ofOperations queries mutations).setMutations (mutations ++ extra).eraseDups) := by
    refine ⟨List.prefix_rfl, List.prefix_rfl, List.prefix_rfl, rfl, ?_⟩
    rw [(methods_ofOperations queries mutations).2, setMutations, List.eraseDups_append]
    exact List.prefix_append _ _
  rw [ofOperations_append]
  exact hmore.trans (extends_foldl_closeMethod _ _)

end Selection

/-! ## Documents -/

/-- The second document goes on where the first one ends: the query root is the
same, and every other list of declarations starts with that of the first. -/
structure Schema.Document.Extends (d d' : Document) : Prop where
  enums : d.enums <+: d'.enums
  objects : d.objects <+: d'.objects
  inputs : d.inputs <+: d'.inputs
  query : d'.query = d.query
  mutation : d'.mutation.name = d.mutation.name
  operations : d.mutation.operations <+: d'.mutation.operations
  resolvers : d.mutation.resolvers <+: d'.mutation.resolvers

namespace Selection

variable {p : Pool}

theorem Extends.build {s t : Selection p} (h : s.Extends t) {o : Overrides} {modules : Modules}
    {d' : Document} (hb : t.build o modules = .ok d') :
    ∃ d, s.build o modules = .ok d ∧ d.Extends d' := by
  obtain ⟨hobjects, hinputs, -, henums, hquery, hmutation⟩ := build_eq_ok.mp hb
  obtain ⟨objects, hok, hprefix⟩ := exists_prefix_of_mapM h.types hobjects
  obtain ⟨inputs, hok', hprefix'⟩ := exists_prefix_of_mapM h.inputs hinputs
  let d : Document :=
    { modules, enums := s.enums.map enumDecl, objects, inputs
      query := rootDecl queryRootName s.queries
      mutation := rootDecl mutationRootName s.mutations }
  refine ⟨d, build_eq_ok.mpr ⟨hok, hok', rfl, rfl, rfl, rfl⟩, ?_⟩
  exact {
    enums := by rw [henums]; exact h.enums.map enumDecl
    objects := hprefix
    inputs := hprefix'
    query := by rw [hquery, h.queries]
    mutation := by rw [hmutation]; rfl
    operations := by rw [hmutation]; exact h.mutations.map operationDecl
    resolvers := by rw [hmutation]; exact h.mutations.map resolverDecl }

/-- Mutations that are added behind the others leave the queries as they are
and only append to the other lists of the selection. If the longer one has a
document, so has the shorter one, with the same query root, and the other
declarations of the longer document start with those of the shorter. -/
theorem ofOperations_grows (queries mutations extra : List (Pool.Method p.m)) :
    let s := ofOperations queries mutations
    let t := ofOperations queries (mutations ++ extra)
    s.Extends t ∧
    ∀ o modules d', t.build o modules = .ok d' →
      ∃ d, s.build o modules = .ok d ∧ d.Extends d' :=
  ⟨extends_ofOperations queries mutations extra,
    fun _ _ _ hb => (extends_ofOperations queries mutations extra).build hb⟩

end Selection

/-! The grove, with a mutation that picks leaves and then one that grows trees. -/

namespace Grove

open Selection

/-- The document of the given mutations and object classes. -/
def mutationDocument (mutations : List (Pool.Method pool.m)) (objects : List ClassDecl) :
    Document where
  objects := objects
  inputs := [leafInputClass]
  mutation := rootDecl mutationRootName mutations

theorem ofOperations_grows_grow :
    (ofOperations [] [pick]).types = [leaf] ∧
    (ofOperations [] ([pick] ++ [grow])).types = [leaf, tree] ∧
    (ofOperations [] [pick]).Extends (ofOperations [] ([pick] ++ [grow])) ∧
    (ofOperations [] ([pick] ++ [grow])).build (Overrides.empty "ext") {} =
      .ok (mutationDocument [pick, grow] [leafClass, treeClass]) ∧
    ∃ d, (ofOperations [] [pick]).build (Overrides.empty "ext") {} = .ok d ∧
      d.Extends (mutationDocument [pick, grow] [leafClass, treeClass]) := by
  have hb : (ofOperations [] ([pick] ++ [grow])).build (Overrides.empty "ext") {} =
      .ok (mutationDocument [pick, grow] [leafClass, treeClass]) := by
    rw [ofOperations_eq_layers]
    decide +kernel
  have htypes : (ofOperations [] [pick]).types = [leaf] ∧
      (ofOperations [] ([pick] ++ [grow])).types = [leaf, tree] := by
    rw [ofOperations_eq_layers, ofOperations_eq_layers]
    decide +kernel
  obtain ⟨hextends, hbuild⟩ := ofOperations_grows [] [pick] [grow]
  exact ⟨htypes.1, htypes.2, hextends, hb, hbuild _ _ _ hb⟩

/-! As a query, the second method would put its tree in front of the leaf. -/

example : (ofOperations [] [pick]).types = [leaf] ∧
    (ofOperations [grow] [pick]).types = [tree, leaf] := by
  rw [ofOperations_eq_layers, ofOperations_eq_layers]
  decide +kernel

end Grove

end ProtoSchema
