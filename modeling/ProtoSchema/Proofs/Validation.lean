import ProtoSchema.Generate
import ProtoSchema.Proofs.Closure
import ProtoSchema.Proofs.Outcome

/-!
# Computed selections are complete

Validation looks for two kinds of fault: a reference to something that is not
emitted, and an operation name that was there before. `Complete` is the
absence of the first kind, and a selection that has it fails, if at all, with
the first name that comes again.

A selection that is computed from methods is complete. The walk and the
validation agree on what a reference is, both go by the kind of a field, and
the walk leaves nothing open: the messages of each role are closed under
fields, and the enums are all those that fields hold. So generation, which
validates computed selections only, never reports a missing type.
-/

namespace ProtoSchema

/-! ## Names that come again -/

/-- The names that have occurred before, where those in `seen` count as
earlier. -/
def repeats (seen : List String) : List String → List String
  | [] => []
  | n :: rest => (if n ∈ seen then [n] else []) ++ repeats (n :: seen) rest

/-- The first name of a list that has occurred before. -/
def FirstRepeat (n : String) (names : List String) : Prop :=
  ∃ before after, names = before ++ n :: after ∧ before.Nodup ∧ n ∈ before

theorem repeats_eq_nil {seen names : List String} :
    repeats seen names = [] ↔ names.Nodup ∧ ∀ n ∈ names, n ∉ seen := by
  induction names generalizing seen with
  | nil => simp [repeats]
  | cons n names ih =>
      rw [repeats, List.append_eq_nil_iff, ih, List.nodup_cons]
      constructor
      · rintro ⟨hn, hnodup, hnew⟩
        have hns : n ∉ seen := by
          intro h
          rw [if_pos h] at hn
          cases hn
        refine ⟨⟨fun h => hnew n h List.mem_cons_self, hnodup⟩, ?_⟩
        intro k hk
        rcases List.mem_cons.mp hk with rfl | hk
        · exact hns
        · exact fun h => hnew k hk (List.mem_cons_of_mem n h)
      · rintro ⟨⟨hn, hnodup⟩, hnew⟩
        refine ⟨if_neg (hnew n List.mem_cons_self), hnodup, ?_⟩
        intro k hk h
        rcases List.mem_cons.mp h with rfl | h
        · exact hn hk
        · exact hnew k (List.mem_cons_of_mem n hk) h

/-- The first of the repeated names splits the list: what is before it is all
new, and the name itself is not. -/
theorem repeats_eq_cons {seen names rest : List String} {n : String}
    (h : repeats seen names = n :: rest) :
    ∃ before after, names = before ++ n :: after ∧ before.Nodup ∧
      (∀ k ∈ before, k ∉ seen) ∧ (n ∈ seen ∨ n ∈ before) := by
  induction names generalizing seen with
  | nil => cases h
  | cons k names ih =>
      rw [repeats] at h
      by_cases hk : k ∈ seen
      · rw [if_pos hk, List.singleton_append] at h
        obtain ⟨rfl, -⟩ := List.cons.inj h
        exact ⟨[], names, rfl, List.nodup_nil, by simp, Or.inl hk⟩
      · rw [if_neg hk, List.nil_append] at h
        obtain ⟨before, after, rfl, hnodup, hnew, hn⟩ := ih h
        refine ⟨k :: before, after, rfl, ?_, ?_, ?_⟩
        · exact List.nodup_cons.mpr ⟨fun hb => hnew k hb List.mem_cons_self, hnodup⟩
        · intro j hj
          rcases List.mem_cons.mp hj with rfl | hj
          · exact hk
          · exact fun h => hnew j hj (List.mem_cons_of_mem k h)
        · rcases hn with hn | hn
          · rcases List.mem_cons.mp hn with rfl | hn
            · exact Or.inr List.mem_cons_self
            · exact Or.inl hn
          · exact Or.inr (List.mem_cons_of_mem k hn)

theorem FirstRepeat.not_nodup {n : String} {names : List String} (h : FirstRepeat n names) :
    ¬ names.Nodup := by
  obtain ⟨before, after, rfl, -, hn⟩ := h
  intro hnodup
  exact (List.nodup_append.mp hnodup).2.2 n hn n List.mem_cons_self rfl

/-- Of two places where a list repeats itself, the earlier one is in front of
the other, where there is no repetition. -/
theorem FirstRepeat.unique {n n' : String} {names : List String} (h : FirstRepeat n names)
    (h' : FirstRepeat n' names) : n = n' := by
  obtain ⟨before, after, hsplit, hnodup, hn⟩ := h
  obtain ⟨before', after', hsplit', hnodup', hn'⟩ := h'
  rcases List.append_eq_append_iff.mp (hsplit.symm.trans hsplit') with
    ⟨middle, hlong, hrest⟩ | ⟨middle, hlong, hrest⟩
  · cases middle with
    | nil => exact (List.cons.inj hrest).1
    | cons k middle =>
        obtain ⟨rfl, -⟩ := List.cons.inj hrest
        exact absurd (hlong ▸ hnodup') (FirstRepeat.not_nodup ⟨before, middle, rfl, hnodup, hn⟩)
  · cases middle with
    | nil => exact (List.cons.inj hrest).1.symm
    | cons k middle =>
        obtain ⟨rfl, -⟩ := List.cons.inj hrest
        exact absurd (hlong ▸ hnodup) (FirstRepeat.not_nodup ⟨before', middle, rfl, hnodup', hn'⟩)

theorem firstRepeat_of_repeats {n : String} {names rest : List String}
    (h : repeats [] names = n :: rest) : FirstRepeat n names := by
  obtain ⟨before, after, hsplit, hnodup, -, hn⟩ := repeats_eq_cons h
  exact ⟨before, after, hsplit, hnodup, hn.resolve_left List.not_mem_nil⟩

namespace Selection

variable {p : Pool}

/-! ## Faults -/

/-- Everything that a field or a method refers to is emitted. -/
structure Complete (s : Selection p) : Prop where
  enums : ∀ role, ∀ i ∈ s.messages role, ∀ j, p.HoldsEnum i j →
    (p.enum j).fullName ∈ s.enumNames
  messages : ∀ role, ∀ i ∈ s.messages role, ∀ j, p.Holds i j →
    (p.message j).fullName ∈ s.messageNames role
  methods : ∀ role, ∀ m ∈ s.methods,
    (p.message (m.root role)).fullName ∈ s.messageNames role

theorem fieldFaults_eq_nil {s : Selection p} {role : Role} {i : Fin p.m} :
    s.fieldFaults role i = [] ↔
      (∀ j, p.HoldsEnum i j → (p.enum j).fullName ∈ s.enumNames) ∧
      ∀ j, p.Holds i j → (p.message j).fullName ∈ s.messageNames role := by
  rw [fieldFaults, List.filterMap_eq_nil_iff]
  constructor
  · intro h
    constructor
    · rintro j ⟨f, hf, hk⟩
      have hnone := h f hf
      rw [hk] at hnone
      by_contra hj
      simp [hj] at hnone
    · rintro j ⟨f, hf, hk⟩
      have hnone := h f hf
      rw [hk] at hnone
      by_contra hj
      simp [hj] at hnone
  · rintro ⟨henums, hmessages⟩ f hf
    split
    · next j hk => exact if_pos (henums j ⟨f, hf, hk⟩)
    · next j hk => exact if_pos (hmessages j ⟨f, hf, hk⟩)
    · rfl

theorem messageFaults_eq_nil {s : Selection p} {role : Role} {operation : String}
    {i : Fin p.m} :
    s.messageFaults role operation i = [] ↔
      (p.message i).fullName ∈ s.messageNames role := by
  rw [messageFaults]
  split
  · next h => exact ⟨fun _ => h, fun _ => rfl⟩
  · next h => exact ⟨fun hnil => absurd hnil (by simp), fun hi => absurd hi h⟩

/-- Methods whose messages are emitted have no faults but repeated names. -/
theorem methodFaults_eq_map {s : Selection p} {ms : List (Pool.Method p.m)}
    (h : ∀ role, ∀ m ∈ ms, (p.message (m.root role)).fullName ∈ s.messageNames role)
    (seen : List String) :
    s.methodFaults seen ms =
      (repeats seen (ms.map Pool.Method.operation)).map .duplicateOperation := by
  induction ms generalizing seen with
  | nil => rfl
  | cons m ms ih =>
      have hout : s.messageFaults .object m.operation m.output = [] :=
        messageFaults_eq_nil.mpr (h .object m List.mem_cons_self)
      have hin : s.messageFaults .input m.operation m.input = [] :=
        messageFaults_eq_nil.mpr (h .input m List.mem_cons_self)
      have hrest := ih fun role k hk => h role k (List.mem_cons_of_mem m hk)
      rw [methodFaults, hout, hin, hrest, List.map_cons, repeats, List.map_append]
      split <;> rfl

theorem mem_messageNames_of_methodFaults {s : Selection p} {seen : List String}
    {ms : List (Pool.Method p.m)} (h : s.methodFaults seen ms = []) :
    ∀ role, ∀ m ∈ ms, (p.message (m.root role)).fullName ∈ s.messageNames role := by
  induction ms generalizing seen with
  | nil => exact fun _ _ hm => absurd hm List.not_mem_nil
  | cons m ms ih =>
      rw [methodFaults] at h
      obtain ⟨⟨⟨hout, hin⟩, -⟩, hrest⟩ := by simpa only [List.append_eq_nil_iff] using h
      intro role k hk
      rcases List.mem_cons.mp hk with rfl | hk
      · cases role with
        | object => exact messageFaults_eq_nil.mp hout
        | input => exact messageFaults_eq_nil.mp hin
      · exact ih hrest role k hk

/-- A complete selection has no faults but repeated operation names. -/
theorem Complete.faults_eq {s : Selection p} (h : s.Complete) :
    s.faults = (repeats [] (s.methods.map Pool.Method.operation)).map .duplicateOperation := by
  have htypes : s.types.flatMap (s.fieldFaults .object) = [] :=
    List.flatMap_eq_nil_iff.mpr fun i hi =>
      fieldFaults_eq_nil.mpr ⟨h.enums .object i hi, h.messages .object i hi⟩
  have hinputs : s.inputs.flatMap (s.fieldFaults .input) = [] :=
    List.flatMap_eq_nil_iff.mpr fun i hi =>
      fieldFaults_eq_nil.mpr ⟨h.enums .input i hi, h.messages .input i hi⟩
  rw [faults, htypes, hinputs, methodFaults_eq_map h.methods]
  rfl

theorem complete_of_faults {s : Selection p} (h : s.faults = []) : s.Complete := by
  rw [faults] at h
  obtain ⟨⟨htypes, hinputs⟩, hmethods⟩ := by simpa only [List.append_eq_nil_iff] using h
  have hfields : ∀ role, ∀ i ∈ s.messages role, s.fieldFaults role i = [] := by
    intro role
    cases role with
    | object => exact List.flatMap_eq_nil_iff.mp htypes
    | input => exact List.flatMap_eq_nil_iff.mp hinputs
  exact {
    enums := fun role i hi => (fieldFaults_eq_nil.mp (hfields role i hi)).1
    messages := fun role i hi => (fieldFaults_eq_nil.mp (hfields role i hi)).2
    methods := mem_messageNames_of_methodFaults hmethods }

theorem validate_eq_ok {s : Selection p} : s.validate = .ok () ↔ s.faults = [] := by
  rw [validate]
  split
  · next h => exact ⟨fun _ => h, fun _ => rfl⟩
  · next h => exact ⟨fun hv => (nomatch hv), fun hnil => absurd (h.symm.trans hnil) (by simp)⟩

theorem complete_of_validate {s : Selection p} (h : s.validate = .ok ()) : s.Complete :=
  complete_of_faults (validate_eq_ok.mp h)

theorem Complete.validate_eq_ok {s : Selection p} (h : s.Complete) :
    s.validate = .ok () ↔ (s.methods.map Pool.Method.operation).Nodup := by
  rw [Selection.validate_eq_ok, h.faults_eq, List.map_eq_nil_iff, repeats_eq_nil]
  simp

/-- A complete selection with a repeated name fails with the first one. -/
theorem Complete.validate_eq_error {s : Selection p} (h : s.Complete)
    (hrepeat : ¬ (s.methods.map Pool.Method.operation).Nodup) :
    ∃ n, FirstRepeat n (s.methods.map Pool.Method.operation) ∧
      s.validate = .error (.duplicateOperation n) := by
  cases hr : repeats [] (s.methods.map Pool.Method.operation) with
  | nil => exact absurd (repeats_eq_nil.mp hr).1 hrepeat
  | cons n rest =>
      refine ⟨n, firstRepeat_of_repeats hr, ?_⟩
      rw [validate, h.faults_eq, hr]
      rfl

/-! ## Computed selections -/

theorem methods_eq_ofOperations (queries mutations : List (Pool.Method p.m)) :
    (ofOperations queries mutations).methods = queries.eraseDups ++ mutations.eraseDups := by
  obtain ⟨hq, hm⟩ := methods_ofOperations queries mutations
  rw [methods, hq, hm]

/-- What covers the methods of a selection makes it complete: the messages
are closed under fields and start from those of the methods. -/
theorem Covers.complete {s : Selection p} (h : Covers s.methods s) : s.Complete where
  enums role i hi j hj :=
    List.mem_map.mpr ⟨j, (h.enums j).mpr ⟨role, i, hi, hj⟩, rfl⟩
  messages role i hi j hj :=
    List.mem_map.mpr ⟨j, h.closed role i hi j hj, rfl⟩
  methods role m hm :=
    List.mem_map.mpr ⟨m.root role, (h.messages role _).mpr ⟨m, hm, .refl⟩, rfl⟩

theorem complete_ofOperations (queries mutations : List (Pool.Method p.m)) :
    (ofOperations queries mutations).Complete := by
  apply Covers.complete
  rw [methods_eq_ofOperations]
  exact covers_ofOperations queries mutations

end Selection

/-! ## Generation -/

/-- Any error but that of a missing type. -/
def Error.NotIncomplete : Error → Prop
  | .incomplete .. => False
  | _ => True

theorem failsWith_loadOverrides (c : Config) (files : FileTree) :
    FailsWith Error.NotIncomplete (c.loadOverrides files) := by
  rw [Config.loadOverrides]
  split
  · refine (FailsWith.mapError (fun _ => trivial) _).bind fun text _ => ?_
    refine (FailsWith.mapError (fun _ => trivial) _).bind fun ds _ => ?_
    refine FailsWith.foldlM (fun o extension => ?_) _ _
    rw [Overrides.add]
    split
    · exact FailsWith.error trivial
    · exact FailsWith.ok _
  · exact FailsWith.ok _

theorem failsWith_findMethod (p : Pool) (name : String) :
    FailsWith Error.NotIncomplete (p.findMethod name) := by
  rw [Pool.findMethod]
  split
  · exact FailsWith.ok _
  · exact FailsWith.error trivial

theorem failsWith_fieldExpr {p : Pool} (o : Overrides) (role : Role)
    (f : Pool.Field p.m p.e) : FailsWith Error.NotIncomplete (fieldExpr p o role f) := by
  have htype : FailsWith Error.NotIncomplete f.type := by
    rw [Pool.Field.type]
    split
    · rw [typeOfNumber]
      split
      · exact FailsWith.ok _
      · exact FailsWith.error trivial
    · split <;> exact FailsWith.ok _
  refine htype.bind fun type _ => ?_
  split
  · exact FailsWith.ok _
  · exact FailsWith.ok _
  · exact FailsWith.ok _
  · rw [scalarExpr]
    split
    · exact FailsWith.ok _
    · exact FailsWith.error trivial

theorem failsWith_synthesize {p : Pool} (s : Selection p) (o : Overrides)
    (modules : Schema.Modules) : FailsWith Error.NotIncomplete (s.synthesize o modules) := by
  have hclass : ∀ role i,
      FailsWith Error.NotIncomplete (Selection.classDecl (p := p) o role i) := by
    intro role i
    refine (FailsWith.mapM (fun f => ?_) _).bind fun fields _ => FailsWith.ok _
    exact (failsWith_fieldExpr o role f).bind fun type _ => FailsWith.ok _
  refine FailsWith.bind ?_ fun d _ => FailsWith.ok _
  refine (FailsWith.mapM (hclass .object) s.types).bind fun objects _ => ?_
  exact (FailsWith.mapM (hclass .input) s.inputs).bind fun inputs _ => FailsWith.ok _

theorem Selection.Complete.failsWith_validate {p : Pool} {s : Selection p}
    (h : s.Complete) : FailsWith Error.NotIncomplete s.validate := by
  by_cases hnodup : (s.methods.map Pool.Method.operation).Nodup
  · rw [h.validate_eq_ok.mpr hnodup]
    exact FailsWith.ok ()
  · obtain ⟨n, -, hn⟩ := h.validate_eq_error hnodup
    rw [hn]
    exact FailsWith.error trivial

theorem failsWith_generate (files : FileTree) (p : Pool) (c : Config) :
    FailsWith Error.NotIncomplete (generate files p c) := by
  refine (failsWith_loadOverrides c files).bind fun o _ => ?_
  refine FailsWith.bind ?_ fun s hs => ?_
  · refine (FailsWith.mapM (failsWith_findMethod p) c.queries).bind fun queries _ => ?_
    exact (FailsWith.mapM (failsWith_findMethod p) c.mutations).bind
      fun mutations _ => FailsWith.ok _
  -- The selection comes from the methods that were found, so it is complete.
  obtain ⟨queries, -, hs⟩ := bind_eq_ok.mp hs
  obtain ⟨mutations, -, hs⟩ := bind_eq_ok.mp hs
  obtain rfl : Selection.ofOperations queries mutations = s := Except.ok.inj hs
  rw [Selection.generate]
  split
  · exact (Selection.complete_ofOperations queries mutations).failsWith_validate.bind
      fun _ _ => failsWith_synthesize _ o c.modules
  · exact failsWith_synthesize _ o c.modules

/-- A computed selection is always complete: validation succeeds exactly if no
two of its methods have the same operation name, and otherwise it fails with
the first name that comes again. So generation never misses a type. -/
theorem validate_ofOperations {p : Pool} (queries mutations : List (Pool.Method p.m)) :
    let s := Selection.ofOperations queries mutations
    let names := (queries.eraseDups ++ mutations.eraseDups).map Pool.Method.operation
    (s.validate = .ok () ↔ names.Nodup) ∧
    (¬ names.Nodup →
      ∃ n, FirstRepeat n names ∧ s.validate = .error (.duplicateOperation n)) ∧
    (∀ referenced referrer category,
      s.validate ≠ .error (.incomplete referenced referrer category)) ∧
    ∀ files c referenced referrer category,
      generate files p c ≠ .error (.incomplete referenced referrer category) := by
  intro s names
  have hcomplete : s.Complete := Selection.complete_ofOperations queries mutations
  have hnames : s.methods.map Pool.Method.operation = names := by
    rw [Selection.methods_eq_ofOperations]
  refine ⟨?_, ?_, ?_, ?_⟩
  · rw [← hnames]
    exact hcomplete.validate_eq_ok
  · rw [← hnames]
    exact hcomplete.validate_eq_error
  · intro referenced referrer category h
    exact hcomplete.failsWith_validate _ h
  · intro files c referenced referrer category h
    exact failsWith_generate files p c _ h

end ProtoSchema
