import ProtoSchema.Proofs.ClassNames
import ProtoSchema.Proofs.References
import ProtoSchema.Proofs.Validation

/-!
# Validation reports the first fault

Validation goes over the fields of the types, the fields of the inputs and the
operations, and it stops at the first thing that is wrong. `FirstFault` says
what that is without running the check: it cuts the list that is being scanned
around the offender, asks that everything in front of the cut is in order, and
names the error that the offender gives. A scan that stops early and the head
of the list of all faults are the same thing, so the proofs read off where the
first fault of a list of lists comes from.

The check compares full names, because a name is all that the generated text
has of a reference. So "emitted" is about names here as well. In a pool that
keeps its names apart this is the same as being in the selection.
-/

namespace ProtoSchema

namespace Selection

variable {p : Pool} {s : Selection p}

/-! ## What a fault is -/

/-- An enum of this name is emitted. -/
def EmitsEnum (s : Selection p) (j : Fin p.e) : Prop :=
  ∃ k ∈ s.enums, (p.enum k).fullName = (p.enum j).fullName

/-- A message of this name is emitted in the role. -/
def Emits (s : Selection p) (role : Role) (i : Fin p.m) : Prop :=
  ∃ k ∈ s.messages role, (p.message k).fullName = (p.message i).fullName

instance (s : Selection p) (j : Fin p.e) : Decidable (s.EmitsEnum j) :=
  inferInstanceAs (Decidable (∃ k ∈ s.enums, (p.enum k).fullName = (p.enum j).fullName))

instance (s : Selection p) (role : Role) (i : Fin p.m) : Decidable (s.Emits role i) :=
  inferInstanceAs
    (Decidable (∃ k ∈ s.messages role, (p.message k).fullName = (p.message i).fullName))

/-- What the field of a message in the role refers to is emitted. -/
def Meets (s : Selection p) (role : Role) (f : Pool.Field p.m p.e) : Prop :=
  (∀ j, f.kind = .enum j → s.EmitsEnum j) ∧ ∀ j, f.kind = .message j → s.Emits role j

/-- The field, in the class of `i`, refers to something that is not emitted.
The error has the name of that, the name of the class, and the set that lacks
it. -/
inductive Dangles (s : Selection p) (role : Role) (i : Fin p.m) :
    Pool.Field p.m p.e → Error → Prop
  | enum {f : Pool.Field p.m p.e} {j : Fin p.e} (hkind : f.kind = .enum j)
      (hj : ¬ s.EmitsEnum j) :
      s.Dangles role i f
        (.incomplete (Naming.typeName (p.enum j).fullName)
          (role.typeName (p.message i).fullName) .enum)
  | message {f : Pool.Field p.m p.e} {j : Fin p.m} (hkind : f.kind = .message j)
      (hj : ¬ s.Emits role j) :
      s.Dangles role i f
        (.incomplete (role.typeName (p.message j).fullName)
          (role.typeName (p.message i).fullName) role.category)

/-- The error is that of the first message in the role with a field that
dangles, and of the first such field. -/
def FirstDangling (s : Selection p) (role : Role) (e : Error) : Prop :=
  ∃ before i after, s.messages role = before ++ i :: after ∧
    (∀ k ∈ before, ∀ f ∈ (p.message k).fields, s.Meets role f) ∧
    ∃ passed f rest, (p.message i).fields = passed ++ f :: rest ∧
      (∀ g ∈ passed, s.Meets role g) ∧ s.Dangles role i f e

/-- The messages of the method are emitted. -/
def Serves (s : Selection p) (m : Pool.Method p.m) : Prop :=
  s.Emits .object m.output ∧ s.Emits .input m.input

/-- What is wrong with a method that comes after operations of the given names.
A missing output goes before a missing input, and both before a name that was
there. -/
inductive OperationFault (s : Selection p) (names : List String) (m : Pool.Method p.m) :
    Error → Prop
  | output (hout : ¬ s.Emits .object m.output) :
      s.OperationFault names m
        (.incomplete (Naming.typeName (p.message m.output).fullName) m.operation .type)
  | input (hout : s.Emits .object m.output) (hin : ¬ s.Emits .input m.input) :
      s.OperationFault names m
        (.incomplete (Naming.inputTypeName (p.message m.input).fullName) m.operation .input)
  | name (hserves : s.Serves m) (hname : m.operation ∈ names) :
      s.OperationFault names m (.duplicateOperation m.operation)

/-- The first thing that is wrong with a selection. -/
inductive FirstFault (s : Selection p) : Error → Prop
  | typeField {e : Error} (h : s.FirstDangling .object e) : s.FirstFault e
  | inputField {e : Error}
      (htypes : ∀ i ∈ s.types, ∀ f ∈ (p.message i).fields, s.Meets .object f)
      (h : s.FirstDangling .input e) : s.FirstFault e
  | operation {e : Error} {before after : List (Pool.Method p.m)} {m : Pool.Method p.m}
      (hfields : ∀ role, ∀ i ∈ s.messages role, ∀ f ∈ (p.message i).fields, s.Meets role f)
      (hsplit : s.methods = before ++ m :: after) (hserves : ∀ k ∈ before, s.Serves k)
      (hnodup : (before.map Pool.Method.operation).Nodup)
      (h : s.OperationFault (before.map Pool.Method.operation) m e) : s.FirstFault e

/-! ## Fields -/

theorem mem_enumNames_iff {j : Fin p.e} : (p.enum j).fullName ∈ s.enumNames ↔ s.EmitsEnum j :=
  List.mem_map

theorem mem_messageNames_iff {role : Role} {i : Fin p.m} :
    (p.message i).fullName ∈ s.messageNames role ↔ s.Emits role i :=
  List.mem_map

theorem emitsEnum_iff_mem (hp : p.UniqueNames) {j : Fin p.e} :
    s.EmitsEnum j ↔ j ∈ s.enums := by
  rw [← mem_enumNames_iff]
  exact List.mem_map_of_injective hp.enum_injective

theorem emits_iff_mem (hp : p.UniqueNames) {role : Role} {i : Fin p.m} :
    s.Emits role i ↔ i ∈ s.messages role := by
  rw [← mem_messageNames_iff]
  exact List.mem_map_of_injective hp.message_injective

theorem fieldFaults_eq_nil_iff {role : Role} {i : Fin p.m} :
    s.fieldFaults role i = [] ↔ ∀ f ∈ (p.message i).fields, s.Meets role f := by
  simp only [fieldFaults_eq_nil, mem_enumNames_iff, mem_messageNames_iff]
  constructor
  · intro h f hf
    exact ⟨fun j hk => h.1 j ⟨f, hf, hk⟩, fun j hk => h.2 j ⟨f, hf, hk⟩⟩
  · intro h
    constructor
    · rintro j ⟨f, hf, hk⟩
      exact (h f hf).1 j hk
    · rintro j ⟨f, hf, hk⟩
      exact (h f hf).2 j hk

/-- The first fault of a message is that of its first field that dangles. -/
theorem head?_fieldFaults {role : Role} {i : Fin p.m} {e : Error} :
    (s.fieldFaults role i).head? = some e ↔
      ∃ passed f rest, (p.message i).fields = passed ++ f :: rest ∧
        (∀ g ∈ passed, s.Meets role g) ∧ s.Dangles role i f e := by
  rw [fieldFaults, List.head?_filterMap, List.findSome?_eq_some_iff]
  simp only [mem_enumNames_iff, mem_messageNames_iff]
  constructor
  · rintro ⟨passed, f, rest, hsplit, hf, hpassed⟩
    refine ⟨passed, f, rest, hsplit, ?_, ?_⟩
    · intro g hg
      have hnone := hpassed g hg
      constructor
      · intro j hk
        simpa [hk] using hnone
      · intro j hk
        simpa [hk] using hnone
    · cases hk : f.kind with
      | scalar type => simp [hk] at hf
      | enum j =>
          simp only [hk, Option.ite_none_left_eq_some, Option.some.injEq] at hf
          obtain ⟨hj, rfl⟩ := hf
          exact .enum hk hj
      | message j =>
          simp only [hk, Option.ite_none_left_eq_some, Option.some.injEq] at hf
          obtain ⟨hj, rfl⟩ := hf
          exact .message hk hj
  · rintro ⟨passed, f, rest, hsplit, hpassed, hf⟩
    refine ⟨passed, f, rest, hsplit, ?_, ?_⟩
    · cases hf with
      | enum hk hj => simp [hk, hj]
      | message hk hj => simp [hk, hj]
    · intro g hg
      cases hk : g.kind with
      | scalar type => rfl
      | enum j => simp [(hpassed g hg).1 j hk]
      | message j => simp [(hpassed g hg).2 j hk]

theorem head?_flatMap_fieldFaults {role : Role} {e : Error} :
    ((s.messages role).flatMap (s.fieldFaults role)).head? = some e ↔
      s.FirstDangling role e := by
  rw [List.head?_flatMap, List.findSome?_eq_some_iff]
  simp only [List.head?_eq_none_iff, fieldFaults_eq_nil_iff, head?_fieldFaults]
  constructor
  · rintro ⟨before, i, after, hsplit, hi, hbefore⟩
    exact ⟨before, i, after, hsplit, hbefore, hi⟩
  · rintro ⟨before, i, after, hsplit, hbefore, hi⟩
    exact ⟨before, i, after, hsplit, hi, hbefore⟩

theorem flatMap_fieldFaults_eq_nil {role : Role} :
    (s.messages role).flatMap (s.fieldFaults role) = [] ↔
      ∀ i ∈ s.messages role, ∀ f ∈ (p.message i).fields, s.Meets role f := by
  simp only [List.flatMap_eq_nil_iff, fieldFaults_eq_nil_iff]

/-! ## Operations -/

theorem OperationFault.mono {names names' : List String} {m : Pool.Method p.m} {e : Error}
    (h : s.OperationFault names m e) (hsub : ∀ n ∈ names, n ∈ names') :
    s.OperationFault names' m e := by
  cases h with
  | output hout => exact .output hout
  | input hout hin => exact .input hout hin
  | name hserves hname => exact .name hserves (hsub _ hname)

/-- The faults of one method, which go before those of the methods behind it. -/
def ownFaults (s : Selection p) (names : List String) (m : Pool.Method p.m) : List Error :=
  s.messageFaults .object m.operation m.output ++
  s.messageFaults .input m.operation m.input ++
  if m.operation ∈ names then [.duplicateOperation m.operation] else []

theorem methodFaults_cons (names : List String) (m : Pool.Method p.m)
    (ms : List (Pool.Method p.m)) :
    s.methodFaults names (m :: ms) =
      s.ownFaults names m ++ s.methodFaults (m.operation :: names) ms := rfl

theorem head?_messageFaults {role : Role} {operation : String} {i : Fin p.m} {e : Error} :
    (s.messageFaults role operation i).head? = some e ↔
      ¬ s.Emits role i ∧
        e = .incomplete (role.typeName (p.message i).fullName) operation role.category := by
  rw [messageFaults]
  simp only [mem_messageNames_iff]
  by_cases hi : s.Emits role i
  · simp [hi]
  · simp [hi, eq_comm]

theorem head?_ownFaults {names : List String} {m : Pool.Method p.m} {e : Error} :
    (s.ownFaults names m).head? = some e ↔ s.OperationFault names m e := by
  rw [ownFaults, List.head?_append, List.head?_append, Option.or_eq_some_iff,
    Option.or_eq_some_iff, Option.or_eq_none_iff]
  simp only [List.head?_eq_none_iff, messageFaults_eq_nil, mem_messageNames_iff,
    head?_messageFaults]
  constructor
  · rintro ((⟨hout, rfl⟩ | ⟨hout, hin, rfl⟩) | ⟨hserves, hname⟩)
    · exact .output hout
    · exact .input hout hin
    · split at hname
      next h =>
        obtain rfl := Option.some.inj hname
        exact .name hserves h
      next => cases hname
  · intro h
    cases h with
    | output hout => exact Or.inl (Or.inl ⟨hout, rfl⟩)
    | input hout hin => exact Or.inl (Or.inr ⟨hout, hin, rfl⟩)
    | name hserves hname => exact Or.inr ⟨hserves, by rw [if_pos hname]; rfl⟩

theorem ownFaults_eq_nil {names : List String} {m : Pool.Method p.m} :
    s.ownFaults names m = [] ↔ s.Serves m ∧ m.operation ∉ names := by
  simp only [ownFaults, List.append_eq_nil_iff, messageFaults_eq_nil, mem_messageNames_iff]
  by_cases h : m.operation ∈ names
  · simp [h]
  · simp [h, Serves]

/-- The first fault of methods that come after the names in `seen` is at the
first of them that has one. The induction is on the methods; a method that is
passed leaves its name behind for the later ones. -/
theorem head?_methodFaults {ms : List (Pool.Method p.m)} {seen : List String} {e : Error} :
    (s.methodFaults seen ms).head? = some e ↔
      ∃ before m after, ms = before ++ m :: after ∧ (∀ k ∈ before, s.Serves k) ∧
        (before.map Pool.Method.operation).Nodup ∧
        (∀ n ∈ before.map Pool.Method.operation, n ∉ seen) ∧
        s.OperationFault (before.map Pool.Method.operation ++ seen) m e := by
  induction ms generalizing seen with
  | nil => simp [methodFaults]
  | cons k ms ih =>
      rw [methodFaults_cons, List.head?_append, Option.or_eq_some_iff, List.head?_eq_none_iff,
        head?_ownFaults, ownFaults_eq_nil, ih]
      constructor
      · rintro (h | ⟨⟨hk, hnew⟩, before, m, after, rfl, hserves, hnodup, happart, h⟩)
        · exact ⟨[], k, ms, rfl, by simp, List.nodup_nil, by simp, h⟩
        · refine ⟨k :: before, m, after, rfl, ?_, ?_, ?_, ?_⟩
          · exact List.forall_mem_cons.mpr ⟨hk, hserves⟩
          · rw [List.map_cons, List.nodup_cons]
            exact ⟨fun hmem => happart _ hmem List.mem_cons_self, hnodup⟩
          · rw [List.map_cons, List.forall_mem_cons]
            exact ⟨hnew, fun n hn hseen => happart n hn (List.mem_cons_of_mem _ hseen)⟩
          · exact h.mono fun n hn => by
              simp only [List.mem_append, List.mem_cons, List.map_cons] at hn ⊢
              tauto
      · rintro ⟨before, m, after, hsplit, hserves, hnodup, happart, h⟩
        cases before with
        | nil =>
            obtain ⟨rfl, rfl⟩ := List.cons.inj hsplit
            exact Or.inl h
        | cons b before =>
            obtain ⟨rfl, rfl⟩ := List.cons.inj hsplit
            rw [List.map_cons, List.nodup_cons] at hnodup
            rw [List.map_cons, List.forall_mem_cons] at happart
            rw [List.forall_mem_cons] at hserves
            refine Or.inr ⟨⟨hserves.1, happart.1⟩, before, m, after, rfl, hserves.2, hnodup.2,
              ?_, ?_⟩
            · intro n hn hseen
              rcases List.mem_cons.mp hseen with rfl | hseen
              · exact hnodup.1 hn
              · exact happart.2 n hn hseen
            · exact h.mono fun n hn => by
                simp only [List.mem_append, List.mem_cons, List.map_cons] at hn ⊢
                tauto

/-! ## Selections -/

theorem validate_eq_error {e : Error} : s.validate = .error e ↔ s.faults.head? = some e := by
  rw [validate]
  split
  next h => simp [h]
  next h => simp [h]

theorem faults_eq (s : Selection p) :
    s.faults =
      (s.messages .object).flatMap (s.fieldFaults .object) ++
      (s.messages .input).flatMap (s.fieldFaults .input) ++ s.methodFaults [] s.methods := rfl

theorem firstFault_iff {e : Error} :
    s.faults.head? = some e ↔ s.FirstFault e := by
  rw [faults_eq, List.head?_append, List.head?_append, Option.or_eq_some_iff,
    Option.or_eq_some_iff, Option.or_eq_none_iff, List.head?_eq_none_iff, List.head?_eq_none_iff,
    flatMap_fieldFaults_eq_nil, flatMap_fieldFaults_eq_nil, head?_flatMap_fieldFaults,
    head?_flatMap_fieldFaults, head?_methodFaults]
  constructor
  · rintro ((h | ⟨htypes, h⟩) |
      ⟨⟨htypes, hinputs⟩, before, m, after, hsplit, hserves, hnodup, -, h⟩)
    · exact .typeField h
    · exact .inputField htypes h
    · rw [List.append_nil] at h
      refine .operation (fun role => ?_) hsplit hserves hnodup h
      cases role with
      | object => exact htypes
      | input => exact hinputs
  · intro h
    cases h with
    | typeField h => exact Or.inl (Or.inl h)
    | inputField htypes h => exact Or.inl (Or.inr ⟨htypes, h⟩)
    | operation hfields hsplit hserves hnodup h =>
        refine Or.inr ⟨⟨hfields .object, hfields .input⟩, _, _, _, hsplit, hserves, hnodup,
          by simp, ?_⟩
        rw [List.append_nil]
        exact h

theorem complete_iff :
    s.Complete ↔
      (∀ role, ∀ i ∈ s.messages role, ∀ j, p.HoldsEnum i j → s.EmitsEnum j) ∧
      (∀ role, ∀ i ∈ s.messages role, ∀ j, p.Holds i j → s.Emits role j) ∧
      ∀ m ∈ s.methods, s.Emits .object m.output ∧ s.Emits .input m.input := by
  constructor
  · intro h
    refine ⟨?_, ?_, ?_⟩
    · intro role i hi j hj
      exact mem_enumNames_iff.mp (h.enums role i hi j hj)
    · intro role i hi j hj
      exact mem_messageNames_iff.mp (h.messages role i hi j hj)
    · intro m hm
      exact ⟨mem_messageNames_iff.mp (h.methods .object m hm),
        mem_messageNames_iff.mp (h.methods .input m hm)⟩
  · rintro ⟨henums, hmessages, hmethods⟩
    refine ⟨?_, ?_, ?_⟩
    · intro role i hi j hj
      exact mem_enumNames_iff.mpr (henums role i hi j hj)
    · intro role i hi j hj
      exact mem_messageNames_iff.mpr (hmessages role i hi j hj)
    · intro role m hm
      cases role with
      | object => exact mem_messageNames_iff.mpr (hmethods m hm).1
      | input => exact mem_messageNames_iff.mpr (hmethods m hm).2

/-- Validation accepts exactly the selections in which every reference is to
something emitted and no operation name comes twice, and of any other it
reports the first fault. Where the pool keeps its names apart, to be emitted is
to be in the selection. -/
theorem validate_reports_first (s : Selection p) :
    (s.validate = .ok () ↔
      (∀ role, ∀ i ∈ s.messages role, ∀ j, p.HoldsEnum i j → s.EmitsEnum j) ∧
      (∀ role, ∀ i ∈ s.messages role, ∀ j, p.Holds i j → s.Emits role j) ∧
      (∀ m ∈ s.methods, s.Emits .object m.output ∧ s.Emits .input m.input) ∧
      (s.methods.map Pool.Method.operation).Nodup) ∧
    (∀ e, s.validate = .error e ↔ s.FirstFault e) ∧
    (p.UniqueNames →
      (∀ j, s.EmitsEnum j ↔ j ∈ s.enums) ∧ ∀ role i, s.Emits role i ↔ i ∈ s.messages role) := by
  refine ⟨?_, fun e => validate_eq_error.trans firstFault_iff,
    fun hp => ⟨fun j => emitsEnum_iff_mem hp, fun role i => emits_iff_mem hp⟩⟩
  constructor
  · intro hv
    have hcomplete := complete_of_validate hv
    obtain ⟨henums, hmessages, hmethods⟩ := complete_iff.mp hcomplete
    exact ⟨henums, hmessages, hmethods, hcomplete.validate_eq_ok.mp hv⟩
  · rintro ⟨henums, hmessages, hmethods, hnodup⟩
    exact (complete_iff.mpr ⟨henums, hmessages, hmethods⟩).validate_eq_ok.mpr hnodup

end Selection

/-! ## A half-planted orchard

The tree is there without the shade of its leaves, and nothing takes the plot.
Both are missing, and the shade is looked for first. -/

namespace Orchard

theorem validate_reports_first_bare :
    pool.UniqueNames ∧
    bare.validate = .error (.incomplete "FloraLeafShade" "FloraTree" .enum) ∧
    bare.FirstFault (.incomplete "FloraLeafShade" "FloraTree" .enum) ∧
    ∀ j, ¬ bare.EmitsEnum j := by
  have hp : pool.UniqueNames := by
    rw [Pool.UniqueNames]
    decide
  have hv : bare.validate = .error (.incomplete "FloraLeafShade" "FloraTree" .enum) := by
    decide +kernel
  obtain ⟨-, hfirst, hmem⟩ := Selection.validate_reports_first bare
  refine ⟨hp, hv, (hfirst _).mp hv, ?_⟩
  intro j hj
  exact List.not_mem_nil (((hmem hp).1 j).mp hj)

end Orchard

end ProtoSchema
