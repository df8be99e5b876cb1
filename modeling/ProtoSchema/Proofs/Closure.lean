import Mathlib.Logic.Relation
import ProtoSchema.Proofs.Insertion

/-!
# The selection of methods is what they reach

A selection that is computed from methods holds, in each role, the messages
that the methods' messages reach through fields, and no others. The walk that
computes it puts messages on its queue without looking whether they are there
already, and it is cut off at every message that an earlier walk has settled,
so neither the queue nor the settled messages alone say where it will go.

What carries the argument is `Walk`, a relation between the start of a walk
and where it stands: all that was settled or queued at the start still is, all
that is settled or queued now was settled before or is reached from the queue
of the start, and a field of a settled message leads only to messages that are
settled or queued. A round keeps these three, and once the queue is empty they
say that the settled messages are those of before and what the queue reached.
The third one needs a start at which nothing settled is left open, and that is
what the exactness of the previous walks provides.

Rounds cannot go on forever although the messages may be cyclic: a round
either settles a message, of which there are finitely many, or shortens the
queue.
-/

namespace ProtoSchema

namespace Pool

variable {p : Pool}

/-- A field of the message `i` holds the message `j`. -/
def Holds (p : Pool) (i j : Fin p.m) : Prop :=
  ∃ f ∈ (p.message i).fields, f.kind = .message j

/-- A field of the message `i` holds the enum `j`. -/
def HoldsEnum (p : Pool) (i : Fin p.m) (j : Fin p.e) : Prop :=
  ∃ f ∈ (p.message i).fields, f.kind = .enum j

/-- The message `j` is `i` or is held by a message that `i` reaches. -/
def Reaches (p : Pool) : Fin p.m → Fin p.m → Prop :=
  Relation.ReflTransGen p.Holds

theorem mem_successors {i j : Fin p.m} : j ∈ p.successors i ↔ p.Holds i j := by
  rw [successors, List.mem_filterMap]
  constructor
  · rintro ⟨f, hf, hj⟩
    refine ⟨f, hf, ?_⟩
    split at hj
    · next k hk => rw [hk, Option.some.inj hj]
    · cases hj
  · rintro ⟨f, hf, hk⟩
    exact ⟨f, hf, by rw [hk]⟩

theorem mem_fieldEnums {i : Fin p.m} {j : Fin p.e} :
    j ∈ p.fieldEnums i ↔ p.HoldsEnum i j := by
  rw [fieldEnums, List.mem_filterMap]
  constructor
  · rintro ⟨f, hf, hj⟩
    refine ⟨f, hf, ?_⟩
    split at hj
    · next k hk => rw [hk, Option.some.inj hj]
    · cases hj
  · rintro ⟨f, hf, hk⟩
    exact ⟨f, hf, by rw [hk]⟩

/-- The message of a method that is emitted in a role. -/
def Method.root {m : Nat} (method : Method m) : ProtoSchema.Role → Fin m
  | .object => method.output
  | .input => method.input

end Pool

namespace Selection

variable {p : Pool} {role : Role}

/-! ## One round -/

theorem messages_addMessage_of_ne {s : Selection p} {role' : Role} {i : Fin p.m}
    (h : role' ≠ role) : (s.addMessage role i).messages role' = s.messages role' := by
  cases role <;> cases role'
  · exact absurd rfl h
  · rfl
  · rfl
  · exact absurd rfl h

theorem enums_foldl_addEnum (js : List (Fin p.e)) : ∀ s : Selection p,
    (js.foldl addEnum s).enums = js.foldl addNew s.enums := by
  induction js with
  | nil => exact fun _ => rfl
  | cons j js ih => exact fun s => ih (s.addEnum j)

theorem methods_foldl_addEnum (js : List (Fin p.e)) : ∀ s : Selection p,
    (js.foldl addEnum s).queries = s.queries ∧
      (js.foldl addEnum s).mutations = s.mutations := by
  induction js with
  | nil => exact fun _ => ⟨rfl, rfl⟩
  | cons j js ih => exact fun s => ih (s.addEnum j)

theorem messages_settle_of_ne {s : Selection p} {role' : Role} {i : Fin p.m}
    (h : role' ≠ role) : (s.settle role i).messages role' = s.messages role' := by
  rw [settle, messages_foldl_addEnum, messages_addMessage_of_ne h]

/-- Settling a message adds it to its role and leaves the other role alone. -/
theorem mem_messages_settle {s : Selection p} {role' : Role} {i x : Fin p.m}
    (h : i ∉ s.messages role) :
    x ∈ (s.settle role i).messages role' ↔
      x ∈ s.messages role' ∨ role' = role ∧ x = i := by
  by_cases hr : role' = role
  · subst hr
    rw [messages_settle s role' i h, List.mem_append, List.mem_singleton]
    simp
  · rw [messages_settle_of_ne hr]
    simp [hr]

theorem enums_settle (s : Selection p) (role : Role) (i : Fin p.m) :
    (s.settle role i).enums = (p.fieldEnums i).foldl addNew s.enums := by
  rw [settle, enums_foldl_addEnum]
  cases role <;> rfl

theorem methods_settle (s : Selection p) (role : Role) (i : Fin p.m) :
    (s.settle role i).queries = s.queries ∧
      (s.settle role i).mutations = s.mutations := by
  rw [settle]
  obtain ⟨hq, hm⟩ := methods_foldl_addEnum (p.fieldEnums i) (s.addMessage role i)
  rw [hq, hm]
  cases role <;> exact ⟨rfl, rfl⟩

/-- A round of the walk: the first message of the queue is left out if it is
settled, and otherwise it is settled and what its fields hold is queued. -/
inductive Round (role : Role) :
    Selection p × List (Fin p.m) → Selection p × List (Fin p.m) → Prop
  | skip {s : Selection p} {i : Fin p.m} {rest : List (Fin p.m)}
      (h : i ∈ s.messages role) : Round role (s, i :: rest) (s, rest)
  | settle {s : Selection p} {i : Fin p.m} {rest : List (Fin p.m)}
      (h : i ∉ s.messages role) :
      Round role (s, i :: rest) (s.settle role i, rest ++ p.successors i)

/-- Every round makes fewer messages missing, or leaves their number and
shortens the queue. -/
theorem wellFounded_round (p : Pool) (role : Role) :
    WellFounded (Function.swap (Round (p := p) role)) := by
  let rank (w : Selection p × List (Fin p.m)) : Nat × Nat :=
    (missing (w.1.messages role), w.2.length)
  refine Subrelation.wf (r := InvImage (Prod.Lex (· < ·) (· < ·)) rank) ?_
    (InvImage.wf rank (Prod.lex Nat.lt_wfRel Nat.lt_wfRel).wf)
  intro after before h
  cases h with
  | skip _ => exact Prod.Lex.right _ (Nat.lt_succ_self _)
  | @settle s i rest h =>
      refine Prod.Lex.left _ _ ?_
      show missing ((s.settle role i).messages role) < missing (s.messages role)
      rw [messages_settle s role i h]
      exact missing_append_lt (s.messages role) i h

/-- A walk is a run of rounds that empties the queue. -/
theorem rounds_visit (role : Role) (s : Selection p) (queue : List (Fin p.m)) :
    Relation.ReflTransGen (Round role) (s, queue) (s.visit role queue, []) := by
  fun_induction visit role s queue with
  | case1 s => exact .refl
  | case2 s i rest h ih => exact .head (.skip h) ih
  | case3 s i rest h _ _ ih => exact .head (.settle h) ih

/-- What every round keeps, a walk keeps. -/
theorem visit_preserves (role : Role) {P : Selection p × List (Fin p.m) → Prop}
    (hround : ∀ {w w'}, Round role w w' → P w → P w')
    {s : Selection p} {queue : List (Fin p.m)} (h : P (s, queue)) :
    P (s.visit role queue, []) := by
  have hrun : ∀ {w}, Relation.ReflTransGen (Round role) (s, queue) w → P w := by
    intro w hw
    induction hw with
    | refl => exact h
    | tail _ hr ih => exact hround hr ih
  exact hrun (rounds_visit role s queue)

theorem visit_of_settled {s : Selection p} {queue : List (Fin p.m)}
    (h : ∀ i ∈ queue, i ∈ s.messages role) : s.visit role queue = s := by
  induction queue with
  | nil => rw [visit]
  | cons i queue ih =>
      rw [visit, dif_pos (h i List.mem_cons_self)]
      exact ih fun j hj => h j (List.mem_cons_of_mem i hj)

/-! ## What a walk settles -/

/-- The fields of the messages in a role hold only messages in the role. -/
def Closed (s : Selection p) (role : Role) : Prop :=
  ∀ i ∈ s.messages role, ∀ j, p.Holds i j → j ∈ s.messages role

/-- Where a walk stands, seen from its start. -/
structure Walk (role : Role) (start now : Selection p × List (Fin p.m)) : Prop where
  /-- What is settled stays so. -/
  settled : ∀ i ∈ start.1.messages role, i ∈ now.1.messages role
  /-- What is queued stays so until it is settled. -/
  kept : ∀ i ∈ start.2, i ∈ now.1.messages role ∨ i ∈ now.2
  /-- The walk follows fields. -/
  reached : ∀ i, i ∈ now.1.messages role ∨ i ∈ now.2 →
    i ∈ start.1.messages role ∨ ∃ r ∈ start.2, p.Reaches r i
  /-- What is settled leads to what is settled or queued. -/
  frontier : ∀ i ∈ now.1.messages role, ∀ j, p.Holds i j →
    j ∈ now.1.messages role ∨ j ∈ now.2

theorem Walk.start {s : Selection p} (h : s.Closed role) (queue : List (Fin p.m)) :
    Walk role (s, queue) (s, queue) where
  settled _ hi := hi
  kept _ hi := Or.inr hi
  reached i hi := hi.imp_right fun hq => ⟨i, hq, .refl⟩
  frontier i hi j hj := Or.inl (h i hi j hj)

theorem Walk.skip {start : Selection p × List (Fin p.m)} {s : Selection p}
    {i : Fin p.m} {rest : List (Fin p.m)} (hi : i ∈ s.messages role)
    (h : Walk role start (s, i :: rest)) : Walk role start (s, rest) := by
  have hskip : ∀ j, j ∈ s.messages role ∨ j ∈ i :: rest →
      j ∈ s.messages role ∨ j ∈ rest := by
    rintro j (hj | hj)
    · exact Or.inl hj
    · rcases List.mem_cons.mp hj with rfl | hj
      · exact Or.inl hi
      · exact Or.inr hj
  exact {
    settled := h.settled
    kept := fun j hj => hskip j (h.kept j hj)
    reached := fun j hj => h.reached j (hj.imp_right (List.mem_cons_of_mem i))
    frontier := fun j hj k hk => hskip k (h.frontier j hj k hk) }

/-- A round that moves a message from the queue to the settled ones and queues
what it leads to. -/
theorem Walk.settle {start : Selection p × List (Fin p.m)} {s : Selection p}
    {i : Fin p.m} {rest : List (Fin p.m)} (hi : i ∉ s.messages role)
    (h : Walk role start (s, i :: rest)) :
    Walk role start (s.settle role i, rest ++ p.successors i) := by
  have hmem : ∀ j, j ∈ (s.settle role i).messages role ↔ j ∈ s.messages role ∨ j = i := by
    intro j
    rw [messages_settle s role i hi, List.mem_append, List.mem_singleton]
  have hmoved : ∀ j, j ∈ s.messages role ∨ j ∈ i :: rest →
      j ∈ (s.settle role i).messages role ∨ j ∈ rest ++ p.successors i := by
    rintro j (hj | hj)
    · exact Or.inl ((hmem j).mpr (Or.inl hj))
    · rcases List.mem_cons.mp hj with rfl | hj
      · exact Or.inl ((hmem j).mpr (Or.inr rfl))
      · exact Or.inr (List.mem_append_left _ hj)
  -- The message is new, so it was not settled at the start and comes from its queue.
  obtain ⟨r, hr, hri⟩ : ∃ r ∈ start.2, p.Reaches r i := by
    rcases h.reached i (Or.inr List.mem_cons_self) with hstart | hr
    · exact absurd (h.settled i hstart) hi
    · exact hr
  exact {
    settled := fun j hj => (hmem j).mpr (Or.inl (h.settled j hj))
    kept := fun j hj => hmoved j (h.kept j hj)
    reached := by
      rintro j (hj | hj)
      · rcases (hmem j).mp hj with hj | rfl
        · exact h.reached j (Or.inl hj)
        · exact Or.inr ⟨r, hr, hri⟩
      · rcases List.mem_append.mp hj with hj | hj
        · exact h.reached j (Or.inr (List.mem_cons_of_mem i hj))
        · exact Or.inr ⟨r, hr, hri.tail (Pool.mem_successors.mp hj)⟩
    frontier := by
      intro j hj k hk
      rcases (hmem j).mp hj with hj | rfl
      · exact hmoved k (h.frontier j hj k hk)
      · exact Or.inr (List.mem_append_right _ (Pool.mem_successors.mpr hk)) }

theorem Walk.visit {s : Selection p} (h : s.Closed role) (queue : List (Fin p.m)) :
    Walk role (s, queue) (s.visit role queue, []) := by
  refine visit_preserves role (fun hr hw => ?_) (Walk.start h queue)
  cases hr with
  | skip hi => exact hw.skip hi
  | settle hi => exact hw.settle hi

theorem Walk.closed {start : Selection p × List (Fin p.m)} {s : Selection p}
    (h : Walk role start (s, [])) : s.Closed role := by
  intro i hi j hj
  rcases h.frontier i hi j hj with hj | hj
  · exact hj
  · cases hj

theorem Closed.reaches {s : Selection p} (h : s.Closed role) {i j : Fin p.m}
    (hi : i ∈ s.messages role) (hij : p.Reaches i j) : j ∈ s.messages role := by
  induction hij with
  | refl => exact hi
  | tail _ hk ih => exact h _ ih _ hk

theorem mem_visit {s : Selection p} (h : s.Closed role) {queue : List (Fin p.m)}
    {i : Fin p.m} :
    i ∈ (s.visit role queue).messages role ↔
      i ∈ s.messages role ∨ ∃ r ∈ queue, p.Reaches r i := by
  have hw := Walk.visit h queue
  constructor
  · exact fun hi => hw.reached i (Or.inl hi)
  · rintro (hi | ⟨r, hr, hri⟩)
    · exact hw.settled i hi
    · rcases hw.kept r hr with hr | hr
      · exact hw.closed.reaches hr hri
      · cases hr

/-! ## What a walk leaves alone, and the enums -/

theorem messages_visit_of_ne {s : Selection p} {role' : Role} (hr : role' ≠ role)
    (queue : List (Fin p.m)) :
    (s.visit role queue).messages role' = s.messages role' := by
  refine visit_preserves role (P := fun w => w.1.messages role' = s.messages role') ?_ rfl
  intro w w' h hw
  cases h with
  | skip _ => exact hw
  | settle _ => rw [messages_settle_of_ne hr, hw]

theorem methods_visit (s : Selection p) (role : Role) (queue : List (Fin p.m)) :
    (s.visit role queue).queries = s.queries ∧
      (s.visit role queue).mutations = s.mutations := by
  refine visit_preserves role
    (P := fun w => w.1.queries = s.queries ∧ w.1.mutations = s.mutations) ?_ ⟨rfl, rfl⟩
  intro w w' h hw
  cases h with
  | skip _ => exact hw
  | settle _ => rw [(methods_settle _ _ _).1, (methods_settle _ _ _).2]; exact hw

/-- The enums are those that the fields of the emitted messages hold. -/
def EnumsHeld (s : Selection p) : Prop :=
  ∀ j, j ∈ s.enums ↔ ∃ role, ∃ i ∈ s.messages role, p.HoldsEnum i j

theorem EnumsHeld.settle {s : Selection p} (h : s.EnumsHeld) {i : Fin p.m}
    (hi : i ∉ s.messages role) : (s.settle role i).EnumsHeld := by
  intro j
  rw [enums_settle, mem_foldl_addNew, h j, Pool.mem_fieldEnums]
  constructor
  · rintro (⟨role', k, hk, hj⟩ | hj)
    · exact ⟨role', k, (mem_messages_settle hi).mpr (Or.inl hk), hj⟩
    · exact ⟨role, i, (mem_messages_settle hi).mpr (Or.inr ⟨rfl, rfl⟩), hj⟩
  · rintro ⟨role', k, hk, hj⟩
    rcases (mem_messages_settle hi).mp hk with hk | ⟨-, rfl⟩
    · exact Or.inl ⟨role', k, hk, hj⟩
    · exact Or.inr hj

theorem EnumsHeld.visit {s : Selection p} (h : s.EnumsHeld) (role : Role)
    (queue : List (Fin p.m)) : (s.visit role queue).EnumsHeld := by
  refine visit_preserves role (P := fun w => w.1.EnumsHeld) (fun hr hw => ?_) h
  cases hr with
  | skip _ => exact hw
  | settle hi => exact hw.settle hi

/-- No message of a role and no enum is listed twice. -/
structure Distinct (s : Selection p) : Prop where
  enums : s.enums.Nodup
  messages : ∀ role, (s.messages role).Nodup

theorem Distinct.settle {s : Selection p} (h : s.Distinct) {i : Fin p.m}
    (hi : i ∉ s.messages role) : (s.settle role i).Distinct where
  enums := by
    rw [enums_settle]
    exact nodup_foldl_addNew h.enums
  messages role' := by
    by_cases hr : role' = role
    · subst hr
      rw [messages_settle s role' i hi, ← List.concat_eq_append]
      exact (h.messages role').concat hi
    · rw [messages_settle_of_ne hr]
      exact h.messages role'

theorem Distinct.visit {s : Selection p} (h : s.Distinct) (role : Role)
    (queue : List (Fin p.m)) : (s.visit role queue).Distinct := by
  refine visit_preserves role (P := fun w => w.1.Distinct) (fun hr hw => ?_) h
  cases hr with
  | skip _ => exact hw
  | settle hi => exact hw.settle hi

/-! ## From walks to methods -/

theorem mem_close {s : Selection p} (h : s.Closed role) {r i : Fin p.m} :
    i ∈ (s.close role r).messages role ↔ i ∈ s.messages role ∨ p.Reaches r i := by
  rw [close, mem_visit h]
  simp

/-- Closing a method is closing its message in each role, and neither walk
sees what the other one settles. -/
theorem messages_closeMethod (s : Selection p) (m : Pool.Method p.m) (role : Role) :
    ∃ s' : Selection p, s'.messages role = s.messages role ∧
      (s.closeMethod m).messages role = (s'.close role (m.root role)).messages role := by
  cases role with
  | object => exact ⟨s, rfl, messages_visit_of_ne (by decide) [m.input]⟩
  | input =>
      exact ⟨s.close .object m.output, messages_visit_of_ne (by decide) [m.output], rfl⟩

theorem mem_closeMethod {s : Selection p} (h : s.Closed role) {m : Pool.Method p.m}
    {i : Fin p.m} :
    i ∈ (s.closeMethod m).messages role ↔
      i ∈ s.messages role ∨ p.Reaches (m.root role) i := by
  obtain ⟨s', hsame, heq⟩ := messages_closeMethod s m role
  have hclosed : s'.Closed role := by
    rw [Closed, hsame]
    exact h
  rw [heq, mem_close hclosed, hsame]

/-! ## From methods to their selection -/

/-- What the methods are closed over: nothing but the methods themselves,
each of them once. -/
def seed (queries mutations : List (Pool.Method p.m)) : Selection p :=
  { queries := queries.eraseDups, mutations := mutations.eraseDups }

theorem foldl_addQuery (ms : List (Pool.Method p.m)) (s : Selection p) :
    ms.foldl addQuery s = { s with queries := ms.foldl addNew s.queries } := by
  induction ms generalizing s with
  | nil => rfl
  | cons m ms ih => exact ih (s.addQuery m)

theorem foldl_addMutation (ms : List (Pool.Method p.m)) (s : Selection p) :
    ms.foldl addMutation s = { s with mutations := ms.foldl addNew s.mutations } := by
  induction ms generalizing s with
  | nil => rfl
  | cons m ms ih => exact ih (s.addMutation m)

theorem ofOperations_eq (queries mutations : List (Pool.Method p.m)) :
    ofOperations queries mutations =
      (queries.eraseDups ++ mutations.eraseDups).foldl closeMethod
        (seed queries mutations) := by
  have hseed : mutations.foldl addMutation (queries.foldl addQuery {}) =
      seed queries mutations := by
    rw [foldl_addQuery, foldl_addMutation]
    simp only [foldl_addNew_nil]
    rfl
  rw [ofOperations]
  simp only [hseed]
  rfl

/-- What holds of the seed and of no methods, and is kept when one more method
is closed, holds of the selection and of its methods. -/
theorem ofOperations_induction {I : List (Pool.Method p.m) → Selection p → Prop}
    {queries mutations : List (Pool.Method p.m)} (hseed : I [] (seed queries mutations))
    (hstep : ∀ {done s} m, I done s → I (done ++ [m]) (s.closeMethod m)) :
    I (queries.eraseDups ++ mutations.eraseDups) (ofOperations queries mutations) := by
  have hrun : ∀ (ms : List (Pool.Method p.m)) {done s},
      I done s → I (done ++ ms) (ms.foldl closeMethod s) := by
    intro ms
    induction ms with
    | nil => exact fun h => by simpa using h
    | cons m ms ih =>
        intro done s h
        have hrest := ih (hstep m h)
        rwa [List.append_assoc, List.singleton_append] at hrest
  rw [ofOperations_eq]
  exact hrun _ hseed

theorem methods_closeMethod (s : Selection p) (m : Pool.Method p.m) :
    (s.closeMethod m).queries = s.queries ∧ (s.closeMethod m).mutations = s.mutations := by
  obtain ⟨hq₁, hm₁⟩ := methods_visit s .object [m.output]
  obtain ⟨hq₂, hm₂⟩ := methods_visit (s.close .object m.output) .input [m.input]
  exact ⟨hq₂.trans hq₁, hm₂.trans hm₁⟩

theorem methods_ofOperations (queries mutations : List (Pool.Method p.m)) :
    (ofOperations queries mutations).queries = queries.eraseDups ∧
      (ofOperations queries mutations).mutations = mutations.eraseDups := by
  refine ofOperations_induction
    (I := fun _ s => s.queries = queries.eraseDups ∧ s.mutations = mutations.eraseDups)
    ⟨rfl, rfl⟩ ?_
  intro _ s m h
  rw [(methods_closeMethod s m).1, (methods_closeMethod s m).2]
  exact h

/-- The selection holds what the given methods reach. -/
structure Covers (methods : List (Pool.Method p.m)) (s : Selection p) : Prop where
  messages : ∀ role i,
    i ∈ s.messages role ↔ ∃ m ∈ methods, p.Reaches (m.root role) i
  enums : s.EnumsHeld
  distinct : s.Distinct

theorem Covers.closed {methods : List (Pool.Method p.m)} {s : Selection p}
    (h : Covers methods s) (role : Role) : s.Closed role := by
  intro i hi j hj
  obtain ⟨m, hm, hmi⟩ := (h.messages role i).mp hi
  exact (h.messages role j).mpr ⟨m, hm, hmi.tail hj⟩

theorem covers_seed (queries mutations : List (Pool.Method p.m)) :
    Covers [] (seed queries mutations) where
  messages role i := by cases role <;> simp [seed, messages]
  enums j := by
    constructor
    · exact fun hj => absurd hj List.not_mem_nil
    · rintro ⟨role, i, hi, -⟩
      cases role <;> exact absurd hi List.not_mem_nil
  distinct := ⟨List.nodup_nil, fun role => by cases role <;> exact List.nodup_nil⟩

theorem Covers.closeMethod {methods : List (Pool.Method p.m)} {s : Selection p}
    (h : Covers methods s) (m : Pool.Method p.m) :
    Covers (methods ++ [m]) (s.closeMethod m) where
  messages role i := by
    rw [mem_closeMethod (h.closed role), h.messages role i]
    simp only [List.mem_append, List.mem_singleton]
    constructor
    · rintro (⟨m', hm', hi⟩ | hi)
      · exact ⟨m', Or.inl hm', hi⟩
      · exact ⟨m, Or.inr rfl, hi⟩
    · rintro ⟨m', hm' | rfl, hi⟩
      · exact Or.inl ⟨m', hm', hi⟩
      · exact Or.inr hi
  enums := (h.enums.visit .object [m.output]).visit .input [m.input]
  distinct := (h.distinct.visit .object [m.output]).visit .input [m.input]

theorem covers_ofOperations (queries mutations : List (Pool.Method p.m)) :
    Covers (queries.eraseDups ++ mutations.eraseDups)
      (ofOperations queries mutations) :=
  ofOperations_induction (covers_seed queries mutations) fun m h => h.closeMethod m

/-- Every walk ends, and the selection of methods is exact: the types are what
the outputs reach, the inputs are what the inputs reach, the enums are those
that either of them hold, the methods are those given, and nothing is listed
twice. -/
theorem ofOperations_exact (queries mutations : List (Pool.Method p.m)) :
    let s := ofOperations queries mutations
    (∀ role, WellFounded (Function.swap (Round (p := p) role))) ∧
    (∀ role (s : Selection p) root,
      Relation.ReflTransGen (Round role) (s, [root]) (s.close role root, [])) ∧
    (∀ i, i ∈ s.types ↔ ∃ m ∈ queries ++ mutations, p.Reaches m.output i) ∧
    (∀ i, i ∈ s.inputs ↔ ∃ m ∈ queries ++ mutations, p.Reaches m.input i) ∧
    (∀ j, j ∈ s.enums ↔ ∃ i, (i ∈ s.types ∨ i ∈ s.inputs) ∧ p.HoldsEnum i j) ∧
    s.queries = queries.eraseDups ∧ s.mutations = mutations.eraseDups ∧
    s.types.Nodup ∧ s.inputs.Nodup ∧ s.enums.Nodup ∧ s.queries.Nodup ∧
    s.mutations.Nodup := by
  intro s
  obtain ⟨hq, hm⟩ : s.queries = queries.eraseDups ∧ s.mutations = mutations.eraseDups :=
    methods_ofOperations queries mutations
  have hcover : Covers (queries.eraseDups ++ mutations.eraseDups) s :=
    covers_ofOperations queries mutations
  have hgiven : ∀ m, m ∈ queries.eraseDups ++ mutations.eraseDups ↔
      m ∈ queries ++ mutations := by
    intro m
    rw [List.mem_append, List.mem_append, List.mem_eraseDups, List.mem_eraseDups]
  refine ⟨wellFounded_round p, fun role s root => rounds_visit role s [root], ?_, ?_, ?_,
    hq, hm, hcover.distinct.messages .object, hcover.distinct.messages .input,
    hcover.distinct.enums, ?_, ?_⟩
  · intro i
    simp only [← hgiven]
    exact hcover.messages .object i
  · intro i
    simp only [← hgiven]
    exact hcover.messages .input i
  · intro j
    rw [hcover.enums j]
    constructor
    · rintro ⟨role, i, hi, hj⟩
      cases role with
      | object => exact ⟨i, Or.inl hi, hj⟩
      | input => exact ⟨i, Or.inr hi, hj⟩
    · rintro ⟨i, hi | hi, hj⟩
      · exact ⟨.object, i, hi, hj⟩
      · exact ⟨.input, i, hi, hj⟩
  · rw [hq]
    exact nodup_eraseDups queries
  · rw [hm]
    exact nodup_eraseDups mutations

end Selection

end ProtoSchema
