import Mathlib.Data.Fintype.EquivFin
import ProtoSchema.Proofs.Closure

/-!
# A walk goes layer by layer

The queue of a walk is one flat list: it holds messages twice, it holds messages
that are settled, and nothing in it says where one layer ends and the next
begins. What it does all the same is to go through layers. The first has the
root, and each later one has what the fields of the layer before it hold, in
order, without what is settled or was met before.

The usual invariant (the rest of one layer, then a part of the next) is not
needed here. A walk over `queue ++ rest` is the walk over what is left once
`queue` has been worked off, and `visit_append` says what that is: the new
messages of `queue` are settled, and what they hold stands behind `rest`. With
nothing behind it, a queue that is a layer's successors turns into the next
layer's, and that is all that an induction over the layers needs.

Layers end because they share no message, so there are no more of them than
messages. A walk that starts with nothing settled has in each layer the messages
of one distance from the root.
-/

namespace ProtoSchema

/-- The elements of a list that are not in `seen`, each at its first place. -/
def fresh {α : Type} [DecidableEq α] (seen l : List α) : List α :=
  (l.filter (· ∉ seen)).eraseDups

section Fresh

variable {α : Type} [DecidableEq α]

theorem mem_fresh {seen l : List α} {a : α} : a ∈ fresh seen l ↔ a ∈ l ∧ a ∉ seen := by
  simp [fresh]

theorem nodup_fresh (seen l : List α) : (fresh seen l).Nodup :=
  nodup_eraseDups _

theorem fresh_cons_of_mem {seen l : List α} {a : α} (h : a ∈ seen) :
    fresh seen (a :: l) = fresh seen l := by
  rw [fresh, fresh, List.filter_cons_of_neg (by simpa using h)]

theorem fresh_cons_of_notMem {seen l : List α} {a : α} (h : a ∉ seen) :
    fresh seen (a :: l) = a :: fresh (seen ++ [a]) l := by
  rw [fresh, fresh, List.filter_cons_of_pos (by simpa using h), List.eraseDups_cons,
    filter_notMem_append]
  congr 3
  funext b
  exact decide_not.symm

end Fresh

namespace Pool

variable {p : Pool}

/-- The layers of a walk from `root` that finds the messages of `start` settled.
Each message stands in the first layer that can have it, at its first place. -/
def layer (p : Pool) (start : List (Fin p.m)) (root : Fin p.m) : Nat → List (Fin p.m)
  | 0 => if root ∈ start then [] else [root]
  | k + 1 =>
    (((p.layer start root k).flatMap p.successors).filter fun j =>
      j ∉ start ∧ ∀ n : Fin (k + 1), j ∉ p.layer start root n).eraseDups
termination_by k => k

/-- The first `k` layers, one after another. -/
def firstLayers (p : Pool) (start : List (Fin p.m)) (root : Fin p.m) (k : Nat) :
    List (Fin p.m) :=
  (List.range k).flatMap (p.layer start root)

variable {start : List (Fin p.m)} {root : Fin p.m}

theorem firstLayers_succ (k : Nat) :
    p.firstLayers start root (k + 1) =
      p.firstLayers start root k ++ p.layer start root k := by
  simp [firstLayers, List.range_succ]

theorem mem_firstLayers {k : Nat} {i : Fin p.m} :
    i ∈ p.firstLayers start root k ↔ ∃ n < k, i ∈ p.layer start root n := by
  simp [firstLayers]

/-- What a walk has on its queue when it comes to a layer. -/
def layerQueue (p : Pool) (start : List (Fin p.m)) (root : Fin p.m) : Nat → List (Fin p.m)
  | 0 => [root]
  | k + 1 => (p.layer start root k).flatMap p.successors

/-- A layer is what is new in the queue. -/
theorem layer_eq_fresh (p : Pool) (start : List (Fin p.m)) (root : Fin p.m) (k : Nat) :
    p.layer start root k =
      fresh (start ++ p.firstLayers start root k) (p.layerQueue start root k) := by
  cases k with
  | zero =>
      have hnone : p.firstLayers start root 0 = [] := rfl
      rw [layer, layerQueue, hnone, List.append_nil]
      split
      · next h => rw [fresh_cons_of_mem h]; rfl
      · next h => rw [fresh_cons_of_notMem h]; rfl
  | succ k =>
      rw [layer, layerQueue, fresh]
      congr 2
      funext j
      simp only [List.mem_append, mem_firstLayers, not_or, not_exists, not_and,
        Fin.forall_iff]

theorem layer_succ_of_nil {k : Nat} (h : p.layer start root k = []) :
    p.layer start root (k + 1) = [] := by
  rw [layer_eq_fresh, layerQueue, h]
  rfl

theorem nodup_firstLayers (p : Pool) (start : List (Fin p.m)) (root : Fin p.m) (k : Nat) :
    (p.firstLayers start root k).Nodup := by
  induction k with
  | zero => exact List.nodup_nil
  | succ k ih =>
      rw [firstLayers_succ, layer_eq_fresh]
      refine ih.append (nodup_fresh _ _) ?_
      intro i hi hnew
      exact (mem_fresh.mp hnew).2 (List.mem_append_right _ hi)

/-- As long as layers have something in them, each adds at least one message. -/
theorem le_length_firstLayers {k : Nat} (h : p.layer start root k ≠ []) :
    k + 1 ≤ (p.firstLayers start root (k + 1)).length := by
  induction k with
  | zero =>
      have hpos := List.length_pos_of_ne_nil h
      simp only [firstLayers_succ, List.length_append]
      omega
  | succ k ih =>
      have hprev := ih fun hnil => h (layer_succ_of_nil hnil)
      have hpos := List.length_pos_of_ne_nil h
      rw [firstLayers_succ, List.length_append]
      omega

/-- There are no more layers than messages. -/
theorem layer_eq_nil {k : Nat} (hk : p.m ≤ k) : p.layer start root k = [] := by
  by_contra h
  have hlow := le_length_firstLayers h
  have hhigh := (nodup_firstLayers p start root (k + 1)).length_le_card
  rw [Fintype.card_fin] at hhigh
  omega

end Pool

/-! ## A walk through the layers -/

namespace Selection

variable {p : Pool} {role : Role}

/-- A walk works off what stands first in its queue: the new messages in it are
settled, and what they hold goes to the end. -/
theorem visit_append (s : Selection p) (role : Role) (queue rest : List (Fin p.m)) :
    s.visit role (queue ++ rest) =
      visit role ((fresh (s.messages role) queue).foldl (·.settle role ·) s)
        (rest ++ (fresh (s.messages role) queue).flatMap p.successors) := by
  induction queue generalizing s rest with
  | nil => simp [fresh]
  | cons i queue ih =>
      rw [List.cons_append, visit]
      split
      · next h => rw [ih, fresh_cons_of_mem h]
      · next h =>
          have hsettled := messages_settle s role i h
          rw [List.append_assoc, ih, hsettled, fresh_cons_of_notMem h, List.foldl_cons,
            List.flatMap_cons, List.append_assoc]

theorem messages_foldl_settle {l : List (Fin p.m)} : ∀ {s : Selection p}, l.Nodup →
    (∀ i ∈ l, i ∉ s.messages role) →
    (l.foldl (·.settle role ·) s).messages role = s.messages role ++ l := by
  induction l with
  | nil => simp
  | cons i l ih =>
      intro s hnodup hnew
      obtain ⟨hi, hl⟩ := List.nodup_cons.mp hnodup
      have hsettled := messages_settle s role i (hnew i List.mem_cons_self)
      rw [List.foldl_cons, ih hl, hsettled, List.append_assoc, List.singleton_append]
      intro j hj
      rw [hsettled]
      simp only [List.mem_append, List.mem_singleton, not_or]
      exact ⟨hnew j (List.mem_cons_of_mem i hj), fun heq => hi (heq ▸ hj)⟩

theorem enums_foldl_settle (l : List (Fin p.m)) (s : Selection p) :
    (l.foldl (·.settle role ·) s).enums = (l.flatMap p.fieldEnums).foldl addNew s.enums := by
  induction l generalizing s with
  | nil => rfl
  | cons i l ih => rw [List.foldl_cons, ih, enums_settle, List.flatMap_cons, List.foldl_append]

/-- The selection once a walk from `root` has been through the first `k`
layers. -/
def settleLayers (s : Selection p) (role : Role) (root : Fin p.m) (k : Nat) : Selection p :=
  (p.firstLayers (s.messages role) root k).foldl (·.settle role ·) s

theorem messages_settleLayers (s : Selection p) (role : Role) (root : Fin p.m) (k : Nat) :
    (s.settleLayers role root k).messages role =
      s.messages role ++ p.firstLayers (s.messages role) root k := by
  refine messages_foldl_settle (Pool.nodup_firstLayers p _ root k) ?_
  intro i hi
  obtain ⟨n, -, hi⟩ := Pool.mem_firstLayers.mp hi
  rw [Pool.layer_eq_fresh] at hi
  exact fun hstart => (mem_fresh.mp hi).2 (List.mem_append_left _ hstart)

theorem settleLayers_succ (s : Selection p) (role : Role) (root : Fin p.m) (k : Nat) :
    s.settleLayers role root (k + 1) =
      (p.layer (s.messages role) root k).foldl (·.settle role ·)
        (s.settleLayers role root k) := by
  rw [settleLayers, settleLayers, Pool.firstLayers_succ, List.foldl_append]

/-- A walk comes to every layer with all earlier ones settled and nothing but
the layer's candidates on its queue. -/
theorem close_eq_visit_layer (s : Selection p) (role : Role) (root : Fin p.m) (k : Nat) :
    s.close role root =
      (s.settleLayers role root k).visit role (p.layerQueue (s.messages role) root k) := by
  induction k with
  | zero => rfl
  | succ k ih =>
      have hlayer := p.layer_eq_fresh (s.messages role) root k
      rw [← messages_settleLayers s role root k] at hlayer
      have hround := visit_append (s.settleLayers role root k) role
        (p.layerQueue (s.messages role) root k) []
      rw [List.append_nil, List.nil_append, ← hlayer, ← settleLayers_succ] at hround
      rw [ih, hround]
      rfl

/-- After as many layers as there are messages, the walk is over. -/
theorem close_eq_settleLayers (s : Selection p) (role : Role) (root : Fin p.m) :
    s.close role root = s.settleLayers role root p.m := by
  rw [close_eq_visit_layer s role root p.m]
  apply visit_of_settled
  intro i hi
  by_contra hnew
  rw [messages_settleLayers] at hnew
  have hmem : i ∈ p.layer (s.messages role) root p.m := by
    rw [Pool.layer_eq_fresh]
    exact mem_fresh.mpr ⟨hi, hnew⟩
  rw [Pool.layer_eq_nil (Nat.le_refl p.m)] at hmem
  cases hmem

/-- The layers are computed by counting them. A closed selection of methods
evaluates along them, while the walks themselves end by a rank in two parts. -/
theorem ofOperations_eq_layers (queries mutations : List (Pool.Method p.m)) :
    ofOperations queries mutations =
      (queries.eraseDups ++ mutations.eraseDups).foldl
        (fun s m =>
          (s.settleLayers .object m.output p.m).settleLayers .input m.input p.m)
        (seed queries mutations) := by
  have hmethod : closeMethod (p := p) = fun s m =>
      (s.settleLayers .object m.output p.m).settleLayers .input m.input p.m := by
    funext s m
    rw [closeMethod, close_eq_settleLayers, close_eq_settleLayers]
  rw [ofOperations_eq, hmethod]

end Selection

/-! ## Distances -/

namespace Pool

variable {p : Pool}

/-- A way of `n` fields leads from one message to another. -/
inductive Steps (p : Pool) (i : Fin p.m) : Nat → Fin p.m → Prop
  | refl : p.Steps i 0 i
  | tail {n : Nat} {j k : Fin p.m} (h : p.Steps i n j) (hjk : p.Holds j k) : p.Steps i (n + 1) k

/-- The shortest way from one message to another has `n` fields. -/
def Distance (p : Pool) (i j : Fin p.m) (n : Nat) : Prop :=
  p.Steps i n j ∧ ∀ k < n, ¬ p.Steps i k j

theorem Distance.unique {i j : Fin p.m} {n k : Nat} (hn : p.Distance i j n)
    (hk : p.Distance i j k) : n = k := by
  have hge : ¬ n < k := fun h => hk.2 n h hn.1
  have hle : ¬ k < n := fun h => hn.2 k h hk.1
  omega

theorem exists_distance {i j : Fin p.m} {n : Nat} (h : p.Steps i n j) :
    ∃ k ≤ n, p.Distance i j k := by
  induction n using Nat.strong_induction_on with
  | _ n ih =>
      by_cases hshort : ∃ k < n, p.Steps i k j
      · obtain ⟨k, hk, hsteps⟩ := hshort
        obtain ⟨d, hd, hdist⟩ := ih k hk hsteps
        exact ⟨d, by omega, hdist⟩
      · exact ⟨n, Nat.le_refl n, h, fun k hk hsteps => hshort ⟨k, hk, hsteps⟩⟩

/-- The message before the last field of a shortest way is one nearer. -/
theorem Distance.pred {i j : Fin p.m} {n : Nat} (h : p.Distance i j (n + 1)) :
    ∃ k, p.Distance i k n ∧ p.Holds k j := by
  obtain ⟨hsteps, hleast⟩ := h
  cases hsteps with
  | @tail _ k _ hk hkj =>
      refine ⟨k, ⟨hk, fun d hd hsteps => ?_⟩, hkj⟩
      exact hleast (d + 1) (by omega) (hsteps.tail hkj)

/-- From nothing, the layers are the messages by their distance. -/
theorem mem_layer_iff {root i : Fin p.m} {k : Nat} :
    i ∈ p.layer [] root k ↔ p.Distance root i k := by
  induction k using Nat.strong_induction_on generalizing i with
  | _ k ih =>
      have hearlier : i ∈ p.firstLayers [] root k ↔ ∃ n < k, p.Distance root i n := by
        rw [mem_firstLayers]
        exact exists_congr fun n => and_congr_right fun hn => ih n hn
      rw [layer_eq_fresh, mem_fresh, List.nil_append, hearlier]
      cases k with
      | zero =>
          rw [layerQueue, List.mem_singleton]
          constructor
          · rintro ⟨rfl, -⟩
            exact ⟨.refl, fun k hk => absurd hk (Nat.not_lt_zero k)⟩
          · rintro ⟨hsteps, -⟩
            cases hsteps
            exact ⟨rfl, fun ⟨n, hn, _⟩ => absurd hn (Nat.not_lt_zero n)⟩
      | succ k =>
          rw [layerQueue, List.mem_flatMap]
          constructor
          · rintro ⟨⟨j, hj, hji⟩, hnew⟩
            have hdist := (ih k (Nat.lt_succ_self k)).mp hj
            refine ⟨hdist.1.tail (mem_successors.mp hji), fun n hn hsteps => hnew ?_⟩
            obtain ⟨d, hd, hdist⟩ := exists_distance hsteps
            exact ⟨d, by omega, hdist⟩
          · intro hdist
            obtain ⟨j, hj, hji⟩ := hdist.pred
            refine ⟨⟨j, (ih k (Nat.lt_succ_self k)).mpr hj, mem_successors.mpr hji⟩, ?_⟩
            rintro ⟨n, hn, hshort⟩
            have := hshort.unique hdist
            omega

theorem pairwise_distance (p : Pool) (root : Fin p.m) (k : Nat) :
    (p.firstLayers [] root k).Pairwise fun i j =>
      ∃ a b, p.Distance root i a ∧ p.Distance root j b ∧ a ≤ b := by
  rw [firstLayers, List.pairwise_flatMap]
  constructor
  · intro n _
    refine List.pairwise_of_forall_mem_list fun i hi j hj => ?_
    exact ⟨n, n, mem_layer_iff.mp hi, mem_layer_iff.mp hj, Nat.le_refl n⟩
  · refine List.pairwise_lt_range.imp fun {a b} hab i hi j hj => ?_
    exact ⟨a, b, mem_layer_iff.mp hi, mem_layer_iff.mp hj, Nat.le_of_lt hab⟩

end Pool

/-- A walk from `root` appends its layers, one after another, and there are no
more of them than messages. The enums of the new messages go behind those that
are there, each at its first place, and nothing else changes. A walk that starts
with nothing settled goes away from its root: its layers are the distances, so
no message stands before a nearer one. -/
theorem Selection.close_appends_layers {p : Pool} (s : Selection p) (role : Role)
    (root : Fin p.m) :
    let layer := p.layer (s.messages role) root
    let new := (List.range p.m).flatMap layer
    let t := s.close role root
    (∀ k, p.m ≤ k → layer k = []) ∧
    t.messages role = s.messages role ++ new ∧
    t.enums = s.enums ++ ((new.flatMap p.fieldEnums).filter (· ∉ s.enums)).eraseDups ∧
    (∀ role', role' ≠ role → t.messages role' = s.messages role') ∧
    t.queries = s.queries ∧ t.mutations = s.mutations ∧
    (s.messages role = [] →
      (∀ k i, i ∈ layer k ↔ p.Distance root i k) ∧
      new.Pairwise fun i j => ∃ a b, p.Distance root i a ∧ p.Distance root j b ∧ a ≤ b) := by
  intro layer new t
  have hlayers : t = s.settleLayers role root p.m := close_eq_settleLayers s role root
  obtain ⟨hqueries, hmutations⟩ := methods_visit s role [root]
  refine ⟨fun k hk => Pool.layer_eq_nil hk, ?_, ?_, fun role' hr => messages_visit_of_ne hr [root],
    hqueries, hmutations, fun hnone => ?_⟩
  · rw [hlayers]
    exact messages_settleLayers s role root p.m
  · rw [hlayers]
    exact (enums_foldl_settle new s).trans (foldl_addNew _ _)
  · have hlayer : layer = p.layer [] root := by rw [← hnone]
    have hnew : new = p.firstLayers [] root p.m := by rw [← hnone]; rfl
    rw [hlayer, hnew]
    exact ⟨fun k i => Pool.mem_layer_iff, p.pairwise_distance root p.m⟩

/-! A pond whose messages lead back to it and to a frog on two ways. -/

namespace Pond

def field (owner name : String) (kind : Pool.Kind 4 1) : Pool.Field 4 1 :=
  { name, fullName := "pond." ++ owner ++ "." ++ name, rawType := none, kind, isRepeated := false }

def hue (owner : String) : Pool.Field 4 1 := field owner "hue" (.enum (Fin.last 0))

def message (name : String) (fields : List (Pool.Field 4 1)) : Pool.Message 4 1 :=
  { fullName := "pond." ++ name, package := "pond", file := "pond.proto", fields }

def pool : Pool where
  m := 4
  e := 1
  messages := #v[
    message "Pond" [field "Pond" "reed" (.message 1), field "Pond" "fish" (.message 2)],
    message "Reed" [field "Reed" "pond" (.message 0), field "Reed" "fish" (.message 2)],
    message "Fish" [hue "Fish", field "Fish" "frog" (.message 3), field "Fish" "reed" (.message 1)],
    message "Frog" [field "Frog" "fish" (.message 2), hue "Frog"]]
  enums := #v[{ fullName := "pond.Hue", values := ["GREEN"] }]
  services := []

def root : Fin pool.m := (0 : Fin 4)

def everything : List (Fin pool.m) := ([0, 1, 2, 3] : List (Fin 4))

theorem close_appends_layers_root :
    (∀ role, ({} : Selection pool).messages role = []) ∧
    (({} : Selection pool).close .object root).types = everything ∧
    (({} : Selection pool).close .object root).inputs = [] ∧
    pool.layer [] root 4 = [] ∧
    everything.Pairwise fun i j =>
      ∃ a b, pool.Distance root i a ∧ pool.Distance root j b ∧ a ≤ b := by
  have hnone : ∀ role, ({} : Selection pool).messages role = [] := by
    intro role
    cases role <;> rfl
  have htypes : (({} : Selection pool).close .object root).types = everything := by
    rw [Selection.close_eq_settleLayers]
    decide +kernel
  obtain ⟨hend, hmessages, -, hother, -, -, hdistance⟩ :=
    Selection.close_appends_layers ({} : Selection pool) .object root
  have hnew := hmessages.symm.trans htypes
  rw [hnone, List.nil_append] at hnew
  have hsorted := (hdistance (hnone .object)).2
  rw [hnone, hnew] at hsorted
  exact ⟨hnone, htypes, hother .input (by decide), hend 4 (Nat.le_refl 4), hsorted⟩

end Pond

end ProtoSchema
