import ProtoSchema.Generate
import ProtoSchema.Proofs.HandlerPaths
import ProtoSchema.Proofs.Insertion

/-!
# Insertions in any order

A selection may also be put together by hand, one insertion after another, and
each insertion tells whether it was needed. The five lists share one state but
nothing else: an insertion asks its own list and changes it, so what the others
received in between does not matter.

Two invariants carry this through a run of insertions. Each list is what its
own insertions make of it, from wherever the run starts. And what a selection
has after a run is what it had before together with what was inserted. The
first gives the lists and with them that the order across lists is forgotten,
the second gives the answers.
-/

namespace ProtoSchema

variable {p : Pool}

/-! ## Insertions of one kind -/

namespace Insertion

def enum? : Insertion p → Option (Fin p.e)
  | .enum i => some i
  | _ => none

def type? : Insertion p → Option (Fin p.m)
  | .type i => some i
  | _ => none

def input? : Insertion p → Option (Fin p.m)
  | .input i => some i
  | _ => none

def query? : Insertion p → Option (Pool.Method p.m)
  | .query m => some m
  | _ => none

def mutation? : Insertion p → Option (Pool.Method p.m)
  | .mutation m => some m
  | _ => none

/-- Two sequences are interleavings of the same insertions: those of each kind
are the same and in the same order. -/
structure Interleave (calls calls' : List (Insertion p)) : Prop where
  enums : calls.filterMap enum? = calls'.filterMap enum?
  types : calls.filterMap type? = calls'.filterMap type?
  inputs : calls.filterMap input? = calls'.filterMap input?
  queries : calls.filterMap query? = calls'.filterMap query?
  mutations : calls.filterMap mutation? = calls'.filterMap mutation?

end Insertion

namespace Selection

open Insertion

/-- Makes insertions one after another and collects the answers. -/
def insertAll (s : Selection p) : List (Insertion p) → List Bool × Selection p
  | [] => ([], s)
  | x :: calls =>
    let (isNew, s) := s.insert x
    let (answers, s) := s.insertAll calls
    (isNew :: answers, s)

theorem insertAll_cons (s : Selection p) (x : Insertion p) (calls : List (Insertion p)) :
    s.insertAll (x :: calls) =
      ((s.insert x).1 :: ((s.insert x).2.insertAll calls).1, ((s.insert x).2.insertAll calls).2) :=
  rfl

/-! ## Lists -/

/-- Every list receives its own elements and no others. -/
theorem insertAll_lists (s : Selection p) (calls : List (Insertion p)) :
    (s.insertAll calls).2 =
      { enums := (calls.filterMap enum?).foldl addNew s.enums
        types := (calls.filterMap type?).foldl addNew s.types
        inputs := (calls.filterMap input?).foldl addNew s.inputs
        queries := (calls.filterMap query?).foldl addNew s.queries
        mutations := (calls.filterMap mutation?).foldl addNew s.mutations } := by
  induction calls generalizing s with
  | nil => rfl
  | cons x calls ih =>
      rw [insertAll_cons, ih]
      cases x <;> rfl

/-- The selection of a run that starts with nothing. -/
theorem insertAll_empty (calls : List (Insertion p)) :
    (insertAll {} calls).2 =
      { enums := (calls.filterMap enum?).eraseDups
        types := (calls.filterMap type?).eraseDups
        inputs := (calls.filterMap input?).eraseDups
        queries := (calls.filterMap query?).eraseDups
        mutations := (calls.filterMap mutation?).eraseDups } := by
  rw [insertAll_lists]
  simp only [foldl_addNew_nil]

/-! ## Answers -/

/-- The selection has the element in its list. -/
def Has (s : Selection p) : Insertion p → Prop
  | .enum i => i ∈ s.enums
  | .type i => i ∈ s.types
  | .input i => i ∈ s.inputs
  | .query m => m ∈ s.queries
  | .mutation m => m ∈ s.mutations

theorem not_has_empty (x : Insertion p) : ¬ ({} : Selection p).Has x := by
  cases x <;> exact List.not_mem_nil

theorem answer_insert (s : Selection p) (x : Insertion p) : (s.insert x).1 ↔ ¬ s.Has x := by
  cases x <;> exact decide_eq_true_iff

theorem has_insert {s : Selection p} {x y : Insertion p} :
    (s.insert x).2.Has y ↔ s.Has y ∨ y = x := by
  cases x <;> cases y <;>
    simp [insert, Has, addEnum, addType, addInput, addQuery, addMutation, mem_addNew]

theorem has_insertAll {s : Selection p} {calls : List (Insertion p)} {y : Insertion p} :
    (s.insertAll calls).2.Has y ↔ s.Has y ∨ y ∈ calls := by
  induction calls generalizing s with
  | nil => simp [insertAll]
  | cons x calls ih => rw [insertAll_cons, ih, has_insert, or_assoc, List.mem_cons]

theorem length_insertAll (s : Selection p) (calls : List (Insertion p)) :
    (s.insertAll calls).1.length = calls.length := by
  induction calls generalizing s with
  | nil => rfl
  | cons x calls ih => rw [insertAll_cons, List.length_cons, List.length_cons, ih]

/-- An answer is given by the selection that the earlier insertions made. -/
theorem answer_insertAll (s : Selection p) {calls : List (Insertion p)} {k : Nat}
    {x : Insertion p} (h : calls[k]? = some x) :
    (s.insertAll calls).1[k]? = some ((s.insertAll (calls.take k)).2.insert x).1 := by
  induction calls generalizing s k with
  | nil => cases h
  | cons y calls ih =>
      cases k with
      | zero =>
          obtain rfl := Option.some.inj h
          rfl
      | succ k =>
          rw [insertAll_cons, List.getElem?_cons_succ, ih (s.insert y).2 h]
          rfl

/-- In any run of insertions that starts with nothing, each list ends up with
the elements given to it, later repetitions removed. Each answer tells whether
the same insertion had not been made before. And any other interleaving of the
same insertions gives the same selection, which is therefore valid in the same
cases and has the same text. -/
theorem insertAll_keeps_first (calls : List (Insertion p)) :
    (insertAll {} calls).2.enums = (calls.filterMap enum?).eraseDups ∧
    (insertAll {} calls).2.types = (calls.filterMap type?).eraseDups ∧
    (insertAll {} calls).2.inputs = (calls.filterMap input?).eraseDups ∧
    (insertAll {} calls).2.queries = (calls.filterMap query?).eraseDups ∧
    (insertAll {} calls).2.mutations = (calls.filterMap mutation?).eraseDups ∧
    (insertAll {} calls).1.length = calls.length ∧
    (∀ k x, calls[k]? = some x →
      (insertAll {} calls).1[k]? = some (decide (x ∉ calls.take k))) ∧
    ∀ calls', Interleave calls calls' →
      (insertAll {} calls).2 = (insertAll {} calls').2 ∧
      (insertAll {} calls).2.validate = (insertAll {} calls').2.validate ∧
      ∀ o c, (insertAll {} calls).2.generate o c = (insertAll {} calls').2.generate o c := by
  have hanswer : ∀ k x, calls[k]? = some x →
      (insertAll {} calls).1[k]? = some (decide (x ∉ calls.take k)) := by
    intro k x hx
    rw [answer_insertAll {} hx, Option.some_inj, Bool.eq_iff_iff, answer_insert, has_insertAll,
      decide_eq_true_iff, not_or]
    exact ⟨And.right, fun h => ⟨not_has_empty x, h⟩⟩
  have hsame : ∀ calls', Interleave calls calls' →
      (insertAll {} calls).2 = (insertAll {} calls').2 := by
    intro calls' h
    rw [insertAll_empty, insertAll_empty, h.enums, h.types, h.inputs, h.queries, h.mutations]
  refine ⟨?_, ?_, ?_, ?_, ?_, length_insertAll {} calls, hanswer, fun calls' h => ?_⟩
  · rw [insertAll_empty]
  · rw [insertAll_empty]
  · rw [insertAll_empty]
  · rw [insertAll_empty]
  · rw [insertAll_empty]
  · rw [hsame calls' h]
    exact ⟨rfl, rfl, fun _ _ => rfl⟩

end Selection

/-! At the dock, crates are inserted in both roles and twice in one, and the
lifting of crates is a query and a mutation. -/

namespace Dock

open Selection

def crate : Fin pool.m := ⟨0, Nat.two_pos⟩

def calls : List (Insertion pool) :=
  [.type crate, .query liftCrate, .input crate, .type crate, .mutation liftCrate, .query liftCar]

/-- The same insertions, list after list. -/
def sorted : List (Insertion pool) :=
  [.type crate, .type crate, .input crate, .query liftCrate, .query liftCar, .mutation liftCrate]

theorem insertAll_keeps_first_dock :
    Insertion.Interleave calls sorted ∧
    calls[3]? = some (.type crate) ∧ (insertAll {} calls).1[3]? = some false ∧
    (insertAll {} calls).2.types = [crate] ∧
    (insertAll {} calls).2 = (insertAll {} sorted).2 := by
  have hsorted : Insertion.Interleave calls sorted := ⟨rfl, rfl, rfl, rfl, rfl⟩
  obtain ⟨-, htypes, -, -, -, -, hanswer, hsame⟩ := insertAll_keeps_first calls
  exact ⟨hsorted, rfl, hanswer 3 (.type crate) rfl, htypes, (hsame sorted hsorted).1⟩

end Dock

end ProtoSchema
