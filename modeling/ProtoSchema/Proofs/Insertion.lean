import Mathlib.Data.List.Nodup
import ProtoSchema.Selection

/-!
# Insertion keeps the first of every element

A selection grows by `addNew` alone, so what holds of a list that is built by
insertions holds of all its parts. Three things do: an insertion adds its
element and nothing else, it never makes a repetition, and a list that
receives elements one after another holds, after its own, those elements with
their later repetitions removed.

The last of these is an equation between lists, so it also fixes the order. It
is stated for any list to start from, since the element that is inserted
first changes what the later insertions find.
-/

namespace ProtoSchema

variable {α : Type} [DecidableEq α]

theorem mem_addNew {l : List α} {a b : α} : b ∈ addNew l a ↔ b ∈ l ∨ b = a := by
  rw [addNew]
  split
  · next h =>
      constructor
      · exact Or.inl
      · rintro (hb | rfl)
        · exact hb
        · exact h
  · rw [List.mem_append, List.mem_singleton]

theorem nodup_addNew {l : List α} (h : l.Nodup) (a : α) : (addNew l a).Nodup := by
  rw [addNew]
  split
  · exact h
  · next ha =>
      rw [← List.concat_eq_append]
      exact h.concat ha

theorem mem_foldl_addNew {l : List α} {b : α} :
    ∀ {acc : List α}, b ∈ l.foldl addNew acc ↔ b ∈ acc ∨ b ∈ l := by
  induction l with
  | nil => simp
  | cons a l ih =>
      intro acc
      rw [List.foldl_cons, ih, mem_addNew, List.mem_cons, or_assoc]

theorem nodup_foldl_addNew {l : List α} :
    ∀ {acc : List α}, acc.Nodup → (l.foldl addNew acc).Nodup := by
  induction l with
  | nil => exact id
  | cons a l ih => exact fun h => ih (nodup_addNew h a)

/-- Elements that are inserted one by one end up behind those of the list,
without the ones it has and without later repetitions. -/
theorem foldl_addNew (l : List α) : ∀ acc : List α,
    l.foldl addNew acc = acc ++ (l.filter (· ∉ acc)).eraseDups := by
  induction l with
  | nil => simp
  | cons a l ih =>
      intro acc
      rw [List.foldl_cons, ih, addNew]
      split
      · next h => rw [List.filter_cons_of_neg (by simpa using h)]
      · next h =>
          rw [List.filter_cons_of_pos (by simpa using h), List.eraseDups_cons,
            filter_notMem_append, List.append_assoc, List.singleton_append]
          congr 4
          funext b
          exact decide_not

theorem foldl_addNew_nil (l : List α) : l.foldl addNew [] = l.eraseDups := by
  rw [foldl_addNew, List.nil_append, List.filter_eq_self.mpr (by simp)]

theorem nodup_eraseDups (l : List α) : l.eraseDups.Nodup := by
  rw [← foldl_addNew_nil]
  exact nodup_foldl_addNew List.nodup_nil

end ProtoSchema
