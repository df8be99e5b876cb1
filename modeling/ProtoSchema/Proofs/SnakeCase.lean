import Mathlib.Logic.Basic
import ProtoSchema.Naming
import ProtoSchema.Pool.Names
import ProtoSchema.Proofs.LetterCase

/-!
# What snake case keeps

Where snake case puts an underscore depends on both neighbours of a capital,
so the result cannot be described one character at a time. What it keeps can:
each character turns into its small letter, with an underscore or nothing in
front. So the characters other than underscores stay where they are, up to
case, and two names that are one in snake case differ in case and underscores
only.

Snake case is also a normal form: a name without capitals stays as it is, and
every result is such a name. The underscores that are put in stand behind a
letter or a digit and in front of a letter, so they are at neither end of the
name and never next to another one.
-/

namespace ProtoSchema

namespace Naming

/-! ## One character at a time -/

/-- What snake case puts in front of a character. -/
def wordMark (previous : Option Char) (c : Char) (next : Option Char) : List Char :=
  if c.isUpper ∧ startsWord previous next then ['_'] else []

theorem snakeFrom_cons (previous : Option Char) (c : Char) (text : List Char) :
    snakeFrom previous (c :: text) =
      wordMark previous c text.head? ++ c.toLower :: snakeFrom (some c) text := by
  rw [snakeFrom, wordMark]
  by_cases hc : c.isUpper
  · by_cases hstart : startsWord previous text.head?
    · rw [if_pos hc, if_pos hstart, if_pos ⟨hc, hstart⟩]
      rfl
    · rw [if_pos hc, if_neg hstart, if_neg fun h => hstart h.2]
      rfl
  · rw [if_neg hc, if_neg fun h => hc h.1, toLower_of_not_isUpper hc]
    rfl

theorem wordMark_of_not_isUpper {previous next : Option Char} {c : Char} (h : ¬ c.isUpper) :
    wordMark previous c next = [] :=
  if_neg fun hmark => h hmark.1

theorem eq_of_mem_wordMark {previous next : Option Char} {c d : Char}
    (h : d ∈ wordMark previous c next) : d = '_' := by
  rw [wordMark] at h
  split at h
  · exact List.mem_singleton.mp h
  · cases h

/-- Every character of a name in snake case is an underscore or a lowered
character of the name. -/
theorem mem_snakeFrom {previous : Option Char} {text : List Char} {c : Char}
    (h : c ∈ snakeFrom previous text) : c = '_' ∨ ∃ b ∈ text, c = b.toLower := by
  induction text generalizing previous with
  | nil => cases h
  | cons b text ih =>
      rw [snakeFrom_cons, List.mem_append, List.mem_cons] at h
      rcases h with h | rfl | h
      · exact Or.inl (eq_of_mem_wordMark h)
      · exact Or.inr ⟨b, List.mem_cons_self, rfl⟩
      · refine (ih h).imp_right ?_
        rintro ⟨d, hd, rfl⟩
        exact ⟨d, List.mem_cons_of_mem b hd, rfl⟩

theorem toLower_mem_snakeFrom {previous : Option Char} {text : List Char} {c : Char}
    (h : c ∈ text) : c.toLower ∈ snakeFrom previous text := by
  induction text generalizing previous with
  | nil => cases h
  | cons b text ih =>
      rw [snakeFrom_cons]
      refine List.mem_append_right _ ?_
      rcases List.mem_cons.mp h with rfl | h
      · exact List.mem_cons_self
      · exact List.mem_cons_of_mem _ (ih h)

theorem filter_snakeFrom (previous : Option Char) (text : List Char) :
    (snakeFrom previous text).filter (· ≠ '_') =
      (text.filter (· ≠ '_')).map Char.toLower := by
  induction text generalizing previous with
  | nil => rfl
  | cons c text ih =>
      have hmark : (wordMark previous c text.head?).filter (· ≠ '_') = [] := by
        rw [List.filter_eq_nil_iff]
        intro d hd
        simp [eq_of_mem_wordMark hd]
      rw [snakeFrom_cons, List.filter_append, hmark, List.nil_append, List.filter_cons, ih,
        List.filter_cons]
      have hlower := toLower_eq_iff (c := c) (d := '_') (by decide)
      by_cases hc : c = '_'
      · simp [hc]
      · simp [hc, hlower]

theorem not_isUpper_of_mem_snakeCase {s : String} {c : Char} (h : c ∈ (snakeCase s).toList) :
    ¬ c.isUpper := by
  rw [snakeCase, String.toList_ofList] at h
  rcases mem_snakeFrom h with rfl | ⟨b, -, rfl⟩
  · decide
  · exact not_isUpper_toLower b

/-- Without underscores, a name in snake case is the folded name. -/
theorem filter_snakeCase (s : String) :
    (snakeCase s).toList.filter (· ≠ '_') = Pool.foldName s := by
  rw [snakeCase, String.toList_ofList, snakeChars, filter_snakeFrom, Pool.foldName]

/-! ## Names that stay as they are -/

theorem snakeFrom_append_of_not_isUpper {previous : Option Char} {text : List Char}
    (h : ∀ c ∈ text, ¬ c.isUpper) (rest : List Char) :
    snakeFrom previous (text ++ rest) = text ++ snakeFrom (text.getLast?.or previous) rest := by
  induction text generalizing previous with
  | nil => rfl
  | cons c text ih =>
      obtain ⟨hc, htext⟩ := List.forall_mem_cons.mp h
      rw [List.cons_append, snakeFrom_cons, wordMark_of_not_isUpper hc,
        toLower_of_not_isUpper hc, ih htext, List.getLast?_cons]
      cases text.getLast? with
      | none => rfl
      | some d => rfl

theorem snakeCase_eq_self_iff {s : String} :
    snakeCase s = s ↔ ∀ c ∈ s.toList, ¬ c.isUpper := by
  constructor
  · intro h c hc
    rw [← h] at hc
    exact not_isUpper_of_mem_snakeCase hc
  · intro h
    have hkeep : snakeFrom none (s.toList ++ []) = s.toList ++ [] :=
      snakeFrom_append_of_not_isUpper h []
    rw [List.append_nil] at hkeep
    rw [snakeCase, snakeChars, hkeep, String.ofList_toList]

/-! ## Where no underscore is put -/

theorem toLower_eq_underscore {c : Char} : c.toLower = '_' ↔ c = '_' :=
  toLower_eq_iff (by decide)

theorem map_toLower_eq_underscore {c : Option Char} :
    c.map Char.toLower = some '_' ↔ c = some '_' := by
  simp [toLower_eq_underscore]

/-- No mark is put behind a character that no word starts after. -/
theorem head?_snakeFrom {previous : Option Char} (h : ∀ next, startsWord previous next = false)
    (text : List Char) : (snakeFrom previous text).head? = text.head?.map Char.toLower := by
  cases text with
  | nil => rfl
  | cons c text =>
      have hmark : wordMark previous c text.head? = [] := by
        rw [wordMark, h]
        exact if_neg fun hmark => Bool.false_ne_true hmark.2
      rw [snakeFrom_cons, hmark]
      rfl

/-- No underscore is put in front of a name. -/
theorem head?_snakeCase (s : String) :
    (snakeCase s).toList.head? = s.toList.head?.map Char.toLower := by
  rw [snakeCase, String.toList_ofList]
  exact head?_snakeFrom (fun _ => rfl) s.toList

theorem getLast?_snakeFrom (previous : Option Char) (text : List Char) :
    (snakeFrom previous text).getLast? = text.getLast?.map Char.toLower := by
  induction text generalizing previous with
  | nil => rfl
  | cons c text ih =>
      rw [snakeFrom_cons, List.getLast?_append, List.getLast?_cons, List.getLast?_cons, ih]
      cases text.getLast? with
      | none => rfl
      | some d => rfl

theorem doubled_cons {c : Char} {text : List Char} :
    ['_', '_'] <:+: c :: text ↔ c = '_' ∧ text.head? = some '_' ∨ ['_', '_'] <:+: text := by
  rw [List.infix_cons_iff, List.cons_prefix_cons]
  cases text with
  | nil => simp
  | cons d text => simp [List.cons_prefix_cons, eq_comm]

/-- A mark stands in front of a letter, so it is not the first of two
underscores. -/
theorem doubled_wordMark {previous next : Option Char} {c : Char} {text : List Char} :
    ['_', '_'] <:+: wordMark previous c next ++ c.toLower :: text ↔
      ['_', '_'] <:+: c.toLower :: text := by
  rw [wordMark]
  split
  · next hmark =>
      have hc : ¬ c.toLower = '_' := by
        rw [toLower_eq_underscore]
        rintro rfl
        exact absurd hmark.1 (by decide)
      rw [List.singleton_append, doubled_cons]
      simp [hc]
  · rw [List.nil_append]

/-- A mark stands behind a letter or a digit, so it is not the second of two
underscores either. -/
theorem doubled_snakeFrom (previous : Option Char) (text : List Char) :
    ['_', '_'] <:+: snakeFrom previous text ↔ ['_', '_'] <:+: text := by
  induction text generalizing previous with
  | nil => rfl
  | cons c text ih =>
      rw [snakeFrom_cons, doubled_wordMark, doubled_cons, doubled_cons, ih, toLower_eq_underscore]
      refine or_congr_left (and_congr_right ?_)
      rintro rfl
      rw [head?_snakeFrom (fun _ => rfl), map_toLower_eq_underscore]

/-- Snake case leaves no capital, keeps exactly the names that have none, so
also its own results, and changes nothing but case and underscores; and it puts
no underscore at either end of a name or next to another one. -/
theorem snakeCase_normal_form (s : String) :
    (∀ c ∈ (snakeCase s).toList, ¬ c.isUpper) ∧
    (snakeCase s = s ↔ ∀ c ∈ s.toList, ¬ c.isUpper) ∧
    snakeCase (snakeCase s) = snakeCase s ∧
    (snakeCase s).toList.filter (· ≠ '_') = (s.toList.filter (· ≠ '_')).map Char.toLower ∧
    ((snakeCase s).toList.head? = some '_' ↔ s.toList.head? = some '_') ∧
    ((snakeCase s).toList.getLast? = some '_' ↔ s.toList.getLast? = some '_') ∧
    (['_', '_'] <:+: (snakeCase s).toList ↔ ['_', '_'] <:+: s.toList) := by
  have hlower : ∀ c ∈ (snakeCase s).toList, ¬ c.isUpper :=
    fun c hc => not_isUpper_of_mem_snakeCase hc
  refine ⟨hlower, snakeCase_eq_self_iff, snakeCase_eq_self_iff.mpr hlower, filter_snakeCase s,
    ?_, ?_, ?_⟩
  · rw [head?_snakeCase, map_toLower_eq_underscore]
  · rw [snakeCase, String.toList_ofList, snakeChars, getLast?_snakeFrom,
      map_toLower_eq_underscore]
  · rw [snakeCase, String.toList_ofList, snakeChars, doubled_snakeFrom]

end Naming

end ProtoSchema
