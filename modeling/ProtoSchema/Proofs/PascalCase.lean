import Mathlib.Logic.Basic
import ProtoSchema.Naming
import ProtoSchema.Proofs.Cutting
import ProtoSchema.Proofs.LetterCase

/-!
# Pascal case is a normal form

Pascal case cuts a name at its underscores, but what comes out can be told
character by character: an underscore is dropped, and a character is raised if
it is the first one or stands behind an underscore. `pascalFrom` says it in this
way, and the rest is read off it. A separator forgets what was in front of it,
so the conversion takes a name apart at any of them.

An enum is declared under the Pascal case of its class name, and it is
referred to by the class name itself, which is in Pascal case already. The two
are the same because the conversion has nothing left to do on its own results:
they have no underscore to cut at, and they do not start with a small letter.
-/

namespace ProtoSchema

namespace Naming

/-! ## One character at a time -/

/-- Pascal case of a text; `start` says whether its first character is
raised. -/
def pascalFrom (start : Bool) : List Char → List Char
  | [] => []
  | c :: text =>
    if c = '_' then pascalFrom true text
    else (if start then c.toUpper else c) :: pascalFrom false text

theorem splitOn_pascalFrom (text : List Char) :
    ∃ word words, Text.splitOn '_' text = word :: words ∧
      pascalFrom true text = capitalize word ++ (words.map capitalize).flatten ∧
      pascalFrom false text = word ++ (words.map capitalize).flatten := by
  induction text with
  | nil => exact ⟨[], [], rfl, rfl, rfl⟩
  | cons c text ih =>
      obtain ⟨word, words, hsplit, htrue, hfalse⟩ := ih
      rw [Text.splitOn, pascalFrom, pascalFrom, hsplit]
      by_cases hc : c = '_'
      · rw [if_pos hc, if_pos hc, if_pos hc]
        exact ⟨[], word :: words, rfl, htrue, htrue⟩
      · rw [if_neg hc, if_neg hc, if_neg hc, hfalse]
        exact ⟨c :: word, words, rfl, rfl, rfl⟩

theorem pascalChars_eq_pascalFrom (text : List Char) : pascalChars text = pascalFrom true text := by
  obtain ⟨word, words, hsplit, htrue, -⟩ := splitOn_pascalFrom text
  rw [pascalChars, hsplit, List.map_cons, List.flatten_cons, htrue]

/-- A character other than a capital that is dropped, or that was not there,
does not come up. -/
theorem notMem_pascalFrom {start : Bool} {text : List Char} {d : Char} (hd : ¬ d.isUpper)
    (h : d = '_' ∨ d ∉ text) : d ∉ pascalFrom start text := by
  induction text generalizing start with
  | nil => exact List.not_mem_nil
  | cons c text ih =>
      have htext : d = '_' ∨ d ∉ text :=
        h.imp_right fun hnot hmem => hnot (List.mem_cons_of_mem c hmem)
      rw [pascalFrom]
      split
      · exact ih htext
      · next hc =>
          have hne : d ≠ c := by
            rintro rfl
            exact h.elim hc fun hnot => hnot List.mem_cons_self
          rw [List.mem_cons, not_or]
          refine ⟨?_, ih htext⟩
          split
          · exact fun heq => hne (eq_of_toUpper_eq hd heq.symm).symm
          · exact hne

theorem underscore_notMem_pascalChars (text : List Char) : '_' ∉ pascalChars text := by
  rw [pascalChars_eq_pascalFrom]
  exact notMem_pascalFrom (by decide) (.inl rfl)

theorem dot_notMem_typeName (fullName : String) : '.' ∉ (typeName fullName).toList := by
  rw [typeName, pascalCase, flatten, String.toList_ofList, String.toList_ofList,
    pascalChars_eq_pascalFrom]
  refine notMem_pascalFrom (by decide) (.inr fun hmem => ?_)
  obtain ⟨c, -, hc⟩ := List.mem_map.mp hmem
  split at hc
  · cases hc
  · next hdot => exact hdot hc

/-! ## Taking names apart -/

theorem pascalFrom_append_underscore (start : Bool) (a b : List Char) :
    pascalFrom start (a ++ '_' :: b) = pascalFrom start a ++ pascalFrom true b := by
  induction a generalizing start with
  | nil => rfl
  | cons c a ih =>
      rw [List.cons_append, pascalFrom, pascalFrom]
      split
      · exact ih true
      · rw [ih false, List.cons_append]

theorem pascalCase_append (a b : String) :
    pascalCase (a ++ "_" ++ b) = pascalCase a ++ pascalCase b := by
  have hchars : (a ++ "_" ++ b).toList = a.toList ++ '_' :: b.toList := by
    rw [String.toList_append, String.toList_append, List.append_assoc]
    rfl
  simp only [pascalCase, pascalChars_eq_pascalFrom, hchars, pascalFrom_append_underscore,
    String.ofList_append]

theorem flatten_append (a b : String) :
    flatten (a ++ "." ++ b) = flatten a ++ "_" ++ flatten b := by
  simp only [flatten, Text.replaceChar, String.toList_append, List.map_append, String.ofList_append]
  rfl

theorem typeName_append (a b : String) :
    typeName (a ++ "." ++ b) = typeName a ++ typeName b := by
  rw [typeName, flatten_append, pascalCase_append]
  rfl

/-! ## The normal form -/

theorem pascalFrom_of_notMem {text : List Char} (h : '_' ∉ text) :
    pascalFrom false text = text := by
  induction text with
  | nil => rfl
  | cons c text ih =>
      obtain ⟨hc, htext⟩ := not_or.mp (List.mem_cons.not.mp h)
      rw [pascalFrom, if_neg (Ne.symm hc), ih htext]
      rfl

theorem pascalChars_eq_self_iff {text : List Char} :
    pascalChars text = text ↔ '_' ∉ text ∧ ∀ c ∈ text.head?, ¬ c.isLower := by
  have hclean : pascalChars text = text → '_' ∉ text :=
    fun h => h ▸ underscore_notMem_pascalChars text
  rw [← and_iff_right_of_imp hclean]
  refine and_congr_right fun hmem => ?_
  rw [pascalChars_eq_pascalFrom]
  cases text with
  | nil => simp [pascalFrom]
  | cons c text =>
      obtain ⟨hc, htext⟩ := not_or.mp (List.mem_cons.not.mp hmem)
      rw [pascalFrom, if_neg (Ne.symm hc), pascalFrom_of_notMem htext]
      simp [toUpper_eq_self_iff]

theorem pascalCase_eq_self_iff {s : String} :
    pascalCase s = s ↔ '_' ∉ s.toList ∧ ∀ c ∈ s.toList.head?, ¬ c.isLower := by
  rw [← pascalChars_eq_self_iff, ← String.toList_inj, pascalCase, String.toList_ofList]

theorem not_isLower_head_pascalFrom (text : List Char) :
    ∀ c ∈ (pascalFrom true text).head?, ¬ c.isLower := by
  induction text with
  | nil => simp [pascalFrom]
  | cons c text ih =>
      rw [pascalFrom]
      split
      · exact ih
      · intro d hd
        obtain rfl := Option.some.inj hd
        exact not_isLower_toUpper c

theorem pascalCase_pascalCase (s : String) : pascalCase (pascalCase s) = pascalCase s := by
  rw [pascalCase_eq_self_iff, pascalCase, String.toList_ofList]
  refine ⟨underscore_notMem_pascalChars s.toList, ?_⟩
  rw [pascalChars_eq_pascalFrom]
  exact not_isLower_head_pascalFrom s.toList

/-- A class name is in Pascal case. -/
theorem pascalCase_typeName (fullName : String) :
    pascalCase (typeName fullName) = typeName fullName :=
  pascalCase_pascalCase (flatten fullName)

/-- Pascal case takes a name apart at its underscores, and class names a full
name at its dots. What it leaves as it is are the names without an underscore
that do not start with a small letter; its own results are among them, and so
are class names, which have no dot either. -/
theorem pascalCase_compositional :
    (∀ a b, pascalCase (a ++ "_" ++ b) = pascalCase a ++ pascalCase b) ∧
    (∀ a b, typeName (a ++ "." ++ b) = typeName a ++ typeName b) ∧
    (∀ s, pascalCase s = s ↔ '_' ∉ s.toList ∧ ∀ c ∈ s.toList.head?, ¬ c.isLower) ∧
    (∀ s, pascalCase (pascalCase s) = pascalCase s) ∧
    (∀ fullName, pascalCase (typeName fullName) = typeName fullName) ∧
    ∀ fullName, '.' ∉ (typeName fullName).toList ∧ '_' ∉ (typeName fullName).toList := by
  refine ⟨pascalCase_append, typeName_append, fun _ => pascalCase_eq_self_iff,
    pascalCase_pascalCase, pascalCase_typeName, fun fullName => ⟨dot_notMem_typeName fullName, ?_⟩⟩
  exact (pascalCase_eq_self_iff.mp (pascalCase_typeName fullName)).1

end Naming

end ProtoSchema
