import ProtoSchema.Proofs.SnakeCase
import ProtoSchema.Proofs.TwoRoles

/-!
# Names that stay identifiers

An identifier is a word that does not start with a digit, and a full name is
identifiers with dots in between. Snake case lowers letters and puts
underscores between them, so it makes identifiers of identifiers and of nothing
else. To flatten a full name is to join its pieces with underscores, so this
gives an identifier whatever the full name is. A class name has in addition
lost its underscores and got a capital in front, if the full name starts with a
letter.

What none of the conversions does is to take a dot out of a name that stands by
itself. Hence the names that are made from a method are identifiers exactly if
the method has no dot in its name.
-/

namespace ProtoSchema

/-! ## Pieces of a full name -/

namespace Text

theorem splitOn_ne_nil (sep : Char) (text : List Char) : splitOn sep text ≠ [] := by
  cases text with
  | nil => exact List.cons_ne_nil _ _
  | cons c text =>
      rw [splitOn]
      split
      · exact List.cons_ne_nil _ _
      · split <;> exact List.cons_ne_nil _ _

/-- A separator ends the pieces in front of it and starts those behind it. -/
theorem splitOn_append_cons (sep : Char) (a b : List Char) :
    splitOn sep (a ++ sep :: b) = splitOn sep a ++ splitOn sep b := by
  induction a with
  | nil => exact splitOn_append List.not_mem_nil b
  | cons c a ih =>
      rw [List.cons_append, splitOn, splitOn, ih]
      split
      · rfl
      · obtain ⟨piece, pieces, hsplit⟩ := List.exists_cons_of_ne_nil (splitOn_ne_nil sep a)
        rw [hsplit]
        rfl

theorem pieces_dotted (a b : String) :
    pieces '.' (a ++ "." ++ b) = pieces '.' a ++ pieces '.' b := by
  have hchars : (a ++ "." ++ b).toList = a.toList ++ '.' :: b.toList := by
    rw [String.toList_append, String.toList_append, List.append_assoc]
    rfl
  rw [pieces, hchars, splitOn_append_cons, List.map_append]
  rfl

/-- To replace a separator is to join the pieces with another one. -/
theorem replaceChar_eq_intercalate (old new : Char) (text : List Char) :
    replaceChar old new text = [new].intercalate (splitOn old text) := by
  induction text with
  | nil => rfl
  | cons c text ih =>
      rw [replaceChar] at ih
      rw [replaceChar, List.map_cons, ih, splitOn]
      obtain ⟨piece, pieces, hsplit⟩ := List.exists_cons_of_ne_nil (splitOn_ne_nil old text)
      by_cases hc : c = old
      · rw [if_pos hc, if_pos hc, List.intercalate_cons_of_ne_nil (splitOn_ne_nil old text)]
        rfl
      · rw [if_neg hc, if_neg hc, hsplit]
        cases pieces with
        | nil => rw [List.intercalate_singleton, List.intercalate_singleton]
        | cons next pieces =>
            rw [List.intercalate_cons_cons, List.intercalate_cons_cons]
            rfl

/-! ## Words -/

theorem isWord_append {a b : String} : isWord (a ++ b) ↔ isWord a ∧ isWord b := by
  rw [isWord, isWord, isWord, String.toList_append, List.all_append, Bool.and_eq_true]

theorem isWordChar_of_isAlpha {c : Char} (h : c.isAlpha) : isWordChar c := by
  rw [isWordChar, Char.isAlphanum, h]
  rfl

end Text

theorem isDigit_toLower (c : Char) : c.toLower.isDigit = c.isDigit := by
  by_cases hc : c.isUpper
  · have halpha := isAlpha_of_isUpper hc
    have hlower : c.toLower.isAlpha := by rwa [isAlpha_toLower]
    rw [Bool.eq_false_iff.mpr (not_isDigit_of_isAlpha halpha),
      Bool.eq_false_iff.mpr (not_isDigit_of_isAlpha hlower)]
  · rw [toLower_of_not_isUpper hc]

theorem isWordChar_toLower (c : Char) : Text.isWordChar c.toLower = Text.isWordChar c := by
  have hunder := toLower_eq_iff (c := c) (d := '_') (by decide)
  simp only [Text.isWordChar, Char.isAlphanum, isAlpha_toLower, isDigit_toLower, hunder]

theorem isWordChar_toUpper {c : Char} (h : Text.isWordChar c) : Text.isWordChar c.toUpper := by
  by_cases hc : c.isLower
  · have hupper := isUpper_toUpper (isAlpha_of_isLower hc)
    exact Text.isWordChar_of_isAlpha (isAlpha_of_isUpper hupper)
  · rwa [toUpper_of_not_isLower hc]

/-! ## Identifiers -/

namespace Naming

theorem isIdentifier_iff {s : String} :
    isIdentifier s ↔ Text.isWord s ∧ s.toList.head?.any (!·.isDigit) := by
  rw [isIdentifier, Text.isWord]
  cases s.toList with
  | nil => simp
  | cons c cs =>
      have hstart : (c.isAlpha || c = '_') = true ↔ Text.isWordChar c ∧ ¬ c.isDigit := by
        rw [Text.isWordChar, Char.isAlphanum]
        by_cases hc : c.isAlpha
        · simp [hc, not_isDigit_of_isAlpha hc]
        · by_cases hunder : c = '_'
          · simp [hunder]
          · simp [hc, hunder]
      rw [Bool.and_eq_true, hstart, List.all_cons, Bool.and_eq_true, and_right_comm]
      simp [Text.isWordChar]

theorem head?_append {a : String} (ha : a ≠ "") (b : String) :
    (a ++ b).toList.head? = a.toList.head? := by
  rw [String.toList_append, List.head?_append_of_ne_nil]
  exact fun hnil => ha (String.toList_eq_nil_iff.mp hnil)

theorem ne_empty_of_isIdentifier {s : String} (h : isIdentifier s) : s ≠ "" := by
  rintro rfl
  exact absurd h (by decide)

theorem isIdentifier_append {a b : String} (ha : isIdentifier a) (hb : Text.isWord b) :
    isIdentifier (a ++ b) := by
  rw [isIdentifier_iff, head?_append (ne_empty_of_isIdentifier ha), Text.isWord_append]
  obtain ⟨hword, hstart⟩ := isIdentifier_iff.mp ha
  exact ⟨⟨hword, hb⟩, hstart⟩

theorem dot_notMem_of_isWord {s : String} (h : Text.isWord s) : '.' ∉ s.toList :=
  Text.notMem_of_isWord (by decide) h

/-! ## Snake case -/

theorem isWord_snakeCase (s : String) : Text.isWord (snakeCase s) ↔ Text.isWord s := by
  rw [Text.isWord, Text.isWord, List.all_eq_true, List.all_eq_true, snakeCase,
    String.toList_ofList, snakeChars]
  constructor
  · intro h c hc
    rw [← isWordChar_toLower]
    exact h _ (toLower_mem_snakeFrom hc)
  · intro h c hc
    rcases mem_snakeFrom hc with rfl | ⟨b, hb, rfl⟩
    · decide
    · rw [isWordChar_toLower]
      exact h b hb

/-- A name is an identifier in snake case exactly if it was one before. -/
theorem isIdentifier_snakeCase (s : String) : isIdentifier (snakeCase s) ↔ isIdentifier s := by
  rw [isIdentifier_iff, isIdentifier_iff, isWord_snakeCase, head?_snakeCase, Option.any_map]
  simp only [isDigit_toLower]

/-! ## Full names -/

/-- Whether a text is made of identifiers with dots in between. -/
def isFullName (s : String) : Bool :=
  (Text.pieces '.' s).all isIdentifier

theorem isFullName_dotted {a b : String} :
    isFullName (a ++ "." ++ b) ↔ isFullName a ∧ isFullName b := by
  rw [isFullName, Text.pieces_dotted, List.all_append, Bool.and_eq_true]
  rfl

/-- A full name without dots is one identifier. -/
theorem isIdentifier_iff_of_isFullName {s : String} (h : isFullName s) :
    isIdentifier s ↔ '.' ∉ s.toList := by
  constructor
  · exact fun hs => dot_notMem_of_isWord (isIdentifier_iff.mp hs).1
  · intro hdot
    refine List.all_eq_true.mp h s ?_
    rw [Text.pieces, splitOn_of_notMem hdot, List.map_singleton, String.ofList_toList]
    exact List.mem_singleton_self s

theorem isWord_iff_of_isFullName {s : String} (h : isFullName s) :
    Text.isWord s ↔ '.' ∉ s.toList :=
  ⟨dot_notMem_of_isWord,
    fun hdot => (isIdentifier_iff.mp ((isIdentifier_iff_of_isFullName h).mpr hdot)).1⟩

theorem flatten_eq_intercalate (s : String) : flatten s = "_".intercalate (Text.pieces '.' s) := by
  have hchars : (Text.pieces '.' s).map String.toList = Text.splitOn '.' s.toList := by
    rw [Text.pieces, List.map_map]
    refine (List.map_congr_left fun piece _ => ?_).trans (List.map_id _)
    exact String.toList_ofList
  rw [← String.toList_inj, String.toList_intercalate, hchars, flatten, String.toList_ofList,
    Text.replaceChar_eq_intercalate]
  rfl

theorem isIdentifier_intercalate {names : List String} (hne : names ≠ [])
    (h : ∀ name ∈ names, isIdentifier name) : isIdentifier ("_".intercalate names) := by
  induction names with
  | nil => exact absurd rfl hne
  | cons name names ih =>
      have hname := h name List.mem_cons_self
      cases names with
      | nil => rwa [String.intercalate_singleton]
      | cons next names =>
          have hrest := ih (List.cons_ne_nil _ _) fun n hn => h n (List.mem_cons_of_mem name hn)
          rw [String.intercalate_cons_cons]
          exact isIdentifier_append (isIdentifier_append hname (by decide))
            (isIdentifier_iff.mp hrest).1

theorem isIdentifier_flatten {s : String} (h : isFullName s) : isIdentifier (flatten s) := by
  rw [flatten_eq_intercalate]
  refine isIdentifier_intercalate ?_ (List.all_eq_true.mp h)
  rw [Text.pieces]
  exact fun hnil => Text.splitOn_ne_nil _ _ (List.map_eq_nil_iff.mp hnil)

/-! ## Class names -/

/-- The text is an identifier that starts with a capital and has no
underscores. -/
structure IsClassName (name : String) : Prop where
  identifier : isIdentifier name
  capital : name.toList.head?.any Char.isUpper
  noUnderscore : '_' ∉ name.toList

/-- A word that starts with a capital does not start with a digit. -/
theorem isClassName_of_isWord {name : String} (hword : Text.isWord name)
    (hcapital : name.toList.head?.any Char.isUpper) (hunder : '_' ∉ name.toList) :
    IsClassName name := by
  refine ⟨isIdentifier_iff.mpr ⟨hword, ?_⟩, hcapital, hunder⟩
  obtain ⟨c, hc, hupper⟩ := (Option.any_eq_true _ _).mp hcapital
  have hdigit := not_isDigit_of_isAlpha (isAlpha_of_isUpper hupper)
  rw [hc, Option.any_some, Bool.eq_false_iff.mpr hdigit]
  rfl

theorem mem_of_mem_letters {start : Bool} {text : List Char} {x : Char × Bool}
    (h : x ∈ letters start text) : x.1 ∈ text ∧ x.1 ≠ '.' := by
  induction text generalizing start with
  | nil => cases h
  | cons c text ih =>
      rw [letters] at h
      split at h
      · exact (ih h).imp_left (List.mem_cons_of_mem c)
      · next hc =>
          rcases List.mem_cons.mp h with rfl | h
          · exact ⟨List.mem_cons_self, fun hdot => hc (.inl hdot)⟩
          · exact (ih h).imp_left (List.mem_cons_of_mem c)

/-- The characters of a full name other than its dots can stand in a word. -/
theorem isWordChar_of_mem {s : String} (h : isFullName s) {c : Char} (hc : c ∈ s.toList)
    (hdot : c ≠ '.') : Text.isWordChar c := by
  have hword := (isIdentifier_iff.mp (isIdentifier_flatten h)).1
  rw [flatten, Text.isWord, String.toList_ofList, Text.replaceChar, List.all_map,
    List.all_eq_true] at hword
  have hchar := hword c hc
  rwa [Function.comp_apply, if_neg hdot] at hchar

theorem isWord_typeName {s : String} (h : isFullName s) : Text.isWord (typeName s) := by
  rw [Text.isWord, toList_typeName, List.all_map, List.all_eq_true]
  rintro ⟨c, isStart⟩ hx
  obtain ⟨hmem, hdot⟩ := mem_of_mem_letters hx
  have hc := isWordChar_of_mem h hmem hdot
  cases isStart with
  | true => exact isWordChar_toUpper hc
  | false => exact hc

/-- The first letter of a full name starts a word. -/
theorem capital_typeName {s : String} (h : s.toList.head?.any Char.isAlpha) :
    (typeName s).toList.head?.any Char.isUpper := by
  rw [toList_typeName]
  cases hs : s.toList with
  | nil =>
      rw [hs] at h
      exact absurd h Bool.false_ne_true
  | cons c text =>
      rw [hs, List.head?_cons, Option.any_some] at h
      have hsep : ¬ (c = '.' ∨ c = '_') := by
        rintro (rfl | rfl)
        · exact absurd h (by decide)
        · exact absurd h (by decide)
      rw [letters, if_neg hsep, List.map_cons, List.head?_cons, Option.any_some, raised]
      exact isUpper_toUpper h

theorem isClassName_typeName {s : String} (h : isFullName s)
    (hletter : s.toList.head?.any Char.isAlpha) : IsClassName (typeName s) := by
  refine isClassName_of_isWord (isWord_typeName h) (capital_typeName hletter) ?_
  rw [typeName, pascalCase, String.toList_ofList]
  exact underscore_notMem_pascalChars _

theorem isClassName_inputTypeName {s : String} (h : isFullName s)
    (hletter : s.toList.head?.any Char.isAlpha) : IsClassName (inputTypeName s) := by
  obtain ⟨hid, hcapital, hunder⟩ := isClassName_typeName h hletter
  refine isClassName_of_isWord ?_ ?_ ?_
  · exact Text.isWord_append.mpr ⟨isWord_typeName h, by decide⟩
  · rwa [inputTypeName, head?_append (ne_empty_of_isIdentifier hid)]
  · rw [inputTypeName, String.toList_append, List.mem_append, not_or]
    exact ⟨hunder, by decide⟩

/-! ## Operations, resolvers and handlers -/

theorem isIdentifier_operationName {package method : String}
    (hpackage : package ≠ "" → isFullName package) (h : isFullName method) :
    isIdentifier (operationName package method) ↔ '.' ∉ method.toList := by
  rw [operationName]
  split
  · rw [isIdentifier_snakeCase, isIdentifier_iff_of_isFullName h]
  · next hne =>
      have hflat := isIdentifier_flatten (hpackage fun he => hne (String.isEmpty_iff.mpr he))
      rw [← isWord_iff_of_isFullName h, ← isWord_snakeCase]
      constructor
      · exact fun hid => (Text.isWord_append.mp (isIdentifier_iff.mp hid).1).2
      · exact isIdentifier_append (isIdentifier_append hflat (by decide))

theorem isIdentifier_resolverName (operation : String) :
    isIdentifier (resolverName operation) ↔ Text.isWord operation :=
  ⟨fun hid => (Text.isWord_append.mp (isIdentifier_iff.mp hid).1).2,
    isIdentifier_append (by decide)⟩

theorem isIdentifier_handlerName {method : String} (h : isFullName method) :
    isIdentifier (handlerName method) ↔ '.' ∉ method.toList := by
  constructor
  · intro hid
    have hword := (Text.isWord_append.mp (isIdentifier_iff.mp hid).1).1
    exact dot_notMem_of_isWord ((isWord_snakeCase method).mp hword)
  · intro hdot
    have hid := (isIdentifier_iff_of_isFullName h).mpr hdot
    exact isIdentifier_append ((isIdentifier_snakeCase method).mpr hid) (by decide)

theorem not_isUpper_of_mem_handlerName {method : String} {c : Char}
    (h : c ∈ (handlerName method).toList) : ¬ c.isUpper := by
  rw [handlerName, String.toList_append, List.mem_append] at h
  rcases h with h | h
  · exact not_isUpper_of_mem_snakeCase h
  · have himpl : "_impl".toList = ['_', 'i', 'm', 'p', 'l'] := rfl
    rw [himpl] at h
    simp only [List.mem_cons, List.not_mem_nil, or_false] at h
    rcases h with rfl | rfl | rfl | rfl | rfl <;> decide

end Naming

end ProtoSchema
