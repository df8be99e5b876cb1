import ProtoSchema.Config.Parameters
import ProtoSchema.Proofs.Cutting
import ProtoSchema.Proofs.Outcome

/-!
# Parameter strings are read back as they were written

A parameter string is cut at its commas and each piece at its first equals
sign, and everything is trimmed on the way. So entries come back if they have
no comma, if no key has an equals sign, and if there is nothing to trim; the
blanks that matter are only those at the two ends, which joined texts take
from the first and the last of them.
-/

namespace ProtoSchema

namespace Text

/-! ## Trimmed texts -/

theorem dropWhile_eq_self {text : List Char} :
    text.dropWhile isBlank = text ↔ ∀ c ∈ text.head?, ¬ isBlank c := by
  cases text with
  | nil => simp
  | cons c text =>
      constructor
      · intro h b hb
        have hfirst := List.head?_dropWhile_not isBlank (c :: text)
        rw [h, hb] at hfirst
        exact ne_true_of_eq_false hfirst
      · intro h
        rw [List.dropWhile_cons_of_neg (h c rfl)]

/-- A text has nothing to trim if neither of its ends is blank. -/
theorem trimChars_eq_self {text : List Char} :
    trimChars text = text ↔
      (∀ c ∈ text.head?, ¬ isBlank c) ∧ ∀ c ∈ text.getLast?, ¬ isBlank c := by
  rw [← List.head?_reverse, ← dropWhile_eq_self, ← dropWhile_eq_self]
  constructor
  · intro h
    have hstart := List.dropWhile_suffix (l := text) isBlank
    have hstop := List.dropWhile_suffix (l := (text.dropWhile isBlank).reverse) isBlank
    have hlength := congrArg List.length h
    have hle := hstop.length_le
    rw [trimChars, List.length_reverse] at hlength
    rw [List.length_reverse] at hle
    have hfirst : text.dropWhile isBlank = text :=
      hstart.eq_of_length (Nat.le_antisymm hstart.length_le (by omega))
    rw [trimChars, hfirst] at h
    exact ⟨hfirst, List.reverse_eq_iff.mp h⟩
  · rintro ⟨hfirst, hlast⟩
    rw [trimChars, hfirst, hlast, List.reverse_reverse]

theorem trim_eq_self {s : String} : trim s = s ↔ trimChars s.toList = s.toList := by
  rw [trim, ← String.toList_inj, String.toList_ofList]

theorem toList_ne_nil {s : String} (h : s ≠ "") : s.toList ≠ [] :=
  fun hnil => h (String.toList_eq_nil_iff.mp hnil)

/-- The ends of a text are those of its first and its last part. -/
theorem trim_append {a b : String} (ha : a ≠ "") (hb : b ≠ "") (hat : trim a = a)
    (hbt : trim b = b) (between : String) : trim (a ++ between ++ b) = a ++ between ++ b := by
  obtain ⟨hfirst, -⟩ := trimChars_eq_self.mp (trim_eq_self.mp hat)
  obtain ⟨-, hlast⟩ := trimChars_eq_self.mp (trim_eq_self.mp hbt)
  rw [trim_eq_self, trimChars_eq_self, String.toList_append, String.toList_append]
  constructor
  · rw [List.append_assoc, List.head?_append_of_ne_nil _ (toList_ne_nil ha)]
    exact hfirst
  · rw [List.getLast?_append_of_ne_nil _ (toList_ne_nil hb)]
    exact hlast

/-- A text that a list in a parameter string may have between separators. -/
structure IsItem (sep : Char) (s : String) : Prop where
  ne_empty : s ≠ ""
  trim_eq : trim s = s
  sep_notMem : sep ∉ s.toList

theorem intercalate_ne_empty {sep : Char} {between item : String} {items : List String}
    (h : ∀ s ∈ item :: items, IsItem sep s) : between.intercalate (item :: items) ≠ "" := by
  have hne := (h item List.mem_cons_self).ne_empty
  cases items with
  | nil =>
      rw [String.intercalate_singleton]
      exact hne
  | cons next items =>
      rw [String.intercalate_cons_cons, String.append_assoc]
      exact append_ne_empty hne _

theorem trim_intercalate {sep : Char} {between item : String} {items : List String}
    (h : ∀ s ∈ item :: items, IsItem sep s) :
    trim (between.intercalate (item :: items)) = between.intercalate (item :: items) := by
  have hitem := h item List.mem_cons_self
  induction items generalizing item with
  | nil =>
      rw [String.intercalate_singleton]
      exact hitem.trim_eq
  | cons next items ih =>
      have hrest := fun s hs => h s (List.mem_cons_of_mem item hs)
      rw [String.intercalate_cons_cons]
      exact trim_append hitem.ne_empty (intercalate_ne_empty hrest) hitem.trim_eq
        (ih hrest (hrest next List.mem_cons_self)) between

theorem notMem_intercalate {c : Char} {between : String} (hc : c ∉ between.toList)
    {items : List String} (h : ∀ s ∈ items, c ∉ s.toList) :
    c ∉ (between.intercalate items).toList := by
  induction items with
  | nil =>
      rw [String.intercalate_nil]
      exact List.not_mem_nil
  | cons item items ih =>
      have hitem := h item List.mem_cons_self
      have hrest := ih fun s hs => h s (List.mem_cons_of_mem item hs)
      cases items with
      | nil =>
          rw [String.intercalate_singleton]
          exact hitem
      | cons next items =>
          rw [String.intercalate_cons_cons, String.toList_append, String.toList_append,
            List.mem_append, List.mem_append]
          rintro ((hmem | hmem) | hmem)
          · exact hitem hmem
          · exact hc hmem
          · exact hrest hmem

theorem pieces_intercalate {sep : Char} {between : String} (hbetween : between.toList = [sep])
    {items : List String} (hne : items ≠ []) (h : ∀ s ∈ items, sep ∉ s.toList) :
    pieces sep (between.intercalate items) = items := by
  have hpieces : ∀ piece ∈ items.map String.toList, sep ∉ piece := List.forall_mem_map.mpr h
  rw [pieces, String.toList_intercalate, hbetween,
    splitOn_intercalate (fun hnil => hne (List.map_eq_nil_iff.mp hnil)) hpieces, List.map_map]
  exact List.map_id'' (fun s => String.ofList_toList) items

/-! ## Cutting at the first separator -/

theorem cutFirst?_eq_some {sep : Char} {between : String} (hbetween : between.toList = [sep])
    {s a b : String} : cutFirst? sep s = some (a, b) ↔ s = a ++ between ++ b ∧ sep ∉ a.toList := by
  have hjoined : (a ++ between ++ b).toList = a.toList ++ sep :: b.toList := by
    rw [String.toList_append, String.toList_append, hbetween, List.append_assoc,
      List.singleton_append]
  rw [cutFirst?]
  constructor
  · intro h
    obtain ⟨⟨before, after⟩, hcut, hpair⟩ := Option.map_eq_some_iff.mp h
    obtain ⟨rfl, rfl⟩ := Prod.mk.inj hpair
    rw [String.toList_ofList] at hjoined ⊢
    refine ⟨?_, notMem_of_splitFirst? hcut⟩
    rw [← String.toList_inj, hjoined, String.toList_ofList, eq_of_splitFirst? hcut]
  · rintro ⟨rfl, ha⟩
    rw [hjoined, splitFirst?_append ha]
    show some (String.ofList a.toList, String.ofList b.toList) = some (a, b)
    rw [String.ofList_toList, String.ofList_toList]

theorem cutFirst?_eq_none {sep : Char} {s : String} :
    cutFirst? sep s = none ↔ sep ∉ s.toList := by
  rw [cutFirst?, Option.map_eq_none_iff, splitFirst?_eq_none]

end Text

namespace Config

open ProtoSchema.Text

/-! ## Lists -/

theorem trimmedPieces_intercalate {sep : Char} {between : String}
    (hbetween : between.toList = [sep]) {items : List String} (h : ∀ s ∈ items, IsItem sep s) :
    trimmedPieces sep (between.intercalate items) = items := by
  cases items with
  | nil =>
      rw [String.intercalate_nil]
      rfl
  | cons item items =>
      rw [trimmedPieces, pieces_intercalate hbetween (List.cons_ne_nil _ _)
        fun s hs => (h s hs).sep_notMem]
      have htrim : (item :: items).map trim = item :: items :=
        (List.map_congr_left fun s hs => (h s hs).trim_eq).trans (List.map_id _)
      rw [htrim]
      refine List.filter_eq_self.mpr fun s hs => ?_
      rw [Bool.not_eq_true', Bool.eq_false_iff, ne_eq, String.isEmpty_iff]
      exact (h s hs).ne_empty

/-! ## Entries -/

/-- How an entry is written. -/
def Parameter.text (p : Parameter) : String :=
  p.key ++ "=" ++ p.value

/-- An entry that can be told from its text. -/
structure Parameter.IsPlain (p : Parameter) : Prop where
  key : IsItem ',' p.key
  value : IsItem ',' p.value
  equals_notMem : '=' ∉ p.key.toList

theorem Parameter.ofPiece_text {p : Parameter} (h : p.IsPlain) : ofPiece p.text = .ok p := by
  have hequals : "=".toList = ['='] := by decide
  have hcut : cutFirst? '=' p.text = some (p.key, p.value) :=
    (cutFirst?_eq_some hequals).mpr ⟨rfl, h.equals_notMem⟩
  rw [ofPiece, hcut]
  show Except.ok { key := trim p.key, value := trim p.value } = Except.ok p
  rw [h.key.trim_eq, h.value.trim_eq]

theorem Parameter.isItem_text {p : Parameter} (h : p.IsPlain) : IsItem ',' p.text := by
  refine ⟨?_, ?_, ?_⟩
  · rw [text, String.append_assoc]
    exact append_ne_empty h.key.ne_empty _
  · exact trim_append h.key.ne_empty h.value.ne_empty h.key.trim_eq h.value.trim_eq "="
  · rw [text, String.toList_append, String.toList_append, List.mem_append, List.mem_append]
    rintro ((hmem | hmem) | hmem)
    · exact h.key.sep_notMem hmem
    · exact absurd hmem (by decide)
    · exact h.value.sep_notMem hmem

/-- Plain entries are read back in their order. -/
theorem parameters_intercalate {ps : List Parameter} (h : ∀ p ∈ ps, p.IsPlain) :
    parameters (",".intercalate (ps.map Parameter.text)) = .ok ps := by
  have hitems : ∀ s ∈ ps.map Parameter.text, IsItem ',' s :=
    List.forall_mem_map.mpr fun p hp => Parameter.isItem_text (h p hp)
  rw [parameters, trimmedPieces_intercalate (by decide) hitems, mapM_eq_ok,
    List.forall₂_map_left_iff, List.forall₂_same]
  exact fun p hp => Parameter.ofPiece_text (h p hp)

end Config

end ProtoSchema
