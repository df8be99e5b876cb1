import ProtoSchema.Text.Split

/-!
# Texts that can be cut in one way only

A text that is put together from parts can be taken apart again if every part
shows where it ends. `span_unique` is the one reason for this that is used
here: a run of elements of one kind, followed by something that does not start
with that kind, is as long as it can be, so it can be told from the whole. It
is used on characters, for words and for lines, and on lines, for the parts of
a generated module.

Words are made of letters, digits and underscores, so any other character ends
one; lines end where the line feed is. Where the library itself does the
cutting, at separators, pieces without a separator inside are what it finds
between them.
-/

namespace ProtoSchema

/-- A run of elements of one kind and what follows it are determined by the
two together. -/
theorem span_unique {α : Type} {p : α → Prop} {a a' b b' : List α}
    (ha : ∀ x ∈ a, p x) (ha' : ∀ x ∈ a', p x)
    (hb : ∀ x ∈ b.head?, ¬ p x) (hb' : ∀ x ∈ b'.head?, ¬ p x)
    (h : a ++ b = a' ++ b') : a = a' ∧ b = b' := by
  induction a generalizing a' with
  | nil =>
      cases a' with
      | nil => exact ⟨rfl, h⟩
      | cons x a' =>
          rw [List.nil_append] at h
          exact absurd (ha' x List.mem_cons_self) (hb x (by rw [h]; rfl))
  | cons x a ih =>
      cases a' with
      | nil =>
          rw [List.nil_append] at h
          exact absurd (ha x List.mem_cons_self) (hb' x (by rw [← h]; rfl))
      | cons y a' =>
          obtain ⟨rfl, htail⟩ := List.cons.inj h
          obtain ⟨rfl, hrest⟩ := ih (fun z hz => ha z (List.mem_cons_of_mem x hz))
            (fun z hz => ha' z (List.mem_cons_of_mem x hz)) htail
          exact ⟨rfl, hrest⟩

/-- What stands before a separator and what stands behind it are determined by
the whole, if the separator is met there for the first time. -/
theorem cut_unique {α : Type} {sep : α} {a a' b b' : List α} (ha : sep ∉ a) (ha' : sep ∉ a')
    (h : a ++ sep :: b = a' ++ sep :: b') : a = a' ∧ b = b' := by
  have hkind : ∀ {l : List α}, sep ∉ l → ∀ x ∈ l, x ≠ sep := fun hl x hx heq => hl (heq ▸ hx)
  have hends : ∀ {l : List α}, ∀ x ∈ (sep :: l).head?, ¬ x ≠ sep :=
    fun x hx hne => hne (Option.some.inj hx).symm
  obtain ⟨hab, hrest⟩ := span_unique (p := (· ≠ sep)) (hkind ha) (hkind ha') hends hends h
  exact ⟨hab, (List.cons.inj hrest).2⟩

/-- A list starts with an element of a kind and has no other one of it. -/
def IsGroup {α : Type} (p : α → Prop) (l : List α) : Prop :=
  ∃ head body, l = head :: body ∧ p head ∧ ∀ x ∈ body, ¬ p x

theorem head_flatten_groups {α : Type} {p : α → Prop} {groups : List (List α)}
    (h : ∀ g ∈ groups, IsGroup p g) : ∀ x ∈ groups.flatten.head?, p x := by
  cases groups with
  | nil => exact fun x hx => (nomatch hx)
  | cons g groups =>
      obtain ⟨head, body, rfl, hhead, -⟩ := h g List.mem_cons_self
      intro x hx
      rw [← Option.some.inj hx]
      exact hhead

/-- A list of groups is determined by its elements: a group goes on until the
next one starts. -/
theorem groups_unique {α : Type} {p : α → Prop} {groups groups' : List (List α)}
    (h : ∀ g ∈ groups, IsGroup p g) (h' : ∀ g ∈ groups', IsGroup p g)
    (heq : groups.flatten = groups'.flatten) : groups = groups' := by
  induction groups generalizing groups' with
  | nil =>
      cases groups' with
      | nil => rfl
      | cons g' groups' =>
          obtain ⟨head, body, rfl, -⟩ := h' g' List.mem_cons_self
          cases heq
  | cons g groups ih =>
      obtain ⟨head, body, rfl, -, hbody⟩ := h g List.mem_cons_self
      cases groups' with
      | nil => cases heq
      | cons g' groups' =>
          obtain ⟨head', body', rfl, -, hbody'⟩ := h' g' List.mem_cons_self
          have hrest := fun g hg => h g (List.mem_cons_of_mem _ hg)
          have hrest' := fun g hg => h' g (List.mem_cons_of_mem _ hg)
          obtain ⟨rfl, htail⟩ := List.cons.inj heq
          obtain ⟨rfl, hflat⟩ := span_unique (p := (¬ p ·)) hbody hbody'
            (fun x hx hnot => hnot (head_flatten_groups hrest x hx))
            (fun x hx hnot => hnot (head_flatten_groups hrest' x hx)) htail
          rw [ih hrest hrest' hflat]

theorem flatMap_cons_ne_nil {α β : Type} {f : α → List β} {n : Nat} {a : α} {l : List α}
    (h : (f a).length = n + 1) : (a :: l).flatMap f ≠ [] := by
  intro hnil
  rw [List.flatMap_cons, List.append_eq_nil_iff] at hnil
  rw [hnil.1] at h
  cases h

/-- Lists of one length, not zero, are determined by their concatenation. -/
theorem map_eq_of_flatMap {α β : Type} {f : α → List β} {n : Nat}
    (hlength : ∀ a, (f a).length = n + 1) {l l' : List α}
    (h : l.flatMap f = l'.flatMap f) : l.map f = l'.map f := by
  induction l generalizing l' with
  | nil =>
      cases l' with
      | nil => rfl
      | cons b l' => exact absurd h.symm (flatMap_cons_ne_nil (hlength b))
  | cons a l ih =>
      cases l' with
      | nil => exact absurd h (flatMap_cons_ne_nil (hlength a))
      | cons b l' =>
          rw [List.flatMap_cons, List.flatMap_cons] at h
          obtain ⟨hab, hrest⟩ := List.append_inj h (by rw [hlength, hlength])
          rw [List.map_cons, List.map_cons, hab, ih hrest]

/-- If the value of one function on an element determines that of another, the
values on a list determine those of the other as well. -/
theorem map_eq_of_forall {α β γ : Type} {f : α → β} {g : α → γ} {l l' : List α}
    (hfg : ∀ a ∈ l, ∀ b ∈ l', f a = f b → g a = g b) (h : l.map f = l'.map f) :
    l.map g = l'.map g := by
  induction l generalizing l' with
  | nil => rw [List.map_eq_nil_iff.mp h.symm]
  | cons a l ih =>
      cases l' with
      | nil => cases h
      | cons b l' =>
          obtain ⟨hab, h⟩ := List.cons.inj h
          have hhead := hfg a List.mem_cons_self b List.mem_cons_self hab
          have htail := ih (fun x hx y hy =>
            hfg x (List.mem_cons_of_mem a hx) y (List.mem_cons_of_mem b hy)) h
          rw [List.map_cons, List.map_cons, hhead, htail]

theorem map_inj_of_forall {α β : Type} {f : α → β} {l l' : List α}
    (hinj : ∀ a ∈ l, ∀ b ∈ l', f a = f b → a = b) (h : l.map f = l'.map f) : l = l' := by
  have hid := map_eq_of_forall (g := id) hinj h
  rwa [List.map_id, List.map_id] at hid

/-! ## Pieces -/

theorem splitOn_of_notMem {sep : Char} {text : List Char} (h : sep ∉ text) :
    Text.splitOn sep text = [text] := by
  induction text with
  | nil => rfl
  | cons c text ih =>
      have hc : ¬ c = sep := fun heq => h (heq ▸ List.mem_cons_self)
      rw [Text.splitOn, if_neg hc, ih fun htext => h (List.mem_cons_of_mem c htext)]

/-- What stands before the first separator is the first piece. -/
theorem splitOn_append {sep : Char} {piece : List Char} (h : sep ∉ piece) (rest : List Char) :
    Text.splitOn sep (piece ++ sep :: rest) = piece :: Text.splitOn sep rest := by
  induction piece with
  | nil => rw [List.nil_append, Text.splitOn, if_pos rfl]
  | cons c piece ih =>
      have hc : ¬ c = sep := fun heq => h (heq ▸ List.mem_cons_self)
      rw [List.cons_append, Text.splitOn, if_neg hc, ih fun hmem => h (List.mem_cons_of_mem c hmem)]

/-- Pieces that are put together with a separator are what the whole is cut
into. -/
theorem splitOn_intercalate {sep : Char} {pieces : List (List Char)} (hne : pieces ≠ [])
    (h : ∀ piece ∈ pieces, sep ∉ piece) :
    Text.splitOn sep ([sep].intercalate pieces) = pieces := by
  induction pieces with
  | nil => exact absurd rfl hne
  | cons piece pieces ih =>
      have hhead := h piece List.mem_cons_self
      cases pieces with
      | nil => rw [List.intercalate_singleton, splitOn_of_notMem hhead]
      | cons next pieces =>
          rw [List.intercalate_cons_cons, List.append_assoc, List.singleton_append,
            splitOn_append hhead, ih (List.cons_ne_nil _ _)
            fun p hp => h p (List.mem_cons_of_mem piece hp)]

theorem splitFirst?_append {sep : Char} {before : List Char} (h : sep ∉ before)
    (after : List Char) : Text.splitFirst? sep (before ++ sep :: after) = some (before, after) := by
  induction before with
  | nil => rw [List.nil_append, Text.splitFirst?, if_pos rfl]
  | cons c before ih =>
      have hc : ¬ c = sep := fun heq => h (heq ▸ List.mem_cons_self)
      rw [List.cons_append, Text.splitFirst?, if_neg hc,
        ih fun hmem => h (List.mem_cons_of_mem c hmem)]
      rfl

namespace Text

/-- A text that is cut at a separator is put together again with it. -/
theorem eq_of_splitFirst? {sep : Char} {text before after : List Char}
    (h : splitFirst? sep text = some (before, after)) : text = before ++ sep :: after := by
  induction text generalizing before with
  | nil => cases h
  | cons c text ih =>
      rw [splitFirst?] at h
      split at h
      next hc =>
        cases h
        rw [hc]
        rfl
      next hc =>
        obtain ⟨⟨start, stop⟩, hcut, hpair⟩ := Option.map_eq_some_iff.mp h
        cases hpair
        rw [ih hcut]
        rfl

/-- The part before the first separator has none. -/
theorem notMem_of_splitFirst? {sep : Char} {text before after : List Char}
    (h : splitFirst? sep text = some (before, after)) : sep ∉ before := by
  induction text generalizing before with
  | nil => cases h
  | cons c text ih =>
      rw [splitFirst?] at h
      split at h
      next hc =>
        cases h
        exact List.not_mem_nil
      next hc =>
        obtain ⟨⟨start, stop⟩, hcut, hpair⟩ := Option.map_eq_some_iff.mp h
        cases hpair
        intro hmem
        rcases List.mem_cons.mp hmem with heq | hmem
        · exact hc heq.symm
        · exact ih hcut hmem

theorem splitFirst?_eq_none {sep : Char} {text : List Char} :
    splitFirst? sep text = none ↔ sep ∉ text := by
  constructor
  · intro h hmem
    obtain ⟨before, after, rfl, hbefore⟩ := List.eq_append_cons_of_mem hmem
    rw [splitFirst?_append hbefore] at h
    cases h
  · intro h
    cases hcut : splitFirst? sep text with
    | none => rfl
    | some parts => exact absurd (by simp [eq_of_splitFirst? hcut]) h

theorem eq_of_splitLast? {sep : Char} {text before after : List Char}
    (h : splitLast? sep text = some (before, after)) : text = before ++ sep :: after := by
  induction text generalizing before with
  | nil => cases h
  | cons c text ih =>
      rw [splitLast?] at h
      split at h
      next start stop hcut =>
        cases h
        rw [ih hcut]
        rfl
      next hcut =>
        split at h
        next hc =>
          cases h
          rw [hc]
          rfl
        next => cases h

/-- The last separator is the one that no other follows. -/
theorem splitLast?_append {sep : Char} {after : List Char} (h : sep ∉ after)
    (before : List Char) : splitLast? sep (before ++ sep :: after) = some (before, after) := by
  have hnone : splitLast? sep after = none := by
    cases hcut : splitLast? sep after with
    | none => rfl
    | some parts => exact absurd (by simp [eq_of_splitLast? hcut]) h
  induction before with
  | nil =>
      rw [List.nil_append, splitLast?, hnone]
      exact if_pos rfl
  | cons c before ih => rw [List.cons_append, splitLast?, ih]

theorem splitLast?_eq_none {sep : Char} {text : List Char} :
    splitLast? sep text = none ↔ sep ∉ text := by
  constructor
  · intro h hmem
    obtain ⟨after, before, hreverse, hafter⟩ :=
      List.eq_append_cons_of_mem (List.mem_reverse.mpr hmem)
    have htext : text = before.reverse ++ sep :: after.reverse := by
      rw [← List.reverse_reverse text, hreverse]
      simp
    rw [htext, splitLast?_append (by rwa [List.mem_reverse])] at h
    cases h
  · intro h
    cases hcut : splitLast? sep text with
    | none => rfl
    | some parts => exact absurd (by simp [eq_of_splitLast? hcut]) h

/-- The part behind the last separator has none. -/
theorem notMem_of_splitLast? {sep : Char} {text before after : List Char}
    (h : splitLast? sep text = some (before, after)) : sep ∉ after := by
  induction text generalizing before with
  | nil => cases h
  | cons c text ih =>
      rw [splitLast?] at h
      split at h
      next start stop hcut =>
        cases h
        exact ih hcut
      next hcut =>
        split at h
        next =>
          cases h
          exact splitLast?_eq_none.mp hcut
        next => cases h

theorem cutLast?_eq_some {sep : Char} {between : String} (hbetween : between.toList = [sep])
    {s a b : String} : cutLast? sep s = some (a, b) ↔ s = a ++ between ++ b ∧ sep ∉ b.toList := by
  have hjoined : (a ++ between ++ b).toList = a.toList ++ sep :: b.toList := by
    rw [String.toList_append, String.toList_append, hbetween, List.append_assoc,
      List.singleton_append]
  rw [cutLast?]
  constructor
  · intro h
    obtain ⟨⟨before, after⟩, hcut, hpair⟩ := Option.map_eq_some_iff.mp h
    obtain ⟨rfl, rfl⟩ := Prod.mk.inj hpair
    rw [String.toList_ofList, String.toList_ofList] at hjoined
    rw [String.toList_ofList]
    refine ⟨?_, notMem_of_splitLast? hcut⟩
    rw [← String.toList_inj, hjoined, eq_of_splitLast? hcut]
  · rintro ⟨rfl, hb⟩
    rw [hjoined, splitLast?_append hb]
    show some (String.ofList a.toList, String.ofList b.toList) = some (a, b)
    rw [String.ofList_toList, String.ofList_toList]

theorem cutLast?_eq_none {sep : Char} {s : String} :
    cutLast? sep s = none ↔ sep ∉ s.toList := by
  rw [cutLast?, Option.map_eq_none_iff, splitLast?_eq_none]

theorem append_ne_empty {a : String} (h : a ≠ "") (b : String) : a ++ b ≠ "" :=
  fun hempty => h (String.append_eq_empty_iff.mp hempty).1

/-! ## Words -/

def isWordChar (c : Char) : Bool :=
  c.isAlphanum || c = '_'

/-- Whether a text is made of letters, digits and underscores. -/
def isWord (s : String) : Bool :=
  s.toList.all isWordChar

/-- Whether a text ends a word that stands in front of it. -/
def endsWord (s : String) : Bool :=
  s.toList.head?.all fun c => !isWordChar c

theorem endsWord_append {a : String} (ha : endsWord a) (hne : a.toList ≠ []) (b : String) :
    endsWord (a ++ b) := by
  obtain ⟨c, cs, hcs⟩ := List.exists_cons_of_ne_nil hne
  rw [endsWord, hcs] at ha
  rw [endsWord, String.toList_append, hcs]
  exact ha

/-- A word and what ends it are determined by the two together. -/
theorem word_unique {a a' b b' : String} (ha : isWord a) (ha' : isWord a')
    (hb : endsWord b) (hb' : endsWord b') (h : a ++ b = a' ++ b') : a = a' ∧ b = b' := by
  have hchars : a.toList ++ b.toList = a'.toList ++ b'.toList := by
    rw [← String.toList_append, h, String.toList_append]
  have hends : ∀ {s : String}, endsWord s → ∀ c ∈ s.toList.head?, ¬ isWordChar c := by
    intro s hs c hc
    rw [endsWord, hc] at hs
    simpa using hs
  obtain ⟨ha, hb⟩ := span_unique (p := fun c => isWordChar c) (List.all_eq_true.mp ha)
    (List.all_eq_true.mp ha') (hends hb) (hends hb') hchars
  exact ⟨String.toList_inj.mp ha, String.toList_inj.mp hb⟩

theorem notMem_of_isWord {c : Char} (hc : ¬ isWordChar c) {s : String} (hs : isWord s) :
    c ∉ s.toList :=
  fun hmem => hc (List.all_eq_true.mp hs c hmem)

/-! ## Lines -/

/-- The text has no line feed inside. -/
def OneLine (s : String) : Prop :=
  '\n' ∉ s.toList

instance (s : String) : Decidable (OneLine s) :=
  inferInstanceAs (Decidable ('\n' ∉ s.toList))

@[simp]
theorem oneLine_append {a b : String} : OneLine (a ++ b) ↔ OneLine a ∧ OneLine b := by
  rw [OneLine, String.toList_append, List.mem_append, not_or]
  exact Iff.rfl

theorem oneLine_of_isWord {s : String} (h : isWord s) : OneLine s :=
  notMem_of_isWord (by decide) h

theorem toList_join_lines (lines : List String) :
    (String.join (lines.map (· ++ "\n"))).toList =
      lines.flatMap fun line => line.toList ++ ['\n'] := by
  rw [String.toList_join, List.flatMap_map]
  simp only [String.toList_append]
  rfl

/-- Lines are determined by their text. -/
theorem lines_unique {lines lines' : List String} (hl : ∀ line ∈ lines, OneLine line)
    (hl' : ∀ line ∈ lines', OneLine line)
    (h : String.join (lines.map (· ++ "\n")) = String.join (lines'.map (· ++ "\n"))) :
    lines = lines' := by
  have hchars := congrArg String.toList h
  rw [toList_join_lines, toList_join_lines] at hchars
  clear h
  induction lines generalizing lines' with
  | nil =>
      cases lines' with
      | nil => rfl
      | cons line lines' => simp at hchars
  | cons line lines ih =>
      cases lines' with
      | nil => simp at hchars
      | cons line' lines' =>
          simp only [List.flatMap_cons, List.append_assoc, List.singleton_append] at hchars
          obtain ⟨hline, hrest⟩ := cut_unique (hl line List.mem_cons_self)
            (hl' line' List.mem_cons_self) hchars
          obtain rfl := String.toList_inj.mp hline
          rw [ih (fun l hmem => hl l (List.mem_cons_of_mem line hmem))
            (fun l hmem => hl' l (List.mem_cons_of_mem line hmem)) hrest]

end Text

end ProtoSchema
