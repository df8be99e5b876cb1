import ProtoSchema.Proofs.PascalCase
import ProtoSchema.Proofs.SnakeCase

/-!
# From one case to the other and back

Going to snake case and back raises exactly the letters that start a word: the
first one of the name, and those that snake case has put an underscore in front
of. So a name comes back if these are all of its capitals, and no small letter
is among them. Inside the name this is a question about each capital and its
two neighbours, and `CapitalsStartWords` asks it at every place.

The other way round, Pascal case drops the underscores of a name, and snake case
finds them again by the capitals. It does if every word ends in a small letter
or a digit, and not in the capital that it starts with: a word of one letter
runs into the next one.
-/

namespace ProtoSchema.Naming

/-- Every capital of a text but the first character follows a small letter or a
digit, or follows a capital and is followed by a small letter. -/
def CapitalsStartWords (text : List Char) : Prop :=
  ∀ before p c after, text = before ++ p :: c :: after → c.isUpper →
    p.isLower ∨ p.isDigit ∨ p.isUpper ∧ ∃ d ∈ after.head?, d.isLower

/-- Whether a text is a word of at least two small letters and digits that
starts with a letter. -/
def isLowerWord : List Char → Bool
  | c :: d :: rest => c.isLower && (d :: rest).all fun e => e.isLower || e.isDigit
  | _ => false

/-! ## Through snake case -/

theorem startsWord_iff {p : Char} {next : Option Char} :
    startsWord (some p) next ↔ p.isLower ∨ p.isDigit ∨ p.isUpper ∧ ∃ d ∈ next, d.isLower := by
  simp [startsWord, or_assoc, Option.any_eq_true]

theorem capitalsStartWords_of_length_lt {text : List Char} (h : text.length < 2) :
    CapitalsStartWords text := by
  intro before p c after heq
  rw [heq, List.length_append, List.length_cons, List.length_cons] at h
  omega

theorem capitalsStartWords_cons_cons {p c : Char} {text : List Char} :
    CapitalsStartWords (p :: c :: text) ↔
      (c.isUpper → startsWord (some p) text.head?) ∧ CapitalsStartWords (c :: text) := by
  constructor
  · intro h
    refine ⟨fun hc => startsWord_iff.mpr (h [] p c text rfl hc), ?_⟩
    intro before q d after heq
    exact h (p :: before) q d after (congrArg (p :: ·) heq)
  · rintro ⟨hc, htext⟩ before q d after heq
    cases before with
    | nil =>
        simp only [List.nil_append, List.cons.injEq] at heq
        obtain ⟨rfl, rfl, rfl⟩ := heq
        exact fun hd => startsWord_iff.mp (hc hd)
    | cons b before => exact htext before q d after (List.cons.inj heq).2

instance decidableCapitalsStartWords : (text : List Char) → Decidable (CapitalsStartWords text)
  | [] => isTrue (capitalsStartWords_of_length_lt Nat.two_pos)
  | [_] => isTrue (capitalsStartWords_of_length_lt Nat.one_lt_two)
  | _ :: c :: text =>
      have := decidableCapitalsStartWords (c :: text)
      decidable_of_iff _ capitalsStartWords_cons_cons.symm

/-- A character that has been lowered is raised again at the start of the name
and behind a mark. -/
theorem pascalFrom_wordMark {start : Bool} {previous next : Option Char} {c : Char}
    (hc : c ≠ '_') (rest : List Char) :
    pascalFrom start (wordMark previous c next ++ c.toLower :: rest) =
      (if start ∨ c.isUpper ∧ startsWord previous next then c.toUpper else c.toLower) ::
        pascalFrom false rest := by
  have hlower : ¬ c.toLower = '_' := toLower_eq_underscore.not.mpr hc
  rw [wordMark]
  split
  · next hmark =>
      rw [List.singleton_append, pascalFrom, if_pos rfl, pascalFrom, if_neg hlower, if_pos rfl,
        if_pos (.inr hmark), toUpper_toLower]
  · next hmark =>
      rw [List.nil_append, pascalFrom, if_neg hlower, toUpper_toLower]
      simp only [or_iff_left hmark]

/-- Behind the first character, a capital comes back exactly if it starts a
word. -/
theorem pascalFrom_snakeFrom {p : Char} {text : List Char} (h : '_' ∉ text) :
    pascalFrom false (snakeFrom (some p) text) = text ↔ CapitalsStartWords (p :: text) := by
  induction text generalizing p with
  | nil => exact iff_of_true rfl (capitalsStartWords_of_length_lt Nat.one_lt_two)
  | cons c text ih =>
      obtain ⟨hc, htext⟩ := not_or.mp (List.mem_cons.not.mp h)
      rw [capitalsStartWords_cons_cons, ← ih htext, snakeFrom_cons,
        pascalFrom_wordMark (Ne.symm hc), List.cons.injEq]
      refine and_congr_left fun _ => ?_
      split
      · next hmark =>
          obtain ⟨hupper, hstart⟩ := hmark.resolve_left Bool.false_ne_true
          rw [toUpper_eq_self_iff]
          exact iff_of_true (fun hlower => not_isUpper_of_isLower hlower hupper) fun _ => hstart
      · next hmark =>
          rw [toLower_eq_self_iff]
          constructor
          · intro hsmall hupper
            exact absurd hupper hsmall
          · intro hstart hupper
            exact hmark (.inr ⟨hupper, hstart hupper⟩)

theorem pascalCase_snakeCase_eq_self_iff {s : String} (h : '_' ∉ s.toList) :
    pascalCase (snakeCase s) = s ↔
      (∀ c ∈ s.toList.head?, ¬ c.isLower) ∧ CapitalsStartWords s.toList := by
  rw [← String.toList_inj, pascalCase, snakeCase, String.toList_ofList, String.toList_ofList,
    pascalChars_eq_pascalFrom, snakeChars]
  cases hs : s.toList with
  | nil =>
      refine iff_of_true rfl ⟨?_, capitalsStartWords_of_length_lt Nat.two_pos⟩
      intro c hc
      cases hc
  | cons c text =>
      rw [hs] at h
      obtain ⟨hc, htext⟩ := not_or.mp (List.mem_cons.not.mp h)
      rw [snakeFrom_cons, pascalFrom_wordMark (Ne.symm hc), if_pos (.inl rfl), List.cons.injEq,
        toUpper_eq_self_iff, pascalFrom_snakeFrom htext]
      simp

/-! ## Through Pascal case -/

theorem exists_of_isLowerWord {word : List Char} (h : isLowerWord word) :
    ∃ c tail, word = c :: tail ∧ c.isLower ∧ tail ≠ [] ∧ ∀ d ∈ tail, d.isLower ∨ d.isDigit := by
  cases word with
  | nil => exact absurd h Bool.false_ne_true
  | cons c tail =>
      cases tail with
      | nil => exact absurd h Bool.false_ne_true
      | cons d rest =>
          simp only [isLowerWord, Bool.and_eq_true, List.all_eq_true, Bool.or_eq_true] at h
          exact ⟨c, d :: rest, rfl, h.1, List.cons_ne_nil d rest, h.2⟩

theorem underscore_notMem_of_isLowerWord {word : List Char} (h : isLowerWord word) :
    '_' ∉ word := by
  obtain ⟨c, tail, rfl, hc, -, htail⟩ := exists_of_isLowerWord h
  intro hmem
  rcases List.mem_cons.mp hmem with rfl | hmem
  · exact absurd hc (by decide)
  · exact absurd (htail '_' hmem) (by decide)

theorem wordMark_none (c : Char) (next : Option Char) : wordMark none c next = [] :=
  if_neg fun hmark => Bool.false_ne_true hmark.2

/-- A word that has got its capital is found again, and what follows it starts
a new word. -/
theorem snakeFrom_capitalize {previous : Option Char} {mark word : List Char}
    (hmark : ∀ c next, c.isUpper → wordMark previous c next = mark) (h : isLowerWord word) :
    ∃ last, (last.isLower ∨ last.isDigit) ∧ ∀ rest,
      snakeFrom previous (capitalize word ++ rest) =
        mark ++ word ++ snakeFrom (some last) rest := by
  obtain ⟨c, tail, rfl, hc, hne, htail⟩ := exists_of_isLowerWord h
  have hupper : c.toUpper.isUpper := isUpper_toUpper (isAlpha_of_isLower hc)
  have hsmall : ∀ d ∈ tail, ¬ d.isUpper := by
    intro d hd
    rcases htail d hd with hlower | hdigit
    · exact not_isUpper_of_isLower hlower
    · exact fun hupper => not_isDigit_of_isAlpha (isAlpha_of_isUpper hupper) hdigit
  refine ⟨tail.getLast hne, htail _ (List.getLast_mem hne), fun rest => ?_⟩
  rw [capitalize, List.cons_append, snakeFrom_cons, hmark _ _ hupper,
    snakeFrom_append_of_not_isUpper hsmall, List.getLast?_eq_some_getLast hne,
    toLower_toUpper, toLower_of_not_isUpper (not_isUpper_of_isLower hc), List.append_assoc]
  rfl

theorem snakeFrom_capitalize_words {previous : Option Char} {mark : List Char}
    (hmark : ∀ c next, c.isUpper → wordMark previous c next = mark) {words : List (List Char)}
    (hne : words ≠ []) (h : ∀ word ∈ words, isLowerWord word) :
    snakeFrom previous (words.map capitalize).flatten = mark ++ ['_'].intercalate words := by
  induction words generalizing previous mark with
  | nil => exact absurd rfl hne
  | cons word words ih =>
      obtain ⟨hword, hwords⟩ := List.forall_mem_cons.mp h
      obtain ⟨last, hlast, hsnake⟩ := snakeFrom_capitalize hmark hword
      rw [List.map_cons, List.flatten_cons, hsnake]
      cases words with
      | nil =>
          rw [List.intercalate_singleton]
          exact List.append_nil _
      | cons next words =>
          have hmark : ∀ c next, c.isUpper → wordMark (some last) c next = ['_'] := by
            intro c next hc
            refine if_pos ⟨hc, startsWord_iff.mpr ?_⟩
            exact hlast.imp_right Or.inl
          rw [ih hmark (List.cons_ne_nil next words) hwords, List.intercalate_cons_cons,
            List.append_assoc, List.append_assoc]

theorem snakeCase_pascalCase_intercalate {words : List String} (hne : words ≠ [])
    (h : ∀ word ∈ words, isLowerWord word.toList) :
    snakeCase (pascalCase ("_".intercalate words)) = "_".intercalate words := by
  have hlists : ∀ word ∈ words.map String.toList, isLowerWord word := by
    intro word hword
    obtain ⟨s, hs, rfl⟩ := List.mem_map.mp hword
    exact h s hs
  have hlists_ne : words.map String.toList ≠ [] := List.map_eq_nil_iff.not.mpr hne
  have hsplit := splitOn_intercalate hlists_ne
    fun word hword => underscore_notMem_of_isLowerWord (hlists word hword)
  apply String.toList_inj.mp
  rw [snakeCase, pascalCase, String.toList_ofList, String.toList_ofList, String.toList_intercalate,
    pascalChars, snakeChars]
  show snakeFrom none ((Text.splitOn '_' (['_'].intercalate _)).map capitalize).flatten = _
  rw [hsplit, snakeFrom_capitalize_words (fun c next _ => wordMark_none c next) hlists_ne hlists]
  rfl

/-- The two conversions undo each other where they can. A name without
underscores comes back from snake case exactly if it does not start with a small
letter and all its other capitals start words, and words of at least two
characters that are joined by underscores come back from Pascal case. -/
theorem case_round_trips :
    (∀ s, '_' ∉ s.toList →
      (pascalCase (snakeCase s) = s ↔
        (∀ c ∈ s.toList.head?, ¬ c.isLower) ∧ CapitalsStartWords s.toList)) ∧
    ∀ words : List String, words ≠ [] → (∀ word ∈ words, isLowerWord word.toList) →
      snakeCase (pascalCase ("_".intercalate words)) = "_".intercalate words :=
  ⟨fun _ h => pascalCase_snakeCase_eq_self_iff h,
    fun _ hne h => snakeCase_pascalCase_intercalate hne h⟩

/-- An article of one letter, a digit in front of a capital, and an acronym that
is not at the end of its word. -/
theorem case_round_trips_server :
    '_' ∉ "AServerV2Id".toList ∧ CapitalsStartWords "AServerV2Id".toList ∧
    pascalCase (snakeCase "AServerV2Id") = "AServerV2Id" ∧
    '_' ∉ "HTTPServer".toList ∧ ¬ CapitalsStartWords "HTTPServer".toList ∧
    pascalCase (snakeCase "HTTPServer") ≠ "HTTPServer" ∧
    (∀ word ∈ ["get", "v2", "metrics"], isLowerWord word.toList) ∧
    snakeCase (pascalCase ("_".intercalate ["get", "v2", "metrics"])) =
      "_".intercalate ["get", "v2", "metrics"] := by
  have hserver : '_' ∉ "AServerV2Id".toList := by decide
  have hfirst : ∀ c ∈ "AServerV2Id".toList.head?, ¬ c.isLower := by
    intro c hc
    obtain rfl : 'A' = c := Option.some.inj hc
    decide
  have hstarts : CapitalsStartWords "AServerV2Id".toList := by decide
  have hacronym : '_' ∉ "HTTPServer".toList := by decide
  have hinside : ¬ CapitalsStartWords "HTTPServer".toList := by decide
  have hwords : ∀ word ∈ ["get", "v2", "metrics"], isLowerWord word.toList := by decide
  obtain ⟨hsnake, hpascal⟩ := case_round_trips
  exact ⟨hserver, hstarts, (hsnake _ hserver).mpr ⟨hfirst, hstarts⟩, hacronym, hinside,
    fun h => hinside ((hsnake _ hacronym).mp h).2, hwords,
    hpascal _ (List.cons_ne_nil _ _) hwords⟩

/-! Words of one letter run together. -/

example : snakeCase (pascalCase "a_b") = "ab" := by
  decide

end ProtoSchema.Naming
