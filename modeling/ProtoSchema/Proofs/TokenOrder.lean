import Mathlib.Data.List.Basic
import ProtoSchema.Extension.Lexer

/-!
# Tokens are cut from top to bottom

The lexer only goes forward: its cursor never goes back a row, and it counts the
tokens. So a token that is cut later has a greater position, and a later keyword
`class` is on no earlier row. Other rows are left out on purpose. The marks at
the end of a source are on the row on which it is said to end, which may be the
one before that of the cursor.
-/

namespace ProtoSchema.Extension

/-- Whether the token is the keyword `class`. -/
def Token.isClass (t : Token) : Bool :=
  t.kind = .name "class"

/-- The lines of the keywords `class`, counted from one. -/
def keywordLines (ts : List Token) : List Nat :=
  (ts.filter Token.isClass).map fun t => t.extent.row + 1

theorem keywordLines_append (ts us : List Token) :
    keywordLines (ts ++ us) = keywordLines ts ++ keywordLines us := by
  simp [keywordLines]

/-- What is true of a token and any later one. -/
structure Token.IsBefore (t u : Token) : Prop where
  index : t.index < u.index
  row : t.isClass → u.isClass → t.extent.row ≤ u.extent.row

namespace Lexer

/-- The lexer may get from one cursor to the other. -/
structure Cursor.Reaches (c c' : Cursor) : Prop where
  count : c.count ≤ c'.count
  row : c.row ≤ c'.row

/-- Whether the token may be cut at the cursor or behind it. -/
structure Cursor.Cuts (c : Cursor) (t : Token) : Prop where
  index : c.count ≤ t.index
  row : t.isClass → c.row ≤ t.extent.row

/-- Tokens are cut one after the other, the first one at the cursor or behind
it. -/
def Follows (c : Cursor) (ts : List Token) : Prop :=
  (∀ t ∈ ts, c.Cuts t) ∧ ts.Pairwise Token.IsBefore

theorem Cursor.Reaches.refl (c : Cursor) : c.Reaches c :=
  ⟨Nat.le_refl _, Nat.le_refl _⟩

theorem Cursor.Reaches.trans {c c' c'' : Cursor} (h : c.Reaches c') (h' : c'.Reaches c'') :
    c.Reaches c'' :=
  ⟨Nat.le_trans h.count h'.count, Nat.le_trans h.row h'.row⟩

namespace Follows

variable {c c' : Cursor} {t : Token} {ts : List Token}

theorem nil (c : Cursor) : Follows c [] :=
  ⟨fun _ ht => absurd ht List.not_mem_nil, List.Pairwise.nil⟩

theorem of_reaches (hts : Follows c' ts) (h : c.Reaches c') : Follows c ts := by
  refine ⟨fun t ht => ⟨?_, fun hclass => ?_⟩, hts.2⟩
  · exact Nat.le_trans h.count (hts.1 t ht).index
  · exact Nat.le_trans h.row ((hts.1 t ht).row hclass)

/-- A token at the cursor in front of those behind another cursor. -/
theorem cons (hts : Follows c' ts) (hindex : t.index = c.count) (hrow : t.extent.row = c.row)
    (hcount : c.count < c'.count) (hc : c.row ≤ c'.row) : Follows c (t :: ts) := by
  refine ⟨fun u hu => ?_, List.pairwise_cons.mpr ⟨fun u hu => ⟨?_, fun _ hclass => ?_⟩, hts.2⟩⟩
  · rcases List.mem_cons.mp hu with rfl | hu
    · exact ⟨Nat.le_of_eq hindex.symm, fun _ => Nat.le_of_eq hrow.symm⟩
    · exact (hts.of_reaches ⟨Nat.le_of_lt hcount, hc⟩).1 u hu
  · have hle := (hts.1 u hu).index
    omega
  · have hle := (hts.1 u hu).row hclass
    omega

/-- Marks that are counted from the cursor on, in front of what is behind
another cursor. -/
theorem append {marks : List Token} {n : Nat} (hts : Follows c' ts)
    (hclass : ∀ t ∈ marks, ¬ t.isClass) (hindex : marks.map Token.index = List.range' c.count n)
    (hcount : c'.count = c.count + n) (hc : c.row ≤ c'.row) : Follows c (marks ++ ts) := by
  have hbounds : ∀ t ∈ marks, c.count ≤ t.index ∧ t.index < c.count + n := by
    intro t ht
    exact List.mem_range'_1.mp (hindex ▸ List.mem_map_of_mem ht)
  have hmarks : marks.Pairwise Token.IsBefore := by
    have hlt : (marks.map Token.index).Pairwise (· < ·) := hindex ▸ List.pairwise_lt_range'
    refine (List.pairwise_map.mp hlt).imp_of_mem fun ht _ h => ⟨h, fun h => ?_⟩
    exact absurd h (hclass _ ht)
  have hbehind : Follows c ts := hts.of_reaches ⟨by omega, hc⟩
  refine ⟨fun t ht => ?_, List.pairwise_append.mpr ⟨hmarks, hts.2, fun t ht u hu => ?_⟩⟩
  · rcases List.mem_append.mp ht with ht | ht
    · exact ⟨(hbounds t ht).1, fun h => absurd h (hclass t ht)⟩
    · exact hbehind.1 t ht
  · have hlt := (hbounds t ht).2
    have hle := (hts.1 u hu).index
    exact ⟨by omega, fun h => absurd h (hclass t ht)⟩

theorem of_marks {marks : List Token} {n : Nat} (hclass : ∀ t ∈ marks, ¬ t.isClass)
    (hindex : marks.map Token.index = List.range' c.count n) : Follows c marks := by
  have hnil : Follows { c with count := c.count + n } [] := nil _
  have happend := hnil.append hclass hindex rfl (Nat.le_refl _)
  rwa [List.append_nil] at happend

end Follows

/-! ## Steps of the lexer -/

theorem reaches_advance (c : Cursor) (n : Nat) : c.Reaches (c.advance n) :=
  ⟨Nat.le_refl _, Nat.le_refl _⟩

theorem reaches_nextLine (c : Cursor) : c.Reaches c.nextLine :=
  ⟨Nat.le_refl _, Nat.le_succ _⟩

theorem reaches_addTrivia {c stop : Cursor} (h : c.Reaches stop) (kind : TriviaKind) :
    c.Reaches (c.addTrivia stop kind) :=
  ⟨h.count, h.row⟩

theorem reaches_advanceOver (c : Cursor) (piece : List Char) :
    c.Reaches (c.advanceOver piece) := by
  induction piece generalizing c with
  | nil => exact .refl c
  | cons ch piece ih =>
      rw [Cursor.advanceOver, List.foldl_cons]
      split
      · exact (reaches_nextLine c).trans (ih _)
      · exact (reaches_advance c 1).trans (ih _)

theorem reaches_measure (c : Cursor) (columns : Nat × Nat) (kept : Option (Nat × Nat))
    (input : List Char) : c.Reaches (measure c columns kept input).2.1 := by
  fun_induction measure c columns kept input with
  | case1 c columns kept rest ih => exact (reaches_advance c 1).trans ih
  | case2 c columns kept rest ih => exact (reaches_advance c 1).trans ih
  | case3 c columns kept rest ih =>
      have hjoined := (reaches_advance c 1).trans (reaches_nextLine (c.advance 1))
      exact (reaches_addTrivia hjoined .joining).trans ih
  | case4 c columns kept ch rest _ _ _ _ ih => exact (reaches_advance c 1).trans ih
  | case5 c columns kept ch rest _ _ _ _ _ ih => exact (reaches_advance c 1).trans ih
  | case6 c => exact .refl c
  | case7 c => exact .refl c

theorem isClass_token (c stop : Cursor) (kind : TokenKind) :
    (c.token stop kind).isClass = (kind = .name "class" : Bool) :=
  rfl

theorem follows_fail (c : Cursor) (row : Nat) (reason : LexicalFault) :
    Follows c (fail c row reason) :=
  .of_marks (n := 1) (by simp [fail, Token.isClass, Cursor.token]) rfl

theorem follows_layout {c c' : Cursor} {columns : Nat × Nat} {marks ts : List Token}
    (h : layout c columns = some (marks, c')) (hts : Follows c' ts) : Follows c (marks ++ ts) := by
  unfold layout at h
  dsimp only at h
  split at h
  · split at h
    · cases h
      exact hts
    · cases h
  · split at h
    · split at h
      · cases h
        exact hts.append (n := 1) (by simp [isClass_token]) rfl rfl (Nat.le_refl _)
      · cases h
    · split at h
      · cases h
        refine hts.append ?_ ?_ rfl (Nat.le_refl _)
        · simp [Token.isClass, Cursor.token]
        · rw [List.map_map, List.range'_eq_map_range]
          rfl
      · cases h

theorem follows_finish (c : Cursor) : Follows c (finish c) := by
  unfold finish
  split
  · exact follows_fail c _ _
  · have hends : ∃ ends c', (if c.begun then ([c.token c .newline], c.past) else ([], c)) =
        (ends, c') ∧ ∀ ts, Follows c' ts → Follows c (ends ++ ts) := by
      by_cases hbegun : c.begun
      · refine ⟨_, _, if_pos hbegun, fun ts hts => ?_⟩
        exact hts.append (n := 1) (by simp [isClass_token]) rfl rfl (Nat.le_refl _)
      · exact ⟨_, _, if_neg hbegun, fun ts hts => hts⟩
    obtain ⟨ends, c', heq, hends⟩ := hends
    rw [heq]
    dsimp only
    rw [List.append_assoc]
    refine hends _ (.of_marks (n := c'.indents.length + 1) (fun t ht => ?_) ?_)
    · rcases List.mem_append.mp ht with ht | ht
      · obtain ⟨k, -, rfl⟩ := List.mem_map.mp ht
        simp [Token.isClass, Cursor.token]
      · rw [List.mem_singleton.mp ht]
        simp [Token.isClass, Cursor.token]
    · rw [List.map_append, List.map_map, List.range'_1_concat, List.range'_eq_map_range]
      rfl

/-- A token is cut where the cursor is, or there is a fault there. -/
theorem tokenAt_cases (c : Cursor) (ch : Char) (rest : List Char) :
    (∃ reason, tokenAt c ch rest = .error (fail c c.row reason)) ∨
    ∃ (t : Token) (stop : Cursor) (after : List Char),
      tokenAt c ch rest = .ok (t, stop.past, after) ∧ t.index = c.count ∧ t.extent.row = c.row ∧
        c.Reaches stop := by
  unfold tokenAt
  extract_lets input word mark behind markText quote isTriple width _ symbol after cut stop
  split
  · split
    · exact .inl ⟨_, rfl⟩
    · next body after _ =>
        refine .inr ⟨_, _, _, rfl, rfl, rfl, ?_⟩
        have hopen := reaches_advance c (mark.length + width)
        exact (hopen.trans (reaches_advanceOver _ body)).trans (reaches_advance _ width)
  · split
    · exact .inr ⟨_, _, _, rfl, rfl, rfl, reaches_advance c _⟩
    · split
      · split
        · exact .inl ⟨_, rfl⟩
        · exact .inr ⟨_, _, _, rfl, rfl, rfl, reaches_advance c _⟩
      · split
        · exact .inl ⟨_, rfl⟩
        · split
          · split
            · split
              · exact .inr ⟨_, _, _, rfl, rfl, rfl, ⟨Nat.le_refl _, Nat.le_refl _⟩⟩
              · exact .inl ⟨_, rfl⟩
            · exact .inl ⟨_, rfl⟩
          · refine .inr ⟨_, _, _, rfl, rfl, rfl, ?_⟩
            dsimp only [stop]
            split
            · exact ⟨Nat.le_refl _, Nat.le_refl _⟩
            · exact reaches_advance c _

/-- At the start of a line, where the indentation comes first. -/
theorem follows_lineStart {rounds : Nat}
    (ih : ∀ c atStart input, Follows c (tokensFrom rounds c atStart input)) (c : Cursor)
    (input : List Char) : Follows c (tokensFrom (rounds + 1) c true input) := by
  rw [tokensFrom.eq_def]
  dsimp only
  have hmeasure := reaches_measure c (0, 0) none input
  generalize measure c (0, 0) none input = measured at hmeasure
  obtain ⟨columns, c', rest⟩ := measured
  dsimp only at hmeasure ⊢
  split
  · exact (follows_finish c').of_reaches hmeasure
  · exact (ih _ _ _).of_reaches (hmeasure.trans (reaches_nextLine c'))
  · exact (ih _ _ _).of_reaches hmeasure
  · split
    · exact (follows_fail c' _ _).of_reaches hmeasure
    · next marks c'' hlayout =>
        exact (follows_layout hlayout (ih _ _ _)).of_reaches hmeasure

/-- Further on in a line, where blanks come first. -/
theorem follows_inLine {rounds : Nat}
    (ih : ∀ c atStart input, Follows c (tokensFrom rounds c atStart input)) (c : Cursor)
    (input : List Char) : Follows c (tokensFrom (rounds + 1) c false input) := by
  rw [tokensFrom.eq_def]
  dsimp only
  have hblanks := reaches_advance c (input.takeWhile isBlank).length
  generalize c.advance (input.takeWhile isBlank).length = c' at hblanks
  refine Follows.of_reaches ?_ hblanks
  have hnext := reaches_nextLine c'
  split
  · exact follows_finish c'
  · split
    · exact (ih _ _ _).of_reaches hnext
    · split
      · exact (ih _ _ _).cons rfl rfl (Nat.lt_succ_self _) (Nat.le_succ _)
      · exact (ih _ _ _).of_reaches hnext
  · exact (ih _ _ _).of_reaches (reaches_addTrivia (reaches_advance c' _) _)
  · split
    · exact follows_fail c' _ _
    · have hjoined := (reaches_advance c' 1).trans (reaches_nextLine (c'.advance 1))
      exact (ih _ _ _).of_reaches (reaches_addTrivia hjoined _)
  · exact follows_fail c' _ _
  · next ch after _ _ _ _ _ =>
      rcases tokenAt_cases c' ch after with ⟨reason, hfault⟩ | ⟨t, stop, rest, hcut, ht⟩
      · rw [hfault]
        exact follows_fail c' _ _
      · obtain ⟨hindex, hrow, hstop⟩ := ht
        rw [hcut]
        exact (ih _ _ _).cons hindex hrow (Nat.lt_succ_of_le hstop.count) hstop.row

theorem follows_tokensFrom (rounds : Nat) : ∀ (c : Cursor) (atStart : Bool) (input : List Char),
    Follows c (tokensFrom rounds c atStart input) := by
  induction rounds with
  | zero =>
      intro c atStart input
      cases atStart with
      | true => exact .nil c
      | false => exact .nil c
  | succ rounds ih =>
      intro c atStart input
      cases atStart with
      | true => exact follows_lineStart ih c input
      | false => exact follows_inLine ih c input

end Lexer

/-- Tokens are counted as they are cut. -/
theorem nodup_index_tokens (input : List Char) : ((tokens input).map Token.index).Nodup := by
  refine List.pairwise_map.mpr ((Lexer.follows_tokensFrom _ _ _ _).2.imp fun h => ?_)
  exact Nat.ne_of_lt h.index

theorem pairwise_keywordLines_tokens (input : List Char) :
    (keywordLines (tokens input)).Pairwise (· ≤ ·) := by
  have hbefore := (Lexer.follows_tokensFrom (2 * input.length + 2) {} true input).2
  refine List.pairwise_map.mpr ((hbefore.filter Token.isClass).imp_of_mem fun ht hu h => ?_)
  exact Nat.succ_le_succ (h.row (List.mem_filter.mp ht).2 (List.mem_filter.mp hu).2)

end ProtoSchema.Extension
