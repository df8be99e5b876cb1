import Mathlib.Data.List.Basic
import ProtoSchema.Json.Skip
import ProtoSchema.Json.Value

/-!
# The texts of a JSON value

A value is written as a row of tokens, and blanks may stand in front of each
of them and behind the last. The compact text is the row without blanks; an
indented one is the same row with some.

Everything that reads such a text first drops blanks and then looks at the
first character of a token, so one lemma about dropping blanks
(`Spaced.skipBlanks_append`) carries the readers from token to token. Where a
number ends only its successor tells, which is why each statement leaves the
text behind the value open and asks of it no more than that it stops a number.
-/

namespace ProtoSchema.Json

/-! ## Tokens and blanks -/

/-- The text is made of the tokens in their order, with blanks in front of
them. -/
inductive Spaced : List (List Char) → List Char → Prop where
  | nil : Spaced [] []
  | cons {blanks token text : List Char} {tokens : List (List Char)}
      (hblanks : ∀ c ∈ blanks, isBlank c) (htext : Spaced tokens text) :
      Spaced (token :: tokens) (blanks ++ (token ++ text))

namespace Spaced

variable {tokens tokens' : List (List Char)} {token text : List Char} {c : Char}

theorem push (token : List Char) (h : Spaced tokens text) :
    Spaced (token :: tokens) (token ++ text) :=
  @cons [] token text tokens (List.forall_mem_nil _) h

theorem flatten (tokens : List (List Char)) : Spaced tokens tokens.flatten := by
  induction tokens with
  | nil => exact .nil
  | cons token tokens ih => exact ih.push token

theorem exists_of_append (h : Spaced (tokens ++ tokens') text) :
    ∃ front back, Spaced tokens front ∧ Spaced tokens' back ∧ text = front ++ back := by
  induction tokens generalizing text with
  | nil => exact ⟨[], text, .nil, h, rfl⟩
  | cons token tokens ih =>
      cases h with
      | cons hblanks htext =>
          obtain ⟨front, back, hfront, hback, rfl⟩ := ih htext
          exact ⟨_, back, .cons hblanks hfront, hback, by simp⟩

/-- Dropping blanks leaves the text at its first token. -/
theorem skipBlanks_append (h : Spaced ((c :: token) :: tokens) text) (hc : ¬ isBlank c)
    (rest : List Char) :
    ∃ body, Spaced tokens body ∧ skipBlanks (text ++ rest) = c :: (token ++ (body ++ rest)) := by
  cases h with
  | @cons blanks _ body _ hblanks htext =>
      refine ⟨body, htext, ?_⟩
      rw [skipBlanks, List.append_assoc, List.dropWhile_append_of_pos hblanks, List.append_assoc,
        List.cons_append, List.dropWhile_cons_of_neg hc]

/-- The text from its first token on has the same tokens. -/
theorem strip (h : Spaced ((c :: token) :: tokens) text) (hc : ¬ isBlank c)
    (rest : List Char) :
    ∃ body, Spaced ((c :: token) :: tokens) (c :: body) ∧
      skipBlanks (text ++ rest) = c :: (body ++ rest) := by
  obtain ⟨body, hbody, hskip⟩ := h.skipBlanks_append hc rest
  exact ⟨token ++ body, hbody.push (c :: token), by rw [hskip, List.append_assoc]⟩

theorem skipBlanks_singleton (h : Spaced [c :: token] text) (hc : ¬ isBlank c)
    (rest : List Char) : skipBlanks (text ++ rest) = c :: (token ++ rest) := by
  obtain ⟨body, hbody, hskip⟩ := h.skipBlanks_append hc rest
  cases hbody
  exact hskip

end Spaced

/-- The tokens of the entries that follow another one, up to the end. -/
def Frame.moreTokens (frame : Frame) (entries : List (List (List Char))) : List (List Char) :=
  entries.flatMap ([','] :: ·) ++ [[frame.close]]

/-- The tokens behind an opening bracket. -/
def Frame.tokens (frame : Frame) : List (List (List Char)) → List (List Char)
  | [] => [[frame.close]]
  | entry :: entries => entry ++ frame.moreTokens entries

def memberTokens (key : String) (value : List (List Char)) : List (List Char) :=
  printString key :: [':'] :: value

mutual

def Value.tokens : Value → List (List Char)
  | .null => ["null".toList]
  | .bool b => [(if b then "true" else "false").toList]
  | .number isNegative parts => [(if isNegative then ['-'] else []) ++ parts.print]
  | .string s => [printString s]
  | .array items => ['['] :: Frame.list.tokens (Value.tokensOfItems items)
  | .object members => ['\x7b'] :: Frame.object.tokens (Value.tokensOfMembers members)

def Value.tokensOfItems : List Value → List (List (List Char))
  | [] => []
  | v :: rest => v.tokens :: Value.tokensOfItems rest

def Value.tokensOfMembers : List (String × Value) → List (List (List Char))
  | [] => []
  | (key, v) :: rest => memberTokens key v.tokens :: Value.tokensOfMembers rest

end

theorem Value.tokens_array (items : List Value) :
    (Value.array items).tokens = ['['] :: Frame.list.tokens (items.map Value.tokens) := by
  have hitems : ∀ items, Value.tokensOfItems items = items.map Value.tokens := by
    intro items
    induction items with
    | nil => rfl
    | cons v rest ih => rw [Value.tokensOfItems, ih, List.map_cons]
  rw [Value.tokens, hitems]

theorem Value.tokens_object (members : List (String × Value)) :
    (Value.object members).tokens =
      ['\x7b'] :: Frame.object.tokens (members.map fun m => memberTokens m.1 m.2.tokens) := by
  have hmembers : ∀ members, Value.tokensOfMembers members =
      members.map fun m => memberTokens m.1 m.2.tokens := by
    intro members
    induction members with
    | nil => rfl
    | cons m rest ih => rw [Value.tokensOfMembers, ih, List.map_cons]
  rw [Value.tokens, hmembers]

mutual

/-- The compact text is made of the tokens alone. -/
theorem Value.flatten_tokens : ∀ v : Value, v.tokens.flatten = v.print
  | .null => rfl
  | .bool b => by cases b <;> rfl
  | .number .. => by simp [Value.tokens, Value.print]
  | .string s => by simp [Value.tokens, Value.print]
  | .array items => by
      rw [Value.tokens, Value.print, List.flatten_cons, Value.flatten_tokensOfItems items]
      rfl
  | .object members => by
      rw [Value.tokens, Value.print, List.flatten_cons, Value.flatten_tokensOfMembers members]
      rfl

theorem Value.flatten_tokensOfItems : ∀ items : List Value,
    (Frame.list.tokens (Value.tokensOfItems items)).flatten = Value.printItems items ++ [']']
  | [] => rfl
  | [v] => by
      have hv := v.flatten_tokens
      simp [Value.tokensOfItems, Frame.tokens, Frame.moreTokens, Frame.close, Value.printItems, hv]
  | v :: w :: rest => by
      have hv := v.flatten_tokens
      have hrest := Value.flatten_tokensOfItems (w :: rest)
      simpa [Value.tokensOfItems, Frame.tokens, Frame.moreTokens, Value.printItems, hv] using hrest

theorem Value.flatten_tokensOfMembers : ∀ members : List (String × Value),
    (Frame.object.tokens (Value.tokensOfMembers members)).flatten =
      Value.printMembers members ++ ['\x7d']
  | [] => rfl
  | [(key, v)] => by
      have hv := v.flatten_tokens
      simp [Value.tokensOfMembers, Frame.tokens, Frame.moreTokens, Frame.close,
        Value.printMembers, memberTokens, hv]
  | (key, v) :: m :: rest => by
      have hv := v.flatten_tokens
      have hrest := Value.flatten_tokensOfMembers (m :: rest)
      simpa [Value.tokensOfMembers, Frame.tokens, Frame.moreTokens, Value.printMembers,
        memberTokens, hv] using hrest

end

/-! ## Strings -/

theorem hexValue?_digitChar {n : Nat} (h : n < 16) : hexValue? (Nat.digitChar n) = some n := by
  have hdigit : ∀ n < 16, hexValue? (Nat.digitChar n) = some n := by decide
  exact hdigit n h

/-- A character is written as itself, or as a backslash and a code that is
read back and stepped over. -/
theorem escapeChar_cases (c : Char) :
    (escapeChar c = [c] ∧ c ≠ '"' ∧ c ≠ '\\' ∧ ¬ c.toNat < 0x20) ∨
    ∃ code, escapeChar c = '\\' :: code ∧
      ∀ rest, readEscape (code ++ rest) = .ok (c, rest) ∧ skipEscape (code ++ rest) = .ok rest := by
  unfold escapeChar
  split_ifs with h1 h2 h3 h4 h5 h6 h7 h8
  · exact .inr ⟨_, rfl, fun _ => ⟨by rw [h1]; rfl, rfl⟩⟩
  · exact .inr ⟨_, rfl, fun _ => ⟨by rw [h2]; rfl, rfl⟩⟩
  · exact .inr ⟨_, rfl, fun _ => ⟨by rw [h3]; rfl, rfl⟩⟩
  · exact .inr ⟨_, rfl, fun _ => ⟨by rw [h4]; rfl, rfl⟩⟩
  · exact .inr ⟨_, rfl, fun _ => ⟨by rw [h5]; rfl, rfl⟩⟩
  · exact .inr ⟨_, rfl, fun _ => ⟨by rw [h6]; rfl, rfl⟩⟩
  · exact .inr ⟨_, rfl, fun _ => ⟨by rw [h7]; rfl, rfl⟩⟩
  · -- a control character, by the two digits of its number
    refine .inr ⟨_, rfl, fun rest => ?_⟩
    have hzero : hexValue? '0' = some 0 := by decide
    have hread : readHex ('0' :: '0' :: Nat.digitChar (c.toNat / 16) ::
        Nat.digitChar (c.toNat % 16) :: rest) = .ok (c.toNat, rest) := by
      rw [readHex, hzero, hexValue?_digitChar (by omega), hexValue?_digitChar (by omega)]
      simp only [Except.ok.injEq, Prod.mk.injEq, and_true]
      omega
    have htrailing : ¬ isTrailing c.toNat := by
      simp only [isTrailing, Bool.and_eq_true, decide_eq_true_eq]
      omega
    have hleading : ¬ isLeading c.toNat := by
      simp only [isLeading, Bool.and_eq_true, decide_eq_true_eq]
      omega
    simp [readEscape, skipEscape, hread, htrailing, hleading, Except.map]
  · exact .inl ⟨rfl, h1, h2, h8⟩

theorem readChars_escapeChar (c : Char) (input : List Char) :
    readChars (escapeChar c ++ input) =
      (readChars input).map fun (cs, after) => (c :: cs, after) := by
  rcases escapeChar_cases c with ⟨he, hq, hb, hc⟩ | ⟨code, he, hcode⟩
  · rw [he, List.singleton_append, readChars.eq_4 _ _ hq hb, if_neg hc]
  · rw [he, List.cons_append, readChars]
    split
    · next h => simp [(hcode input).1] at h
    · next h =>
      cases (hcode input).1.symm.trans h
      rfl

theorem skipChars_escapeChar (c : Char) (input : List Char) :
    skipChars (escapeChar c ++ input) = skipChars input := by
  rcases escapeChar_cases c with ⟨he, hq, hb, hc⟩ | ⟨code, he, hcode⟩
  · rw [he, List.singleton_append, skipChars.eq_4 _ _ hq hb, if_neg hc]
  · rw [he, List.cons_append, skipChars]
    split
    · next h => simp [(hcode input).2] at h
    · next h =>
      cases (hcode input).2.symm.trans h
      rfl

/-- What stands behind the opening quote of a string is read as the string. -/
theorem readChars_print (cs rest : List Char) :
    readChars (cs.flatMap escapeChar ++ '"' :: rest) = .ok (cs, rest) := by
  induction cs with
  | nil => rw [List.flatMap_nil, List.nil_append, readChars]
  | cons c cs ih =>
      rw [List.flatMap_cons, List.append_assoc, readChars_escapeChar, ih]
      rfl

theorem skipChars_print (cs rest : List Char) :
    skipChars (cs.flatMap escapeChar ++ '"' :: rest) = .ok rest := by
  induction cs with
  | nil => rw [List.flatMap_nil, List.nil_append, skipChars]
  | cons c cs ih => rw [List.flatMap_cons, List.append_assoc, skipChars_escapeChar, ih]

/-- A string whose text is next: its opening quote, then its characters. -/
theorem Spaced.skipBlanks_string {s : String} {tokens : List (List Char)} {text : List Char}
    (h : Spaced (printString s :: tokens) text) (rest : List Char) :
    ∃ body, Spaced tokens body ∧ skipBlanks (text ++ rest) =
      '"' :: (s.toList.flatMap escapeChar ++ '"' :: (body ++ rest)) := by
  obtain ⟨body, hbody, hskip⟩ := h.skipBlanks_append (by decide) rest
  exact ⟨body, hbody, by rw [hskip, List.append_assoc, List.singleton_append]⟩

theorem Spaced.takeColon {tokens : List (List Char)} {text : List Char}
    (h : Spaced ([':'] :: tokens) text) (rest : List Char) :
    ∃ body, Spaced tokens body ∧ takeColon (text ++ rest) = .ok (body ++ rest) := by
  obtain ⟨body, hbody, hskip⟩ := h.skipBlanks_append (by decide) rest
  exact ⟨body, hbody, by rw [Json.takeColon, hskip]; rfl⟩

/-! ## Numbers -/

/-- The digits of a number are where JSON wants them. -/
structure NumberParts.IsNumber (p : NumberParts) : Prop where
  whole : p.whole = ['0'] ∨ (p.whole ≠ [] ∧ p.whole.head? ≠ some '0')
  wholeDigits : ∀ c ∈ p.whole, c.isDigit
  fraction : ∀ c ∈ p.fraction, c.isDigit
  exponent : ∀ x ∈ p.exponent, x.2 ≠ [] ∧ ∀ c ∈ x.2, c.isDigit

/-- The text behind a value: it ends, or goes on with a character that no
number contains. -/
def Stops (rest : List Char) : Prop :=
  ∀ c ∈ rest.head?, c ∈ [' ', '\n', '\t', '\r', ',', ']', '\x7d']

theorem Stops.not_in_number {rest : List Char} (h : Stops rest) :
    ∀ c ∈ rest.head?, ¬ c.isDigit ∧ c ≠ '.' ∧ c ≠ 'e' ∧ c ≠ 'E' := by
  have hstop : ∀ c ∈ [' ', '\n', '\t', '\r', ',', ']', '\x7d'],
      ¬ c.isDigit ∧ c ≠ '.' ∧ c ≠ 'e' ∧ c ≠ 'E' := by simp
  exact fun c hc => hstop c (h c hc)

theorem stops_of_blank {rest : List Char} (h : ∀ c ∈ rest, isBlank c) : Stops rest := by
  intro c hc
  have hblank := h c (List.mem_of_mem_head? hc)
  simp only [isBlank, Bool.or_eq_true, decide_eq_true_eq] at hblank
  simp only [List.mem_cons]
  tauto

theorem Spaced.stops_append {c : Char} {tokens : List (List Char)} {text : List Char}
    (h : Spaced ([c] :: tokens) text) (hc : Stops [c]) (rest : List Char) :
    Stops (text ++ rest) := by
  cases h with
  | @cons blanks _ body _ hblanks htext =>
      cases blanks with
      | nil => exact hc
      | cons b blanks =>
          have hb : Stops [b] := stops_of_blank (by simpa using hblanks b List.mem_cons_self)
          exact hb

theorem takeDigits_append {digits rest : List Char} (hd : ∀ c ∈ digits, c.isDigit)
    (hr : ∀ c ∈ rest.head?, ¬ c.isDigit) : takeDigits (digits ++ rest) = digits := by
  rw [takeDigits, List.takeWhile_append_of_pos hd]
  cases rest with
  | nil => simp
  | cons c rest => rw [List.takeWhile_cons_of_neg (hr c rfl), List.append_nil]

theorem dropDigits_append {digits rest : List Char} (hd : ∀ c ∈ digits, c.isDigit)
    (hr : ∀ c ∈ rest.head?, ¬ c.isDigit) : dropDigits (digits ++ rest) = rest := by
  rw [dropDigits, List.dropWhile_append_of_pos hd]
  cases rest with
  | nil => rfl
  | cons c rest => rw [List.dropWhile_cons_of_neg (hr c rfl)]

def printExponent : Option (Bool × List Char) → List Char
  | none => []
  | some (isNegative, digits) => 'e' :: ((if isNegative then ['-'] else []) ++ digits)

theorem head_printExponent {x : Option (Bool × List Char)} {rest : List Char} (hr : Stops rest) :
    ∀ c ∈ (printExponent x ++ rest).head?, ¬ c.isDigit ∧ c ≠ '.' := by
  match x with
  | none => exact fun c hc => ⟨(hr.not_in_number c hc).1, (hr.not_in_number c hc).2.1⟩
  | some (isNegative, digits) =>
      rintro c ⟨⟩
      decide

theorem readExponent_print {eof : Fault} {x : Option (Bool × List Char)} {rest : List Char}
    (hx : ∀ y ∈ x, y.2 ≠ [] ∧ ∀ c ∈ y.2, c.isDigit) (hr : Stops rest) :
    readExponent eof (printExponent x ++ rest) = .ok (x, rest) := by
  match x with
  | none =>
      rw [printExponent, List.nil_append]
      unfold readExponent
      split
      · exact absurd rfl (hr.not_in_number _ rfl).2.2.1
      · exact absurd rfl (hr.not_in_number _ rfl).2.2.2
      · rfl
  | some (isNegative, digits) =>
      obtain ⟨hne, hdigits⟩ := hx _ rfl
      obtain ⟨d, ds, rfl⟩ := List.exists_cons_of_ne_nil hne
      have hd : d ≠ '+' ∧ d ≠ '-' := by
        have := hdigits d List.mem_cons_self
        exact ⟨fun h => by simp [h] at this, fun h => by simp [h] at this⟩
      have hnot := fun c hc => (hr.not_in_number c hc).1
      have htake : takeDigits (d :: (ds ++ rest)) = d :: ds := takeDigits_append hdigits hnot
      have hdrop : dropDigits (d :: (ds ++ rest)) = rest := dropDigits_append hdigits hnot
      cases isNegative with
      | true => simp [printExponent, readExponent, dropSign, htake, hdrop]
      | false => simp [printExponent, readExponent, dropSign.eq_3, hd, htake, hdrop]

namespace NumberParts

variable {eof : Fault} {p : NumberParts} {rest : List Char}

/-- What is printed behind the whole part. -/
def printTail (p : NumberParts) : List Char :=
  (if p.fraction.isEmpty then [] else '.' :: p.fraction) ++ printExponent p.exponent

theorem print_eq (p : NumberParts) : p.print = p.whole ++ p.printTail := by
  obtain ⟨whole, fraction, exponent⟩ := p
  cases exponent with
  | none => simp [print, printTail, printExponent]
  | some x => simp [print, printTail, printExponent]

theorem head_printTail (hr : Stops rest) : ∀ c ∈ (p.printTail ++ rest).head?, ¬ c.isDigit := by
  intro c hc
  unfold printTail at hc
  split at hc
  · exact (head_printExponent hr c hc).1
  · cases hc
    decide

theorem readFraction_printTail (hp : p.IsNumber) (hr : Stops rest) :
    readFraction eof p.whole (p.printTail ++ rest) = .ok (p, rest) := by
  have hexponent : readExponent eof (printExponent p.exponent ++ rest) = .ok (p.exponent, rest) :=
    readExponent_print hp.exponent hr
  have hfraction := hp.fraction
  obtain ⟨whole, fraction, exponent⟩ := p
  cases fraction with
  | nil =>
      simp only [printTail, List.isEmpty_nil, if_true, List.nil_append]
      unfold readFraction
      split
      · next h =>
        have hdot := head_printExponent (x := exponent) hr '.' (by rw [h]; rfl)
        exact absurd rfl hdot.2
      · rw [hexponent]
        rfl
  | cons d ds =>
      have hnot := fun c hc => (head_printExponent (x := exponent) hr c hc).1
      have htake := takeDigits_append hfraction hnot
      have hdrop := dropDigits_append hfraction hnot
      simp only [printTail, List.isEmpty_cons, Bool.false_eq_true, if_false, List.append_assoc,
        List.cons_append] at htake hdrop hexponent ⊢
      rw [readFraction, htake, hdrop, hexponent]
      rfl

/-- A number is read up to its end. -/
theorem readUnsigned_print (hp : p.IsNumber) (hr : Stops rest) :
    readUnsigned eof (p.print ++ rest) = .ok (p, rest) := by
  have hfraction : readFraction eof p.whole (p.printTail ++ rest) = .ok (p, rest) :=
    readFraction_printTail hp hr
  have hnot := head_printTail (p := p) hr
  rw [print_eq, List.append_assoc]
  rcases hp.whole with hzero | ⟨hne, hhead⟩
  · have hdigit : ¬ (p.printTail ++ rest).head?.any Char.isDigit := by
      simpa [Option.any_eq_true] using hnot
    rw [hzero] at hfraction ⊢
    rw [List.singleton_append, readUnsigned, if_neg hdigit, hfraction]
  · obtain ⟨d, ds, hwhole⟩ := List.exists_cons_of_ne_nil hne
    have htake := takeDigits_append hp.wholeDigits hnot
    have hdrop := dropDigits_append hp.wholeDigits hnot
    have hd : d ≠ '0' := fun h => hhead (by rw [hwhole, h]; rfl)
    have hdigit : d.isDigit := hp.wholeDigits d (by simp [hwhole])
    rw [hwhole] at htake hdrop hfraction ⊢
    rw [List.cons_append, readUnsigned.eq_3 _ _ _ hd, if_pos hdigit, ← List.cons_append, htake,
      hdrop, hfraction]

theorem exists_print_eq (hp : p.IsNumber) : ∃ d ds, p.print = d :: ds ∧ d.isDigit := by
  have hne : p.whole ≠ [] := by
    rcases hp.whole with hzero | ⟨hne, -⟩
    · simp [hzero]
    · exact hne
  obtain ⟨d, ds, hwhole⟩ := List.exists_cons_of_ne_nil hne
  exact ⟨d, ds ++ p.printTail, by rw [print_eq, hwhole, List.cons_append],
    hp.wholeDigits d (by simp [hwhole])⟩

end NumberParts

/-! ## Values -/

/-- Every number in the value is one of JSON. -/
inductive Value.IsJson : Value → Prop where
  | null : IsJson .null
  | bool (b : Bool) : IsJson (.bool b)
  | number (isNegative : Bool) {parts : NumberParts} (hparts : parts.IsNumber) :
      IsJson (.number isNegative parts)
  | string (s : String) : IsJson (.string s)
  | array {items : List Value} (hitems : ∀ v ∈ items, v.IsJson) : IsJson (.array items)
  | object {members : List (String × Value)} (hmembers : ∀ m ∈ members, m.2.IsJson) :
      IsJson (.object members)

/-- The text is JSON for the value, with blanks wherever they may stand. -/
def Value.Spells (v : Value) (text : String) : Prop :=
  v.IsJson ∧ ∃ body blanks, Spaced v.tokens body ∧ (∀ c ∈ blanks, isBlank c) ∧
    text.toList = body ++ blanks

theorem Value.IsJson.spells_print {v : Value} (h : v.IsJson) : v.Spells (String.ofList v.print) :=
  ⟨h, v.print, [], v.flatten_tokens ▸ Spaced.flatten v.tokens, by simp, by simp⟩

/-- The characters a value can start with. -/
def startsValue (c : Char) : Bool :=
  c.isDigit || c ∈ ['n', 't', 'f', '"', '[', '-', '\x7b']

theorem startsValue_ne {c : Char} (h : startsValue c) :
    ¬ isBlank c ∧ c ≠ ',' ∧ c ≠ ']' ∧ c ≠ '\x7d' := by
  refine ⟨fun hc => ?_, ?_, ?_, ?_⟩
  · simp only [isBlank, Bool.or_eq_true, decide_eq_true_eq] at hc
    rcases hc with ((rfl | rfl) | rfl) | rfl <;> exact absurd h (by decide)
  all_goals
    rintro rfl
    exact absurd h (by decide)

theorem Value.IsJson.exists_tokens_eq {v : Value} (h : v.IsJson) :
    ∃ c token tokens, v.tokens = (c :: token) :: tokens ∧ startsValue c := by
  cases h with
  | null => exact ⟨_, _, _, rfl, by decide⟩
  | bool b => cases b <;> exact ⟨_, _, _, rfl, by decide⟩
  | number isNegative hparts =>
      obtain ⟨d, ds, hprint, hd⟩ := NumberParts.exists_print_eq hparts
      cases isNegative with
      | true => exact ⟨'-', _, [], rfl, by decide⟩
      | false => exact ⟨d, ds, [], by simp [Value.tokens, hprint], by simp [startsValue, hd]⟩
  | string s => exact ⟨_, _, _, rfl, by decide⟩
  | array => exact ⟨_, _, _, Value.tokens_array _, by decide⟩
  | object => exact ⟨_, _, _, Value.tokens_object _, by decide⟩

end ProtoSchema.Json
