import ProtoSchema.Json.Fault

/-!
# Scanning JSON

The lexical parts of JSON: blanks, words, and strings with their escapes.
Each function gives back what follows, and never more than it was given; a
string takes at least its closing quote.
-/

namespace ProtoSchema.Json

/-- The four blanks of JSON. -/
def isBlank (c : Char) : Bool :=
  c = ' ' || c = '\n' || c = '\t' || c = '\r'

def skipBlanks (input : List Char) : List Char :=
  input.dropWhile isBlank

theorem length_skipBlanks_le (input : List Char) : (skipBlanks input).length ≤ input.length :=
  (List.dropWhile_sublist isBlank).length_le

def takeWord : List Char → List Char → Except Fault (List Char)
  | [], input => .ok input
  | _ :: _, [] => .error .eofValue
  | a :: word, c :: input => if a = c then takeWord word input else .error .expectedIdent

theorem takeWord_length {word input rest : List Char} (h : takeWord word input = .ok rest) :
    rest.length ≤ input.length := by
  induction word generalizing input with
  | nil => simp_all [takeWord]
  | cons a word ih =>
    cases input with
    | nil => simp [takeWord] at h
    | cons c input =>
      simp only [takeWord] at h
      split at h
      · have := ih h
        simp only [List.length_cons]
        omega
      · cases h

def hexValue? (c : Char) : Option Nat :=
  if '0' ≤ c && c ≤ '9' then some (c.toNat - '0'.toNat)
  else if 'a' ≤ c && c ≤ 'f' then some (c.toNat - 'a'.toNat + 10)
  else if 'A' ≤ c && c ≤ 'F' then some (c.toNat - 'A'.toNat + 10)
  else none

/-- Reads four hexadecimal digits. A text of fewer than four bytes has
ended. -/
def readHex (input : List Char) : Except Fault (Nat × List Char) :=
  match input with
  | a :: b :: c :: d :: rest =>
    match hexValue? a, hexValue? b, hexValue? c, hexValue? d with
    | some a, some b, some c, some d => .ok (((a * 16 + b) * 16 + c) * 16 + d, rest)
    | _, _, _, _ => .error .badEscape
  | short =>
    if (String.ofList short).utf8ByteSize < 4 then .error .eofString else .error .badEscape

theorem readHex_length {input : List Char} {n : Nat} {rest : List Char}
    (h : readHex input = .ok (n, rest)) : rest.length < input.length := by
  simp only [readHex] at h
  split at h
  · split at h
    · simp only [Except.ok.injEq, Prod.mk.injEq] at h
      rw [← h.2]
      simp only [List.length_cons]
      omega
    · cases h
  · split at h <;> cases h

def isLeading (n : Nat) : Bool := 0xD800 ≤ n && n ≤ 0xDBFF

def isTrailing (n : Nat) : Bool := 0xDC00 ≤ n && n ≤ 0xDFFF

/-- The character of an escape that is one letter. -/
def simpleEscape? : Char → Option Char
  | '"' => some '"'
  | '\\' => some '\\'
  | '/' => some '/'
  | 'b' => some '\x08'
  | 'f' => some '\x0c'
  | 'n' => some '\n'
  | 'r' => some '\r'
  | 't' => some '\t'
  | _ => none

/-- Reads what follows a leading half: a second escape with the trailing
half. -/
def readTrailing (leading : Nat) (input : List Char) : Except Fault (Char × List Char) :=
  match input with
  | [] => .error .eofString
  | '\\' :: rest =>
    match rest with
    | [] => .error .eofString
    | 'u' :: rest =>
      match readHex rest with
      | .error e => .error e
      | .ok (n, rest) =>
        if isTrailing n then
          .ok (Char.ofNat ((leading - 0xD800) * 0x400 + (n - 0xDC00) + 0x10000), rest)
        else .error .loneSurrogate
    | _ => .error .endOfHexEscape
  | _ => .error .endOfHexEscape

theorem readTrailing_length {leading : Nat} {input : List Char} {c : Char} {rest : List Char}
    (h : readTrailing leading input = .ok (c, rest)) : rest.length < input.length := by
  unfold readTrailing at h
  split at h
  · cases h
  · split at h
    · cases h
    · split at h
      · cases h
      · next hr =>
        have := readHex_length hr
        split at h
        · simp only [Except.ok.injEq, Prod.mk.injEq] at h
          rw [← h.2]
          simp only [List.length_cons]
          omega
        · cases h
    · cases h
  · cases h

/-- Reads what follows a backslash. Characters outside the basic plane are
written as two halves, which have to come as a pair. -/
def readEscape (input : List Char) : Except Fault (Char × List Char) :=
  match input with
  | [] => .error .eofString
  | 'u' :: rest =>
    match readHex rest with
    | .error e => .error e
    | .ok (n, rest) =>
      if isTrailing n then .error .loneSurrogate
      else if isLeading n then readTrailing n rest
      else .ok (Char.ofNat n, rest)
  | c :: rest =>
    match simpleEscape? c with
    | some d => .ok (d, rest)
    | none => .error .badEscape

theorem readEscape_length {input : List Char} {c : Char} {rest : List Char}
    (h : readEscape input = .ok (c, rest)) : rest.length < input.length := by
  unfold readEscape at h
  split at h
  · cases h
  · split at h
    · cases h
    · next hr =>
      have := readHex_length hr
      split at h
      · cases h
      · split at h
        · have := readTrailing_length h
          simp only [List.length_cons]
          omega
        · simp only [Except.ok.injEq, Prod.mk.injEq] at h
          rw [← h.2]
          simp only [List.length_cons]
          omega
  · split at h
    · simp only [Except.ok.injEq, Prod.mk.injEq] at h
      simp [← h.2]
    · cases h

/-- Reads the characters of a string up to its closing quote. -/
def readChars (input : List Char) : Except Fault (List Char × List Char) :=
  match input with
  | [] => .error .eofString
  | '"' :: rest => .ok ([], rest)
  | '\\' :: rest =>
    match h : readEscape rest with
    | .error e => .error e
    | .ok (c, rest') =>
      have := readEscape_length h
      (readChars rest').map fun (cs, after) => (c :: cs, after)
  | c :: rest =>
    if c.toNat < 0x20 then .error .controlCharacter
    else (readChars rest).map fun (cs, after) => (c :: cs, after)
termination_by input.length

theorem readChars_length {input cs rest : List Char} (h : readChars input = .ok (cs, rest)) :
    rest.length < input.length := by
  fun_induction readChars input generalizing cs rest with
  | case1 => cases h
  | case2 => simp_all
  | case3 => cases h
  | case4 r c r' hr hlt ih =>
    cases hc : readChars r' with
    | error e => simp [hc, Except.map] at h
    | ok p =>
      obtain ⟨ds, after⟩ := p
      simp only [hc, Except.map, Except.ok.injEq, Prod.mk.injEq] at h
      have := ih hc
      rw [← h.2]
      simp only [List.length_cons]
      omega
  | case5 => cases h
  | case6 c r _ _ _ ih =>
    cases hc : readChars r with
    | error e => simp [hc, Except.map] at h
    | ok p =>
      obtain ⟨ds, after⟩ := p
      simp only [hc, Except.map, Except.ok.injEq, Prod.mk.injEq] at h
      have := ih hc
      rw [← h.2]
      simp only [List.length_cons]
      omega

/-- Steps over an escape without caring for pairs. -/
def skipEscape (input : List Char) : Except Fault (List Char) :=
  match input with
  | [] => .error .eofString
  | 'u' :: rest => (readHex rest).map (·.2)
  | c :: rest => if (simpleEscape? c).isSome then .ok rest else .error .badEscape

theorem skipEscape_length {input rest : List Char} (h : skipEscape input = .ok rest) :
    rest.length < input.length := by
  unfold skipEscape at h
  split at h
  · cases h
  · next r =>
    cases hr : readHex r with
    | error e => simp [hr, Except.map] at h
    | ok p =>
      obtain ⟨n, after⟩ := p
      have := readHex_length hr
      simp only [hr, Except.map, Except.ok.injEq] at h
      rw [← h]
      simp only [List.length_cons]
      omega
  · split at h
    · simp only [Except.ok.injEq] at h
      simp [← h]
    · cases h

/-- Steps over a string up to its closing quote. -/
def skipChars (input : List Char) : Except Fault (List Char) :=
  match input with
  | [] => .error .eofString
  | '"' :: rest => .ok rest
  | '\\' :: rest =>
    match h : skipEscape rest with
    | .error e => .error e
    | .ok rest' =>
      have := skipEscape_length h
      skipChars rest'
  | c :: rest => if c.toNat < 0x20 then .error .controlCharacter else skipChars rest
termination_by input.length

theorem skipChars_length {input rest : List Char} (h : skipChars input = .ok rest) :
    rest.length < input.length := by
  fun_induction skipChars input with
  | case1 => cases h
  | case2 => simp_all
  | case3 => cases h
  | case4 _ _ _ hlt ih =>
    have := ih h
    simp only [List.length_cons]
    omega
  | case5 => cases h
  | case6 _ _ _ _ _ ih =>
    have := ih h
    simp only [List.length_cons]
    omega

end ProtoSchema.Json
