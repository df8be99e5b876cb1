import ProtoSchema.Json.Number

/-!
# Stepping over a value

A setting that the configuration does not know is stepped over. Its value has
to be JSON, but halves of surrogate pairs and the size of numbers are not
looked at. The open brackets are kept on a stack, so values may nest as deep
as they like.
-/

namespace ProtoSchema.Json

/-- An open bracket. -/
inductive Frame where
  | list
  | object
  deriving DecidableEq, Repr

namespace Frame

def close : Frame → Char
  | list => ']'
  | object => '\x7d'

/-- The fault of a text that ends inside. -/
def eof : Frame → Fault
  | list => .eofList
  | object => .eofObject

/-- The fault of an item that is not followed by a comma or the end. -/
def expectedEnd : Frame → Fault
  | list => .expectedListEnd
  | object => .expectedObjectEnd

end Frame

/-- Takes the colon between a key and its value. -/
def takeColon (input : List Char) : Except Fault (List Char) :=
  match skipBlanks input with
  | [] => .error .eofObject
  | ':' :: rest => .ok rest
  | _ => .error .expectedColon

theorem takeColon_length {input rest : List Char} (h : takeColon input = .ok rest) :
    rest.length < input.length := by
  have := length_skipBlanks_le input
  unfold takeColon at h
  split at h
  · cases h
  · next heq =>
    simp only [Except.ok.injEq] at h
    rw [heq, h, List.length_cons] at this
    omega
  · cases h

/-- Steps over what stands before an item's value: in an object its key and
the colon. -/
def skipKey (frame : Frame) (input : List Char) : Except Fault (List Char) :=
  match frame with
  | .list => .ok input
  | .object =>
    match skipBlanks input with
    | [] => .error .eofObject
    | '"' :: rest =>
      match skipChars rest with
      | .error e => .error e
      | .ok rest => takeColon rest
    | _ => .error .keyNotString

theorem skipKey_length {frame : Frame} {input rest : List Char}
    (h : skipKey frame input = .ok rest) : rest.length ≤ input.length := by
  have hb := length_skipBlanks_le input
  unfold skipKey at h
  split at h
  · simp only [Except.ok.injEq] at h
    simp [h]
  · split at h
    · cases h
    · next heq =>
      split at h
      · cases h
      · next hs =>
        have h1 := skipChars_length hs
        have h2 := takeColon_length h
        rw [heq] at hb
        simp only [List.length_cons] at hb
        omega
    · cases h

/-- Where in a value the reader stands. -/
inductive Mode where
  /-- In front of a value. -/
  | value
  /-- Behind an opening bracket. -/
  | opened
  /-- Behind a value. -/
  | after
  deriving DecidableEq, Repr

/-- Steps over a simple value; a bracket only opens. -/
def skipSimple (input : List Char) : Except Fault (Option Frame × List Char) :=
  match input with
  | [] => .error .eofValue
  | 'n' :: rest => (takeWord "ull".toList rest).map (none, ·)
  | 't' :: rest => (takeWord "rue".toList rest).map (none, ·)
  | 'f' :: rest => (takeWord "alse".toList rest).map (none, ·)
  | '"' :: rest => (skipChars rest).map (none, ·)
  | '[' :: rest => .ok (some .list, rest)
  | '-' :: rest => (skipUnsigned rest).map (none, ·)
  | c :: rest =>
    if c = '\x7b' then .ok (some .object, rest)
    else if c.isDigit then (skipUnsigned (c :: rest)).map (none, ·)
    else .error .expectedValue

theorem map_pair_eq_ok {α β : Type} {x : Except Fault α} {b c : β} {a : α}
    (h : x.map (b, ·) = .ok (c, a)) : x = .ok a := by
  cases x with
  | error e => simp [Except.map] at h
  | ok a' =>
    simp only [Except.map, Except.ok.injEq, Prod.mk.injEq] at h
    rw [h.2]

theorem skipSimple_length {input : List Char} {f : Option Frame} {rest : List Char}
    (h : skipSimple input = .ok (f, rest)) : rest.length < input.length := by
  unfold skipSimple at h
  split at h
  · cases h
  · have := takeWord_length (map_pair_eq_ok h)
    simp only [List.length_cons]
    omega
  · have := takeWord_length (map_pair_eq_ok h)
    simp only [List.length_cons]
    omega
  · have := takeWord_length (map_pair_eq_ok h)
    simp only [List.length_cons]
    omega
  · have := skipChars_length (map_pair_eq_ok h)
    simp only [List.length_cons]
    omega
  · simp only [Except.ok.injEq, Prod.mk.injEq] at h
    simp [← h.2]
  · have := skipUnsigned_length (map_pair_eq_ok h)
    simp only [List.length_cons]
    omega
  · split at h
    · simp only [Except.ok.injEq, Prod.mk.injEq] at h
      simp [← h.2]
    · split at h
      · exact skipUnsigned_length (map_pair_eq_ok h)
      · cases h

/-- How much a mode has yet to do before it takes a character. -/
def Mode.rank : Mode → Nat
  | value => 0
  | opened => 1
  | after => 0

/-- Steps over the rest of the values whose brackets are on the stack. -/
def skipFrom (mode : Mode) (stack : List Frame) (input : List Char) : Except Fault (List Char) :=
  match mode with
  | .value =>
    match hs : skipSimple (skipBlanks input) with
    | .error e => .error e
    | .ok (none, rest) =>
      have := skipSimple_length hs
      have := length_skipBlanks_le input
      skipFrom .after stack rest
    | .ok (some frame, rest) =>
      have := skipSimple_length hs
      have := length_skipBlanks_le input
      skipFrom .opened (frame :: stack) rest
  | .opened =>
    match stack with
    | [] => .ok input
    | frame :: outer =>
      match hb : skipBlanks input with
      | [] => .error frame.eof
      | c :: rest =>
        have : (c :: rest).length ≤ input.length := hb ▸ length_skipBlanks_le input
        if c = frame.close then skipFrom .after outer rest
        else
          match hk : skipKey frame (c :: rest) with
          | .error e => .error e
          | .ok rest' =>
            have := skipKey_length hk
            skipFrom .value (frame :: outer) rest'
  | .after =>
    match stack with
    | [] => .ok input
    | frame :: outer =>
      match hb : skipBlanks input with
      | [] => .error frame.eof
      | c :: rest =>
        have : (c :: rest).length ≤ input.length := hb ▸ length_skipBlanks_le input
        if c = ',' then
          match hk : skipKey frame rest with
          | .error e => .error e
          | .ok rest' =>
            have := skipKey_length hk
            skipFrom .value (frame :: outer) rest'
        else if c = frame.close then skipFrom .after outer rest
        else .error frame.expectedEnd
termination_by (input.length, mode.rank)
decreasing_by
  all_goals simp only [Mode.rank, Prod.lex_def, List.length_cons] at *
  all_goals omega

theorem skipFrom_length {mode : Mode} {stack : List Frame} {input rest : List Char}
    (h : skipFrom mode stack input = .ok rest) :
    rest.length + (if mode = .value then 1 else 0) ≤ input.length := by
  fun_induction skipFrom mode stack input <;> grind

def skipValue (input : List Char) : Except Fault (List Char) :=
  skipFrom .value [] input

theorem skipValue_length {input rest : List Char} (h : skipValue input = .ok rest) :
    rest.length < input.length := by
  have := skipFrom_length h
  simp only [↓reduceIte] at this
  omega

end ProtoSchema.Json
