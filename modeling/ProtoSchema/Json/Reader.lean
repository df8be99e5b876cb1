import ProtoSchema.Json.Skip

/-!
# Reading by type

A reader takes one value of an expected type from the front of a text. That
what is left is shorter belongs to the reader, so a list of readers can be
run over a text without any other bound.
-/

namespace ProtoSchema.Json

/-- Reads a value from the front of a text. -/
structure Reader (α : Type) where
  run : List Char → Except Fault (α × List Char)
  shrinks : ∀ {input : List Char} {a : α} {rest : List Char},
    run input = .ok (a, rest) → rest.length < input.length

/-- The fault of a value of another type than expected, after its blanks. -/
def mismatch (expected : String) (input : List Char) : Fault :=
  let found (x : Except Fault Found) : Fault :=
    match x with
    | .ok value => .wrongType value expected
    | .error e => e
  match input with
  | [] => .eofValue
  | 'n' :: rest => found ((takeWord "ull".toList rest).map fun _ => .null)
  | 't' :: rest => found ((takeWord "rue".toList rest).map fun _ => .bool true)
  | 'f' :: rest => found ((takeWord "alse".toList rest).map fun _ => .bool false)
  | '"' :: rest => found ((readChars rest).map fun (cs, _) => .string (String.ofList cs))
  | '[' :: _ => .wrongType .sequence expected
  | c :: rest =>
    if c = '\x7b' then .wrongType .map expected
    else if c = '-' || c.isDigit then found (readNumber (c :: rest))
    else .expectedValue

namespace Reader

variable {α β : Type}

/-- The reader whose result is changed by `f`. -/
def map (f : α → β) (r : Reader α) : Reader β where
  run input := (r.run input).map fun (a, rest) => (f a, rest)
  shrinks := by
    intro input b rest h
    cases hr : r.run input with
    | error e => simp [hr, Except.map] at h
    | ok p =>
      obtain ⟨a, after⟩ := p
      simp only [hr, Except.map, Except.ok.injEq, Prod.mk.injEq] at h
      rw [← h.2]
      exact r.shrinks hr

/-- Reads a string; `expected` names what it stands for. -/
def runText (expected : String) (input : List Char) : Except Fault (String × List Char) :=
  match skipBlanks input with
  | '"' :: rest => (readChars rest).map fun (cs, after) => (String.ofList cs, after)
  | other => .error (mismatch expected other)

theorem runText_length {expected : String} {input : List Char} {s : String} {rest : List Char}
    (h : runText expected input = .ok (s, rest)) : rest.length < input.length := by
  have hb := length_skipBlanks_le input
  unfold runText at h
  split at h
  · next r heq =>
    rw [heq, List.length_cons] at hb
    cases hr : readChars r with
    | error e => simp [hr, Except.map] at h
    | ok p =>
      obtain ⟨cs, after⟩ := p
      have := readChars_length hr
      simp only [hr, Except.map, Except.ok.injEq, Prod.mk.injEq] at h
      rw [← h.2]
      omega
  · cases h

def text (expected : String) : Reader String where
  run := runText expected
  shrinks := runText_length

/-- Reads `true` or `false`. -/
def runFlag (input : List Char) : Except Fault (Bool × List Char) :=
  match skipBlanks input with
  | 't' :: rest => (takeWord "rue".toList rest).map (true, ·)
  | 'f' :: rest => (takeWord "alse".toList rest).map (false, ·)
  | other => .error (mismatch "a boolean" other)

theorem runFlag_length {input : List Char} {b : Bool} {rest : List Char}
    (h : runFlag input = .ok (b, rest)) : rest.length < input.length := by
  have hb := length_skipBlanks_le input
  unfold runFlag at h
  split at h
  · next heq =>
    have := takeWord_length (map_pair_eq_ok h)
    rw [heq, List.length_cons] at hb
    omega
  · next heq =>
    have := takeWord_length (map_pair_eq_ok h)
    rw [heq, List.length_cons] at hb
    omega
  · cases h

def flag : Reader Bool where
  run := runFlag
  shrinks := runFlag_length

/-- Reads `null` or a value. -/
def runOptional (r : Reader α) (input : List Char) : Except Fault (Option α × List Char) :=
  match skipBlanks input with
  | 'n' :: rest => (takeWord "ull".toList rest).map (none, ·)
  | _ => (r.map some).run input

theorem runOptional_length {r : Reader α} {input : List Char} {x : Option α} {rest : List Char}
    (h : runOptional r input = .ok (x, rest)) : rest.length < input.length := by
  have hb := length_skipBlanks_le input
  unfold runOptional at h
  split at h
  · next heq =>
    have := takeWord_length (map_pair_eq_ok h)
    rw [heq, List.length_cons] at hb
    omega
  · exact (r.map some).shrinks h

/-- A value that may be `null`. -/
def optional (r : Reader α) : Reader (Option α) where
  run := runOptional r
  shrinks := runOptional_length

end Reader

/-! ## Lists -/

/-- Steps to the next item of a list: the text in front of it, or nothing at
the closing bracket, which is left in place. -/
def nextItem (isFirst : Bool) (input : List Char) : Except Fault (Option (List Char)) :=
  match skipBlanks input with
  | [] => .error .eofList
  | ']' :: _ => .ok none
  | c :: rest =>
    if c = ',' && !isFirst then
      match skipBlanks rest with
      | [] => .error .eofValue
      | ']' :: _ => .error .trailingComma
      | item => .ok (some item)
    else if isFirst then .ok (some (c :: rest))
    else .error .expectedListEnd

theorem nextItem_length {isFirst : Bool} {input item : List Char}
    (h : nextItem isFirst input = .ok (some item)) : item.length ≤ input.length := by
  have hb := length_skipBlanks_le input
  unfold nextItem at h
  split at h
  · cases h
  · cases h
  · next c r _ heq =>
    rw [heq, List.length_cons] at hb
    have hr := length_skipBlanks_le r
    split at h
    · split at h
      · cases h
      · cases h
      · simp only [Except.ok.injEq, Option.some.injEq] at h
        rw [← h]
        omega
    · split at h
      · simp only [Except.ok.injEq, Option.some.injEq] at h
        rw [← h, List.length_cons]
        omega
      · cases h

def closeList (input : List Char) : Except Fault (List Char) :=
  match skipBlanks input with
  | [] => .error .eofList
  | ']' :: rest => .ok rest
  | ',' :: rest =>
    match skipBlanks rest with
    | ']' :: _ => .error .trailingComma
    | _ => .error .trailingCharacters
  | _ => .error .trailingCharacters

theorem closeList_length {input rest : List Char} (h : closeList input = .ok rest) :
    rest.length < input.length := by
  have hb := length_skipBlanks_le input
  unfold closeList at h
  split at h
  · cases h
  · next heq =>
    simp only [Except.ok.injEq] at h
    rw [heq, h, List.length_cons] at hb
    omega
  · split at h <;> cases h
  · cases h

namespace Reader

variable {α : Type}

/-- Reads items up to the end of the list. -/
def runItems (r : Reader α) (isFirst : Bool) (input : List Char) :
    Except Fault (List α × List Char) :=
  match hn : nextItem isFirst input with
  | .error e => .error e
  | .ok none => (closeList input).map ([], ·)
  | .ok (some item) =>
    match hr : r.run item with
    | .error e => .error e
    | .ok (a, rest) =>
      have := nextItem_length hn
      have := r.shrinks hr
      (r.runItems false rest).map fun (as, after) => (a :: as, after)
termination_by input.length

theorem runItems_length {r : Reader α} {isFirst : Bool} {input : List Char} {as : List α}
    {rest : List Char} (h : r.runItems isFirst input = .ok (as, rest)) :
    rest.length < input.length := by
  fun_induction runItems r isFirst input generalizing as rest with
  | case1 => cases h
  | case2 => exact closeList_length (map_pair_eq_ok h)
  | case3 => cases h
  | case4 _ _ _ _ a after _ h1 h2 ih =>
    cases hi : r.runItems false after with
    | error e => simp [hi, Except.map] at h
    | ok p =>
      obtain ⟨bs, last⟩ := p
      have := ih hi
      simp only [hi, Except.map, Except.ok.injEq, Prod.mk.injEq] at h
      rw [← h.2]
      omega

def runList (r : Reader α) (input : List Char) : Except Fault (List α × List Char) :=
  match skipBlanks input with
  | '[' :: rest => r.runItems true rest
  | other => .error (mismatch "a sequence" other)

theorem runList_length {r : Reader α} {input : List Char} {as : List α} {rest : List Char}
    (h : r.runList input = .ok (as, rest)) : rest.length < input.length := by
  have hb := length_skipBlanks_le input
  unfold runList at h
  split at h
  · next heq =>
    rw [heq, List.length_cons] at hb
    have := runItems_length h
    omega
  · cases h

def list (r : Reader α) : Reader (List α) where
  run := r.runList
  shrinks := runList_length

end Reader

end ProtoSchema.Json
