import ProtoSchema.Json.Reader

/-!
# Reading records

A record is read from an object by the names of its members, in any order,
with unknown members stepped over; or from a list by their places. A member
that is missing keeps its default, and one that is there twice is refused.
-/

namespace ProtoSchema.Json

/-- A member of a record: its name, and how its value changes the record. -/
structure Member (σ : Type) where
  key : String
  read : Reader (σ → σ)

/-- The members of a record in their order. -/
structure Layout (σ : Type) where
  /-- What the record is called when something else is found. -/
  expected : String
  members : List (Member σ)
  initial : σ

/-- Steps to the next key of an object: the text behind its opening quote, or
nothing at the closing brace, with what follows it. -/
def nextKey (isFirst : Bool) (input : List Char) : Except Fault (Bool × List Char) :=
  match skipBlanks input with
  | [] => .error .eofObject
  | c :: rest =>
    if c = '\x7d' then .ok (false, rest)
    else if c = ',' && !isFirst then
      match skipBlanks rest with
      | [] => .error .eofValue
      | d :: rest =>
        if d = '"' then .ok (true, rest)
        else if d = '\x7d' then .error .trailingComma
        else .error .keyNotString
    else if isFirst then if c = '"' then .ok (true, rest) else .error .keyNotString
    else .error .expectedObjectEnd

theorem nextKey_length {isFirst more : Bool} {input rest : List Char}
    (h : nextKey isFirst input = .ok (more, rest)) : rest.length < input.length := by
  have hb := length_skipBlanks_le input
  unfold nextKey at h
  split at h
  · cases h
  · next c r heq =>
    rw [heq, List.length_cons] at hb
    have hr := length_skipBlanks_le r
    grind

namespace Layout

variable {σ : Type}

def member? (l : Layout σ) (key : String) : Option (Member σ) :=
  l.members.find? (·.key = key)

/-- Reads the value of the member `key`, or steps over it. -/
def runMember (l : Layout σ) (s : σ) (key : String) (input : List Char) :
    Except Fault (σ × List Char) :=
  match takeColon input with
  | .error e => .error e
  | .ok rest =>
    match l.member? key with
    | some m => (m.read.run rest).map fun (f, after) => (f s, after)
    | none => (skipValue rest).map (s, ·)

theorem runMember_length {l : Layout σ} {s s' : σ} {key : String} {input rest : List Char}
    (h : l.runMember s key input = .ok (s', rest)) : rest.length < input.length := by
  unfold runMember at h
  split at h
  · cases h
  · next r hc =>
    have h1 := takeColon_length hc
    split at h
    · next m _ =>
      cases hm : m.read.run r with
      | error e => simp [hm, Except.map] at h
      | ok p =>
        obtain ⟨f, after⟩ := p
        have h2 := m.read.shrinks hm
        simp only [hm, Except.map, Except.ok.injEq, Prod.mk.injEq] at h
        rw [← h.2]
        omega
    · have h2 := skipValue_length (map_pair_eq_ok h)
      omega

/-- Reads members up to the end of the object; `seen` are the known ones read
before. -/
def runObject (l : Layout σ) (isFirst : Bool) (seen : List String) (s : σ) (input : List Char) :
    Except Fault (σ × List Char) :=
  match hk : nextKey isFirst input with
  | .error e => .error e
  | .ok (false, rest) => .ok (s, rest)
  | .ok (true, rest) =>
    match hc : readChars rest with
    | .error e => .error e
    | .ok (cs, rest') =>
      let key := String.ofList cs
      if seen.contains key then .error (.duplicateKey key)
      else
        match hm : l.runMember s key rest' with
        | .error e => .error e
        | .ok (s', after) =>
          have := nextKey_length hk
          have := readChars_length hc
          have := runMember_length hm
          let seen' := if (l.member? key).isSome then key :: seen else seen
          l.runObject false seen' s' after
termination_by input.length

theorem runObject_length {l : Layout σ} {isFirst : Bool} {seen : List String} {s s' : σ}
    {input rest : List Char} (h : l.runObject isFirst seen s input = .ok (s', rest)) :
    rest.length < input.length := by
  fun_induction runObject l isFirst seen s input with
  | case1 => cases h
  | case2 _ _ _ _ _ hk =>
    simp only [Except.ok.injEq, Prod.mk.injEq] at h
    rw [← h.2]
    exact nextKey_length hk
  | case3 => cases h
  | case4 => cases h
  | case5 => cases h
  | case6 =>
    rename_i ih
    have := ih h
    omega

/-- Reads the members in order from the items of a list. -/
def runTuple (s : σ) (isFirst : Bool) (input : List Char) :
    List (Member σ) → Except Fault (σ × List Char)
  | [] => (closeList input).map (s, ·)
  | m :: rest =>
    match nextItem isFirst input with
    | .error e => .error e
    | .ok none => (closeList input).map (s, ·)
    | .ok (some item) =>
      match m.read.run item with
      | .error e => .error e
      | .ok (f, after) => runTuple (f s) false after rest

theorem runTuple_length {s s' : σ} {isFirst : Bool} {input rest : List Char}
    {members : List (Member σ)} (h : runTuple s isFirst input members = .ok (s', rest)) :
    rest.length < input.length := by
  induction members generalizing s isFirst input with
  | nil => exact closeList_length (map_pair_eq_ok h)
  | cons m members ih =>
    unfold runTuple at h
    split at h
    · cases h
    · exact closeList_length (map_pair_eq_ok h)
    · next hn =>
      have h1 := nextItem_length hn
      split at h
      · cases h
      · next hm =>
        have h2 := m.read.shrinks hm
        have h3 := ih h
        omega

def run (l : Layout σ) (input : List Char) : Except Fault (σ × List Char) :=
  match skipBlanks input with
  | '[' :: rest => runTuple l.initial true rest l.members
  | c :: rest =>
    if c = '\x7b' then l.runObject true [] l.initial rest
    else .error (mismatch l.expected (c :: rest))
  | [] => .error .eofValue

theorem run_length {l : Layout σ} {s : σ} {input rest : List Char}
    (h : l.run input = .ok (s, rest)) : rest.length < input.length := by
  have hb := length_skipBlanks_le input
  unfold run at h
  split at h
  · next heq =>
    rw [heq, List.length_cons] at hb
    have := runTuple_length h
    omega
  · next heq =>
    rw [heq, List.length_cons] at hb
    split at h
    · have := runObject_length h
      omega
    · cases h
  · cases h

def reader (l : Layout σ) : Reader σ where
  run := l.run
  shrinks := run_length

end Layout

def readAll {α : Type} (r : Reader α) (text : String) : Except Fault α :=
  match r.run text.toList with
  | .error e => .error e
  | .ok (a, rest) => if (skipBlanks rest).isEmpty then .ok a else .error .trailingCharacters

end ProtoSchema.Json
