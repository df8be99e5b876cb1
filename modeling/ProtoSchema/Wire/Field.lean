import ProtoSchema.Wire.Varint

/-!
# Fields of a message

A message is a run of fields. Each starts with a key that holds the field's
number and the shape of what follows, so a reader can step over a field that
it does not know. The causes for which a message is refused are spelled out
one by one, because a front end shows them.
-/

namespace ProtoSchema.Wire

/-- The shape of what follows a key. -/
inductive WireType where
  | varint
  | fixed64
  | bytes
  | startGroup
  | endGroup
  | fixed32
  deriving DecidableEq, Repr

namespace WireType

/-- The number in the low three bits of a key. -/
def number : WireType → Nat
  | varint => 0
  | fixed64 => 1
  | bytes => 2
  | startGroup => 3
  | endGroup => 4
  | fixed32 => 5

def ofNumber? : Nat → Option WireType
  | 0 => some varint
  | 1 => some fixed64
  | 2 => some bytes
  | 3 => some startGroup
  | 4 => some endGroup
  | 5 => some fixed32
  | _ => none

/-- The name of the shape in messages to the user. -/
def text : WireType → String
  | varint => "Varint"
  | fixed64 => "SixtyFourBit"
  | bytes => "LengthDelimited"
  | startGroup => "StartGroup"
  | endGroup => "EndGroup"
  | fixed32 => "ThirtyTwoBit"

end WireType

/-- Why bytes are not a message. -/
inductive Fault where
  | badVarint
  | keyTooLarge (key : Nat)
  | unknownWireType (number : Nat)
  | zeroTag
  | wrongWireType (found : WireType)
  | underflow
  | notUtf8
  | unexpectedEndGroup
  | tooDeep
  deriving DecidableEq, Repr

def Fault.message : Fault → String
  | badVarint => "invalid varint"
  | keyTooLarge key => "invalid key value: " ++ toString key
  | unknownWireType n => "invalid wire type value: " ++ toString n
  | zeroTag => "invalid tag value: 0"
  | wrongWireType found =>
    "invalid wire type: " ++ found.text ++ " (expected " ++ WireType.bytes.text ++ ")"
  | underflow => "buffer underflow"
  | notUtf8 => "invalid string value: data is not UTF-8 encoded"
  | unexpectedEndGroup => "unexpected end group tag"
  | tooDeep => "recursion limit reached"

/-- What stands in front of a field. -/
structure Key where
  number : Nat
  type : WireType
  deriving DecidableEq, Repr

def writeKey (k : Key) : Bytes :=
  writeVarint (8 * k.number + k.type.number)

/-- Reads a key: an integer below 2^32 whose low three bits are a shape and
whose other bits are not zero. -/
def readKey (input : Bytes) : Except Fault (Key × Bytes) :=
  match readVarint input with
  | none => .error .badVarint
  | some (n, rest) =>
    if 0x100000000 ≤ n then .error (.keyTooLarge n)
    else match WireType.ofNumber? (n % 8) with
      | none => .error (.unknownWireType (n % 8))
      | some type =>
        if n / 8 = 0 then .error .zeroTag
        else .ok ({ number := n / 8, type }, rest)

theorem readKey_length {input : Bytes} {k : Key} {rest : Bytes}
    (h : readKey input = .ok (k, rest)) : rest.length < input.length := by
  simp only [readKey] at h
  split at h
  · cases h
  · next n r hr =>
    have := readVarint_length hr
    split at h
    · cases h
    · split at h
      · cases h
      · split at h
        · cases h
        · simp only [Except.ok.injEq, Prod.mk.injEq] at h
          rw [← h.2]
          exact this

/-- Steps over `n` bytes. -/
def dropBytes (n : Nat) (input : Bytes) : Except Fault Bytes :=
  if input.length < n then .error .underflow else .ok (input.drop n)

theorem dropBytes_length {n : Nat} {input rest : Bytes}
    (h : dropBytes n input = .ok rest) : rest.length ≤ input.length := by
  simp only [dropBytes] at h
  split at h
  · cases h
  · simp only [Except.ok.injEq] at h
    simp [← h]

/-- Reads a length and that many bytes. -/
def readPayload (input : Bytes) : Except Fault (Bytes × Bytes) :=
  match readVarint input with
  | none => .error .badVarint
  | some (n, rest) =>
    if rest.length < n then .error .underflow else .ok (rest.take n, rest.drop n)

theorem readPayload_length {input payload rest : Bytes}
    (h : readPayload input = .ok (payload, rest)) : rest.length < input.length := by
  simp only [readPayload] at h
  split at h
  · cases h
  · next n r hr =>
    have := readVarint_length hr
    split at h
    · cases h
    · simp only [Except.ok.injEq, Prod.mk.injEq] at h
      rw [← h.2, List.length_drop]
      omega

def writePayload (number : Nat) (payload : Bytes) : Bytes :=
  writeKey { number, type := .bytes } ++ writeVarint payload.length ++ payload

def writeInteger (number : Nat) (n : Nat) : Bytes :=
  writeKey { number, type := .varint } ++ writeVarint n

/-- Steps over the value of a field that is no group. -/
def skipPlain (type : WireType) (input : Bytes) : Except Fault Bytes :=
  match type with
  | .varint =>
    match readVarint input with
    | none => .error .badVarint
    | some (_, rest) => .ok rest
  | .fixed64 => dropBytes 8 input
  | .fixed32 => dropBytes 4 input
  | .bytes => (readPayload input).map (·.2)
  | .startGroup => .ok input
  | .endGroup => .error .unexpectedEndGroup

theorem skipPlain_length {type : WireType} {input rest : Bytes}
    (h : skipPlain type input = .ok rest) : rest.length ≤ input.length := by
  cases type with
  | varint =>
    simp only [skipPlain] at h
    split at h
    · cases h
    · next hr =>
      have := readVarint_length hr
      simp only [Except.ok.injEq] at h
      rw [← h]
      omega
  | fixed64 => exact dropBytes_length h
  | fixed32 => exact dropBytes_length h
  | bytes =>
    simp only [skipPlain] at h
    cases hp : readPayload input with
    | error e => simp [hp, Except.map] at h
    | ok p =>
      obtain ⟨payload, r⟩ := p
      have := readPayload_length hp
      simp only [hp, Except.map, Except.ok.injEq] at h
      rw [← h]
      omega
  | startGroup =>
    simp only [skipPlain, Except.ok.injEq] at h
    simp [← h]
  | endGroup => simp [skipPlain] at h

/-- The deepest nesting of groups that is stepped over. -/
def groupLimit : Nat := 100

/-- Steps to the end of the groups whose numbers are listed, the innermost
first. -/
def skipGroups (groups : List Nat) (input : Bytes) : Except Fault Bytes :=
  match groups with
  | [] => .ok input
  | innermost :: outer =>
    match h : readKey input with
    | .error e => .error e
    | .ok (key, rest) =>
      have := readKey_length h
      match key.type with
      | .endGroup =>
        if key.number = innermost then skipGroups outer rest
        else .error .unexpectedEndGroup
      | type =>
        if groupLimit ≤ groups.length then .error .tooDeep
        else
          match hs : skipPlain type rest with
          | .error e => .error e
          | .ok rest' =>
            have := skipPlain_length hs
            if type = .startGroup then skipGroups (key.number :: innermost :: outer) rest'
            else skipGroups (innermost :: outer) rest'
termination_by input.length

theorem skipGroups_length {groups : List Nat} {input rest : Bytes}
    (h : skipGroups groups input = .ok rest) : rest.length ≤ input.length := by
  fun_induction skipGroups groups input <;> grind

/-- Steps over the value of a field, a whole group if it starts one. -/
def skipValue (key : Key) (input : Bytes) : Except Fault Bytes :=
  match key.type with
  | .startGroup => skipGroups [key.number] input
  | type => skipPlain type input

theorem skipValue_length {key : Key} {input rest : Bytes}
    (h : skipValue key input = .ok rest) : rest.length ≤ input.length := by
  simp only [skipValue] at h
  split at h
  · exact skipGroups_length h
  · exact skipPlain_length h

end ProtoSchema.Wire
