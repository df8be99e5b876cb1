import ProtoSchema.Wire.Field

/-!
# Reading a whole message

There are two readers. `Layout.decode` walks a message whose known fields are
all length-delimited, hands each payload to the layout in the order of the
bytes, and says in which field it gave up. `records` takes a message apart
without knowing its layout, for the many small messages of a descriptor.

Both step over fields that the message does not know, so a message may grow
without its readers.
-/

namespace ProtoSchema.Wire

/-- Why a message was refused, and in which of its fields if in one. -/
structure Refusal where
  field : Option (String × String)
  fault : Fault
  deriving DecidableEq, Repr

def Refusal.message (r : Refusal) : String :=
  "failed to decode Protobuf message: " ++
    (match r.field with
     | some (message, field) => message ++ "." ++ field ++ ": "
     | none => "") ++
    r.fault.message

/-- A message whose known fields are all length-delimited: their names, and
what the payload of each does to the value read so far. -/
structure Layout (σ : Type) where
  name : String
  field? : Nat → Option String
  put : σ → Nat → Bytes → Except Fault σ

/-- Reads the fields of `input` into `value`. -/
def Layout.decode {σ : Type} (l : Layout σ) (value : σ) (input : Bytes) : Except Refusal σ :=
  if input.isEmpty then .ok value
  else
    match h : readKey input with
    | .error fault => .error { field := none, fault }
    | .ok (key, rest) =>
      have := readKey_length h
      match l.field? key.number with
      | some field =>
        if key.type = .bytes then
          match hp : readPayload rest with
          | .error fault => .error { field := some (l.name, field), fault }
          | .ok (payload, rest') =>
            have := readPayload_length hp
            match l.put value key.number payload with
            | .error fault => .error { field := some (l.name, field), fault }
            | .ok value' => l.decode value' rest'
        else .error { field := some (l.name, field), fault := .wrongWireType key.type }
      | none =>
        match hs : skipValue key rest with
        | .error fault => .error { field := none, fault }
        | .ok rest' =>
          have := skipValue_length hs
          l.decode value rest'
termination_by input.length

def readText (payload : Bytes) : Except Fault String :=
  match String.fromUTF8? ⟨payload.toArray⟩ with
  | some s => .ok s
  | none => .error .notUtf8

def writeText (s : String) : Bytes :=
  s.toUTF8.toList

/-! ## Taking a message apart -/

/-- The value of a field, by its shape on the wire. -/
inductive Value where
  | integer (n : Nat)
  | bytes (payload : Bytes)
  | fixed32
  | fixed64
  | group
  deriving DecidableEq, Repr

/-- A field with its number. -/
structure Record where
  number : Nat
  value : Value
  deriving DecidableEq, Repr

def readValue (key : Key) (input : Bytes) : Option (Value × Bytes) :=
  match key.type with
  | .varint => (readVarint input).map fun (n, rest) => (.integer n, rest)
  | .bytes => (readPayload input).toOption.map fun (p, rest) => (.bytes p, rest)
  | .fixed32 => (skipValue key input).toOption.map fun rest => (.fixed32, rest)
  | .fixed64 => (skipValue key input).toOption.map fun rest => (.fixed64, rest)
  | .startGroup => (skipValue key input).toOption.map fun rest => (.group, rest)
  | .endGroup => none

theorem toOption_eq_some {ε α : Type} {x : Except ε α} {a : α}
    (h : x.toOption = some a) : x = .ok a := by
  cases x with
  | error e => simp [Except.toOption] at h
  | ok b => simpa [Except.toOption] using h

theorem readValue_length {key : Key} {input : Bytes} {v : Value} {rest : Bytes}
    (h : readValue key input = some (v, rest)) : rest.length ≤ input.length := by
  simp only [readValue] at h
  split at h
  · obtain ⟨⟨n, r⟩, hr, he⟩ := Option.map_eq_some_iff.1 h
    have := readVarint_length hr
    simp only [Prod.mk.injEq] at he
    rw [← he.2]
    omega
  · obtain ⟨⟨p, r⟩, hr, he⟩ := Option.map_eq_some_iff.1 h
    have := readPayload_length (toOption_eq_some hr)
    simp only [Prod.mk.injEq] at he
    rw [← he.2]
    omega
  · obtain ⟨r, hr, he⟩ := Option.map_eq_some_iff.1 h
    simp only [Prod.mk.injEq] at he
    rw [← he.2]
    exact skipValue_length (toOption_eq_some hr)
  · obtain ⟨r, hr, he⟩ := Option.map_eq_some_iff.1 h
    simp only [Prod.mk.injEq] at he
    rw [← he.2]
    exact skipValue_length (toOption_eq_some hr)
  · obtain ⟨r, hr, he⟩ := Option.map_eq_some_iff.1 h
    simp only [Prod.mk.injEq] at he
    rw [← he.2]
    exact skipValue_length (toOption_eq_some hr)
  · cases h

/-- All fields of a message, in the order of its bytes. -/
def records (input : Bytes) : Option (List Record) :=
  if input.isEmpty then some []
  else
    match h : readKey input with
    | .error _ => none
    | .ok (key, rest) =>
      have := readKey_length h
      match hv : readValue key rest with
      | none => none
      | some (value, rest') =>
        have := readValue_length hv
        (records rest').map ({ number := key.number, value } :: ·)
termination_by input.length

end ProtoSchema.Wire
