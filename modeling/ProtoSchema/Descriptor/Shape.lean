import ProtoSchema.Wire.Message

/-!
# Shapes of descriptor fields

Options and source positions say nothing about a schema, but a file in which
one of them has the wrong shape is refused like any other damaged file. Their
layouts are kept here as data.
-/

namespace ProtoSchema.Descriptor

open ProtoSchema.Wire

/-- What a field of a known number has to look like. -/
inductive Shape where
  | text
  | bytes
  | integer
  /-- Integers one by one, or packed into a payload. -/
  | integers
  | double
  | message (fields : List (Nat × Shape))

/-- How deep messages may nest. -/
def depthLimit : Nat := 100

def packed (payload : Bytes) : Option (List Nat) :=
  if payload.isEmpty then some []
  else
    match h : readVarint payload with
    | none => none
    | some (n, rest) =>
      have := readVarint_length h
      (packed rest).map (n :: ·)
termination_by payload.length

/-- Whether a value has the given shape, looking `depth` messages deep. -/
def Shape.fits : Nat → Shape → Value → Bool
  | _, .text, .bytes payload => (readText payload).isOk
  | _, .bytes, .bytes _ => true
  | _, .integer, .integer _ => true
  | _, .integers, .integer _ => true
  | _, .integers, .bytes payload => (packed payload).isSome
  | _, .double, .fixed64 => true
  | depth + 1, .message fields, .bytes payload =>
    match records payload with
    | none => false
    | some rs => rs.all fun r =>
      match fields.lookup r.number with
      | none => true
      | some shape => shape.fits depth r.value
  | _, _, _ => false

namespace Shape

/-- The fields with the given numbers, all of one shape. -/
def all (shape : Shape) (numbers : List Nat) : List (Nat × Shape) :=
  numbers.map (·, shape)

def uninterpreted : List (Nat × Shape) :=
  [(999, message
    ([(2, message [(1, text), (2, integer)]), (3, text), (4, integer), (5, integer),
      (6, double), (7, bytes), (8, text)]))]

def fileOptions : Shape :=
  message (all text [1, 8, 11, 36, 37, 39, 40, 41, 44, 45] ++
    all integer [9, 10, 16, 17, 18, 20, 23, 27, 31, 42] ++ uninterpreted)

def messageOptions : Shape :=
  message (all integer [1, 2, 3, 7] ++ uninterpreted)

def fieldOptions : Shape :=
  message (all integer [1, 2, 3, 5, 6, 10] ++ uninterpreted)

def enumOptions : Shape :=
  message (all integer [2, 3] ++ uninterpreted)

def enumValueOptions : Shape :=
  message (all integer [1] ++ uninterpreted)

def serviceOptions : Shape :=
  message (all integer [33] ++ uninterpreted)

def methodOptions : Shape :=
  message (all integer [33, 34] ++ uninterpreted)

/-- Options that have no settings of their own. -/
def bareOptions : Shape :=
  message uninterpreted

def sourceInfo : Shape :=
  message [(1, message [(1, integers), (2, integers), (3, text), (4, text), (6, text)])]

end Shape

end ProtoSchema.Descriptor
