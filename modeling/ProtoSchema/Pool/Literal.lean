import ProtoSchema.Descriptor.FieldType

/-!
# Default values

A field may say its default as text. Only whether the text denotes a value of
the field's type matters here: integers are decimal with an optional sign and
have to fit, floating point numbers are decimal fractions with an optional
exponent or one of the special words, and bytes use the escapes of C.
-/

namespace ProtoSchema.Pool

open ProtoSchema.Descriptor (FieldType)

/-- The value of a non-empty run of decimal digits. -/
def digitsValue? (cs : List Char) : Option Nat :=
  if cs.isEmpty || cs.any (!·.isDigit) then none
  else some (cs.foldl (fun n c => 10 * n + (c.toNat - '0'.toNat)) 0)

/-- Whether the text is an integer from `low` to `high`; a minus sign is only
for types that have negative numbers. -/
def isInteger (low high : Int) (cs : List Char) : Bool :=
  match cs with
  | '-' :: digits =>
    decide (low < 0) && (digitsValue? digits).any fun n => decide (low ≤ -(n : Int))
  | '+' :: digits => (digitsValue? digits).any fun n => decide ((n : Int) ≤ high)
  | digits => (digitsValue? digits).any fun n => decide ((n : Int) ≤ high)

/-- Whether the text is empty or an exponent. -/
def isExponent : List Char → Bool
  | [] => true
  | c :: rest =>
    (c = 'e' || c = 'E') &&
      (digitsValue? (match rest with
        | '+' :: digits => digits
        | '-' :: digits => digits
        | digits => digits)).isSome

/-- Whether the text is a decimal fraction: digits on at least one side of
the point. -/
def isFraction (cs : List Char) : Bool :=
  let whole := cs.takeWhile Char.isDigit
  match cs.dropWhile Char.isDigit with
  | '.' :: rest =>
    let part := rest.takeWhile Char.isDigit
    !(whole.isEmpty && part.isEmpty) && isExponent (rest.dropWhile Char.isDigit)
  | rest => !whole.isEmpty && isExponent rest

def isFloat (cs : List Char) : Bool :=
  let unsigned := match cs with
    | '+' :: rest => rest
    | '-' :: rest => rest
    | rest => rest
  let word := String.ofList (unsigned.map Char.toLower)
  word = "inf" || word = "infinity" || word = "nan" || isFraction unsigned

def isOctalDigit (c : Char) : Bool :=
  '0' ≤ c && c ≤ '7'

def isHexDigit (c : Char) : Bool :=
  c.isDigit || ('a' ≤ c && c ≤ 'f') || ('A' ≤ c && c ≤ 'F')

/-- Whether every backslash starts an escape. -/
def isEscaped : List Char → Bool
  | [] => true
  | '\\' :: 'x' :: a :: b :: rest => isHexDigit a && isHexDigit b && isEscaped rest
  | '\\' :: 'X' :: a :: b :: rest => isHexDigit a && isHexDigit b && isEscaped rest
  | '\\' :: c :: rest =>
    ("abfnrtv\\?'\"".toList.contains c || isOctalDigit c) && isEscaped rest
  | ['\\'] => false
  | _ :: rest => isEscaped rest

/-- Whether the text denotes a value of a scalar type. -/
def isLiteral (type : FieldType) (value : String) : Bool :=
  let cs := value.toList
  match type with
  | .double | .float => isFloat cs
  | .int32 | .sint32 | .sfixed32 => isInteger (-0x80000000) 0x7FFFFFFF cs
  | .int64 | .sint64 | .sfixed64 => isInteger (-0x8000000000000000) 0x7FFFFFFFFFFFFFFF cs
  | .uint32 | .fixed32 => isInteger 0 0xFFFFFFFF cs
  | .uint64 | .fixed64 => isInteger 0 0xFFFFFFFFFFFFFFFF cs
  | .bool => value = "true" || value = "false"
  | .string => true
  | .bytes => isEscaped cs
  | .group | .message | .enum => false

end ProtoSchema.Pool
