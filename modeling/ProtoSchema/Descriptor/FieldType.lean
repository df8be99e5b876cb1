/-!
# Protobuf field types

The eighteen types that a field may have, with the numbers that stand for
them in a descriptor. Every other number is a fault of the descriptor and has
no type here.
-/

namespace ProtoSchema.Descriptor

/-- The type of a field as a descriptor names it. -/
inductive FieldType where
  | double
  | float
  | int64
  | uint64
  | int32
  | fixed64
  | fixed32
  | bool
  | string
  | group
  | message
  | bytes
  | uint32
  | enum
  | sfixed32
  | sfixed64
  | sint32
  | sint64
  deriving DecidableEq, Repr

namespace FieldType

/-- All types, in the order of their numbers. -/
def all : List FieldType :=
  [double, float, int64, uint64, int32, fixed64, fixed32, bool, string, group, message,
   bytes, uint32, enum, sfixed32, sfixed64, sint32, sint64]

def number : FieldType → Int
  | double => 1
  | float => 2
  | int64 => 3
  | uint64 => 4
  | int32 => 5
  | fixed64 => 6
  | fixed32 => 7
  | bool => 8
  | string => 9
  | group => 10
  | message => 11
  | bytes => 12
  | uint32 => 13
  | enum => 14
  | sfixed32 => 15
  | sfixed64 => 16
  | sint32 => 17
  | sint64 => 18

def ofNumber? (n : Int) : Option FieldType :=
  all.find? (·.number = n)

def text : FieldType → String
  | double => "double"
  | float => "float"
  | int64 => "int64"
  | uint64 => "uint64"
  | int32 => "int32"
  | fixed64 => "fixed64"
  | fixed32 => "fixed32"
  | bool => "bool"
  | string => "string"
  | group => "group"
  | message => "message"
  | bytes => "bytes"
  | uint32 => "uint32"
  | enum => "enum"
  | sfixed32 => "sfixed32"
  | sfixed64 => "sfixed64"
  | sint32 => "sint32"
  | sint64 => "sint64"

/-- Whether the type is defined by a message or an enum of its own. -/
def isNamed : FieldType → Bool
  | group => true
  | message => true
  | enum => true
  | _ => false

theorem mem_all (t : FieldType) : t ∈ all := by
  cases t <;> decide

theorem ofNumber?_number (t : FieldType) : ofNumber? t.number = some t := by
  cases t <;> decide

theorem number_of_ofNumber? {n : Int} {t : FieldType} (h : ofNumber? n = some t) :
    t.number = n := by
  have := List.find?_some h
  simpa using this

end FieldType

end ProtoSchema.Descriptor
