import ProtoSchema.Descriptor.Basic
import ProtoSchema.Wire.Message

/-!
# Writing descriptors

The bytes of a descriptor file, field by field in the order of their numbers.
What is absent is not written.
-/

namespace ProtoSchema.Descriptor

open ProtoSchema.Wire

/-- The 64-bit pattern of a signed number. -/
def pattern (i : Int) : Nat :=
  (i % 0x10000000000000000).toNat

def writeString (number : Nat) (s : String) : Bytes :=
  writePayload number (writeText s)

def writeInt (number : Nat) (i : Int) : Bytes :=
  writeInteger number (pattern i)

def writeFlag (number : Nat) (b : Bool) : Bytes :=
  writeInteger number (if b then 1 else 0)

def optional {α : Type} (write : Nat → α → Bytes) (number : Nat) (value : Option α) : Bytes :=
  value.elim [] (write number)

def repeated {α : Type} (write : Nat → α → Bytes) (number : Nat) (values : List α) : Bytes :=
  values.flatMap (write number)

def Field.encode (f : Field) : Bytes :=
  optional writeString 1 f.name ++ optional writeString 2 f.extendee ++
  optional writeInt 3 f.number ++ optional writeInt 4 f.label ++
  optional writeInt 5 f.type ++ optional writeString 6 f.typeName ++
  optional writeString 7 f.defaultValue ++ optional writeInt 9 f.oneofIndex ++
  optional writeString 10 f.jsonName ++ optional writeFlag 17 f.proto3Optional

def Range.encode (r : Range) : Bytes :=
  writeInt 1 r.start ++ writeInt 2 r.stop

def EnumValue.encode (v : EnumValue) : Bytes :=
  optional writeString 1 v.name ++ optional writeInt 2 v.number

def embed {α : Type} (encode : α → Bytes) (number : Nat) (value : α) : Bytes :=
  writePayload number (encode value)

def Enum.encode (e : Enum) : Bytes :=
  optional writeString 1 e.name ++ repeated (embed EnumValue.encode) 2 e.values ++
  optional (embed (writeFlag 2)) 3 e.allowAlias ++
  repeated (embed Range.encode) 4 e.reserved

mutual

def Message.encode : Message → Bytes
  | ⟨name, fields, nested, enums, extensions, oneofs, ranges, reserved, mapEntry⟩ =>
    optional writeString 1 name ++ repeated (embed Field.encode) 2 fields ++
    Message.encodeNested nested ++
    repeated (embed Enum.encode) 4 enums ++ repeated (embed Range.encode) 5 ranges ++
    repeated (embed Field.encode) 6 extensions ++
    optional (embed (writeFlag 7)) 7 mapEntry ++
    repeated (embed (optional writeString 1)) 8 oneofs ++
    repeated (embed Range.encode) 9 reserved

def Message.encodeNested : List Message → Bytes
  | [] => []
  | m :: rest => writePayload 3 (Message.encode m) ++ Message.encodeNested rest

end

def Method.encode (m : Method) : Bytes :=
  optional writeString 1 m.name ++ optional writeString 2 m.inputType ++
  optional writeString 3 m.outputType ++ optional writeFlag 5 m.clientStreaming ++
  optional writeFlag 6 m.serverStreaming

def Service.encode (s : Service) : Bytes :=
  optional writeString 1 s.name ++ repeated (embed Method.encode) 2 s.methods

def File.encode (f : File) : Bytes :=
  optional writeString 1 f.name ++ optional writeString 2 f.package ++
  repeated writeString 3 f.dependencies ++ repeated (embed Message.encode) 4 f.messages ++
  repeated (embed Enum.encode) 5 f.enums ++ repeated (embed Service.encode) 6 f.services ++
  repeated (embed Field.encode) 7 f.extensions ++ repeated writeInt 10 f.publicDependencies ++
  repeated writeInt 11 f.weakDependencies ++
  (if f.isProto3 then writeString 12 "proto3" else [])

end ProtoSchema.Descriptor
