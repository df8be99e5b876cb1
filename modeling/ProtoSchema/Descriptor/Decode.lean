import ProtoSchema.Descriptor.Basic
import ProtoSchema.Descriptor.Shape

/-!
# Reading descriptors

A descriptor file is taken apart into records, and each setting is looked up
by its number: the last record of a setting wins, the records of a list are
kept in order, and a record of the wrong shape refuses the whole file.
-/

namespace ProtoSchema.Descriptor

open ProtoSchema.Wire

/-- The fields of one message. -/
abbrev Records := List Record

namespace Records

/-- All values of the field `n`, each read by `read`. -/
def each {α : Type} (rs : Records) (n : Nat) (read : Value → Option α) : Option (List α) :=
  (rs.filter (·.number = n)).mapM fun r => read r.value

/-- The last value of the field `n`. -/
def last {α : Type} (rs : Records) (n : Nat) (read : Value → Option α) : Option (Option α) :=
  (rs.each n read).map List.getLast?

/-- The field `n` is absent or of the given shape. -/
def fits (rs : Records) (n : Nat) (shape : Shape) : Option Unit :=
  (rs.each n fun v => if shape.fits depthLimit v then some () else none).map fun _ => ()

/-- The fields of the messages in field `n`, taken together. -/
def inside (rs : Records) (n : Nat) (shape : Shape) : Option Records := do
  rs.fits n shape
  let parts ← rs.each n fun v =>
    match v with
    | .bytes payload => records payload
    | _ => none
  return parts.flatten

end Records

def readString : Value → Option String
  | .bytes payload => (readText payload).toOption
  | _ => none

/-- A signed 32-bit number: the low 32 bits of the integer. -/
def signed32 (n : Nat) : Int :=
  Int.bmod n 0x100000000

def readInt : Value → Option Int
  | .integer n => some (signed32 n)
  | _ => none

def readFlag : Value → Option Bool
  | .integer n => some (n != 0)
  | _ => none

/-- One number or a packed list of them. -/
def readInts : Value → Option (List Int)
  | .integer n => some [signed32 n]
  | .bytes payload => (packed payload).map (·.map signed32)
  | _ => none

/-- The fields of a message value, given to `read`. -/
def readMessage {α : Type} (read : Records → Option α) : Value → Option α
  | .bytes payload => (records payload).bind read
  | _ => none

namespace Field

def ofRecords (rs : Records) : Option Field := do
  rs.fits 8 .fieldOptions
  return {
    name := ← rs.last 1 readString
    extendee := ← rs.last 2 readString
    number := ← rs.last 3 readInt
    label := ← rs.last 4 readInt
    type := ← rs.last 5 readInt
    typeName := ← rs.last 6 readString
    defaultValue := ← rs.last 7 readString
    oneofIndex := ← rs.last 9 readInt
    jsonName := ← rs.last 10 readString
    proto3Optional := ← rs.last 17 readFlag }

end Field

/-- A range in its own message; absent ends are zero. -/
def Range.ofRecords (rs : Records) : Option Range := do
  return { start := (← rs.last 1 readInt).getD 0, stop := (← rs.last 2 readInt).getD 0 }

/-- An extension range, which has options too. -/
def Range.ofExtensionRecords (rs : Records) : Option Range := do
  rs.fits 3 .bareOptions
  Range.ofRecords rs

def EnumValue.ofRecords (rs : Records) : Option EnumValue := do
  rs.fits 3 .enumValueOptions
  return { name := ← rs.last 1 readString, number := ← rs.last 2 readInt }

def Enum.ofRecords (rs : Records) : Option Enum := do
  rs.fits 5 .text
  let options ← rs.inside 3 .enumOptions
  return {
    name := ← rs.last 1 readString
    values := ← rs.each 2 (readMessage EnumValue.ofRecords)
    allowAlias := ← options.last 2 readFlag
    reserved := ← rs.each 4 (readMessage Range.ofRecords) }

/-- The name of a oneof. -/
def oneofOfRecords (rs : Records) : Option (Option String) := do
  rs.fits 2 .bareOptions
  rs.last 1 readString

/-- A message whose nested messages go at most `depth` deep. -/
def Message.ofRecords : Nat → Records → Option Message
  | 0, _ => none
  | depth + 1, rs => do
    rs.fits 10 .text
    let options ← rs.inside 7 .messageOptions
    return {
      name := ← rs.last 1 readString
      fields := ← rs.each 2 (readMessage Field.ofRecords)
      nested := ← rs.each 3 (readMessage (Message.ofRecords depth))
      enums := ← rs.each 4 (readMessage Enum.ofRecords)
      extensionRanges := ← rs.each 5 (readMessage Range.ofExtensionRecords)
      extensions := ← rs.each 6 (readMessage Field.ofRecords)
      mapEntry := ← options.last 7 readFlag
      oneofs := ← rs.each 8 (readMessage oneofOfRecords)
      reserved := ← rs.each 9 (readMessage Range.ofRecords) }

def Method.ofRecords (rs : Records) : Option Method := do
  rs.fits 4 .methodOptions
  return {
    name := ← rs.last 1 readString
    inputType := ← rs.last 2 readString
    outputType := ← rs.last 3 readString
    clientStreaming := ← rs.last 5 readFlag
    serverStreaming := ← rs.last 6 readFlag }

def Service.ofRecords (rs : Records) : Option Service := do
  rs.fits 3 .serviceOptions
  return {
    name := ← rs.last 1 readString
    methods := ← rs.each 2 (readMessage Method.ofRecords) }

def File.ofRecords (rs : Records) : Option File := do
  rs.fits 8 .fileOptions
  rs.fits 9 .sourceInfo
  return {
    name := ← rs.last 1 readString
    package := ← rs.last 2 readString
    dependencies := ← rs.each 3 readString
    messages := ← rs.each 4 (readMessage (Message.ofRecords depthLimit))
    enums := ← rs.each 5 (readMessage Enum.ofRecords)
    services := ← rs.each 6 (readMessage Service.ofRecords)
    extensions := ← rs.each 7 (readMessage Field.ofRecords)
    publicDependencies := (← rs.each 10 readInts).flatten
    weakDependencies := (← rs.each 11 readInts).flatten
    isProto3 := (← rs.last 12 readString) == some "proto3" }

def filesOfBytes (input : Bytes) : Option (List File) := do
  let rs : Records ← records input
  rs.each 1 (readMessage File.ofRecords)

end ProtoSchema.Descriptor
