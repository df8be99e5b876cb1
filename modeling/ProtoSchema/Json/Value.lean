import ProtoSchema.Json.Number

/-!
# Printing JSON

JSON values and their compact text: no blanks, members in their order, and
only those characters escaped that have to be.
-/

namespace ProtoSchema.Json

/-- A JSON value. -/
inductive Value where
  | null
  | bool (b : Bool)
  | number (isNegative : Bool) (parts : NumberParts)
  | string (s : String)
  | array (items : List Value)
  | object (members : List (String × Value))

def escapeChar (c : Char) : List Char :=
  if c = '"' then ['\\', '"']
  else if c = '\\' then ['\\', '\\']
  else if c = '\x08' then ['\\', 'b']
  else if c = '\x0c' then ['\\', 'f']
  else if c = '\n' then ['\\', 'n']
  else if c = '\r' then ['\\', 'r']
  else if c = '\t' then ['\\', 't']
  else if c.toNat < 0x20 then
    ['\\', 'u', '0', '0', Nat.digitChar (c.toNat / 16), Nat.digitChar (c.toNat % 16)]
  else [c]

def printString (s : String) : List Char :=
  '"' :: (s.toList.flatMap escapeChar ++ ['"'])

def NumberParts.print (p : NumberParts) : List Char :=
  p.whole ++ (if p.fraction.isEmpty then [] else '.' :: p.fraction) ++
    match p.exponent with
    | none => []
    | some (isNegative, digits) => 'e' :: ((if isNegative then ['-'] else []) ++ digits)

mutual

def Value.print : Value → List Char
  | .null => "null".toList
  | .bool b => (if b then "true" else "false").toList
  | .number isNegative parts => (if isNegative then ['-'] else []) ++ parts.print
  | .string s => printString s
  | .array items => '[' :: (Value.printItems items ++ [']'])
  | .object members => '\x7b' :: (Value.printMembers members ++ ['\x7d'])

def Value.printItems : List Value → List Char
  | [] => []
  | [v] => v.print
  | v :: rest => v.print ++ ',' :: Value.printItems rest

def Value.printMembers : List (String × Value) → List Char
  | [] => []
  | [(key, v)] => printString key ++ ':' :: v.print
  | (key, v) :: rest => printString key ++ ':' :: (v.print ++ ',' :: Value.printMembers rest)

end

end ProtoSchema.Json
