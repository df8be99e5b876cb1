import ProtoSchema.Text.Hidden

/-!
# Faults of JSON texts

A configuration is read by what is expected next, so a text can be refused in
two ways: it is no JSON there, or it is JSON of another type.
-/

namespace ProtoSchema.Json

/-- A value that was found where another type was expected. -/
inductive Found where
  | null
  | bool (b : Bool)
  | integer (n : Int)
  /-- A floating point number by its text. -/
  | float (text : String)
  | string (s : String)
  | sequence
  | map
  deriving DecidableEq, Repr

/-- Why a text is refused. -/
inductive Fault where
  | eofValue
  | eofList
  | eofObject
  | eofString
  | expectedValue
  | expectedIdent
  | expectedColon
  | expectedListEnd
  | expectedObjectEnd
  | trailingComma
  | trailingCharacters
  | keyNotString
  | badNumber
  | numberRange
  | badEscape
  | controlCharacter
  | loneSurrogate
  | endOfHexEscape
  | wrongType (found : Found) (expected : String)
  | duplicateKey (key : String)
  deriving DecidableEq, Repr

def hexText (n : Nat) : String :=
  String.ofList (Nat.toDigits 16 n)

/-- A character of a quoted text in a message. -/
def quotedChar (c : Char) : String :=
  match c with
  | '"' => "\\\""
  | '\\' => "\\\\"
  | '\n' => "\\n"
  | '\r' => "\\r"
  | '\t' => "\\t"
  | '\x00' => "\\0"
  | c => if Text.isHidden c then "\\u\x7b" ++ hexText c.toNat ++ "\x7d" else c.toString

def quoted (s : String) : String :=
  "\"" ++ String.join (s.toList.map quotedChar) ++ "\""

def Found.text : Found → String
  | null => "null"
  | bool b => "boolean `" ++ (if b then "true" else "false") ++ "`"
  | integer n => "integer `" ++ toString n ++ "`"
  | float text => "floating point `" ++ text ++ "`"
  | string s => "string " ++ quoted s
  | sequence => "sequence"
  | map => "map"

def Fault.message : Fault → String
  | eofValue => "EOF while parsing a value"
  | eofList => "EOF while parsing a list"
  | eofObject => "EOF while parsing an object"
  | eofString => "EOF while parsing a string"
  | expectedValue => "expected value"
  | expectedIdent => "expected ident"
  | expectedColon => "expected `:`"
  | expectedListEnd => "expected `,` or `]`"
  | expectedObjectEnd => "expected `,` or `\x7d`"
  | trailingComma => "trailing comma"
  | trailingCharacters => "trailing characters"
  | keyNotString => "key must be a string"
  | badNumber => "invalid number"
  | numberRange => "number out of range"
  | badEscape => "invalid escape"
  | controlCharacter => "control character (\\u0000-\\u001F) found while parsing a string"
  | loneSurrogate => "lone leading surrogate in hex escape"
  | endOfHexEscape => "unexpected end of hex escape"
  | wrongType found expected => "invalid type: " ++ found.text ++ ", expected " ++ expected
  | duplicateKey key => "duplicate field `" ++ key ++ "`"

end ProtoSchema.Json
