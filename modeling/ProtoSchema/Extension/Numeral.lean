import ProtoSchema.Extension.Identifier

/-!
# Numerals

Decimal and radix integers with single underscores between digits, fractions
and exponents, imaginary ones, and the two older spellings that are still
read: a leading zero for octal, and a final `L`. A numeral may touch a word
only if that word is an operator.
-/

namespace ProtoSchema.Extension

def isHexDigit (c : Char) : Bool :=
  c.isDigit || ('a' ≤ c && c ≤ 'f') || ('A' ≤ c && c ≤ 'F')

def isOctalDigit (c : Char) : Bool := '0' ≤ c && c ≤ '7'

def isBinaryDigit (c : Char) : Bool := c = '0' || c = '1'

/-- The text after digits with single underscores between them; at least one
digit has to be there. -/
def dropDigitGroups (isDigit : Char → Bool) : List Char → Option (List Char)
  | [] => none
  | c :: rest =>
    if isDigit c then
      match rest with
      | '_' :: after => dropDigitGroups isDigit after
      | d :: after => if isDigit d then dropDigitGroups isDigit (d :: after) else some (d :: after)
      | [] => some []
    else none

/-- The text after an exponent, if there is one. -/
def dropExponent (input : List Char) : Option (List Char) :=
  match input with
  | e :: rest =>
    if e = 'e' || e = 'E' then
      match rest with
      | sign :: digit :: after =>
        if (sign = '+' || sign = '-') && digit.isDigit then
          dropDigitGroups Char.isDigit (digit :: after)
        else if sign.isDigit then dropDigitGroups Char.isDigit rest
        else some input
      | [digit] => if digit.isDigit then some [] else some input
      | [] => some input
    else some input
  | [] => some []

/-- The text after a fraction, exponent and imaginary mark. -/
def dropFraction (input : List Char) : Option (List Char) := do
  let afterPoint ← match input with
    | '.' :: digit :: rest =>
      if digit.isDigit then dropDigitGroups Char.isDigit (digit :: rest) else some (digit :: rest)
    | ['.'] => some []
    | other => some other
  let afterExponent ← dropExponent afterPoint
  match afterExponent with
  | c :: rest => if c = 'j' || c = 'J' then some rest else some (c :: rest)
  | [] => some []

/-- The operator words that may follow a numeral without a blank. -/
def touchingWords : List (List Char) :=
  ["and", "else", "for", "if", "in", "is", "or", "not"].map String.toList

/-- Whether a numeral may end in front of this text. -/
def mayFollowNumeral (rest : List Char) : Bool :=
  match rest with
  | [] => true
  | c :: _ =>
    !(c.toNat < 0x80 && continuesIdentifier c) || touchingWords.any (·.isPrefixOf rest)

/-- The text after the older mark for long integers. -/
def dropLongMark : List Char → List Char
  | 'L' :: rest => rest
  | 'l' :: rest => rest
  | rest => rest

/-- The text after the numeral that starts here, or nothing if it is
malformed. -/
def dropNumeral (input : List Char) : Option (List Char) := do
  let radix (isDigit : Char → Bool) (rest : List Char) : Option (List Char) :=
    (dropDigitGroups isDigit (match rest with
      | '_' :: after => after
      | after => after)).map dropLongMark
  let rest ← match input with
    | '0' :: 'x' :: rest | '0' :: 'X' :: rest => radix isHexDigit rest
    | '0' :: 'o' :: rest | '0' :: 'O' :: rest => radix isOctalDigit rest
    | '0' :: 'b' :: rest | '0' :: 'B' :: rest => radix isBinaryDigit rest
    | '.' :: _ => dropFraction input
    | _ => do
      let whole ← dropDigitGroups Char.isDigit input
      match whole with
      | 'L' :: rest | 'l' :: rest => some rest
      | _ => dropFraction whole
  if mayFollowNumeral rest then some rest else none

end ProtoSchema.Extension
