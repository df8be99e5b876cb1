/-!
# Interpolated strings

An interpolated string holds expressions between braces, each possibly with a
conversion and a format, which may hold expressions itself. This module finds
the expressions; whether each of them is one is for the grammar to say.
-/

namespace ProtoSchema.Extension.Interpolation

def opening? : Char → Option Char
  | ')' => some '('
  | ']' => some '['
  | '\x7d' => some '\x7b'
  | _ => none

/-- A string that is open inside an expression. -/
structure OpenString where
  quote : Char
  isTriple : Bool

/-- The characters of an expression and what follows it. The expression ends
at a brace, a colon, an equals sign or an exclamation mark outside of
brackets and strings; comparison signs are no ends, and a backslash or a
comment sign is not allowed. -/
def takeExpression (inside : Option OpenString) (brackets : List Char) :
    List Char → Option (List Char × List Char)
  | [] => none
  | c :: rest =>
    let onwards (inside : Option OpenString) (brackets : List Char) :=
      (takeExpression inside brackets rest).map fun (e, after) => (c :: e, after)
    if c = '\\' then none
    else
      match inside with
      | some s =>
        if c = s.quote && !s.isTriple then onwards none brackets
        else if c = s.quote then
          match rest with
          | a :: b :: more =>
            if a = s.quote && b = s.quote then
              (takeExpression none brackets more).map fun (e, after) => (c :: a :: b :: e, after)
            else onwards inside brackets
          | _ => none
        else onwards inside brackets
      | none =>
        if c = '"' || c = '\'' then
          match rest with
          | a :: b :: more =>
            if a = c && b = c then
              (takeExpression (some ⟨c, true⟩) brackets more).map
                fun (e, after) => (c :: a :: b :: e, after)
            else onwards (some ⟨c, false⟩) brackets
          | _ => onwards (some ⟨c, false⟩) brackets
        else if c = '(' || c = '[' || c = '\x7b' then onwards none (c :: brackets)
        else if c = '#' then none
        else
          let isEnd := c = '!' || c = ':' || c = '\x7d' || c = '='
          if brackets.isEmpty && (isEnd || c = '<' || c = '>') then
            match rest with
            | '=' :: more =>
              if c = '!' || c = '=' || c = '<' || c = '>' then
                (takeExpression none brackets more).map fun (e, after) => (c :: '=' :: e, after)
              else some ([], c :: rest)
            | _ => if isEnd then some ([], c :: rest) else onwards none brackets
          else
            match opening? c with
            | none => onwards none brackets
            | some o =>
              match brackets with
              | b :: outer => if b = o then onwards none outer else none
              | [] => none

/-- The text behind the mark for self-documenting expressions. -/
def dropEquals : List Char → List Char
  | '=' :: rest => rest.dropWhile fun c => c = ' ' || c = '\t' || c = '\n' || c = '\x0c' || c = '\r'
  | rest => rest

def dropConversion : List Char → Option (List Char)
  | '!' :: c :: rest => if c = 's' || c = 'r' || c = 'a' then some rest else none
  | ['!'] => none
  | rest => some rest

/-- How deep formats may hold expressions. -/
def formatLimit : Nat := 2

/-- The expressions of a string from here on, and what follows: nothing, or in
a format the brace that ends it. A backslash before `N` hides the braces of a
character name. Every round takes a character. -/
def expressionsFrom : Nat → Nat → Bool → List Char → Option (List (List Char) × List Char)
  | 0, _, _, _ => none
  | _ + 1, _, _, [] => some ([], [])
  | rounds + 1, level, isRaw, c :: rest =>
    if c = '\\' && !isRaw && rest.head? = some 'N' then
      match rest with
      | 'N' :: d :: more =>
        if d = '\x7b' then
          expressionsFrom rounds level isRaw ((more.dropWhile (· ≠ '\x7d')).drop 1)
        else expressionsFrom rounds level isRaw (d :: more)
      | _ => expressionsFrom rounds level isRaw []
    else if level = 0 && (c = '\x7b' || c = '\x7d') && rest.head? = some c then
      expressionsFrom rounds level isRaw (rest.drop 1)
    else if c = '\x7d' then
      if level = 0 then none else some ([], c :: rest)
    else if c = '\x7b' then
      if formatLimit ≤ level then none
      else do
        let (expression, after) ← takeExpression none [] rest
        let after ← dropConversion (dropEquals after)
        let (inner, after) ← match after with
          | ':' :: format => expressionsFrom rounds (level + 1) isRaw format
          | _ => some ([], after)
        match after with
        | d :: after =>
          if d = '\x7d' then
            let (outer, last) ← expressionsFrom rounds level isRaw after
            return (expression :: inner ++ outer, last)
          else none
        | [] => none
    else expressionsFrom rounds level isRaw rest

/-- The expressions of an interpolated string, or nothing if its braces are
malformed. -/
def expressions (isRaw : Bool) (body : List Char) : Option (List (List Char)) := do
  let (found, rest) ← expressionsFrom (body.length + 1) 0 isRaw body
  if rest.isEmpty then some found else none

end ProtoSchema.Extension.Interpolation
