import ProtoSchema.Decimal.Shortest
import ProtoSchema.Json.Scan

/-!
# Numbers of JSON

No setting is a number, so a number is read only to be refused or stepped
over. A refusal shows its value: integers of 64 bits are shown as they are,
and all others as the double that comes from scaling the leading 64-bit part
by a power of ten.
-/

namespace ProtoSchema.Json

def takeDigits (input : List Char) : List Char :=
  input.takeWhile Char.isDigit

def dropDigits (input : List Char) : List Char :=
  input.dropWhile Char.isDigit

theorem length_dropDigits_le (input : List Char) : (dropDigits input).length ≤ input.length :=
  (List.dropWhile_sublist Char.isDigit).length_le

/-- The parts of a number without its sign. -/
structure NumberParts where
  whole : List Char
  fraction : List Char := []
  /-- The sign of the exponent and its digits. -/
  exponent : Option (Bool × List Char) := none

/-- The text after the sign that may stand first. -/
def dropSign : List Char → List Char
  | '+' :: rest => rest
  | '-' :: rest => rest
  | rest => rest

theorem length_dropSign_le (input : List Char) : (dropSign input).length ≤ input.length := by
  unfold dropSign
  split <;> simp

def readExponent (eof : Fault) (input : List Char) :
    Except Fault (Option (Bool × List Char) × List Char) :=
  match input with
  | 'e' :: rest | 'E' :: rest =>
    let digits := dropSign rest
    if digits.isEmpty then .error eof
    else if (takeDigits digits).isEmpty then .error .badNumber
    else .ok (some (rest.head? = some '-', takeDigits digits), dropDigits digits)
  | _ => .ok (none, input)

/-- Reads the fraction and the exponent that may follow the whole part. -/
def readFraction (eof : Fault) (whole input : List Char) : Except Fault (NumberParts × List Char) :=
  match input with
  | '.' :: rest =>
    if rest.isEmpty then .error eof
    else if (takeDigits rest).isEmpty then .error .badNumber
    else (readExponent eof (dropDigits rest)).map fun (exponent, after) =>
      ({ whole, fraction := takeDigits rest, exponent }, after)
  | _ => (readExponent eof input).map fun (exponent, after) => ({ whole, exponent }, after)

/-- Reads a number after its sign; `eof` is the fault of a text that ends too
early. The whole part has no leading zero. -/
def readUnsigned (eof : Fault) (input : List Char) : Except Fault (NumberParts × List Char) :=
  match input with
  | [] => .error eof
  | '0' :: rest =>
    if rest.head?.any Char.isDigit then .error .badNumber else readFraction eof ['0'] rest
  | c :: rest =>
    if c.isDigit then readFraction eof (takeDigits (c :: rest)) (dropDigits (c :: rest))
    else .error .badNumber

theorem readExponent_length {eof : Fault} {input : List Char} {x : Option (Bool × List Char)}
    {rest : List Char} (h : readExponent eof input = .ok (x, rest)) :
    rest.length ≤ input.length := by
  have key (r : List Char) : (dropDigits (dropSign r)).length ≤ r.length :=
    Nat.le_trans (length_dropDigits_le _) (length_dropSign_le r)
  unfold readExponent at h
  grind

theorem readFraction_length {eof : Fault} {whole input : List Char} {p : NumberParts}
    {rest : List Char} (h : readFraction eof whole input = .ok (p, rest)) :
    rest.length ≤ input.length := by
  unfold readFraction at h
  split at h
  · split at h
    · cases h
    · split at h
      · cases h
      · next r _ _ =>
        cases hx : readExponent eof (dropDigits r) with
        | error e => simp [hx, Except.map] at h
        | ok q =>
          obtain ⟨x, after⟩ := q
          have h1 := readExponent_length hx
          have h2 := length_dropDigits_le r
          simp only [hx, Except.map, Except.ok.injEq, Prod.mk.injEq] at h
          rw [← h.2]
          simp only [List.length_cons]
          omega
  · cases hx : readExponent eof input with
    | error e => simp [hx, Except.map] at h
    | ok q =>
      obtain ⟨x, after⟩ := q
      simp only [hx, Except.map, Except.ok.injEq, Prod.mk.injEq] at h
      rw [← h.2]
      exact readExponent_length hx

theorem readUnsigned_length {eof : Fault} {input : List Char} {p : NumberParts}
    {rest : List Char} (h : readUnsigned eof input = .ok (p, rest)) :
    rest.length < input.length := by
  unfold readUnsigned at h
  split at h
  · cases h
  · split at h
    · cases h
    · have := readFraction_length h
      simp only [List.length_cons]
      omega
  · split at h
    · next c r _ hd =>
      have h1 := readFraction_length h
      have h2 : (dropDigits (c :: r)).length ≤ r.length := by
        simp only [dropDigits, List.dropWhile_cons, hd, ↓reduceIte]
        exact length_dropDigits_le r
      simp only [List.length_cons]
      omega
    · cases h

/-! ## Values -/

def digitsValue (ds : List Char) : Nat :=
  ds.foldl (fun n c => 10 * n + (c.toNat - '0'.toNat)) 0

/-- The longest run of leading digits whose value fits into 64 bits: its
value and how many digits are left over. -/
def significand (start : Nat) : List Char → Nat × Nat
  | [] => (start, 0)
  | c :: rest =>
    let next := 10 * start + (c.toNat - '0'.toNat)
    if 0x10000000000000000 ≤ next then (start, rest.length + 1) else significand next rest

/-- `n * 10 ^ e` with every step rounded to a double, or `none` beyond the
largest one. -/
def scale (n : Nat) (e : Int) : Option Float :=
  let rec shrink : Nat → Float → Int → Float
    | 0, f, _ => f
    | fuel + 1, f, e =>
      if -308 ≤ e then f / Float.ofScientific 1 false (-e).toNat
      else if f == 0 then f
      else shrink fuel (f / Float.ofScientific 1 false 308) (e + 308)
  let f := n.toUInt64.toFloat
  if 0 ≤ e then
    if e ≤ 308 then
      let f := f * Float.ofScientific 1 false e.toNat
      if f.isInf then none else some f
    else if n = 0 then some f else none
  else some (shrink 5 f e)

/-- The largest exponent that is taken as a number. -/
def maxExponent : Nat := 0x7FFFFFFF

def NumberParts.toDouble? (p : NumberParts) : Option Float :=
  let (whole, dropped) := significand 0 p.whole
  let (n, left) := significand whole p.fraction
  let start : Int := dropped - ((p.fraction.length - left : Nat) : Int)
  match p.exponent with
  | none => scale n start
  | some (isNegative, digits) =>
    let x := digitsValue digits
    if maxExponent < x then
      if n ≠ 0 ∧ !isNegative then none else some 0
    else scale n (if isNegative then start - x else start + x)

def NumberParts.found (isNegative : Bool) (p : NumberParts) : Except Fault Found :=
  let value := digitsValue p.whole
  let isInteger := p.fraction.isEmpty && p.exponent.isNone
  if isInteger && !isNegative && value < 0x10000000000000000 then .ok (.integer value)
  else if isInteger && isNegative && 0 < value && value ≤ 0x8000000000000000 then
    .ok (.integer (-(value : Int)))
  else
    match p.toDouble? with
    | none => .error .numberRange
    | some f => .ok (.float (Decimal.ofDouble (if isNegative then -f else f)))

/-- Reads a number, of which the first character is already seen to be a
digit or a minus sign. -/
def readNumber (input : List Char) : Except Fault Found :=
  match input with
  | '-' :: rest => do
    let (parts, _) ← readUnsigned .eofValue rest
    parts.found true
  | _ => do
    let (parts, _) ← readUnsigned .eofValue input
    parts.found false

def skipUnsigned (input : List Char) : Except Fault (List Char) :=
  (readUnsigned .badNumber input).map (·.2)

theorem skipUnsigned_length {input rest : List Char} (h : skipUnsigned input = .ok rest) :
    rest.length < input.length := by
  simp only [skipUnsigned] at h
  cases hu : readUnsigned .badNumber input with
  | error e => simp [hu, Except.map] at h
  | ok q =>
    obtain ⟨p, after⟩ := q
    simp only [hu, Except.map, Except.ok.injEq] at h
    rw [← h]
    exact readUnsigned_length hu

end ProtoSchema.Json
