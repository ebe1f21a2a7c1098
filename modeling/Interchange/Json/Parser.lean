import Interchange.Json.Value

/-!
# Reading JSON

The grammar of RFC 8259 and nothing beside it: no comments, no trailing commas, no leading zeros,
no control characters in strings. Readers take characters off the front of the text and leave the
rest. The readers of nested values count down a bound that the length of the text always exceeds.

Main definition: `parse`.
-/

namespace Interchange.Json

/-- Blanks between tokens. -/
def isBlank (c : Char) : Bool := c = ' ' || c = '\n' || c = '\t' || c = '\r'

/-- What follows the blanks at the front. -/
def skipBlanks (cs : List Char) : List Char := cs.dropWhile isBlank

/-- Whether a character is a decimal digit. -/
def isDigit (c : Char) : Bool := '0' ≤ c && c ≤ '9'

/-- The value of a decimal digit. -/
def digitValue (c : Char) : Nat := c.toNat - '0'.toNat

/-- The number that digits stand for. -/
def digitsValue (ds : List Char) : Nat := ds.foldl (fun n c => n * 10 + digitValue c) 0

/-- Append digits to a significand as long as it stays below `2 ^ 64`, and count those that are left
over. -/
def extendSignificand (significand : Nat) : List Char → Nat × Nat
  | [] => (significand, 0)
  | d :: ds =>
    let longer := significand * 10 + digitValue d
    if longer < UInt64.size then extendSignificand longer ds else (significand, ds.length + 1)

/-- The digits in front of the point: a zero alone, or digits that do not start with one. -/
def readWhole : List Char → Option (List Char × List Char)
  | '0' :: rest => some (['0'], rest)
  | cs =>
    let ds := cs.takeWhile isDigit
    if ds.isEmpty then none else some (ds, cs.dropWhile isDigit)

/-- The digits after the point, if there is one. -/
def readFraction : List Char → Option (Option (List Char) × List Char)
  | '.' :: rest =>
    let ds := rest.takeWhile isDigit
    if ds.isEmpty then none else some (some ds, rest.dropWhile isDigit)
  | cs => some (none, cs)

/-- The digits of an exponent, with its sign. -/
def readPower (negative : Bool) (cs : List Char) : Option (Option Int × List Char) :=
  let ds := cs.takeWhile isDigit
  if ds.isEmpty then none
  else
    let n : Int := digitsValue ds
    some (some (if negative then -n else n), cs.dropWhile isDigit)

/-- The exponent, if there is one. -/
def readExponent : List Char → Option (Option Int × List Char)
  | 'e' :: '+' :: rest => readPower false rest
  | 'e' :: '-' :: rest => readPower true rest
  | 'e' :: rest => readPower false rest
  | 'E' :: '+' :: rest => readPower false rest
  | 'E' :: '-' :: rest => readPower true rest
  | 'E' :: rest => readPower false rest
  | cs => some (none, cs)

/-- A number without its sign. -/
def readMagnitude (negative : Bool) (cs : List Char) : Option (Numeral × List Char) := do
  let (whole, cs) ← readWhole cs
  let (fraction, cs) ← readFraction cs
  let (exponent, cs) ← readExponent cs
  let places := fraction.getD []
  let (significand, leftOver) := extendSignificand 0 whole
  let (significand, unused) := extendSignificand significand places
  return ({ negative
            significand
            scale := exponent.getD 0 + leftOver - (places.length - unused : Nat)
            plain := fraction.isNone && exponent.isNone }, cs)

/-- A number. -/
def readNumber : List Char → Option (Numeral × List Char)
  | '-' :: rest => readMagnitude true rest
  | cs => readMagnitude false cs

/-- The value of a hexadecimal digit. -/
def hexValue? (c : Char) : Option Nat :=
  if '0' ≤ c ∧ c ≤ '9' then some (c.toNat - '0'.toNat)
  else if 'a' ≤ c ∧ c ≤ 'f' then some (c.toNat - 'a'.toNat + 10)
  else if 'A' ≤ c ∧ c ≤ 'F' then some (c.toNat - 'A'.toNat + 10)
  else none

/-- A piece of a string: a character, or half of a surrogate pair. -/
inductive Piece where
  | char (c : Char)
  | half (n : Nat)

/-- The piece that four hexadecimal digits stand for. -/
def hexPiece? (a b c d : Char) : Option Piece := do
  let n := 4096 * (← hexValue? a) + 256 * (← hexValue? b) + 16 * (← hexValue? c) + (← hexValue? d)
  return if 0xD800 ≤ n ∧ n < 0xE000 then .half n else .char (Char.ofNat n)

/-- The character that an escape of one letter stands for. -/
def escaped? : Char → Option Char
  | '"' => some '"'
  | '\\' => some '\\'
  | '/' => some '/'
  | 'b' => some '\x08'
  | 'f' => some '\x0c'
  | 'n' => some '\n'
  | 'r' => some '\r'
  | 't' => some '\t'
  | _ => none

/-- The pieces of a string up to its closing quote. -/
def readPieces : List Char → Option (List Piece × List Char)
  | [] => none
  | '"' :: rest => some ([], rest)
  | '\\' :: 'u' :: a :: b :: c :: d :: rest => do
    let p ← hexPiece? a b c d
    let (ps, rest) ← readPieces rest
    return (p :: ps, rest)
  | '\\' :: e :: rest => do
    let c ← escaped? e
    let (ps, rest) ← readPieces rest
    return (.char c :: ps, rest)
  | c :: rest => do
    if c.toNat < 0x20 || c = '\\' then none
    else
      let (ps, rest) ← readPieces rest
      return (.char c :: ps, rest)

/-- The text of pieces: two halves make a character, and one alone makes none. -/
def joinPieces : List Piece → Option (List Char)
  | [] => some []
  | .char c :: ps => (joinPieces ps).map (c :: ·)
  | .half a :: .half b :: ps =>
    if a < 0xDC00 ∧ 0xDC00 ≤ b then
      (joinPieces ps).map (Char.ofNat (0x10000 + (a - 0xD800) * 1024 + (b - 0xDC00)) :: ·)
    else none
  | .half _ :: _ => none

/-- A string, after its opening quote. -/
def readText (cs : List Char) : Option (Option (List Char) × List Char) := do
  let (ps, rest) ← readPieces cs
  return (joinPieces ps, rest)

mutual

/-- A value at the front of the text. -/
def readValue : (bound : Nat) → List Char → Option (Value × List Char)
  | 0, _ => none
  | bound + 1, cs =>
    match cs with
    | '\x7b' :: rest =>
      match skipBlanks rest with
      | '\x7d' :: rest => some (.object [], rest)
      | rest => do
        let (es, rest) ← readMembers bound rest
        return (.object es, rest)
    | '[' :: rest =>
      match skipBlanks rest with
      | ']' :: rest => some (.array [], rest)
      | rest => do
        let (vs, rest) ← readElements bound rest
        return (.array vs, rest)
    | '"' :: rest => do
      let (s, rest) ← readText rest
      return (.text s, rest)
    | 'n' :: 'u' :: 'l' :: 'l' :: rest => some (.null, rest)
    | 't' :: 'r' :: 'u' :: 'e' :: rest => some (.boolean true, rest)
    | 'f' :: 'a' :: 'l' :: 's' :: 'e' :: rest => some (.boolean false, rest)
    | cs => do
      let (n, rest) ← readNumber cs
      return (.number n, rest)

/-- The elements of an array, one at least, and its closing bracket. -/
def readElements : (bound : Nat) → List Char → Option (List Value × List Char)
  | 0, _ => none
  | bound + 1, cs => do
    let (v, rest) ← readValue bound cs
    match skipBlanks rest with
    | ',' :: rest =>
      let (vs, rest) ← readElements bound (skipBlanks rest)
      return (v :: vs, rest)
    | ']' :: rest => return ([v], rest)
    | _ => none

/-- The members of an object, one at least, and its closing brace. -/
def readMembers : (bound : Nat) → List Char →
    Option (List (Option (List Char) × Value) × List Char)
  | 0, _ => none
  | bound + 1, cs =>
    match cs with
    | '"' :: rest => do
      let (k, rest) ← readText rest
      match skipBlanks rest with
      | ':' :: rest =>
        let (v, rest) ← readValue bound (skipBlanks rest)
        match skipBlanks rest with
        | ',' :: rest =>
          let (es, rest) ← readMembers bound (skipBlanks rest)
          return ((k, v) :: es, rest)
        | '\x7d' :: rest => return ([(k, v)], rest)
        | _ => none
      | _ => none
    | _ => none

end

/-- The value of a document. -/
def parse (cs : List Char) : Option Value := do
  let (v, rest) ← readValue (cs.length + 1) (skipBlanks cs)
  if (skipBlanks rest).isEmpty then return v else none

end Interchange.Json
