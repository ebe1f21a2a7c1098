/-!
# Numerals

Numbers as text: decimal numerals, the same padded with zeros to a least width, signed numerals,
and hexadecimal digits of either case.
-/

namespace Interchange.Digits

/-- The character of a decimal digit. -/
def digit (d : Nat) : Char := Char.ofNat (48 + d % 10)

/-- The decimal digits of a number, without leading zeros. -/
def decimal (n : Nat) : List Char :=
  if n < 10 then [digit n] else decimal (n / 10) ++ [digit n]
termination_by n
decreasing_by omega

/-- A decimal numeral. -/
def text (n : Nat) : String := String.ofList (decimal n)

/-- A decimal numeral with zeros in front up to `width` characters. -/
def padded (width n : Nat) : List Char :=
  let ds := decimal n
  List.replicate (width - ds.length) '0' ++ ds

/-- A decimal numeral with a minus sign in front of a negative number. -/
def signed : Int → String
  | .ofNat n => text n
  | .negSucc n => "-" ++ text (n + 1)

/-- The character of a hexadecimal digit, letters counting from `letter`. -/
def hexDigit (letter : Char) (d : Nat) : Char :=
  if d % 16 < 10 then digit (d % 16) else Char.ofNat (letter.toNat + (d % 16 - 10))

/-- The hexadecimal digits of a number in lower case, without leading zeros. -/
def hex (n : Nat) : List Char :=
  if n < 16 then [hexDigit 'a' n] else hex (n / 16) ++ [hexDigit 'a' n]
termination_by n
decreasing_by omega

/-- A lower-case hexadecimal numeral with zeros in front up to `width` characters. -/
def paddedHex (width n : Nat) : List Char :=
  let ds := hex n
  List.replicate (width - ds.length) '0' ++ ds

/-- The two upper-case hexadecimal digits of a byte. -/
def upperByte (b : UInt8) : List Char := [hexDigit 'A' (b.toNat / 16), hexDigit 'A' b.toNat]

/-- The two lower-case hexadecimal digits of a byte. -/
def lowerByte (b : UInt8) : List Char := [hexDigit 'a' (b.toNat / 16), hexDigit 'a' b.toNat]

end Interchange.Digits
