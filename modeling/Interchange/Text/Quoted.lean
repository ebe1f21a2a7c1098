import Interchange.Text.Digits

/-!
# Quoted text

Text between double quotes for a diagnostic. A quote, a backslash, tab, carriage return, line feed
and NUL have two-character escapes, every other control character is written by its number, and
all else stands for itself.
-/

namespace Interchange.Quoted

/-- Characters of the control category: C0, DEL and C1. -/
def isControl (c : Char) : Bool :=
  c.toNat < 0x20 || (0x7F ≤ c.toNat && c.toNat ≤ 0x9F)

/-- How one character is written between the quotes. -/
def escape (c : Char) : List Char :=
  if c = '"' then ['\\', '"']
  else if c = '\\' then ['\\', '\\']
  else if c = '\t' then ['\\', 't']
  else if c = '\r' then ['\\', 'r']
  else if c = '\n' then ['\\', 'n']
  else if c.toNat = 0 then ['\\', '0']
  else if isControl c then ['\\', 'u', '\x7b'] ++ Digits.hex c.toNat ++ ['\x7d']
  else [c]

/-- A text between quotes. -/
def encode (cs : List Char) : List Char := '"' :: cs.flatMap escape ++ ['"']

end Interchange.Quoted
