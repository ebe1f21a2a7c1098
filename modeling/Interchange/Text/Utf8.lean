/-!
# UTF-8

Text and its bytes. `encode` writes characters as RFC 3629 does. `scan` reads one character off the
front of a byte sequence and tells apart the three things that can stand there: a character, a
maximal run of bytes that begins no character, and a character that the input cuts short. Both
readers are folds of `scan`: `decode` stops at the first fault and says where it is and how many
bytes it spans, `decodeLossy` writes U+FFFD for each fault and reads on.
-/

namespace Interchange.Utf8

/-- What stands at the front of a byte sequence that is not empty. -/
inductive Scan where
  /-- A character, and the bytes after it. -/
  | char (c : Char) (rest : List UInt8)
  /-- `width` bytes that begin no character, and the bytes after them. -/
  | invalid (width : Nat) (rest : List UInt8)
  /-- The input ends inside a character. -/
  | cut
  deriving DecidableEq, Repr

/-- The bytes that follow what was scanned. -/
def Scan.rest : Scan → List UInt8
  | .char _ rest => rest
  | .invalid _ rest => rest
  | .cut => []

/-- Read `owed` continuation bytes. The first lies in `low..high`, the others in `0x80..0xBF`;
`value` is the number read so far and `seen` how many bytes it took. -/
def tail : (owed : Nat) → (low high : UInt8) → (value seen : Nat) → List UInt8 → Scan
  | 0, _, _, value, _, rest => .char (Char.ofNat value) rest
  | _ + 1, _, _, _, _, [] => .cut
  | owed + 1, low, high, value, seen, b :: rest =>
    if low ≤ b ∧ b ≤ high then
      tail owed 0x80 0xBF (value * 64 + (b.toNat - 0x80)) (seen + 1) rest
    else .invalid seen (b :: rest)

/-- Scan the sequence `b :: rest`. The bounds on the second byte leave out overlong forms,
surrogates and numbers above U+10FFFF. -/
def scan (b : UInt8) (rest : List UInt8) : Scan :=
  if b ≤ 0x7F then .char (Char.ofNat b.toNat) rest
  else if b < 0xC2 then .invalid 1 rest
  else if b ≤ 0xDF then tail 1 0x80 0xBF (b.toNat - 0xC0) 1 rest
  else if b = 0xE0 then tail 2 0xA0 0xBF 0 1 rest
  else if b = 0xED then tail 2 0x80 0x9F 0xD 1 rest
  else if b ≤ 0xEF then tail 2 0x80 0xBF (b.toNat - 0xE0) 1 rest
  else if b = 0xF0 then tail 3 0x90 0xBF 0 1 rest
  else if b ≤ 0xF3 then tail 3 0x80 0xBF (b.toNat - 0xF0) 1 rest
  else if b = 0xF4 then tail 3 0x80 0x8F 4 1 rest
  else .invalid 1 rest

theorem tail_rest_le (owed : Nat) (low high : UInt8) (value seen : Nat) (bs : List UInt8) :
    (tail owed low high value seen bs).rest.length ≤ bs.length := by
  induction owed generalizing low high value seen bs with
  | zero => simp [tail, Scan.rest]
  | succ owed ih =>
    cases bs with
    | nil => simp [tail, Scan.rest]
    | cons b bs =>
      simp only [tail]
      split
      · exact Nat.le_succ_of_le (ih ..)
      · simp [Scan.rest]

/-- Scanning consumes at least the first byte. -/
theorem scan_rest_le (b : UInt8) (bs : List UInt8) : (scan b bs).rest.length ≤ bs.length := by
  unfold scan
  repeat' split
  all_goals first
    | exact tail_rest_le ..
    | exact Nat.le_refl _

/-- The continuation byte that carries the low six bits of `n`. -/
def continuation (n : Nat) : UInt8 := UInt8.ofNat (0x80 + n % 64)

/-- The bytes of one character. -/
def encodeChar (c : Char) : List UInt8 :=
  let n := c.toNat
  if n < 0x80 then [UInt8.ofNat n]
  else if n < 0x800 then [UInt8.ofNat (0xC0 + n / 64), continuation n]
  else if n < 0x10000 then
    [UInt8.ofNat (0xE0 + n / 4096), continuation (n / 64), continuation n]
  else
    [UInt8.ofNat (0xF0 + n / 262144), continuation (n / 4096), continuation (n / 64),
      continuation n]

/-- Where a byte sequence stops being UTF-8. -/
structure Fault where
  /-- How many bytes before it are sound. -/
  index : Nat
  /-- How many bytes it spans; none when the input ends inside a character. -/
  width : Option Nat
  deriving DecidableEq, Repr

/-- Read a sequence that starts `index` bytes into the input. -/
def decodeFrom (index : Nat) : List UInt8 → Except Fault (List Char)
  | [] => .ok []
  | b :: bs =>
    match _h : scan b bs with
    | .char c rest => (decodeFrom (index + (encodeChar c).length) rest).map (c :: ·)
    | .invalid width _ => .error ⟨index, some width⟩
    | .cut => .error ⟨index, none⟩
termination_by bs => bs.length
decreasing_by
  have := scan_rest_le b bs
  rw [_h] at this
  exact Nat.lt_succ_of_le this

/-- The text of a byte sequence, or its first fault. -/
def decode (bs : List UInt8) : Except Fault (List Char) := decodeFrom 0 bs

/-- The text of a byte sequence with U+FFFD for each fault. -/
def decodeLossy : List UInt8 → List Char
  | [] => []
  | b :: bs =>
    match _h : scan b bs with
    | .char c rest => c :: decodeLossy rest
    | .invalid _ rest => '\ufffd' :: decodeLossy rest
    | .cut => ['\ufffd']
termination_by bs => bs.length
decreasing_by
  · have := scan_rest_le b bs
    rw [_h] at this
    exact Nat.lt_succ_of_le this
  · have := scan_rest_le b bs
    rw [_h] at this
    exact Nat.lt_succ_of_le this

/-- The bytes of a text. -/
def encode (cs : List Char) : List UInt8 := cs.flatMap encodeChar

/-- How many bytes a text takes. -/
def byteLength (s : String) : Nat := (encode s.toList).length

end Interchange.Utf8
