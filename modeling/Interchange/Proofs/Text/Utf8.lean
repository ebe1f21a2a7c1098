import Interchange.Text.Utf8

/-!
# Texts are read back from UTF-8

A character stands again where it was written, so a text is read back from its bytes without a
fault. The work is in `scan_encodeChar`: the first byte of a character tells how many follow, and
the bounds on the second byte let every character through that is not written too long.
-/

namespace Interchange.Utf8

theorem toNat_continuation (n : Nat) : (continuation n).toNat = 0x80 + n % 64 :=
  UInt8.toNat_ofNat_of_lt' (show _ < 256 by omega)

/-- A continuation byte inside the bounds adds six bits. -/
theorem tail_continuation {owed value seen n : Nat} {low high : UInt8} {rest : List UInt8}
    (hl : low.toNat ≤ 0x80 + n % 64) (hh : 0x80 + n % 64 ≤ high.toNat) :
    tail (owed + 1) low high value seen (continuation n :: rest) =
      tail owed 0x80 0xBF (value * 64 + n % 64) (seen + 1) rest := by
  have hb : low ≤ continuation n ∧ continuation n ≤ high := by
    rw [UInt8.le_iff_toNat_le, UInt8.le_iff_toNat_le, toNat_continuation]
    exact ⟨hl, hh⟩
  rw [tail, if_pos hb, toNat_continuation, Nat.add_sub_cancel_left]

@[simp] theorem tail_plain {owed value seen n : Nat} {rest : List UInt8} :
    tail (owed + 1) 0x80 0xBF value seen (continuation n :: rest) =
      tail owed 0x80 0xBF (value * 64 + n % 64) (seen + 1) rest := by
  refine tail_continuation ?_ ?_
  · simp
  · simp only [UInt8.reduceToNat]
    omega

/-! ## First bytes -/

section

variable {b : UInt8} {rest : List UInt8} {d : Nat}

theorem scan_one (hb : b.toNat < 0x80) : scan b rest = .char (Char.ofNat b.toNat) rest := by
  unfold scan
  simp only [UInt8.le_iff_toNat_le, UInt8.reduceToNat]
  rw [if_pos (by omega)]

theorem scan_two (hb : b.toNat = 0xC0 + d) (hl : 2 ≤ d) (hh : d < 0x20) :
    scan b rest = tail 1 0x80 0xBF d 1 rest := by
  unfold scan
  simp only [UInt8.le_iff_toNat_le, UInt8.lt_iff_toNat_lt, UInt8.reduceToNat, hb]
  rw [if_neg (by omega), if_neg (by omega), if_pos (by omega), Nat.add_sub_cancel_left]

theorem scan_three (hb : b.toNat = 0xE0 + d) (hh : d < 0x10) :
    scan b rest =
      tail 2 (if d = 0 then 0xA0 else 0x80) (if d = 13 then 0x9F else 0xBF) d 1 rest := by
  unfold scan
  simp only [UInt8.le_iff_toNat_le, UInt8.lt_iff_toNat_lt, ← UInt8.toNat_inj, UInt8.reduceToNat, hb]
  rw [if_neg (by omega), if_neg (by omega), if_neg (by omega)]
  by_cases h0 : d = 0
  · subst h0
    rfl
  · rw [if_neg (by omega), if_neg h0]
    by_cases h13 : d = 13
    · subst h13
      rfl
    · rw [if_neg (by omega), if_pos (by omega), if_neg h13, Nat.add_sub_cancel_left]

theorem scan_four (hb : b.toNat = 0xF0 + d) (hh : d < 5) :
    scan b rest =
      tail 3 (if d = 0 then 0x90 else 0x80) (if d = 4 then 0x8F else 0xBF) d 1 rest := by
  unfold scan
  simp only [UInt8.le_iff_toNat_le, UInt8.lt_iff_toNat_lt, ← UInt8.toNat_inj, UInt8.reduceToNat, hb]
  rw [if_neg (by omega), if_neg (by omega), if_neg (by omega), if_neg (by omega),
    if_neg (by omega), if_neg (by omega)]
  by_cases h0 : d = 0
  · subst h0
    rfl
  · rw [if_neg (by omega), if_neg h0]
    by_cases h4 : d = 4
    · subst h4
      rfl
    · rw [if_pos (by omega), if_neg h4, Nat.add_sub_cancel_left]

end

/-! ## Characters of two, three and four bytes -/

section

variable {n : Nat} (rest : List UInt8)

theorem scan_two_bytes (hl : 0x80 ≤ n) (hh : n < 0x800) :
    scan (UInt8.ofNat (0xC0 + n / 64)) (continuation n :: rest) = .char (Char.ofNat n) rest := by
  have hb : (UInt8.ofNat (0xC0 + n / 64)).toNat = 0xC0 + n / 64 :=
    UInt8.toNat_ofNat_of_lt' (show _ < 256 by omega)
  have hn : n / 64 * 64 + n % 64 = n := by omega
  rw [scan_two hb (by omega) (by omega), tail_plain, tail, hn]

/-- The second byte is high where the first is lowest, and low in front of the surrogates. -/
theorem scan_three_bytes (hl : 0x800 ≤ n) (hh : n < 0x10000) (hs : n < 0xD800 ∨ 0xDFFF < n) :
    scan (UInt8.ofNat (0xE0 + n / 4096)) (continuation (n / 64) :: continuation n :: rest) =
      .char (Char.ofNat n) rest := by
  have hb : (UInt8.ofNat (0xE0 + n / 4096)).toNat = 0xE0 + n / 4096 :=
    UInt8.toNat_ofNat_of_lt' (show _ < 256 by omega)
  have hlow : (if n / 4096 = 0 then 0xA0 else 0x80 : UInt8).toNat ≤ 0x80 + n / 64 % 64 := by
    split
    · simp only [UInt8.reduceToNat]
      omega
    · exact Nat.le_add_right ..
  have hhigh : 0x80 + n / 64 % 64 ≤ (if n / 4096 = 13 then 0x9F else 0xBF : UInt8).toNat := by
    split
    · simp only [UInt8.reduceToNat]
      omega
    · simp only [UInt8.reduceToNat]
      omega
  have hn : (n / 4096 * 64 + n / 64 % 64) * 64 + n % 64 = n := by omega
  rw [scan_three hb (by omega), tail_continuation hlow hhigh, tail_plain, tail, hn]

/-- The second byte is high where the first is lowest, and low where the first is highest. -/
theorem scan_four_bytes (hl : 0x10000 ≤ n) (hh : n < 0x110000) :
    scan (UInt8.ofNat (0xF0 + n / 262144))
        (continuation (n / 4096) :: continuation (n / 64) :: continuation n :: rest) =
      .char (Char.ofNat n) rest := by
  have hb : (UInt8.ofNat (0xF0 + n / 262144)).toNat = 0xF0 + n / 262144 :=
    UInt8.toNat_ofNat_of_lt' (show _ < 256 by omega)
  have hlow : (if n / 262144 = 0 then 0x90 else 0x80 : UInt8).toNat ≤ 0x80 + n / 4096 % 64 := by
    split
    · simp only [UInt8.reduceToNat]
      omega
    · exact Nat.le_add_right ..
  have hhigh : 0x80 + n / 4096 % 64 ≤ (if n / 262144 = 4 then 0x8F else 0xBF : UInt8).toNat := by
    split
    · simp only [UInt8.reduceToNat]
      omega
    · simp only [UInt8.reduceToNat]
      omega
  have hn : ((n / 262144 * 64 + n / 4096 % 64) * 64 + n / 64 % 64) * 64 + n % 64 = n := by omega
  rw [scan_four hb (by omega), tail_continuation hlow hhigh, tail_plain, tail_plain, tail, hn]

end

/-! ## Characters and texts -/

/-- A character stands again where it was written. -/
theorem scan_encodeChar (c : Char) :
    ∃ b bs, encodeChar c = b :: bs ∧ ∀ rest, scan b (bs ++ rest) = .char c rest := by
  have hvalid : c.toNat < 0xD800 ∨ 0xDFFF < c.toNat ∧ c.toNat < 0x110000 := c.valid
  have hofNat : Char.ofNat c.toNat = c := Char.ofNat_toNat c
  unfold encodeChar
  generalize c.toNat = n at hvalid hofNat
  subst hofNat
  by_cases h1 : n < 0x80
  · have hb : (UInt8.ofNat n).toNat = n :=
      UInt8.toNat_ofNat_of_lt' (show _ < 256 by omega)
    refine ⟨_, [], if_pos h1, ?_⟩
    intro rest
    rw [List.nil_append, scan_one (by omega), hb]
  by_cases h2 : n < 0x800
  · refine ⟨_, _, by rw [if_neg h1, if_pos h2], ?_⟩
    intro rest
    exact scan_two_bytes rest (by omega) h2
  by_cases h3 : n < 0x10000
  · refine ⟨_, _, by rw [if_neg h1, if_neg h2, if_pos h3], ?_⟩
    intro rest
    exact scan_three_bytes rest (by omega) h3 (by omega)
  · refine ⟨_, _, by rw [if_neg h1, if_neg h2, if_neg h3], ?_⟩
    intro rest
    exact scan_four_bytes rest (by omega) (by omega)

theorem decodeFrom_encode (cs : List Char) (index : Nat) :
    decodeFrom index (encode cs) = .ok cs := by
  induction cs generalizing index with
  | nil => rw [encode, List.flatMap_nil, decodeFrom]
  | cons c cs ih =>
    obtain ⟨b, bs, hc, hscan⟩ := scan_encodeChar c
    have hbytes : encode (c :: cs) = b :: (bs ++ encode cs) := by
      rw [encode, List.flatMap_cons, hc]
      rfl
    have hrest := hscan (encode cs)
    rw [hbytes, decodeFrom]
    split
    · next h =>
      rw [hrest] at h
      cases h
      rw [ih]
      rfl
    · next h => cases hrest.symm.trans h
    · next h => cases hrest.symm.trans h

/-- **A text is read back** from its bytes. -/
theorem decode_encode (cs : List Char) : decode (encode cs) = .ok cs := decodeFrom_encode cs 0

end Interchange.Utf8
