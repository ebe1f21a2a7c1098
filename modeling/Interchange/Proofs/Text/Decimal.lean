import Interchange.Text.Digits

/-!
# Decimal numerals

What the decimal numeral of a number consists of.

* `toNat_digit`: the code of the character of a digit.
* `exists_digit_of_mem_decimal`: a numeral consists of digits.
* `decimal_starts`: a numeral starts with a digit, which is no zero unless the number is.
-/

namespace Interchange.Digits

variable {n : Nat}

theorem toNat_digit (d : Nat) : (digit d).toNat = 48 + d % 10 := by
  have hv : Nat.isValidChar (48 + d % 10) := .inl (by omega)
  have hchar : digit d = Char.ofNatAux (48 + d % 10) hv := dif_pos hv
  rw [hchar]
  rfl

theorem decimal_of_lt (h : n < 10) : decimal n = [digit n] := by
  rw [decimal, if_pos h]

theorem decimal_of_le (h : 10 ≤ n) : decimal n = decimal (n / 10) ++ [digit n] := by
  rw [decimal, if_neg (Nat.not_lt.2 h)]

theorem exists_digit_of_mem_decimal {c : Char} (h : c ∈ decimal n) : ∃ d, c = digit d := by
  induction n using decimal.induct with
  | case1 n hn =>
    rw [decimal_of_lt hn, List.mem_singleton] at h
    exact ⟨n, h⟩
  | case2 n hn ih =>
    rw [decimal_of_le (by omega), List.mem_append, List.mem_singleton] at h
    rcases h with h | h
    · exact ih h
    · exact ⟨n, h⟩

theorem decimal_starts (n : Nat) :
    ∃ d ds, decimal n = digit d :: ds ∧ (0 < n → 0 < d % 10) := by
  induction n using decimal.induct with
  | case1 n hn => exact ⟨n, [], decimal_of_lt hn, by omega⟩
  | case2 n hn ih =>
    obtain ⟨d, ds, hds, hd⟩ := ih
    refine ⟨d, ds ++ [digit n], ?_, fun _ => hd (by omega)⟩
    rw [decimal_of_le (by omega), hds, List.cons_append]

end Interchange.Digits
