import Interchange.Json.Parser
import Interchange.Proofs.Text.Decimal
import Interchange.Settings.Document
import Mathlib.Data.List.Forall2

/-!
# Texts that spell JSON values

A text spells a value when the reader takes it off the front of whatever follows it, and gives the
value. Decimal numerals, truth values and texts without escapes spell themselves; several spellings
with commas between them and blanks around them spell an array or an object.

* `spells_integer`, `spells_boolean`, `spells_quote`: scalars.
* `spells_array`, `spells_object`: what brackets and braces enclose.
* `parse_of_spells`: a document is a spelling with blanks around it.
-/

namespace Interchange.Json

variable {text rest : List Char} {bound : Nat}

/-! ## Blanks -/

/-- A text of blanks only. -/
def Blank (cs : List Char) : Prop := ∀ c ∈ cs, isBlank c

theorem blank_nil : Blank [] := by
  intro c hc
  cases hc

/-- A text with blanks around it. -/
def Padded (core text : List Char) : Prop :=
  ∃ front back, Blank front ∧ Blank back ∧ text = front ++ core ++ back

theorem padded_self (core : List Char) : Padded core core :=
  ⟨[], [], blank_nil, blank_nil, by simp⟩

theorem skipBlanks_append {front : List Char} (h : Blank front) (rest : List Char) :
    skipBlanks (front ++ rest) = skipBlanks rest :=
  List.dropWhile_append_of_pos h

theorem skipBlanks_cons {c : Char} (h : isBlank c = false) (rest : List Char) :
    skipBlanks (c :: rest) = c :: rest :=
  List.dropWhile_cons_of_neg (by simp [h])

/-! ## Numbers -/

/-- A text that does not carry a number on. -/
def EndsNumber (rest : List Char) : Prop :=
  ∀ c ∈ rest.head?, isDigit c = false ∧ c ≠ '.' ∧ c ≠ 'e' ∧ c ≠ 'E'

theorem endsNumber_nil : EndsNumber [] := by
  intro c hc
  cases hc

theorem endsNumber_cons {c : Char} (h : isBlank c ∨ c = ',' ∨ c = ']' ∨ c = '\x7d')
    (rest : List Char) : EndsNumber (c :: rest) := by
  intro d hd
  cases Option.mem_some.1 hd
  rcases h with h | rfl | rfl | rfl
  · simp only [isBlank, Bool.or_eq_true, decide_eq_true_eq] at h
    rcases h with ((rfl | rfl) | rfl) | rfl <;> decide
  all_goals decide

theorem endsNumber_blanks {back : List Char} (hb : Blank back) (hr : EndsNumber rest) :
    EndsNumber (back ++ rest) := by
  cases back with
  | nil => exact hr
  | cons c back => exact endsNumber_cons (.inl (hb c List.mem_cons_self)) _

theorem isDigit_digit (d : Nat) : isDigit (Digits.digit d) := by
  simp only [isDigit, Bool.and_eq_true, decide_eq_true_eq, Char.le_def, UInt32.le_iff_toNat_le]
  have hd : (Digits.digit d).val.toNat = 48 + d % 10 := Digits.toNat_digit d
  rw [hd]
  constructor
  · show 48 ≤ _
    omega
  · show _ ≤ 57
    omega

theorem digitValue_digit (d : Nat) : digitValue (Digits.digit d) = d % 10 := by
  rw [digitValue, Digits.toNat_digit]
  exact Nat.add_sub_cancel_left 48 _

theorem digit_ne {c : Char} (d : Nat) (h : isDigit c = false) : Digits.digit d ≠ c := by
  intro hc
  have hd := isDigit_digit d
  rw [hc, h] at hd
  cases hd

theorem isDigit_of_mem_decimal {n : Nat} {c : Char} (h : c ∈ Digits.decimal n) : isDigit c := by
  obtain ⟨d, rfl⟩ := Digits.exists_digit_of_mem_decimal h
  exact isDigit_digit d

/-- Nothing is left over of digits that make a number below `2 ^ 64`. -/
theorem extendSignificand_append {n m : Nat} {ds : List Char} (c : Char)
    (hds : extendSignificand n ds = (m, 0)) (hlt : m * 10 + digitValue c < UInt64.size) :
    extendSignificand n (ds ++ [c]) = (m * 10 + digitValue c, 0) := by
  induction ds generalizing n with
  | nil =>
    cases hds
    simp only [List.nil_append, extendSignificand, if_pos hlt]
  | cons d ds ih =>
    simp only [extendSignificand, List.cons_append] at hds ⊢
    split at hds
    · next hd =>
      rw [if_pos hd]
      exact ih hds
    · cases hds

theorem extendSignificand_decimal {n : Nat} (h : n < UInt64.size) :
    extendSignificand 0 (Digits.decimal n) = (n, 0) := by
  induction n using Digits.decimal.induct with
  | case1 n hn =>
    have hv : 0 * 10 + n % 10 = n := by omega
    rw [Digits.decimal_of_lt hn]
    simp only [extendSignificand, digitValue_digit, hv, if_pos h]
  | case2 n hn ih =>
    have hv : n / 10 * 10 + digitValue (Digits.digit n) = n := by
      rw [digitValue_digit]
      omega
    rw [Digits.decimal_of_le (by omega),
      extendSignificand_append _ (ih (by omega)) (by rw [hv]; exact h), hv]

/-- The numeral of an integer whose magnitude has 64 bits. -/
def integer (negative : Bool) (n : Nat) : Numeral := ⟨negative, n, 0, true⟩

theorem takeWhile_decimal (n : Nat) (hr : EndsNumber rest) :
    (Digits.decimal n ++ rest).takeWhile isDigit = Digits.decimal n := by
  rw [List.takeWhile_append_of_pos fun c hc => isDigit_of_mem_decimal hc]
  cases rest with
  | nil => simp
  | cons c rest => simp [(hr c rfl).1]

theorem dropWhile_decimal (n : Nat) (hr : EndsNumber rest) :
    (Digits.decimal n ++ rest).dropWhile isDigit = rest := by
  rw [List.dropWhile_append_of_pos fun c hc => isDigit_of_mem_decimal hc]
  cases rest with
  | nil => rfl
  | cons c rest => simp [(hr c rfl).1]

theorem readWhole_decimal (n : Nat) (hr : EndsNumber rest) :
    readWhole (Digits.decimal n ++ rest) = some (Digits.decimal n, rest) := by
  rcases Nat.eq_zero_or_pos n with rfl | hn
  · rw [Digits.decimal_of_lt (by omega)]
    rfl
  · obtain ⟨d, ds, hds, hd⟩ := Digits.decimal_starts n
    have hne : (Digits.decimal n).isEmpty = false := by rw [hds]; rfl
    unfold readWhole
    split
    · next heq =>
      -- A zero in front would be read alone.
      rw [hds, List.cons_append, List.cons.injEq] at heq
      have h48 := congrArg Char.toNat heq.1
      rw [Digits.toNat_digit, show '0'.toNat = 48 from rfl] at h48
      have hpos := hd hn
      omega
    · simp only [takeWhile_decimal n hr, dropWhile_decimal n hr, hne, Bool.false_eq_true, if_false]

theorem readFraction_of_endsNumber (hr : EndsNumber rest) :
    readFraction rest = some (none, rest) := by
  unfold readFraction
  split
  · exact absurd rfl (hr _ rfl).2.1
  · rfl

theorem readExponent_of_endsNumber (hr : EndsNumber rest) :
    readExponent rest = some (none, rest) := by
  unfold readExponent
  split
  iterate 3 exact absurd rfl (hr _ rfl).2.2.1
  iterate 3 exact absurd rfl (hr _ rfl).2.2.2
  rfl

theorem readMagnitude_decimal {n : Nat} (negative : Bool) (h : n < UInt64.size)
    (hr : EndsNumber rest) :
    readMagnitude negative (Digits.decimal n ++ rest) = some (integer negative n, rest) := by
  simp only [readMagnitude, readWhole_decimal n hr, readFraction_of_endsNumber hr,
    readExponent_of_endsNumber hr, extendSignificand_decimal h, extendSignificand, integer,
    Option.bind_eq_bind, Option.bind_some, Option.getD_none, Option.isNone_none,
    Option.pure_def, List.length_nil]
  rfl

/-! ## Texts without escapes -/

/-- A character that stands for itself in a string. -/
def isPlain (c : Char) : Bool := 0x20 ≤ c.toNat && c ≠ '"' && c ≠ '\\'

theorem readPieces_plain {cs : List Char} (h : ∀ c ∈ cs, isPlain c) (rest : List Char) :
    readPieces (cs ++ '"' :: rest) = some (cs.map .char, rest) := by
  induction cs with
  | nil => rfl
  | cons c cs ih =>
    have ih := ih fun d hd => h d (List.mem_cons_of_mem c hd)
    have hc := h c List.mem_cons_self
    simp only [isPlain, Bool.and_eq_true, decide_eq_true_eq] at hc
    obtain ⟨⟨h20, hquote⟩, hslash⟩ := hc
    have hguard : ¬ (decide (c.toNat < 0x20) || decide (c = '\\')) = true := by
      simp only [Bool.or_eq_true, decide_eq_true_eq, not_or, Nat.not_lt]
      exact ⟨h20, hslash⟩
    rw [List.cons_append, readPieces]
    · rw [if_neg hguard, ih]
      rfl
    · exact hquote
    · intro _ _ _ _ _ hs
      exact absurd hs hslash
    · intro _ _ hs
      exact absurd hs hslash

theorem joinPieces_map_char (cs : List Char) : joinPieces (cs.map .char) = some cs := by
  induction cs with
  | nil => rfl
  | cons c cs ih =>
    rw [List.map_cons, joinPieces, ih]
    rfl

theorem readText_plain {cs : List Char} (h : ∀ c ∈ cs, isPlain c) (rest : List Char) :
    readText (cs ++ '"' :: rest) = some (some cs, rest) := by
  simp only [readText, readPieces_plain h, joinPieces_map_char, Option.bind_eq_bind,
    Option.bind_some, Option.pure_def]

/-! ## Values -/

/-- A text that the reader takes off the front of what follows it, as a value. -/
structure Spells (text : List Char) (v : Value) : Prop where
  /-- It starts with neither a blank nor the end of an array. -/
  starts : ∃ c cs, text = c :: cs ∧ isBlank c = false ∧ c ≠ ']'
  /-- The reader takes all of it. -/
  reads : ∀ {bound rest}, text.length < bound → EndsNumber rest →
    readValue bound (text ++ rest) = some (v, rest)

/-- Whether a number can start with a character. -/
def startsNumber (c : Char) : Bool := isDigit c || c = '-'

theorem ne_of_startsNumber {c d : Char} (hc : startsNumber c) (hd : startsNumber d = false) :
    c ≠ d := by
  rintro rfl
  rw [hd] at hc
  cases hc

theorem readValue_number {c : Char} {cs : List Char} (h : startsNumber c) :
    readValue (bound + 1) (c :: cs) = (readNumber (c :: cs)).map fun p => (.number p.1, p.2) := by
  rw [readValue]
  · cases readNumber (c :: cs) <;> rfl
  all_goals
    intro tail heq
    exact absurd (List.cons.inj heq).1 (ne_of_startsNumber h (by decide))

/-- Digits with a minus sign or without. -/
def signedDigits (negative : Bool) (n : Nat) : List Char :=
  (if negative then ['-'] else []) ++ Digits.decimal n

theorem signedDigits_starts (negative : Bool) (n : Nat) :
    ∃ c cs, signedDigits negative n = c :: cs ∧ startsNumber c := by
  cases negative with
  | true => exact ⟨'-', _, rfl, rfl⟩
  | false =>
    obtain ⟨d, ds, hds, -⟩ := Digits.decimal_starts n
    exact ⟨Digits.digit d, ds, hds, by rw [startsNumber, isDigit_digit]; rfl⟩

theorem readNumber_signedDigits {n : Nat} (negative : Bool) (h : n < UInt64.size)
    (hr : EndsNumber rest) :
    readNumber (signedDigits negative n ++ rest) = some (integer negative n, rest) := by
  have hread := readMagnitude_decimal negative h hr
  cases negative with
  | true => exact hread
  | false =>
    obtain ⟨d, ds, hds, -⟩ := Digits.decimal_starts n
    simp only [signedDigits, Bool.false_eq_true, if_false, List.nil_append]
    rw [hds, List.cons_append] at hread ⊢
    rw [readNumber, hread]
    intro tail heq
    exact absurd (List.cons.inj heq).1 (digit_ne d (by decide))

/-- **A decimal numeral below `2 ^ 64` spells its integer.** -/
theorem spells_integer {n : Nat} (negative : Bool) (h : n < UInt64.size) :
    Spells (signedDigits negative n) (.number (integer negative n)) := by
  obtain ⟨c, cs, hcs, hc⟩ := signedDigits_starts negative n
  have hblank : isBlank c = false := by
    simp [isBlank, ne_of_startsNumber hc (d := ' ') (by decide),
      ne_of_startsNumber hc (d := '\n') (by decide),
      ne_of_startsNumber hc (d := '\t') (by decide),
      ne_of_startsNumber hc (d := '\r') (by decide)]
  refine ⟨⟨c, cs, hcs, hblank, ne_of_startsNumber hc (by decide)⟩, fun {bound rest} hb hr => ?_⟩
  obtain ⟨b, rfl⟩ := Nat.exists_eq_succ_of_ne_zero (Nat.ne_zero_of_lt hb)
  have hread := readNumber_signedDigits negative h hr
  rw [hcs, List.cons_append] at hread ⊢
  rw [readValue_number hc, hread]
  rfl

theorem spells_boolean (b : Bool) : Spells (writeBool b) (.boolean b) := by
  cases b with
  | true =>
    refine ⟨⟨'t', _, rfl, rfl, by decide⟩, fun {bound rest} hb _ => ?_⟩
    obtain ⟨b, rfl⟩ := Nat.exists_eq_succ_of_ne_zero (Nat.ne_zero_of_lt hb)
    rfl
  | false =>
    refine ⟨⟨'f', _, rfl, rfl, by decide⟩, fun {bound rest} hb _ => ?_⟩
    obtain ⟨b, rfl⟩ := Nat.exists_eq_succ_of_ne_zero (Nat.ne_zero_of_lt hb)
    rfl

/-- A text whose characters all stand for themselves spells itself between quotes. -/
theorem spells_quote {s : String} (h : ∀ c ∈ s.toList, isPlain c) :
    Spells (quote s) (.text (some s.toList)) := by
  refine ⟨⟨'"', _, rfl, rfl, by decide⟩, fun {bound rest} hb _ => ?_⟩
  obtain ⟨b, rfl⟩ := Nat.exists_eq_succ_of_ne_zero (Nat.ne_zero_of_lt hb)
  have htext : quote s ++ rest = '"' :: (s.toList ++ '"' :: rest) := by simp [quote]
  rw [htext, readValue, readText_plain h rest]
  rfl

/-! ## Several values -/

/-- A spelling with blanks around it. -/
def SpellsPadded (text : List Char) (v : Value) : Prop := ∃ core, Padded core text ∧ Spells core v

theorem Spells.padded {v : Value} (h : Spells text v) : SpellsPadded text v :=
  ⟨text, padded_self text, h⟩

theorem SpellsPadded.starts {v : Value} (h : SpellsPadded text v) (rest : List Char) :
    ∃ c cs, skipBlanks (text ++ rest) = c :: cs ∧ c ≠ ']' := by
  obtain ⟨core, ⟨front, back, hf, -, rfl⟩, hs⟩ := h
  obtain ⟨c, cs, rfl, hc, hend⟩ := hs.starts
  refine ⟨c, cs ++ (back ++ rest), ?_, hend⟩
  rw [List.append_assoc, List.append_assoc, skipBlanks_append hf, List.cons_append,
    skipBlanks_cons hc]

/-- A character between two values or behind the last. -/
def isSeparator (c : Char) : Bool := c = ',' || c = ']' || c = '\x7d'

/-- The reader of a value stops in front of the separator, up to blanks. -/
theorem SpellsPadded.reads {v : Value} (h : SpellsPadded text v) (hb : text.length < bound)
    {c : Char} (hc : isSeparator c) (rest : List Char) :
    ∃ tail, readValue bound (skipBlanks (text ++ c :: rest)) = some (v, tail) ∧
      skipBlanks tail = c :: rest := by
  obtain ⟨core, ⟨front, back, hf, hback, rfl⟩, hs⟩ := h
  have hc' : isBlank c = false ∧ (c = ',' ∨ c = ']' ∨ c = '\x7d') := by
    simp only [isSeparator, Bool.or_eq_true, decide_eq_true_eq] at hc
    rcases hc with (rfl | rfl) | rfl <;> decide
  obtain ⟨d, ds, hcore, hd, -⟩ := hs.starts
  refine ⟨back ++ c :: rest, ?_, by rw [skipBlanks_append hback, skipBlanks_cons hc'.1]⟩
  have hskip : skipBlanks (front ++ core ++ back ++ c :: rest) = core ++ (back ++ c :: rest) := by
    rw [List.append_assoc, List.append_assoc, skipBlanks_append hf, hcore, List.cons_append,
      skipBlanks_cons hd]
  rw [hskip]
  refine hs.reads ?_ (endsNumber_blanks hback (endsNumber_cons (.inr hc'.2) rest))
  simp only [List.length_append] at hb
  omega

theorem exists_separated_cons (t : List Char) (texts : List (List Char)) :
    ∃ more, separated (t :: texts) = t ++ more := by
  cases texts with
  | nil => exact ⟨[], (List.append_nil t).symm⟩
  | cons t' texts => exact ⟨',' :: separated (t' :: texts), rfl⟩

theorem readElements_separated {texts : List (List Char)} {vs : List Value}
    (h : List.Forall₂ SpellsPadded texts vs) (hne : texts ≠ [])
    (hb : (separated texts).length + 1 < bound) (rest : List Char) :
    readElements bound (skipBlanks (separated texts ++ ']' :: rest)) = some (vs, rest) := by
  induction h generalizing bound with
  | nil => exact absurd rfl hne
  | @cons t v texts vs ht hts ih =>
    obtain ⟨b, rfl⟩ := Nat.exists_eq_succ_of_ne_zero (Nat.ne_zero_of_lt hb)
    cases hts with
    | nil =>
      have hlen : t.length < b := by
        simp only [separated] at hb
        omega
      obtain ⟨tail, hread, htail⟩ := ht.reads hlen (c := ']') rfl rest
      rw [separated, readElements, hread]
      simp only [Option.bind_eq_bind, Option.bind_some, htail, Option.pure_def]
    | @cons t' v' texts vs ht' hts =>
      obtain ⟨hlen, hlen'⟩ : t.length < b ∧ (separated (t' :: texts)).length + 1 < b := by
        simp only [separated, List.length_append, List.length_cons] at hb ⊢
        omega
      obtain ⟨tail, hread, htail⟩ :=
        ht.reads hlen (c := ',') rfl (separated (t' :: texts) ++ ']' :: rest)
      have hmore := ih (List.cons_ne_nil _ _) hlen'
      rw [separated, List.append_assoc, List.cons_append, readElements, hread]
      · simp only [Option.bind_eq_bind, Option.bind_some, htail, Option.pure_def, hmore]
      · exact List.cons_ne_nil _ _

/-- Items between two brackets, with commas between the items and blanks in front of them. -/
def Enclosed (left right : Char) (items : List (List Char)) (text : List Char) : Prop :=
  ∃ front, Blank front ∧ text = left :: front ++ separated items ++ [right]

/-- **Spellings between brackets spell an array.** -/
theorem spells_array {texts : List (List Char)} {vs : List Value}
    (h : List.Forall₂ SpellsPadded texts vs) (he : Enclosed '[' ']' texts text) :
    Spells text (.array vs) := by
  obtain ⟨front, hf, rfl⟩ := he
  refine ⟨⟨'[', _, rfl, rfl, by decide⟩, fun {bound rest} hb _ => ?_⟩
  obtain ⟨b, rfl⟩ := Nat.exists_eq_succ_of_ne_zero (Nat.ne_zero_of_lt hb)
  have hskip : skipBlanks (front ++ (separated texts ++ ']' :: rest)) =
      skipBlanks (separated texts ++ ']' :: rest) := skipBlanks_append hf _
  simp only [List.cons_append, List.append_assoc, List.nil_append]
  rw [readValue, hskip]
  cases h with
  | nil => rfl
  | @cons t v texts vs ht hts =>
    have hlen : (separated (t :: texts)).length + 1 < b := by
      simp only [List.length_append, List.length_cons, List.length_nil] at hb
      omega
    have hread := readElements_separated (.cons ht hts) (List.cons_ne_nil t texts) hlen rest
    obtain ⟨more, hmore⟩ := exists_separated_cons t texts
    obtain ⟨c, cs, hstart, hc⟩ := ht.starts (more ++ ']' :: rest)
    rw [hmore, List.append_assoc, hstart] at hread ⊢
    split
    · next heq => exact absurd (List.cons.inj heq).1 hc
    · rw [hread]
      rfl

/-! ## Members -/

/-- A key between quotes, a colon and a spelling, with blanks around the key and the spelling. -/
def SpellsMember (text : List Char) (e : String × Value) : Prop :=
  (∀ c ∈ e.1.toList, isPlain c) ∧
    ∃ key value, Padded (quote e.1) key ∧ SpellsPadded value e.2 ∧ text = key ++ ':' :: value

theorem SpellsMember.starts {e : String × Value} (h : SpellsMember text e) (rest : List Char) :
    ∃ cs, skipBlanks (text ++ rest) = '"' :: cs := by
  obtain ⟨-, key, value, ⟨front, back, hf, -, rfl⟩, -, rfl⟩ := h
  have hassoc : front ++ quote e.1 ++ back ++ ':' :: value ++ rest =
      front ++ '"' :: (e.1.toList ++ '"' :: (back ++ ':' :: (value ++ rest))) := by simp [quote]
  exact ⟨_, by rw [hassoc, skipBlanks_append hf]; exact skipBlanks_cons rfl _⟩

/-- The readers of a key and of a value come to the colon and to the separator, up to blanks. -/
theorem SpellsMember.reads {e : String × Value} (h : SpellsMember text e)
    (hb : text.length < bound) {c : Char} (hc : isSeparator c) (rest : List Char) :
    ∃ after more tail, skipBlanks (text ++ c :: rest) = '"' :: (e.1.toList ++ '"' :: after) ∧
      skipBlanks after = ':' :: more ∧ readValue bound (skipBlanks more) = some (e.2, tail) ∧
      skipBlanks tail = c :: rest := by
  obtain ⟨-, key, value, ⟨front, back, hf, hback, rfl⟩, hv, rfl⟩ := h
  have hlen : value.length < bound := by
    simp only [List.length_append, List.length_cons] at hb
    omega
  obtain ⟨tail, hread, htail⟩ := hv.reads hlen hc rest
  have hassoc : front ++ quote e.1 ++ back ++ ':' :: value ++ c :: rest =
      front ++ '"' :: (e.1.toList ++ '"' :: (back ++ ':' :: (value ++ c :: rest))) := by
    simp [quote]
  refine ⟨back ++ ':' :: (value ++ c :: rest), _, tail, ?_, ?_, hread, htail⟩
  · rw [hassoc, skipBlanks_append hf]
    exact skipBlanks_cons rfl _
  · rw [skipBlanks_append hback]
    exact skipBlanks_cons rfl _

/-- The members of an object with the given keys and values. -/
def entries (es : List (String × Value)) : List (Option (List Char) × Value) :=
  es.map fun e => (some e.1.toList, e.2)

theorem readMembers_separated {texts : List (List Char)} {es : List (String × Value)}
    (h : List.Forall₂ SpellsMember texts es) (hne : texts ≠ [])
    (hb : (separated texts).length + 1 < bound) (rest : List Char) :
    readMembers bound (skipBlanks (separated texts ++ '\x7d' :: rest)) =
      some (entries es, rest) := by
  induction h generalizing bound with
  | nil => exact absurd rfl hne
  | @cons t e texts es ht hts ih =>
    obtain ⟨b, rfl⟩ := Nat.exists_eq_succ_of_ne_zero (Nat.ne_zero_of_lt hb)
    cases hts with
    | nil =>
      have hlen : t.length < b := by
        simp only [separated] at hb
        omega
      obtain ⟨after, more, tail, hstart, hcolon, hread, htail⟩ :=
        ht.reads hlen (c := '\x7d') rfl rest
      rw [separated, hstart, readMembers, readText_plain ht.1]
      simp only [Option.bind_eq_bind, Option.bind_some, hcolon, hread, htail, Option.pure_def]
      rfl
    | @cons t' e' texts es ht' hts =>
      obtain ⟨hlen, hlen'⟩ : t.length < b ∧ (separated (t' :: texts)).length + 1 < b := by
        simp only [separated, List.length_append, List.length_cons] at hb ⊢
        omega
      obtain ⟨after, more, tail, hstart, hcolon, hread, htail⟩ :=
        ht.reads hlen (c := ',') rfl (separated (t' :: texts) ++ '\x7d' :: rest)
      have hmore := ih (List.cons_ne_nil _ _) hlen'
      rw [separated, List.append_assoc, List.cons_append, hstart, readMembers,
        readText_plain ht.1]
      · simp only [Option.bind_eq_bind, Option.bind_some, hcolon, hread, htail, hmore,
          Option.pure_def]
        rfl
      · exact List.cons_ne_nil _ _

/-- **Members between braces spell an object.** -/
theorem spells_object {texts : List (List Char)} {es : List (String × Value)}
    (h : List.Forall₂ SpellsMember texts es) (he : Enclosed '\x7b' '\x7d' texts text) :
    Spells text (.object (entries es)) := by
  obtain ⟨front, hf, rfl⟩ := he
  refine ⟨⟨'\x7b', _, rfl, rfl, by decide⟩, fun {bound rest} hb _ => ?_⟩
  obtain ⟨b, rfl⟩ := Nat.exists_eq_succ_of_ne_zero (Nat.ne_zero_of_lt hb)
  have hskip : skipBlanks (front ++ (separated texts ++ '\x7d' :: rest)) =
      skipBlanks (separated texts ++ '\x7d' :: rest) := skipBlanks_append hf _
  simp only [List.cons_append, List.append_assoc, List.nil_append]
  rw [readValue, hskip]
  cases h with
  | nil => rfl
  | @cons t e texts es ht hts =>
    have hlen : (separated (t :: texts)).length + 1 < b := by
      simp only [List.length_append, List.length_cons, List.length_nil] at hb
      omega
    have hread := readMembers_separated (.cons ht hts) (List.cons_ne_nil t texts) hlen rest
    obtain ⟨more, hmore⟩ := exists_separated_cons t texts
    obtain ⟨cs, hstart⟩ := ht.starts (more ++ '\x7d' :: rest)
    rw [hmore, List.append_assoc, hstart] at hread ⊢
    show (readMembers b ('"' :: cs)).bind _ = _
    rw [hread]
    rfl

/-! ## Documents -/

/-- **A spelling with blanks around it is the document of its value.** -/
theorem parse_of_spells {v : Value} (h : SpellsPadded text v) : parse text = some v := by
  obtain ⟨core, ⟨front, back, hf, hback, rfl⟩, hs⟩ := h
  obtain ⟨c, cs, hcore, hc, -⟩ := hs.starts
  have hskip : skipBlanks (front ++ core ++ back) = core ++ back := by
    rw [List.append_assoc, skipBlanks_append hf, hcore, List.cons_append, skipBlanks_cons hc]
  have hend : EndsNumber back := by simpa using endsNumber_blanks hback endsNumber_nil
  have hlen : core.length < (front ++ core ++ back).length + 1 := by
    simp only [List.length_append]
    omega
  have hread := hs.reads hlen hend
  have hrest : skipBlanks back = [] := by
    rw [← List.append_nil back, skipBlanks_append hback]
    rfl
  rw [parse, hskip, hread]
  simp [hrest]

end Interchange.Json
