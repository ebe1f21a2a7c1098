import Interchange.Journal

/-!
# What the message log shows

Two messages are alike for a logger if they have the same type and the same numbers, values of the
same kind and the same logged length at each number, the same value at every number that does not
count as sensitive, and account numbers with the same ends. `format_eq_of_alike` says that a logger
that masks sensitive values logs two such messages with the same text, so the log carries nothing
else of a sensitive value.

An account number shows its ends and its length and nothing else (`maskAccount_eq_iff`). Characters
are counted, not bytes.
-/

namespace Interchange

namespace Logger

/-- Texts of the same length with the same first six and the same last four characters; those of at
most ten characters are equal. -/
structure SameEnds (cs ds : List Char) : Prop where
  length : cs.length = ds.length
  first : cs.take 6 = ds.take 6
  last : cs.drop (cs.length - 4) = ds.drop (ds.length - 4)

/-- Two messages that the masked log of a logger does not tell apart. -/
structure Alike (l : Logger) (m m' : Message) : Prop where
  /-- They have the same type. -/
  mti : m.mti = m'.mti
  /-- They have the same numbers. -/
  indices : m.fields.indices = m'.fields.indices
  /-- The values at a number are of the same kind. -/
  kind : ∀ i v v', m.field? i = some v → m'.field? i = some v' → kind v = kind v'
  /-- They have the same logged length. -/
  length : ∀ i v v', m.field? i = some v → m'.field? i = some v' → length v = length v'
  /-- They are equal at every number that is not sensitive. -/
  plain : ∀ i, i ≠ accountField → i ∉ l.sensitive → m.field? i = m'.field? i
  /-- The account numbers are shown with the same ends. -/
  account : ∀ v v', m.field? accountField = some v → m'.field? accountField = some v' →
    SameEnds v.chars v'.chars

/-- Being alike is a matter of the entries with the same number. -/
theorem alike_iff {l : Logger} {m m' : Message} : l.Alike m m' ↔
    m.mti = m'.mti ∧ m.fields.indices = m'.fields.indices ∧
      ∀ e ∈ m.fields.entries, ∀ e' ∈ m'.fields.entries, e.1 = e'.1 →
        kind e.2 = kind e'.2 ∧ length e.2 = length e'.2 ∧
          (e.1 ≠ accountField → e.1 ∉ l.sensitive → e.2 = e'.2) ∧
          (e.1 = accountField → SameEnds e.2.chars e'.2.chars) := by
  constructor
  · intro h
    refine ⟨h.mti, h.indices, fun (i, v) hv (i', v') hv' hi => ?_⟩
    cases hi
    have hfield := Fields.get?_of_mem hv
    have hfield' := Fields.get?_of_mem hv'
    refine ⟨h.kind i v v' hfield hfield', h.length i v v' hfield hfield', fun hi hs => ?_, ?_⟩
    · have hplain := h.plain i hi hs
      rwa [Message.field?, Message.field?, hfield, hfield', Option.some.injEq] at hplain
    · rintro rfl
      exact h.account v v' hfield hfield'
  · rintro ⟨hmti, hindices, h⟩
    have hentries (i : UInt8) (v v' : FieldValue) (hv : m.field? i = some v)
        (hv' : m'.field? i = some v') :=
      h (i, v) (Fields.mem_of_get? hv) (i, v') (Fields.mem_of_get? hv') rfl
    refine ⟨hmti, hindices, fun i v v' hv hv' => (hentries i v v' hv hv').1,
      fun i v v' hv hv' => (hentries i v v' hv hv').2.1, fun i hi hs => ?_,
      fun v v' hv hv' => (hentries _ v v' hv hv').2.2.2 rfl⟩
    by_cases hmem : i ∈ m.fields.indices
    · obtain ⟨v, hv⟩ := Fields.exists_get?_of_mem hmem
      obtain ⟨v', hv'⟩ := Fields.exists_get?_of_mem (hindices ▸ hmem)
      have heq : v = v' := (hentries i v v' hv hv').2.2.1 hi hs
      exact hv.trans (heq ▸ hv'.symm)
    · have hmem' : i ∉ m'.fields.indices := hindices ▸ hmem
      exact (Fields.get?_eq_none hmem).trans (Fields.get?_eq_none hmem').symm

instance (cs ds : List Char) : Decidable (SameEnds cs ds) :=
  decidable_of_iff (cs.length = ds.length ∧ cs.take 6 = ds.take 6 ∧
      cs.drop (cs.length - 4) = ds.drop (ds.length - 4))
    ⟨fun ⟨hn, hf, hl⟩ => ⟨hn, hf, hl⟩, fun h => ⟨h.length, h.first, h.last⟩⟩

instance (l : Logger) (m m' : Message) : Decidable (l.Alike m m') :=
  decidable_of_iff _ alike_iff.symm

/-! ## Account numbers -/

theorem length_maskAccount (cs : List Char) : (maskAccount cs).length = cs.length := by
  simp [maskAccount]

theorem getElem?_maskAccount (cs : List Char) (i : Nat) : (maskAccount cs)[i]? =
    cs[i]?.map fun c => if 6 ≤ i ∧ i + 4 < cs.length then '*' else c := by
  simp only [maskAccount, List.getElem?_map, List.getElem?_zipIdx, Option.map_map]
  cases cs[i]? <;> simp

theorem getElem?_maskAccount_of_hidden {cs : List Char} {i : Nat}
    (h : 6 ≤ i ∧ i + 4 < cs.length) : (maskAccount cs)[i]? = some '*' := by
  have hi : i < cs.length := by omega
  simp [getElem?_maskAccount, h, List.getElem?_eq_getElem hi]

theorem getElem?_maskAccount_of_shown {cs : List Char} {i : Nat}
    (h : ¬ (6 ≤ i ∧ i + 4 < cs.length)) : (maskAccount cs)[i]? = cs[i]? := by
  simp [getElem?_maskAccount, h]

/-- Texts have the same ends if they have the same length and agree wherever they are shown. -/
theorem sameEnds_iff {cs ds : List Char} : SameEnds cs ds ↔ cs.length = ds.length ∧
    ∀ i, ¬ (6 ≤ i ∧ i + 4 < cs.length) → cs[i]? = ds[i]? := by
  constructor
  · intro h
    refine ⟨h.length, fun i hi => ?_⟩
    by_cases hfirst : i < 6
    · rw [← List.getElem?_take_of_lt hfirst, h.first, List.getElem?_take_of_lt hfirst]
    · have hplace : i = cs.length - 4 + (i - (cs.length - 4)) := by omega
      rw [hplace, ← List.getElem?_drop, h.last, List.getElem?_drop, h.length]
  · rintro ⟨hlength, hshown⟩
    refine ⟨hlength, List.ext_getElem? fun i => ?_, List.ext_getElem? fun i => ?_⟩
    · by_cases hi : i < 6
      · rw [List.getElem?_take_of_lt hi, List.getElem?_take_of_lt hi, hshown i (by omega)]
      · rw [List.getElem?_take, List.getElem?_take, if_neg hi, if_neg hi]
    · rw [List.getElem?_drop, List.getElem?_drop, ← hlength, hshown _ (by omega)]

/-- **An account number shows its length and its ends**, and nothing else. -/
theorem maskAccount_eq_iff {cs ds : List Char} :
    maskAccount cs = maskAccount ds ↔ SameEnds cs ds := by
  rw [sameEnds_iff]
  constructor
  · intro h
    have hlength : cs.length = ds.length := by
      rw [← length_maskAccount cs, h, length_maskAccount]
    refine ⟨hlength, fun i hi => ?_⟩
    rw [← getElem?_maskAccount_of_shown hi, h, getElem?_maskAccount_of_shown (hlength ▸ hi)]
  · rintro ⟨hlength, hshown⟩
    refine List.ext_getElem? fun i => ?_
    by_cases hi : 6 ≤ i ∧ i + 4 < cs.length
    · rw [getElem?_maskAccount_of_hidden hi, getElem?_maskAccount_of_hidden (hlength ▸ hi)]
    · rw [getElem?_maskAccount_of_shown hi, getElem?_maskAccount_of_shown (hlength ▸ hi),
        hshown i hi]

/-! ## Messages -/

variable {l : Logger} {m m' : Message} {i : UInt8} {v v' : FieldValue}

/-- What is shown of the values of two alike messages at a number is the same. -/
theorem shown_eq_of_alike (hl : l.showSensitive = false) (h : l.Alike m m')
    (hv : m.field? i = some v) (hv' : m'.field? i = some v') : l.shown i v = l.shown i v' := by
  simp only [shown, hl, Bool.false_eq_true, ↓reduceIte]
  split
  · next hi =>
    rw [hi] at hv hv'
    exact maskAccount_eq_iff.2 (h.account v v' hv hv')
  · next hi =>
    split
    · rfl
    · next hsensitive =>
      have hplain := h.plain i hi (by simpa using hsensitive)
      rw [hv, hv'] at hplain
      rw [Option.some.inj hplain]

theorem line_eq_of_alike (hl : l.showSensitive = false) (h : l.Alike m m')
    (hv : m.field? i = some v) (hv' : m'.field? i = some v') : l.line i v = l.line i v' := by
  unfold line
  rw [h.kind i v v' hv hv', h.length i v v' hv hv', shown_eq_of_alike hl h hv hv']

/-- Entries with the same numbers give the same text if they do so one by one. -/
theorem flatMap_eq_of_indices_eq {f : UInt8 → FieldValue → List Char}
    {es es' : List (UInt8 × FieldValue)} (hes : es.map (·.1) = es'.map (·.1))
    (hf : ∀ i v v', (i, v) ∈ es → (i, v') ∈ es' → f i v = f i v') :
    es.flatMap (fun e => f e.1 e.2) = es'.flatMap fun e => f e.1 e.2 := by
  induction es generalizing es' with
  | nil =>
    rw [List.map_nil, eq_comm, List.map_eq_nil_iff] at hes
    rw [hes]
  | cons e es ih =>
    cases es' with
    | nil => cases hes
    | cons e' es' =>
      obtain ⟨i, v⟩ := e
      obtain ⟨i', v'⟩ := e'
      obtain ⟨hfirst, hrest⟩ := List.cons.inj hes
      cases hfirst
      have hhead : f i v = f i v' := hf i v v' List.mem_cons_self List.mem_cons_self
      rw [List.flatMap_cons, List.flatMap_cons, hhead,
        ih hrest fun i v v' hv hv' => hf i v v' (.tail _ hv) (.tail _ hv')]

/-- **Masked values do not show**: a logger that masks sensitive values logs two alike messages with
the same text. -/
theorem format_eq_of_alike (l : Logger) (hl : l.showSensitive = false) {m m' : Message}
    (h : l.Alike m m') : l.format m = l.format m' := by
  have hlines : m.fields.entries.flatMap (fun e => l.line e.1 e.2) =
      m'.fields.entries.flatMap fun e => l.line e.1 e.2 :=
    flatMap_eq_of_indices_eq h.indices fun i v v' hv hv' =>
      line_eq_of_alike hl h (Fields.get?_of_mem hv) (Fields.get?_of_mem hv')
  unfold format
  rw [h.mti, hlines]

/-- Two payments with different account numbers, of which one has a letter of two bytes in it where
the other has not, and with different track data. -/
theorem format_eq_of_alike_payments :
    let l : Logger := ⟨false, [35, 45]⟩
    let payment (account track : String) (data : List UInt8) : Message :=
      (Message.new 0x0200).setAll
        [(2, .llvar account), (4, .numeric 1500 12), (35, .alpha track 4), (45, .binary data)]
    let m := payment "400000é1234567899" "abc" [1, 2]
    let m' := payment "400000987ü4567899" "xyzuvw" [3, 4]
    l.showSensitive = false ∧ l.Alike m m' ∧ m ≠ m' ∧ l.format m = l.format m' := by
  intro l payment m m'
  have halike : l.Alike m m' := by decide +kernel
  exact ⟨rfl, halike, by decide +kernel, format_eq_of_alike l rfl halike⟩

end Logger

end Interchange
