import Interchange.Message

/-!
# Messages that are set value by value

Values are set in any order, and again at numbers that were set before. `Fields.last?` is what a
history of settings leaves at a number, and `Message.Holds` says of a message that it holds what a
history leaves: `holds_setAll` for a new message that is set value by value.

Nothing but the type and the values tells messages apart, so two histories make one message when
they leave the same: `setAll_new_eq_iff`.
-/

namespace Interchange

namespace Fields

section

variable {f g : Fields} {es : List (UInt8 × FieldValue)} {i : UInt8} {v : FieldValue}

/-! ## One setting -/

theorem lookup_cons_eq (j i : UInt8) (v : FieldValue) (es : List (UInt8 × FieldValue)) :
    ((i, v) :: es).lookup j = if j = i then some v else es.lookup j := by
  rw [List.lookup_cons]
  by_cases h : j = i
  · rw [if_pos h, h, beq_self_eq_true]
  · rw [if_neg h, beq_false_of_ne h]

theorem lookup_insertEntry (i : UInt8) (v : FieldValue) (es : List (UInt8 × FieldValue))
    (j : UInt8) :
    (insertEntry i v es).lookup j = if j = i then some v else es.lookup j := by
  induction es with
  | nil => exact lookup_cons_eq j i v []
  | cons e es ih =>
    obtain ⟨k, u⟩ := e
    rw [insertEntry]
    split
    · exact lookup_cons_eq j i v _
    split
    · next hk =>
      rw [lookup_cons_eq, lookup_cons_eq, ← show i = k from hk]
      by_cases hj : j = i
      · rw [if_pos hj, if_pos hj]
      · rw [if_neg hj, if_neg hj, if_neg hj]
    · next hk =>
      rw [lookup_cons_eq, lookup_cons_eq, ih]
      by_cases hj : j = i
      · rw [if_pos hj, if_pos hj, if_neg (hj ▸ hk)]
      · rw [if_neg hj, if_neg hj]

/-- A setting is seen at its own number and at no other. -/
theorem get?_insert (f : Fields) (i : UInt8) (v : FieldValue) (j : UInt8) :
    (f.insert i v).get? j = if j = i then some v else f.get? j :=
  lookup_insertEntry i v f.entries j

theorem isSome_get?_iff : (f.get? i).isSome ↔ i ∈ f.indices := by
  constructor
  · intro h
    obtain ⟨v, hv⟩ := Option.isSome_iff_exists.1 h
    exact List.mem_map_of_mem (f := (·.1)) (mem_of_get? hv)
  · intro h
    obtain ⟨v, hv⟩ := exists_get?_of_mem h
    rw [hv]
    rfl

/-- Fields are told apart by their values: the numbers ascend, so the same entries stand in the same
order. -/
theorem ext_get? (h : ∀ i, f.get? i = g.get? i) : f = g := by
  have hmem (e : UInt8 × FieldValue) : e ∈ f.entries ↔ e ∈ g.entries := by
    constructor
    · intro he
      exact mem_of_get? ((h e.1).symm.trans (get?_of_mem he))
    · intro he
      exact mem_of_get? ((h e.1).trans (get?_of_mem he))
  have hnodup (f : Fields) : f.entries.Nodup := by
    refine f.ascending.imp fun hab he => ?_
    rw [he] at hab
    exact UInt8.lt_irrefl _ hab
  have hperm : f.entries.Perm g.entries := (List.perm_ext_iff_of_nodup (hnodup f) (hnodup g)).2 hmem
  refine ext (hperm.eq_of_pairwise (fun a b _ _ hab hba => ?_) f.ascending g.ascending)
  exact absurd hba (UInt8.lt_asymm hab)

/-! ## Histories of settings -/

/-- What a history leaves at a number: the value that was set there last, if any was. -/
def last? (es : List (UInt8 × FieldValue)) (i : UInt8) : Option FieldValue := es.reverse.lookup i

theorem last?_cons (e : UInt8 × FieldValue) (es : List (UInt8 × FieldValue)) (i : UInt8) :
    last? (e :: es) i = (last? es i).or (if i = e.1 then some e.2 else none) := by
  rw [last?, List.reverse_cons, List.lookup_append, lookup_cons_eq]
  rfl

theorem mem_of_last? (h : last? es i = some v) : (i, v) ∈ es := by
  obtain ⟨before, after, hsplit, -⟩ := List.lookup_eq_some_iff.1 h
  rw [← List.mem_reverse, hsplit]
  simp

theorem isSome_last?_iff : (last? es i).isSome ↔ i ∈ es.map (·.1) := by
  rw [last?, List.lookup_isSome_iff, List.mem_map]
  constructor
  · rintro ⟨e, he, hi⟩
    exact ⟨e, List.mem_reverse.1 he, (eq_of_beq hi).symm⟩
  · rintro ⟨e, he, rfl⟩
    exact ⟨e, List.mem_reverse.2 he, beq_self_eq_true _⟩

end

end Fields

namespace Message

open Fields

section

variable {m n : Message} {mti : UInt16} {es : List (UInt8 × FieldValue)}

/-- Messages are told apart by their types and their values. -/
theorem ext_field? (hmti : m.mti = n.mti) (h : ∀ i, m.field? i = n.field? i) : m = n := by
  have hfields : m.fields = n.fields := ext_get? h
  cases m
  cases n
  cases hmti
  cases hfields
  rfl

theorem field?_set (m : Message) (i : UInt8) (v : FieldValue) (j : UInt8) :
    (m.set i v).field? j = if j = i then some v else m.field? j :=
  get?_insert m.fields i v j

theorem setAll_cons (m : Message) (e : UInt8 × FieldValue) (es : List (UInt8 × FieldValue)) :
    m.setAll (e :: es) = (m.set e.1 e.2).setAll es := rfl

@[simp] theorem mti_setAll (m : Message) (es : List (UInt8 × FieldValue)) :
    (m.setAll es).mti = m.mti := by
  induction es generalizing m with
  | nil => rfl
  | cons e es ih => exact ih (m.set e.1 e.2)

/-- A history leaves its last values, and what was there before where it sets none. -/
theorem field?_setAll (m : Message) (es : List (UInt8 × FieldValue)) (i : UInt8) :
    (m.setAll es).field? i = (last? es i).or (m.field? i) := by
  induction es generalizing m with
  | nil => rfl
  | cons e es ih =>
    rw [setAll_cons, ih, field?_set, last?_cons, Option.or_assoc]
    by_cases hi : i = e.1
    · rw [if_pos hi, if_pos hi, Option.some_or]
    · rw [if_neg hi, if_neg hi, Option.none_or]

/-- A new message that is set value by value has the fields of the history. -/
theorem setAll_new (mti : UInt16) (es : List (UInt8 × FieldValue)) :
    (new mti).setAll es = ⟨mti, ofList es⟩ := by
  suffices h : ∀ f : Fields, (⟨mti, f⟩ : Message).setAll es =
      ⟨mti, es.foldl (fun f e => f.insert e.1 e.2) f⟩ from h .empty
  induction es with
  | nil => exact fun _ => rfl
  | cons e es ih => exact fun f => ih (f.insert e.1 e.2)

/-! ## What a history leaves -/

/-- A message is of a type and holds what a history leaves. -/
structure Holds (m : Message) (mti : UInt16) (es : List (UInt8 × FieldValue)) : Prop where
  /-- It is of the type. -/
  mti : m.mti = mti
  /-- Its numbers ascend strictly. -/
  ascending : m.fields.indices.Pairwise (· < ·)
  /-- They are the numbers that were set. -/
  indices : ∀ i, i ∈ m.fields.indices ↔ i ∈ es.map (·.1)
  /-- At each number stands the value that was set last, and none where none was set. -/
  field? : ∀ i, m.field? i = last? es i

theorem holds_of_field? (hmti : m.mti = mti) (h : ∀ i, m.field? i = last? es i) :
    m.Holds mti es where
  mti := hmti
  ascending := List.pairwise_map.2 m.fields.ascending
  indices i := by
    rw [← isSome_get?_iff, ← isSome_last?_iff, ← h i]
    rfl
  field? := h

/-- **A new message that is set value by value** holds what the history leaves. -/
theorem holds_setAll (mti : UInt16) (es : List (UInt8 × FieldValue)) :
    ((new mti).setAll es).Holds mti es := by
  refine holds_of_field? (mti_setAll ..) fun i => ?_
  rw [field?_setAll]
  exact Option.or_none

theorem Holds.response (h : m.Holds mti es) : m.response.Holds (Mti.response mti) es :=
  holds_of_field? (congrArg Mti.response h.mti) h.field?

/-- No two messages hold what one history leaves. -/
theorem Holds.unique (h : m.Holds mti es) (h' : n.Holds mti es) : m = n :=
  ext_field? (h.mti.trans h'.mti.symm) fun i => (h.field? i).trans (h'.field? i).symm

/-- A history whose values all have a property leaves no others. -/
theorem Holds.forall_entries {P : FieldValue → Prop} (h : m.Holds mti es) (hes : ∀ e ∈ es, P e.2) :
    ∀ e ∈ m.fields.entries, P e.2 := by
  intro e he
  have hlast : last? es e.1 = some e.2 := (h.field? e.1).symm.trans (get?_of_mem he)
  exact hes _ (mem_of_last? hlast)

end

/-- **Two histories make one message** when they leave the same. -/
theorem setAll_new_eq_iff (mti mti' : UInt16) (es es' : List (UInt8 × FieldValue)) :
    (new mti).setAll es = (new mti').setAll es' ↔ mti = mti' ∧ ∀ i, last? es i = last? es' i := by
  have h := holds_setAll mti es
  have h' := holds_setAll mti' es'
  constructor
  · intro heq
    rw [heq] at h
    exact ⟨h.mti.symm.trans h'.mti, fun i => (h.field? i).symm.trans (h'.field? i)⟩
  · rintro ⟨rfl, hlast⟩
    refine ext_field? (h.mti.trans h'.mti.symm) fun i => ?_
    rw [h.field?, h'.field?, hlast]

end Message

end Interchange
