import Interchange.Proofs.Json.Spelling
import Interchange.Proofs.Settings.Replacing

/-!
# Settings are read back from their documents

A document gives some of the settings under their keys, and a client's the time to wait beside
them. Loaded, it makes what the same assignments make, whatever the order of its members and
whatever blanks stand between its tokens; printed settings are one such document.

* `SettingName.read?_encode`, `SettingName.spells_of_isWritten`: the value of one of the settings.
* `parse_of_isDocument`, `DocumentItem.ofMembers?_members`: from the text to the assignments.
* `isDecodable_object`: a client's document can be decoded, its 64-bit numbers included.
* `documents_agree_with_setters`: printing and loading, and documents against assignments.
-/

namespace Interchange

open Json

/-! ## Values of settings -/

/-- A natural number as a JSON value. -/
def unsigned (n : Nat) : Value := .number (integer false n)

namespace SettingName

/-- The JSON value of one of the settings. -/
def encode : (name : SettingName) → name.Value → Json.Value
  | lengthWidth, v => unsigned v.toNat
  | lengthOffset, v => unsigned v.toNat
  | lengthAdjustment, v => .number (integer (v.toInt < 0) v.toInt.natAbs)
  | lengthDecimal, v => .boolean v
  | maxFrameLength, v => unsigned v.toNat
  | idleTimeout, v => unsigned v.toNat
  | answerEchoes, v => .boolean v
  | replyOnError, v => .boolean v
  | workerThreads, v => unsigned v.toNat
  | failOnListenerError, v => .boolean v
  | echoRule, v => .text (some v.name.toList)
  | logMessages, v => .boolean v
  | logSensitive, v => .boolean v
  | sensitiveFields, v => .array (v.map fun b => unsigned b.toNat)
  | maxPendingWrites, v => unsigned v.toNat

/-- A text of the value of one of the settings: what `write` writes, or an array with blanks between
its tokens. -/
def IsWritten : (name : SettingName) → name.Value → List Char → Prop
  | sensitiveFields, v, text =>
    ∃ items, List.Forall₂ (fun (b : UInt8) => Padded (Digits.decimal b.toNat)) v items ∧
      Enclosed '[' ']' items text
  | name, v, text => text = name.write v

end SettingName

theorem readUnsigned?_unsigned {bits n : Nat} (h : n < Nat.pow 2 bits) :
    readUnsigned? bits (unsigned n) = some n := by
  simp only [readUnsigned?, unsigned, integer, Numeral.toNat?, Numeral.magnitude?,
    Bool.false_eq_true, if_false, Bool.true_and, decide_true, if_true, Option.bind_eq_bind,
    Option.bind_some, if_pos h, Option.pure_def]

theorem readWord?_unsigned (v : UInt64) : readWord? (unsigned v.toNat) = some v := by
  rw [readWord?, readUnsigned?_unsigned v.toNat_lt, Option.map_some, UInt64.ofNat_toNat]

theorem readSigned32?_integer (v : Int32) :
    readSigned32? (.number (integer (v.toInt < 0) v.toInt.natAbs)) = some v := by
  have hread : (integer (v.toInt < 0) v.toInt.natAbs).toInt? = some v.toInt := by
    simp only [Numeral.toInt?, Numeral.magnitude?, integer, Bool.true_and, decide_true, if_true,
      Option.bind_eq_bind, Option.bind_some, decide_eq_true_eq]
    split
    · next h =>
      rw [if_neg (by omega), Option.pure_def, Int.ofNat_natAbs_of_nonpos (by omega), Int.neg_neg]
    · next h => rw [Option.pure_def, Int.natAbs_of_nonneg (by omega)]
  rw [readSigned32?, hread, Option.bind_eq_bind, Option.bind_some,
    if_pos ⟨v.minValue_le_toInt, v.toInt_le⟩, Int32.ofInt_toInt]
  rfl

theorem readOctets?_map (v : List UInt8) :
    readOctets? (.array (v.map fun b => unsigned b.toNat)) = some v := by
  rw [readOctets?]
  induction v with
  | nil => rfl
  | cons b v ih =>
    rw [List.map_cons, List.mapM_cons, readUnsigned?_unsigned b.toNat_lt, ih]
    simp

/-- **The value of one of the settings is read back.** -/
theorem SettingName.read?_encode (name : SettingName) (v : name.Value) :
    name.read? (name.encode v) = some v := by
  cases name
  case lengthAdjustment => exact readSigned32?_integer v
  case sensitiveFields => exact readOctets?_map v
  case echoRule => cases v <;> decide
  all_goals first | rfl | exact readWord?_unsigned v

theorem spells_unsigned {n : Nat} (h : n < UInt64.size) : Spells (Digits.decimal n) (unsigned n) :=
  spells_integer false h

theorem signed_eq (i : Int) : (Digits.signed i).toList = signedDigits (i < 0) i.natAbs := by
  cases i with
  | ofNat n =>
    rw [decide_eq_false (p := Int.ofNat n < 0) (Int.not_lt.2 (Int.natCast_nonneg n))]
    exact String.toList_ofList
  | negSucc n =>
    rw [decide_eq_true (Int.negSucc_lt_zero n)]
    simp only [Digits.signed, Digits.text, String.toList_append, String.toList_ofList]
    rfl

theorem natAbs_toInt_lt (v : Int32) : v.toInt.natAbs < UInt64.size := by
  have hlow := v.le_toInt
  have hhigh := v.toInt_lt
  have h64 : UInt64.size = 2 ^ 64 := rfl
  omega

theorem spells_items {v : List UInt8} {items : List (List Char)}
    (h : List.Forall₂ (fun (b : UInt8) => Padded (Digits.decimal b.toNat)) v items) :
    List.Forall₂ SpellsPadded items (v.map fun b => unsigned b.toNat) := by
  induction h with
  | nil => exact .nil
  | @cons b t v items ht _ ih =>
    have hb : b.toNat < UInt64.size := Nat.lt_trans b.toNat_lt (by decide)
    exact .cons ⟨_, ht, spells_unsigned hb⟩ ih

theorem SettingName.spells_of_isWritten {name : SettingName} {v : name.Value} {text : List Char}
    (h : name.IsWritten v text) : Spells text (name.encode v) := by
  cases name
  case sensitiveFields =>
    obtain ⟨items, hitems, he⟩ := h
    exact spells_array (spells_items hitems) he
  all_goals cases h
  case lengthAdjustment =>
    rw [SettingName.write, signed_eq]
    exact spells_integer _ (natAbs_toInt_lt v)
  case echoRule => cases v <;> exact spells_quote (List.all_eq_true.1 (by decide))
  all_goals first | exact spells_boolean v | exact spells_unsigned v.toNat_lt

theorem SettingName.isWritten_write (name : SettingName) (v : name.Value) :
    name.IsWritten v (name.write v) := by
  cases name
  case sensitiveFields =>
    refine ⟨v.map fun b => Digits.decimal b.toNat, ?_, [], blank_nil, rfl⟩
    rw [List.forall₂_map_right_iff, List.forall₂_same]
    exact fun b _ => padded_self _
  all_goals rfl

/-! ## Documents -/

/-- A key of an object, and how its value may be written. -/
abbrev Layout := String × (List Char → Prop)

/-- A member of an object, with blanks around its key and its value. -/
def IsMember (l : Layout) (text : List Char) : Prop :=
  ∃ key value core, Padded (quote l.1) key ∧ Padded core value ∧ l.2 core ∧
    text = key ++ ':' :: value

/-- A document with an object of the given members, with blanks between its tokens. -/
def IsDocument (ls : List Layout) (text : List Char) : Prop :=
  ∃ items core, List.Forall₂ IsMember ls items ∧ Enclosed '\x7b' '\x7d' items core ∧
    Padded core text

/-- What is written for a member spells its value. -/
structure Describes (l : Layout) (e : String × Value) : Prop where
  /-- The key is the same. -/
  key_eq : l.1 = e.1
  /-- The key needs no escapes. -/
  plain : ∀ c ∈ e.1.toList, isPlain c
  /-- Whatever is written for the value spells it. -/
  spells : ∀ core, l.2 core → Spells core e.2

theorem spellsMember_of_isMember {l : Layout} {e : String × Value} {text : List Char}
    (h : Describes l e) (hm : IsMember l text) : SpellsMember text e := by
  obtain ⟨key, value, core, hkey, hvalue, hcore, rfl⟩ := hm
  rw [h.key_eq] at hkey
  exact ⟨h.plain, key, value, hkey, ⟨core, hvalue, h.spells core hcore⟩, rfl⟩

/-- **A document with an object of some members holds these members.** -/
theorem parse_of_isDocument {ls : List Layout} {es : List (String × Value)} {text : List Char}
    (h : List.Forall₂ Describes ls es) (hd : IsDocument ls text) :
    parse text = some (.object (entries es)) := by
  obtain ⟨items, core, hitems, he, hp⟩ := hd
  have hmembers : List.Forall₂ SpellsMember items es := by
    clear he
    induction h generalizing items with
    | nil =>
      cases hitems
      exact .nil
    | cons hl _ ih =>
      cases hitems with
      | cons hm hms => exact .cons (spellsMember_of_isMember hl hm) (ih _ hms)
  exact parse_of_spells ⟨core, hp, spells_object hmembers he⟩

theorem textMembers_entries (es : List (String × Value)) :
    textMembers (entries es) = some (es.map fun e => (e.1.toList, e.2)) := by
  rw [textMembers, entries, List.mapM_map]
  exact List.mapM_pure

/-! ## Items of documents -/

/-- What a member of a document gives: one of the settings, or the time that a client waits. -/
inductive DocumentItem where
  | setting (a : Assignment)
  | interval (ms : UInt64)

namespace DocumentItem

/-- The assignment of an item. -/
def setting? : DocumentItem → Option Assignment
  | setting a => some a
  | interval _ => none

/-- The time to wait of an item. -/
def interval? : DocumentItem → Option UInt64
  | setting _ => none
  | interval ms => some ms

/-- The key and the value of an item. -/
def entry : DocumentItem → String × Value
  | setting a => (a.name.key, a.name.encode a.value)
  | interval ms => (ClientSettings.intervalKey, unsigned ms.toNat)

/-- How an item may be written. -/
def layout : DocumentItem → Layout
  | setting a => (a.name.key, a.name.IsWritten a.value)
  | interval ms => (ClientSettings.intervalKey, (· = Digits.decimal ms.toNat))

/-- The value of an item as it is printed. -/
def write : DocumentItem → List Char
  | setting a => a.name.write a.value
  | interval ms => Digits.decimal ms.toNat

/-- The items printed, without blanks. -/
def print (items : List DocumentItem) : List Char :=
  writeObject (items.map fun i => writeMember i.entry.1 i.write)

theorem isPlain_key (i : DocumentItem) : ∀ c ∈ i.entry.1.toList, isPlain c := by
  cases i with
  | setting a =>
    show ∀ c ∈ a.name.key.toList, isPlain c
    refine List.all_eq_true.1 ?_
    cases a.name <;> decide
  | interval ms =>
    show ∀ c ∈ ClientSettings.intervalKey.toList, isPlain c
    exact List.all_eq_true.1 (by decide)

theorem describes_layout (i : DocumentItem) : Describes i.layout i.entry := by
  cases i with
  | setting a =>
    exact ⟨rfl, isPlain_key _, fun core hcore => SettingName.spells_of_isWritten hcore⟩
  | interval ms =>
    refine ⟨rfl, isPlain_key _, fun core hcore => ?_⟩
    cases hcore
    exact spells_unsigned ms.toNat_lt

theorem layout_write (i : DocumentItem) : i.layout.2 i.write := by
  cases i with
  | setting a => exact a.name.isWritten_write a.value
  | interval ms => rfl

theorem isDocument_print (items : List DocumentItem) :
    IsDocument (items.map layout) (print items) := by
  refine ⟨_, _, ?_, ⟨[], blank_nil, rfl⟩, padded_self _⟩
  rw [List.forall₂_map_left_iff, List.forall₂_map_right_iff, List.forall₂_same]
  intro i _
  refine ⟨_, _, _, padded_self _, padded_self _, i.layout_write, ?_⟩
  rw [i.describes_layout.key_eq]
  rfl

theorem forall₂_describes (items : List DocumentItem) :
    List.Forall₂ Describes (items.map layout) (items.map entry) := by
  rw [List.forall₂_map_left_iff, List.forall₂_map_right_iff, List.forall₂_same]
  exact fun i _ => i.describes_layout

/-- The object of the items. -/
def object (items : List DocumentItem) : Value := .object (entries (items.map entry))

/-- The members of the object of the items, by key. -/
def members (items : List DocumentItem) : List (List Char × Value) :=
  items.map fun i => (i.entry.1.toList, i.entry.2)

theorem parse_eq_object {items : List DocumentItem} {text : List Char}
    (h : IsDocument (items.map layout) text) : parse text = some (object items) :=
  parse_of_isDocument (forall₂_describes items) h

theorem textMembers_object (items : List DocumentItem) :
    textMembers (entries (items.map entry)) = some (members items) := by
  rw [textMembers_entries, List.map_map]
  rfl

theorem keyed?_key (name : SettingName) : SettingName.keyed? name.key.toList = some name := by
  cases name <;> decide

theorem ofMember?_entry (i : DocumentItem) :
    Assignment.ofMember? (i.entry.1.toList, i.entry.2) = some i.setting? := by
  cases i with
  | setting a =>
    simp only [Assignment.ofMember?, entry, keyed?_key, SettingName.read?_encode, Option.map_some,
      setting?]
  | interval ms =>
    have hkey : SettingName.keyed? ClientSettings.intervalKey.toList = none := by decide
    simp only [Assignment.ofMember?, entry, hkey, setting?]

/-- **The members of the items make the assignments among them**, where no setting occurs twice. -/
theorem ofMembers?_members {items : List DocumentItem}
    (h : ((items.filterMap setting?).map (·.name)).Nodup) :
    Assignment.ofMembers? (members items) = some (items.filterMap setting?) := by
  have hread : (members items).mapM Assignment.ofMember? = some (items.map setting?) := by
    rw [members, List.mapM_map]
    exact (congrArg items.mapM (funext ofMember?_entry)).trans List.mapM_pure
  have hitems : (items.map setting?).filterMap id = items.filterMap setting? := by
    rw [List.filterMap_map]
    rfl
  rw [Assignment.ofMembers?, hread, Option.bind_eq_bind, Option.bind_some, hitems, if_pos h]
  rfl

end DocumentItem

namespace Settings

variable {given : Choice} {items : List DocumentItem} {text : String}

/-- **An object whose items assign a choice loads as the defaults with the given values.** -/
theorem load_of_parse (h : Lists given (items.filterMap DocumentItem.setting?))
    (hp : parse text.toList = some (DocumentItem.object items)) :
    load text = .ok (default.replaced given) := by
  have hvalue : ofValue? (DocumentItem.object items) = some (default.replaced given) := by
    simp only [ofValue?, DocumentItem.object, DocumentItem.textMembers_object, Option.bind_eq_bind,
      Option.bind_some, DocumentItem.ofMembers?_members h.nodup, build_eq_replaced h,
      Option.pure_def]
  rw [load, hp, Option.bind_some, hvalue]

end Settings

/-! ## Every value of a setting can be decoded -/

theorem nearest_le (n : Nat) : Binary64.nearest n ≤ n + Nat.pow 2 (Nat.log2 n - 52) := by
  have hdiv : n / 2 ^ (Nat.log2 n - 52) * 2 ^ (Nat.log2 n - 52) ≤ n := Nat.div_mul_le_self _ _
  simp only [Binary64.nearest, Nat.pow_eq]
  split
  · rw [Nat.add_mul, Nat.one_mul]
    omega
  · omega

theorem isFinite_integer {n : Nat} (negative : Bool) (h : n < UInt64.size) :
    (integer negative n).isFinite := by
  rcases Nat.eq_zero_or_pos n with rfl | hn
  · rfl
  have hlog : Nat.log2 n < 64 := (Nat.log2_lt (by omega)).2 h
  have hpow : 2 ^ (Nat.log2 n - 52) ≤ 2 ^ 64 := Nat.pow_le_pow_right (by decide) (by omega)
  have hover : 2 ^ 65 < Binary64.overflow := by decide +kernel
  have hsize : UInt64.size = 2 ^ 64 := rfl
  have hlt : Binary64.nearest n < Binary64.overflow := by
    have hle := nearest_le n
    rw [Nat.pow_eq] at hle
    omega
  have hone : Binary64.nearest (Nat.pow 10 (0 : Int).toNat) = 1 := by decide
  simp only [Numeral.isFinite, integer, hone, Nat.mul_one, hlt, decide_true, Bool.and_true]
  simp

theorem elementsDecodable_of_forall {vs : List Value} {depth : Nat}
    (h : ∀ v ∈ vs, v.isDecodableAt depth) : Value.elementsDecodable depth vs := by
  induction vs with
  | nil => rfl
  | cons v vs ih =>
    rw [Value.elementsDecodable, h v List.mem_cons_self]
    exact ih fun w hw => h w (List.mem_cons_of_mem v hw)

theorem membersDecodable_entries {es : List (String × Value)} {depth : Nat}
    (h : ∀ e ∈ es, e.2.isDecodableAt depth) : Value.membersDecodable depth (entries es) := by
  induction es with
  | nil => rfl
  | cons e es ih =>
    rw [entries, List.map_cons, Value.membersDecodable, h e List.mem_cons_self]
    exact ih fun w hw => h w (List.mem_cons_of_mem e hw)

theorem isDecodableAt_integer {n : Nat} (negative : Bool) (h : n < UInt64.size) (depth : Nat) :
    (Value.number (integer negative n)).isDecodableAt depth := by
  rw [Value.isDecodableAt]
  exact isFinite_integer negative h

theorem SettingName.isDecodableAt_encode (name : SettingName) (v : name.Value) (depth : Nat) :
    (name.encode v).isDecodableAt (depth + 1) := by
  cases name
  case sensitiveFields =>
    refine elementsDecodable_of_forall fun w hw => ?_
    obtain ⟨b, -, rfl⟩ := List.mem_map.1 hw
    exact isDecodableAt_integer false (Nat.lt_trans b.toNat_lt (by decide)) depth
  case lengthAdjustment => exact isDecodableAt_integer _ (natAbs_toInt_lt v) _
  all_goals first | rfl | exact isDecodableAt_integer false v.toNat_lt _

namespace DocumentItem

theorem isDecodable_object (items : List DocumentItem) : (object items).isDecodable := by
  show Value.membersDecodable (125 + 1) (entries (items.map entry))
  refine membersDecodable_entries fun e he => ?_
  obtain ⟨i, -, rfl⟩ := List.mem_map.1 he
  cases i with
  | setting a => exact a.name.isDecodableAt_encode a.value 125
  | interval ms => exact isDecodableAt_integer false ms.toNat_lt _

theorem emptyAsNull_entry (i : DocumentItem) :
    ClientSettings.emptyAsNull i.entry.2 = i.entry.2 := by
  rcases i with ⟨name, v⟩ | ms
  · cases name <;> rfl
  · rfl

theorem map_emptyAsNull_members (items : List DocumentItem) :
    ((members items).map fun e => (e.1, ClientSettings.emptyAsNull e.2)) = members items := by
  rw [members, List.map_map]
  exact List.map_congr_left fun i _ => congrArg (Prod.mk _) i.emptyAsNull_entry

theorem intervals?_members (items : List DocumentItem) :
    ClientSettings.intervals? (members items) = some (items.filterMap interval?) := by
  induction items with
  | nil => rfl
  | cons i items ih =>
    rw [ClientSettings.intervals?, members] at ih ⊢
    cases i with
    | setting a =>
      have hkey : a.name.key.toList ≠ ClientSettings.intervalKey.toList := by
        cases a.name <;> decide
      rw [List.map_cons, List.filter_cons_of_neg (by simp [entry, hkey]), ih]
      rfl
    | interval ms =>
      rw [List.map_cons, List.filter_cons_of_pos (by simp [entry]), List.mapM_cons, ih]
      simp only [entry, readWord?_unsigned, Option.bind_eq_bind, Option.bind_some, Option.pure_def]
      rfl

end DocumentItem

namespace ClientSettings

variable {given : Choice} {items : List DocumentItem} {text : String}

/-- The client's settings with the values of a choice and a time to wait, if there is one, in their
places. -/
def replaced (c : ClientSettings) (given : Choice) (ms : Option UInt64) : ClientSettings where
  connector := c.connector.replaced given
  reconnectInterval := ms.getD c.reconnectInterval

/-- **An object whose items assign a choice and at most one time to wait loads as the defaults with
these values.** -/
theorem load_of_parse {ms : Option UInt64} (h : Lists given (items.filterMap DocumentItem.setting?))
    (hms : items.filterMap DocumentItem.interval? = ms.toList)
    (hp : parse text.toList = some (DocumentItem.object items)) :
    load text = .ok (default.replaced given ms) := by
  have hvalue : ofValue? (DocumentItem.object items) = some (default.replaced given ms) := by
    have hdec := DocumentItem.isDecodable_object items
    simp only [DocumentItem.object] at hdec
    simp only [ofValue?, DocumentItem.object, hdec, if_true, DocumentItem.textMembers_object,
      Option.bind_eq_bind, Option.bind_some, DocumentItem.map_emptyAsNull_members,
      DocumentItem.ofMembers?_members h.nodup, DocumentItem.intervals?_members, hms,
      Settings.build_eq_replaced h]
    cases ms <;> rfl
  rw [load, hp, Option.bind_some, hvalue]

end ClientSettings

/-! ## Both ways to settings -/

/-- The items of a document with the given assignments. -/
def settingItems (as : List Assignment) : List DocumentItem := as.map .setting

theorem filterMap_settingItems (as : List Assignment) :
    (settingItems as).filterMap DocumentItem.setting? = as := by
  rw [settingItems, List.filterMap_map]
  exact List.filterMap_some

theorem Settings.load_print (s : Settings) : load s.print = .ok s := by
  have hprint : s.print.toList = DocumentItem.print (settingItems s.assignments) := by
    rw [Settings.print, String.toList_ofList, DocumentItem.print, settingItems, List.map_map]
    rfl
  have hp : parse s.print.toList = some (DocumentItem.object (settingItems s.assignments)) := by
    rw [hprint]
    exact DocumentItem.parse_eq_object (DocumentItem.isDocument_print _)
  have hlist : Lists s.choice ((settingItems s.assignments).filterMap DocumentItem.setting?) := by
    rw [filterMap_settingItems]
    exact s.lists_assignments
  rw [load_of_parse hlist hp, replaced_choice]

/-- The items of a client's settings, as they are printed. -/
def ClientSettings.items (c : ClientSettings) : List DocumentItem :=
  settingItems c.connector.assignments ++ [.interval c.reconnectInterval]

theorem ClientSettings.filterMap_setting?_items (c : ClientSettings) :
    c.items.filterMap DocumentItem.setting? = c.connector.assignments := by
  rw [items, List.filterMap_append, filterMap_settingItems]
  exact List.append_nil _

theorem ClientSettings.filterMap_interval?_items (c : ClientSettings) :
    c.items.filterMap DocumentItem.interval? = (some c.reconnectInterval).toList := by
  have hnone : (settingItems c.connector.assignments).filterMap DocumentItem.interval? = [] := by
    rw [settingItems, List.filterMap_map]
    exact List.filterMap_eq_nil_iff.2 fun _ _ => rfl
  rw [items, List.filterMap_append, hnone]
  rfl

theorem ClientSettings.load_print (c : ClientSettings) : load c.print = .ok c := by
  have hprint : c.print.toList = DocumentItem.print c.items := by
    rw [ClientSettings.print, String.toList_ofList, DocumentItem.print, items, settingItems,
      List.map_append, List.map_map]
    rfl
  have hp : parse c.print.toList = some (DocumentItem.object c.items) := by
    rw [hprint]
    exact DocumentItem.parse_eq_object (DocumentItem.isDocument_print _)
  have hlist : Lists c.connector.choice (c.items.filterMap DocumentItem.setting?) := by
    rw [c.filterMap_setting?_items]
    exact c.connector.lists_assignments
  rw [load_of_parse hlist c.filterMap_interval?_items hp, replaced, Settings.replaced_choice]
  rfl

/-- **Settings are read back from what they are printed as, and a document and the setters agree**:
printed settings load as themselves, a client's with the keys of its connector beside its own;
for any choice of values, assignments in any order, and any text whose JSON value is the object of
the corresponding keys in any order, make the defaults with these values in their places, and so
does a client's with or without the time to wait; and every text of such an object, with any blanks
between its tokens, has it as its value. -/
theorem documents_agree_with_setters :
    (∀ s : Settings, Settings.load s.print = .ok s) ∧
    (∀ c : ClientSettings, ClientSettings.load c.print = .ok c) ∧
    (∀ (given : Choice) (as : List Assignment), Lists given as →
      Settings.build as = Settings.default.replaced given ∧
      ∀ text : String, parse text.toList = some (DocumentItem.object (settingItems as)) →
        Settings.load text = .ok (Settings.default.replaced given)) ∧
    (∀ (given : Choice) (ms : Option UInt64) (items : List DocumentItem),
      Lists given (items.filterMap DocumentItem.setting?) →
      items.filterMap DocumentItem.interval? = ms.toList →
      ∀ text : String, parse text.toList = some (DocumentItem.object items) →
        ClientSettings.load text = .ok (ClientSettings.default.replaced given ms)) ∧
    ∀ (items : List DocumentItem) (text : List Char),
      IsDocument (items.map DocumentItem.layout) text →
        parse text = some (DocumentItem.object items) := by
  refine ⟨Settings.load_print, ClientSettings.load_print, fun given as h => ⟨?_, fun text hp => ?_⟩,
    fun given ms items h hms text hp => ClientSettings.load_of_parse h hms hp,
    fun items text hd => DocumentItem.parse_eq_object hd⟩
  · exact Settings.build_eq_replaced h
  · exact Settings.load_of_parse ((filterMap_settingItems as).symm ▸ h) hp

theorem documents_agree_with_setters_two_given :
    Settings.build [⟨.maxFrameLength, 65535⟩, ⟨.lengthAdjustment, -4⟩] =
        { maxFrameLength := 65535, lengthAdjustment := -4 } ∧
      Settings.load "\x7b \"frameLengthFieldAdjust\" : -4 ,\"maxFrameLength\":65535\x7d" =
        .ok { maxFrameLength := 65535, lengthAdjustment := -4 } ∧
      ClientSettings.load "\x7b\"maxFrameLength\":65535,\n\"reconnectIntervalMs\": 250\x7d" =
        .ok { connector := { maxFrameLength := 65535 }, reconnectInterval := 250 } := by
  have hblank : Blank [' '] := List.all_eq_true.1 rfl
  have hbreak : Blank ['\n'] := List.all_eq_true.1 rfl
  have hsettings : IsDocument
      ((settingItems [⟨.lengthAdjustment, -4⟩, ⟨.maxFrameLength, 65535⟩]).map DocumentItem.layout)
      "\x7b \"frameLengthFieldAdjust\" : -4 ,\"maxFrameLength\":65535\x7d".toList :=
    ⟨_, _,
      .cons ⟨_, _, _, ⟨[], [' '], blank_nil, hblank, rfl⟩, ⟨[' '], [' '], hblank, hblank, rfl⟩, rfl,
        rfl⟩ (.cons ⟨_, _, _, padded_self _, padded_self _, rfl, rfl⟩ .nil),
      ⟨[' '], hblank, rfl⟩, ⟨[], [], blank_nil, blank_nil, by decide +kernel⟩⟩
  have hclient : IsDocument
      ([.setting ⟨.maxFrameLength, 65535⟩, .interval 250].map DocumentItem.layout)
      "\x7b\"maxFrameLength\":65535,\n\"reconnectIntervalMs\": 250\x7d".toList :=
    ⟨_, _,
      .cons ⟨_, _, _, padded_self _, padded_self _, rfl, rfl⟩
        (.cons ⟨_, _, _, ⟨['\n'], [], hbreak, blank_nil, rfl⟩, ⟨[' '], [], hblank, blank_nil, rfl⟩,
          rfl, rfl⟩ .nil),
      ⟨[], blank_nil, rfl⟩, ⟨[], [], blank_nil, blank_nil, by decide +kernel⟩⟩
  obtain ⟨-, -, hboth, hload, hparse⟩ := documents_agree_with_setters
  have hlists := lists_of [⟨.maxFrameLength, 65535⟩, ⟨.lengthAdjustment, -4⟩] (by decide)
  have hone := lists_of [⟨.maxFrameLength, 65535⟩] (by decide)
  exact ⟨(hboth _ _ hlists).1, (hboth _ _ (hlists.perm (.swap _ _ _))).2 _ (hparse _ _ hsettings),
    hload _ (some 250) [.setting ⟨.maxFrameLength, 65535⟩, .interval 250] hone rfl _
      (hparse _ _ hclient)⟩

end Interchange
