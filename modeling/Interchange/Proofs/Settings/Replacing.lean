import Interchange.Settings.Assignment

/-!
# Settings with some of them given

A choice gives some of the settings a value. Whatever the order in which the settings of a choice
are assigned, what comes out are the defaults with the values of the choice in their places.

* `build_eq_replaced`: assignments in any order make the defaults with the given values.
* `replaced_get`: all the values of some settings, given, make these settings.
-/

namespace Interchange

/-- A value for some of the settings. -/
abbrev Choice := (name : SettingName) → Option name.Value

namespace SettingName

variable {name other : SettingName}

theorem mem_all (name : SettingName) : name ∈ all := by
  cases name <;> decide

theorem get_set_self (name : SettingName) (v : name.Value) (s : Settings) :
    name.get (name.set v s) = v := by
  cases name <;> rfl

theorem get_set_of_ne (h : name ≠ other) (v : other.Value) (s : Settings) :
    name.get (other.set v s) = name.get s := by
  cases other <;> cases name <;> first | rfl | exact absurd rfl h

/-- Settings are determined by their values. -/
theorem ext_get {s s' : Settings} (h : ∀ name : SettingName, name.get s = name.get s') :
    s = s' := by
  cases s
  cases s'
  simp only [Settings.mk.injEq]
  exact ⟨h lengthWidth, h lengthOffset, h lengthAdjustment, h lengthDecimal, h maxFrameLength,
    h idleTimeout, h answerEchoes, h replyOnError, h workerThreads, h failOnListenerError,
    h echoRule, h logMessages, h logSensitive, h sensitiveFields, h maxPendingWrites⟩

end SettingName

namespace Settings

/-- Settings with the values of a choice in their places. -/
def replaced (s : Settings) (given : Choice) : Settings where
  lengthWidth := (given .lengthWidth).getD s.lengthWidth
  lengthOffset := (given .lengthOffset).getD s.lengthOffset
  lengthAdjustment := (given .lengthAdjustment).getD s.lengthAdjustment
  lengthDecimal := (given .lengthDecimal).getD s.lengthDecimal
  maxFrameLength := (given .maxFrameLength).getD s.maxFrameLength
  idleTimeout := (given .idleTimeout).getD s.idleTimeout
  answerEchoes := (given .answerEchoes).getD s.answerEchoes
  replyOnError := (given .replyOnError).getD s.replyOnError
  workerThreads := (given .workerThreads).getD s.workerThreads
  failOnListenerError := (given .failOnListenerError).getD s.failOnListenerError
  echoRule := (given .echoRule).getD s.echoRule
  logMessages := (given .logMessages).getD s.logMessages
  logSensitive := (given .logSensitive).getD s.logSensitive
  sensitiveFields := (given .sensitiveFields).getD s.sensitiveFields
  maxPendingWrites := (given .maxPendingWrites).getD s.maxPendingWrites

theorem get_replaced (s : Settings) (given : Choice) (name : SettingName) :
    name.get (s.replaced given) = (given name).getD (name.get s) := by
  cases name <;> rfl

/-- The choice of all the values of some settings. -/
def choice (s : Settings) : Choice := fun name => some (name.get s)

theorem replaced_choice (s s' : Settings) : s.replaced s'.choice = s' :=
  SettingName.ext_get fun name => by rw [get_replaced, choice, Option.getD_some]

end Settings

/-! ## Assignments in some order -/

/-- Assignments that make a choice, each of its settings once. -/
structure Lists (given : Choice) (as : List Assignment) : Prop where
  /-- No setting is assigned twice. -/
  nodup : (as.map (·.name)).Nodup
  /-- What is assigned is what the choice gives. -/
  mem_iff : ∀ a, a ∈ as ↔ given a.name = some a.value

/-- The value of an assignment, if it is to a setting. -/
def Assignment.value? (name : SettingName) (a : Assignment) : Option name.Value :=
  if h : a.name = name then some (h ▸ a.value) else none

theorem Assignment.value?_eq_some_iff {name : SettingName} {a : Assignment} {v : name.Value} :
    a.value? name = some v ↔ a = ⟨name, v⟩ := by
  obtain ⟨name', w⟩ := a
  by_cases h : name' = name
  · subst h
    simp [value?]
  · simp [value?, h]

/-- The choice that assignments make. -/
def Choice.of (as : List Assignment) : Choice := fun name => as.findSome? (·.value? name)

/-- Assignments to different settings make a choice. -/
theorem lists_of (as : List Assignment) (hnd : (as.map (·.name)).Nodup) : Lists (.of as) as where
  nodup := hnd
  mem_iff a := by
    constructor
    · intro ha
      obtain ⟨front, back, rfl⟩ := List.append_of_mem ha
      have hfront : ∀ b ∈ front, b.value? a.name = none := by
        intro b hb
        rw [List.map_append, List.nodup_append] at hnd
        exact dif_neg (hnd.2.2 _ (List.mem_map_of_mem hb) _ List.mem_cons_self)
      refine List.findSome?_eq_some_iff.2 ⟨front, a, back, rfl, ?_, hfront⟩
      exact Assignment.value?_eq_some_iff.2 rfl
    · intro hv
      obtain ⟨b, hb, hvalue⟩ := List.exists_of_findSome?_eq_some hv
      rwa [Assignment.value?_eq_some_iff.1 hvalue] at hb

/-- The order does not matter. -/
theorem Lists.perm {given : Choice} {as bs : List Assignment} (h : Lists given as)
    (hp : bs.Perm as) : Lists given bs where
  nodup := (hp.map (·.name)).nodup_iff.2 h.nodup
  mem_iff a := hp.mem_iff.trans (h.mem_iff a)

namespace Settings

variable {given : Choice} {as : List Assignment}

theorem get_foldl_of_not_mem {name : SettingName} (h : ∀ a ∈ as, a.name ≠ name) (s : Settings) :
    name.get (as.foldl Assignment.apply s) = name.get s := by
  induction as generalizing s with
  | nil => rfl
  | cons a as ih =>
    rw [List.foldl_cons, ih fun b hb => h b (List.mem_cons_of_mem a hb)]
    exact SettingName.get_set_of_ne (h a List.mem_cons_self).symm a.value s

theorem get_foldl_of_mem {a : Assignment} (hnd : (as.map (·.name)).Nodup) (ha : a ∈ as)
    (s : Settings) : a.name.get (as.foldl Assignment.apply s) = a.value := by
  induction as generalizing s with
  | nil => cases ha
  | cons b as ih =>
    rw [List.map_cons, List.nodup_cons] at hnd
    rw [List.foldl_cons]
    rcases List.mem_cons.1 ha with rfl | ha
    · rw [get_foldl_of_not_mem fun b hb hname => hnd.1 (List.mem_map.2 ⟨b, hb, hname⟩)]
      exact SettingName.get_set_self a.name a.value s
    · exact ih hnd.2 ha _

/-- **Assignments in any order make the defaults with the given values.** -/
theorem build_eq_replaced (h : Lists given as) : build as = default.replaced given := by
  refine SettingName.ext_get fun name => ?_
  rw [get_replaced, build]
  cases hv : given name with
  | none =>
    refine get_foldl_of_not_mem (fun a ha hname => ?_) default
    rw [← hname, (h.mem_iff a).1 ha] at hv
    cases hv
  | some v => exact get_foldl_of_mem h.nodup ((h.mem_iff ⟨name, v⟩).2 hv) default

theorem lists_assignments (s : Settings) : Lists s.choice s.assignments where
  nodup := by
    have hnames : s.assignments.map (·.name) = SettingName.all := by
      rw [assignments, List.map_map]
      exact List.map_id SettingName.all
    rw [hnames]
    decide
  mem_iff a := by
    rw [assignments, List.mem_map, choice, Option.some_inj]
    constructor
    · rintro ⟨name, -, rfl⟩
      rfl
    · intro hv
      exact ⟨a.name, SettingName.mem_all a.name, by rw [hv]⟩

end Settings

end Interchange
