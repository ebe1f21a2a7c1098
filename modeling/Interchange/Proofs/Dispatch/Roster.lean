import Interchange.Dispatch.Roster
import Interchange.Dispatch.Script
import Interchange.Proofs.Connector.Changes

/-!
# The list of listeners as a plain list

Lists that never change once they are written, and a current one among them, are as good as one
plain list that is changed in place, as long as a message goes through the list that there was when
it arrived. `Roster.Plain` is the plain list with the calls on it. `Roster.Kept` says of a roster
after a run what calls came to, what they returned and which list the next message goes through.

What is proved first is that a call does to the current list what it does to the plain one
(`plain_perform`), and that it leaves the lists that were written as they are, so that a message
that is on its way reads the same list at every place (`dispatch_eq`). A connector holds the current
list and nothing else of the roster; that it does the same is `agrees_run`.
-/

namespace Interchange

namespace Roster

/-! ## Plain lists -/

/-- A plain list of listeners. -/
structure Plain where
  /-- The listeners in order. -/
  list : List ListenerId := []
  /-- Whether the connector was initialized. -/
  initialized : Bool := false

namespace Plain

/-- What a call does to a plain list and what it returns. -/
def apply (settings : Settings) (p : Plain) : Call → Plain × Answer
  | .push l => ({ p with list := p.list ++ [l] }, .done)
  | .pushAll ls => ({ p with list := p.list ++ ls }, .done)
  | .insertFirst l => ({ p with list := l :: p.list }, .done)
  | .remove l => ({ p with list := p.list.erase l }, .removed (decide (l ∈ p.list)))
  | .init =>
    match settings.validate, p.initialized with
    | .error f, _ => (p, .initialized (.error f))
    | .ok (), true => (p, .initialized (.ok ()))
    | .ok (), false =>
      ({ list := if settings.answerEchoes then .echo :: p.list else p.list, initialized := true },
        .initialized (.ok ()))

/-- A plain list after calls. -/
def after (settings : Settings) (p : Plain) (cs : List Call) : Plain :=
  cs.foldl (fun p c => (p.apply settings c).1) p

/-- What calls return one after the other. -/
def answers (settings : Settings) (p : Plain) : List Call → List Answer
  | [] => []
  | c :: cs => (p.apply settings c).2 :: answers settings (p.apply settings c).1 cs

theorem after_append (settings : Settings) (p : Plain) (cs cs' : List Call) :
    p.after settings (cs ++ cs') = (p.after settings cs).after settings cs' :=
  List.foldl_append

theorem answers_concat (settings : Settings) (p : Plain) (cs : List Call) (c : Call) :
    p.answers settings (cs ++ [c]) =
      p.answers settings cs ++ [((p.after settings cs).apply settings c).2] := by
  induction cs generalizing p with
  | nil => rfl
  | cons c' cs ih => exact congrArg ((p.apply settings c').2 :: ·) (ih (p.apply settings c').1)

end Plain

/-- The current list as a plain one. -/
def plain (r : Roster) : Plain := ⟨r.current, r.initialized⟩

/-- A roster with a list, before any call. -/
def of (settings : Settings) (p : Plain) : Roster where
  settings
  current := p.list
  initialized := p.initialized

/-! ## Calls -/

/-- **A call does to the current list what it does to a plain one**, and returns the same. -/
theorem plain_perform (r : Roster) (c : Call) :
    (r.perform c).map plain id = r.plain.apply r.settings c := by
  cases c with
  | push l => rfl
  | pushAll ls => rfl
  | insertFirst l => rfl
  | remove l =>
    have herase := List.erase_eq_eraseIdx r.current l
    have hpresent : (r.current.idxOf? l).isSome = decide (l ∈ r.current) := by
      rw [Bool.eq_iff_iff, List.isSome_idxOf?, decide_eq_true_iff]
    have hfind : r.current.findIdx? (· = l) = r.current.idxOf? l := rfl
    unfold perform act Plain.apply plain
    dsimp only
    rw [herase, ← hpresent, hfind]
    cases r.current.idxOf? l <;> rfl
  | init =>
    unfold perform act Plain.apply plain
    cases r.settings.validate with
    | error f => rfl
    | ok u =>
      cases hi : r.initialized with
      | true => simp [hi]
      | false => cases r.settings.answerEchoes <;> simp [replace, Chain.insertFirst]

/-- What does not change while calls are carried out: the settings, the lists that were written and
the calls that were made. -/
structure Later (r r' : Roster) : Prop where
  settings : r'.settings = r.settings
  lists : r.lists <+: r'.lists
  calls : r.calls <+: r'.calls

theorem Later.refl (r : Roster) : Later r r := ⟨rfl, List.prefix_rfl, List.prefix_rfl⟩

theorem Later.trans {r r' r'' : Roster} (h : Later r r') (h' : Later r' r'') : Later r r'' :=
  ⟨h'.settings.trans h.settings, h.lists.trans h'.lists, h.calls.trans h'.calls⟩

theorem later_replace (r : Roster) (c : Chain) : Later r (r.replace c) :=
  ⟨rfl, ⟨[c], rfl⟩, List.prefix_rfl⟩

theorem later_act (r : Roster) (c : Call) : Later r (r.act c).1 := by
  cases c with
  | push l => exact r.later_replace _
  | pushAll ls => exact r.later_replace _
  | insertFirst l => exact r.later_replace _
  | remove l =>
    unfold act
    dsimp only
    split <;> exact r.later_replace _
  | init =>
    unfold act
    dsimp only
    split
    · exact .refl r
    · split
      · exact .refl r
      · split
        · exact ⟨rfl, ⟨[.echo :: r.current], rfl⟩, List.prefix_rfl⟩
        · exact ⟨rfl, List.prefix_rfl, List.prefix_rfl⟩

theorem later_perform (r : Roster) (c : Call) : Later r (r.perform c).1 where
  settings := (r.later_act c).settings
  lists := (r.later_act c).lists
  calls := ⟨[(c, (r.act c).2)], rfl⟩

theorem later_performAll (r : Roster) (cs : List Call) : Later r (r.performAll cs) := by
  induction cs generalizing r with
  | nil => exact .refl r
  | cons c cs ih => exact (r.later_perform c).trans (ih (r.perform c).1)

/-- Every place of a list that was written reads the same later. -/
theorem Later.getElem?_lists {r r' : Roster} (h : Later r r') {place : Nat} {c : Chain}
    (hc : r.lists[place]? = some c) : r'.lists[place]? = some c := by
  obtain ⟨hplace, rfl⟩ := List.getElem?_eq_some_iff.1 hc
  exact List.prefix_iff_getElem?.1 h.lists place hplace

/-- The list is what the calls so far make of a plain one, and they returned what they return
there. -/
structure Follows (settings : Settings) (p : Plain) (r : Roster) : Prop where
  /-- The settings stay as they were. -/
  settings_eq : r.settings = settings
  /-- The list is the plain one after the calls. -/
  registered : r.plain = p.after settings (r.calls.map Prod.fst)
  /-- Each call returned what it returned there. -/
  answered : r.calls.map Prod.snd = p.answers settings (r.calls.map Prod.fst)

theorem follows_of (settings : Settings) (p : Plain) : Follows settings p (of settings p) :=
  ⟨rfl, rfl, rfl⟩

namespace Follows

variable {settings : Settings} {p : Plain} {r : Roster}

theorem perform (h : Follows settings p r) (c : Call) : Follows settings p (r.perform c).1 := by
  have hstep := r.plain_perform c
  rw [h.registered, h.settings_eq] at hstep
  have hplain := congrArg Prod.fst hstep
  have hanswer := congrArg Prod.snd hstep
  have hcalls : (r.perform c).1.calls = r.calls ++ [(c, (r.perform c).2)] := rfl
  refine ⟨(r.later_perform c).settings.trans h.settings_eq, ?_, ?_⟩
  · rw [hcalls, List.map_append, List.map_singleton, Plain.after_append]
    exact hplain
  · rw [hcalls, List.map_append, List.map_append, List.map_singleton, List.map_singleton,
      Plain.answers_concat, h.answered]
    exact congrArg (_ ++ [·]) hanswer

theorem performAll (h : Follows settings p r) (cs : List Call) :
    Follows settings p (r.performAll cs) := by
  induction cs generalizing r with
  | nil => exact h
  | cons c cs ih => exact ih (h.perform c)

end Follows

/-! ## Messages -/

section Listeners

variable {τ : Type} (ls : Listeners τ)

/-- A message that is on its way through a list keeps to it. -/
theorem dispatch_turn (failFast : Bool) (i : Nat) (m : Message) (place : Nat) (past rest : Chain)
    (s : Roster × τ) (hs : s.1.lists[place]? = some (past ++ rest)) :
    Interchange.dispatch failFast (turn ls i m place) (List.range' past.length rest.length) s =
      Interchange.dispatch failFast (ls.call i m) rest s := by
  induction rest generalizing past s with
  | nil => rfl
  | cons l rest ih =>
    have hturn : turn ls i m place past.length s = ls.call i m l s := by
      simp [turn, read?, hs]
    obtain ⟨cs, hcs⟩ := ls.byCalls i m l s
    have hread : (ls.call i m l s).1.1.lists[place]? = some ((past ++ [l]) ++ rest) := by
      rw [hcs, List.append_assoc]
      exact (s.1.later_performAll cs).getElem?_lists hs
    have hrest := ih (past ++ [l]) (ls.call i m l s).1 hread
    rw [List.length_append] at hrest
    rw [List.length_cons, List.range'_succ]
    exact dispatch_cons_congr id hturn hrest

/-- **A message goes through the list that was current when it arrived**, whatever the listeners
make of the list meanwhile. -/
theorem dispatch_eq (i : Nat) (m : Message) (s : Roster × τ) :
    dispatch ls i m s =
      Interchange.dispatch s.1.settings.failOnListenerError (ls.call i m) s.1.current s := by
  have hcurrent : s.1.lists[s.1.retired.length]? = some ([] ++ s.1.current) := by
    simp [lists]
  rw [dispatch, List.range_eq_range']
  exact dispatch_turn ls _ i m s.1.retired.length [] s.1.current s hcurrent

variable {ls} {settings : Settings} {p : Plain} {s : Roster × τ}

/-- What calls leave as it was, a message leaves as it was. -/
theorem dispatch_preserves_roster {P : Roster → Prop} (h : ∀ r cs, P r → P (r.performAll cs))
    (i : Nat) (m : Message) (hs : P s.1) : P (dispatch ls i m s).1.1 := by
  rw [dispatch_eq]
  refine dispatch_preserves (P := fun s : Roster × τ => P s.1) (fun l s hs => ?_) s.1.current hs
  obtain ⟨cs, hcs⟩ := ls.byCalls i m l s
  rw [hcs]
  exact h s.1 cs hs

theorem later_dispatch (i : Nat) (m : Message) (s : Roster × τ) :
    Later s.1 (dispatch ls i m s).1.1 :=
  dispatch_preserves_roster (fun r cs h => h.trans (r.later_performAll cs)) i m (.refl s.1)

theorem Follows.dispatch (h : Follows settings p s.1) (i : Nat) (m : Message) :
    Follows settings p (dispatch ls i m s).1.1 :=
  dispatch_preserves_roster (fun _ cs h => h.performAll cs) i m h

theorem Follows.access (h : Follows settings p s.1) (a : Access) :
    Follows settings p (access ls s a).1 := by
  cases a with
  | call c => exact h.perform c
  | message i m => exact h.dispatch i m

theorem Follows.run (h : Follows settings p s.1) (as : List Access) :
    Follows settings p (run ls s as).1 := by
  induction as generalizing s with
  | nil => exact h
  | cons a as ih => exact ih (h.access a)

/-- A message goes through the listeners that stand in the plain list when it arrives. -/
theorem Follows.walks (h : Follows settings p s.1) (i : Nat) (m : Message) :
    Roster.dispatch ls i m s = Interchange.dispatch settings.failOnListenerError (ls.call i m)
      (p.after settings (s.1.calls.map Prod.fst)).list s := by
  rw [dispatch_eq, h.settings_eq, ← h.registered]
  rfl

/-- **What is kept**: the list is what the calls so far make of a plain one, and this is the list
that the next message goes through. -/
structure Kept (ls : Listeners τ) (settings : Settings) (p : Plain) (s : Roster × τ) : Prop
    extends Follows settings p s.1 where
  /-- A message goes through the listeners that stand in the plain list when it arrives. -/
  walks : ∀ i m, Roster.dispatch ls i m s =
    Interchange.dispatch settings.failOnListenerError (ls.call i m)
      (p.after settings (s.1.calls.map Prod.fst)).list s
  /-- The calls that its listeners make are carried out meanwhile, and the message that comes next
  goes through what they make of the list. -/
  next : ∀ i m, let s' := (Roster.dispatch ls i m s).1
    ∃ made, s'.1.calls = s.1.calls ++ made ∧ ∀ i' m', Roster.dispatch ls i' m' s' =
      Interchange.dispatch settings.failOnListenerError (ls.call i' m')
        ((p.after settings (s.1.calls.map Prod.fst)).after settings (made.map Prod.fst)).list s'

theorem Follows.kept (h : Follows settings p s.1) : Kept ls settings p s where
  toFollows := h
  walks := h.walks
  next i m := by
    obtain ⟨made, hmade⟩ := (later_dispatch i m s).calls
    refine ⟨made, hmade.symm, fun i' m' => ?_⟩
    rw [(h.dispatch i m).walks, ← hmade, List.map_append, Plain.after_append]

end Listeners

/-! ## Connectors -/

/-- The call that a request of a handler is, if it concerns the list. -/
def call? : Request → Option Call
  | .append l => some (.push l)
  | .insertFirst l => some (.insertFirst l)
  | .remove l => some (.remove l)
  | .send .. | .close .. => none

/-- A connector with the list of a roster. -/
def held (s : Roster × Connector) : Connector :=
  { s.2 with
    settings := s.1.settings
    chain := s.1.current
    initialized := s.1.initialized }

/-- Carry out what a handler asks for: on the roster if it concerns the list, and else on the
connector. -/
def request (r : Request) (s : Roster × Connector) : (Roster × Connector) × Except Fault Unit :=
  match call? r with
  | some c => (((s.1.perform c).1, s.2), .ok ())
  | none => (Connector.perform r s.2).map (s.1, ·) id

theorem exists_performAll_request (r : Request) (s : Roster × Connector) :
    ∃ cs, (request r s).1.1 = s.1.performAll cs := by
  unfold request
  cases call? r with
  | some c => exact ⟨[c], rfl⟩
  | none => exact ⟨[], rfl⟩

theorem exists_performAll_run (handler : Handler) (s : Roster × Connector) :
    ∃ cs, (handler.run request s).1.1 = s.1.performAll cs := by
  induction handler generalizing s with
  | done r => exact ⟨[], rfl⟩
  | ask r next ih =>
    obtain ⟨cs, hcs⟩ := exists_performAll_request r s
    obtain ⟨cs', hcs'⟩ := ih (request r s).2 (request r s).1
    refine ⟨cs ++ cs', hcs'.trans ?_⟩
    rw [hcs, performAll, performAll, performAll, List.foldl_append]

/-- The listeners of a connector whose list is kept on a roster. -/
def listeners : Listeners Connector where
  call i m l s :=
    match ((held s).listener l).applies m with
    | .error f => (s, .error f)
    | .ok false => (s, .ok true)
    | .ok true =>
      (((held s).listener l).handle i m).run request (s.1, s.2.note [.called l i m.mti])
  byCalls i m l s := by
    split
    · exact ⟨[], rfl⟩
    · exact ⟨[], rfl⟩
    · exact exists_performAll_run _ _

end Roster

namespace Connector

open Roster (Call Answer Access Plain held listeners)

/-- The list of a connector as a plain one. -/
def plain (k : Connector) : Plain := ⟨k.chain, k.initialized⟩

/-- Carry out a call that concerns the list of listeners. -/
def change (k : Connector) : Call → Connector × Answer
  | .push l => ({ k with chain := k.chain.push l }, .done)
  | .pushAll ls => ({ k with chain := k.chain.pushAll ls }, .done)
  | .insertFirst l => ({ k with chain := k.chain.insertFirst l }, .done)
  | .remove l => ({ k with chain := (k.chain.remove l).1 }, .removed (k.chain.remove l).2)
  | .init => (k.init.1, .initialized k.init.2)

/-- Carry out an access. -/
def access (k : Connector) : Access → Connector
  | .call c => (k.change c).1
  | .message i m => (k.dispatch i m).1

/-- A call does to the list of a connector what it does to a plain one, and nothing else. -/
theorem change_eq (k : Connector) (c : Call) :
    k.change c = (k.plain.apply k.settings c).map
      (fun p => { k with chain := p.list, initialized := p.initialized }) id := by
  cases c with
  | push l => rfl
  | pushAll ls => rfl
  | insertFirst l => rfl
  | remove l =>
    have hpresent : k.chain.contains l = decide (l ∈ k.chain) := List.contains_eq_mem l k.chain
    exact Prod.ext rfl (congrArg Answer.removed hpresent)
  | init =>
    obtain ⟨settings, version, registry, chain, initialized, connections, history⟩ := k
    simp only [change, Connector.init, Plain.apply, plain]
    cases settings.validate with
    | error f => rfl
    | ok u => cases initialized <;> rfl

theorem held_perform (s : Roster × Connector) (c : Call) :
    (held s).change c = (s.1.perform c).map (fun r => held (r, s.2)) id := by
  have hplain : (s.1.perform c).map Roster.plain id = (held s).plain.apply (held s).settings c :=
    s.1.plain_perform c
  have hsettings := (s.1.later_perform c).settings
  rw [change_eq, ← hplain]
  refine Prod.ext ?_ rfl
  simp only [Prod.map_fst, held, Roster.plain, hsettings]

theorem held_send (s : Roster × Connector) (i : Nat) (m : Message) :
    (held s).send i m = (s.2.send i m).map (fun k => held (s.1, k)) id := by
  have hconnection : (held s).connection? i = s.2.connection? i := rfl
  unfold send
  rw [hconnection]
  cases s.2.connection? i with
  | none => rfl
  | some c =>
    dsimp only
    generalize c.send m = x
    obtain ⟨c', r⟩ := x
    cases r <;> rfl

theorem held_request (r : Request) (s : Roster × Connector) :
    perform r (held s) = (Roster.request r s).map held id := by
  cases r with
  | send i m =>
    have hsend := held_send s i m
    simp only [perform, Roster.request, Roster.call?, hsend]
    generalize s.2.send i m = x
    obtain ⟨k, r⟩ := x
    cases r <;> rfl
  | close i => rfl
  | append l => rfl
  | insertFirst l => rfl
  | remove l =>
    have hremove := congrArg Prod.fst (held_perform s (.remove l))
    exact Prod.ext hremove rfl

theorem held_run (handler : Handler) (s : Roster × Connector) :
    handler.run perform (held s) = (handler.run Roster.request s).map held id := by
  induction handler generalizing s with
  | done r => rfl
  | ask r next ih =>
    rw [Handler.run, Handler.run, held_request]
    exact ih (Roster.request r s).2 (Roster.request r s).1

theorem held_call (i : Nat) (m : Message) (l : ListenerId) (s : Roster × Connector) :
    call i m l (held s) = (listeners.call i m l s).map held id := by
  simp only [call, listeners]
  cases ((held s).listener l).applies m with
  | error f => rfl
  | ok concerned =>
    cases concerned with
    | false => rfl
    | true => exact held_run _ (s.1, s.2.note [.called l i m.mti])

theorem held_dispatch (i : Nat) (m : Message) (s : Roster × Connector) :
    (held s).dispatch i m = (Roster.dispatch listeners i m s).map held id := by
  have hway : ∀ (failFast : Bool) (ls : Chain) (s : Roster × Connector),
      Interchange.dispatch failFast (call i m) ls (held s) =
        (Interchange.dispatch failFast (listeners.call i m) ls s).map held id := by
    intro failFast ls
    induction ls with
    | nil => exact fun s => rfl
    | cons l ls ih => exact fun s => dispatch_cons_congr held (held_call i m l s) (ih _)
  rw [Roster.dispatch_eq]
  exact hway s.1.settings.failOnListenerError s.1.current s

/-- A listener that takes itself and the next one out and puts another in front: the message that it
is called with still comes to the next one, and the message after it to the other alone. -/
example :
    let m := Message.new 0x0200
    let a : Script := { actions := [.remove "a", .remove "b", .insertFirst "c"] }
    let k : Connector :=
      { settings := {}
        registry := [("a", a.listener), ("b", Script.listener {}), ("c", Script.listener {})]
        chain := [.named "a", .named "b"] }
    let k' := (k.dispatch 1 m).1
    calls k'.history = [("a", 1, m.mti), ("b", 1, m.mti)] ∧
      calls (k'.dispatch 1 m).1.history = calls k'.history ++ [("c", 1, m.mti)] := by
  decide +kernel

theorem held_access (s : Roster × Connector) (a : Access) :
    held (Roster.access listeners s a) = (held s).access a := by
  cases a with
  | call c => exact (congrArg Prod.fst (held_perform s c)).symm
  | message i m => exact (congrArg Prod.fst (held_dispatch i m s)).symm

/-- **A connector and a roster beside another connector** do the same. -/
structure Agrees (s : Roster × Connector) (k : Connector) : Prop where
  /-- The connector is the other one with the list of the roster. -/
  held : held s = k
  /-- Calls return the same. -/
  answer : ∀ c, (s.1.perform c).2 = (k.change c).2
  /-- Messages come to the same end. -/
  ending : ∀ i m, (Roster.dispatch listeners i m s).2 = (k.dispatch i m).2

theorem agrees_run (s : Roster × Connector) (as : List Access) :
    Agrees (Roster.run listeners s as) (as.foldl access (held s)) := by
  induction as generalizing s with
  | nil =>
    exact ⟨rfl, fun c => (congrArg Prod.snd (held_perform s c)).symm,
      fun i m => (congrArg Prod.snd (held_dispatch i m s)).symm⟩
  | cons a as ih =>
    rw [List.foldl_cons, ← held_access]
    exact ih (Roster.access listeners s a)

end Connector

namespace Roster

/-- **The list of listeners is a plain list** to every call and every message of a run, whatever the
listeners do; and a connector does what a roster does that starts with its list. -/
theorem kept_run :
    (∀ (τ : Type) (ls : Listeners τ) (settings : Settings) (p : Plain) (t : τ) (as : List Access),
      Kept ls settings p (run ls (of settings p, t) as)) ∧
    ∀ (k : Connector) (as : List Access),
      Connector.Agrees (run listeners (of k.settings k.plain, k) as)
        (as.foldl Connector.access k) := by
  constructor
  · intro τ ls settings p t as
    have hstart := follows_of settings p
    exact (hstart.run (s := (of settings p, t)) as).kept
  · intro k as
    exact Connector.agrees_run (of k.settings k.plain, k) as

end Roster

end Interchange
