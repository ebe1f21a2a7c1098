import Interchange.Proofs.Connector.Changes

/-!
# The way of a message through the listeners

A listener that a message comes to is visited: its predicate is asked, and if the message concerns
it its handler is called. `Walk` says in terms of such visits what becomes of a message: listeners
are visited in order, each place at most once, and the first visit that stops the message is the
last. Which visits stop it, and what the dispatch ends with, depends on whether failures count.

Predicates and handlers are arbitrary here and may change whatever there is. `dispatch_walks` says
that every dispatch is such a walk, that of a connector among them, whose history tells of the
handlers that were called.
-/

namespace Interchange

/-- A failure in words, as it is reported. -/
def Failure.wording : Failure → String
  | fault (.listener text) => text
  | fault f => f.message
  | panic none => panicked
  | panic (some text) => panicked ++ ": " ++ text

/-- A failure is reported as the fault of a listener, whatever it is. -/
theorem ofListener_toFault (f : Failure) : f.toFault.ofListener = .listener f.wording := by
  cases f with
  | fault f => cases f <;> rfl
  | panic text? => cases text? <;> rfl

/-! ## Visits -/

/-- What a listener does when a message comes to it. -/
inductive Visit (ι : Type) where
  /-- Its predicate says that the message does not concern it. -/
  | passes (l : ι)
  /-- Its predicate fails. -/
  | balks (l : ι) (f : Failure)
  /-- The message concerns it, and its handler is called and ends. -/
  | handles (l : ι) (ending : Except Failure Bool)

namespace Visit

variable {ι : Type}

/-- The listener that is visited. -/
def listener : Visit ι → ι
  | passes l => l
  | balks l _ => l
  | handles l _ => l

/-- The listener whose handler is called, if it is. -/
def handler? : Visit ι → Option ι
  | handles l _ => some l
  | _ => none

/-- What comes of the visit: whether the message goes on, or a failure. -/
def answer : Visit ι → Except Failure Bool
  | passes _ => .ok true
  | balks _ f => .error f
  | handles _ r => r

/-- The failure of the predicate or the handler. -/
def failure? (v : Visit ι) : Option Failure :=
  match v.answer with
  | .error f => some f
  | .ok _ => none

/-- Whether the message goes no further: the listener keeps it, or fails where failures count. -/
def stops (failFast : Bool) (v : Visit ι) : Bool :=
  match v.answer with
  | .ok goesOn => !goesOn
  | .error _ => failFast

end Visit

section Walk

variable {ι σ : Type}

/-- Let a listener see a message: its predicate is asked, and its handler is called if the message
concerns it. -/
def consult (asks handles : ι → σ → σ × Except Failure Bool) (l : ι) (s : σ) :
    σ × Except Failure Bool :=
  match asks l s with
  | (s, .error f) => (s, .error f)
  | (s, .ok false) => (s, .ok true)
  | (s, .ok true) => handles l s

variable (asks handles : ι → σ → σ × Except Failure Bool)

/-- A visit, and what there is before and after it. -/
inductive Visited : σ → Visit ι → σ → Prop
  | passes {l : ι} {s s' : σ} (h : asks l s = (s', .ok false)) : Visited s (.passes l) s'
  | balks {l : ι} {s s' : σ} {f : Failure} (h : asks l s = (s', .error f)) :
    Visited s (.balks l f) s'
  | handles {l : ι} {s s' s'' : σ} {r : Except Failure Bool} (h : asks l s = (s', .ok true))
    (hr : handles l s' = (s'', r)) : Visited s (.handles l r) s''

/-- Visits one after the other, each where the one before it left off. -/
inductive Visits : σ → List (Visit ι) → σ → Prop
  | nil (s : σ) : Visits s [] s
  | cons {s s' s'' : σ} {v : Visit ι} {vs : List (Visit ι)} (h : Visited asks handles s v s')
    (hs : Visits s' vs s'') : Visits s (v :: vs) s''

/-- **The way of a message** through listeners: it visits `vs`, and comes to the end `x`. -/
structure Walk (failFast : Bool) (ls : List ι) (s : σ) (vs : List (Visit ι))
    (x : σ × Except Fault Unit) : Prop where
  /-- Predicates are asked and handlers are called one after the other, and nothing else is done. -/
  visits : Visits asks handles s vs x.1
  /-- Listeners are visited in order, each place at most once. -/
  order : vs.map Visit.listener = ls.take vs.length
  /-- No visit but the last stops the message. -/
  goesOn : ∀ v ∈ vs.dropLast, v.stops failFast = false
  /-- Only a visit that stops the message keeps it from the rest of the listeners. -/
  complete : vs.length = ls.length ∨ ∃ v ∈ vs.getLast?, v.stops failFast = true
  /-- Where failures do not count there is no fault. -/
  failSafe : failFast = false → x.2 = .ok ()
  /-- Where failures count, that of the last visit is the fault of a listener. -/
  failFast : failFast = true → x.2 =
    (vs.getLast?.bind Visit.failure?).elim (.ok ()) fun f => .error (.listener f.wording)

variable {asks handles : ι → σ → σ × Except Failure Bool} {failFast : Bool} {l : ι} {ls : List ι}
  {s s' : σ} {v : Visit ι} {vs : List (Visit ι)}

namespace Walk

theorem nil (s : σ) : Walk asks handles failFast [] s [] (s, .ok ()) where
  visits := .nil s
  order := rfl
  goesOn := List.forall_mem_nil _
  complete := .inl rfl
  failSafe _ := rfl
  failFast _ := rfl

/-- A visit that does not stop the message, and the rest of its way. -/
theorem cons {x : σ × Except Fault Unit} (hv : Visited asks handles s v s')
    (hgo : v.stops failFast = false) (h : Walk asks handles failFast ls s' vs x) :
    Walk asks handles failFast (v.listener :: ls) s (v :: vs) x where
  visits := .cons hv h.visits
  order := by rw [List.map_cons, h.order]; rfl
  goesOn w hw := by
    cases vs with
    | nil => cases hw
    | cons v' vs =>
      rcases List.mem_cons.1 hw with rfl | hw
      · exact hgo
      · exact h.goesOn w hw
  complete := by
    rcases h.complete with hlength | ⟨w, hw, hstop⟩
    · exact .inl (congrArg (· + 1) hlength)
    · refine .inr ⟨w, ?_, hstop⟩
      rw [Option.mem_def] at hw
      simp [List.getLast?_cons, hw]
  failSafe := h.failSafe
  failFast hff := by
    rw [h.failFast hff]
    cases vs with
    | nil =>
      have hnone : v.failure? = none := by
        unfold Visit.stops at hgo
        unfold Visit.failure?
        split at hgo <;> simp_all
      simp [hnone]
    | cons v' vs => simp [List.getLast?_cons]

/-- A visit that stops the message. -/
theorem stop (hv : Visited asks handles s v s') (hstop : v.stops failFast = true) (ls : List ι)
    {r : Except Fault Unit} (hsafe : failFast = false → r = .ok ()) (hfast : failFast = true →
      r = v.failure?.elim (.ok ()) fun f => .error (.listener f.wording)) :
    Walk asks handles failFast (v.listener :: ls) s [v] (s', r) where
  visits := .cons hv (.nil s')
  order := rfl
  goesOn := List.forall_mem_nil _
  complete := .inr ⟨v, rfl, hstop⟩
  failSafe := hsafe
  failFast := hfast

end Walk

/-- A listener that sees a message is visited. -/
theorem exists_visited (asks handles : ι → σ → σ × Except Failure Bool) (l : ι) (s : σ) :
    ∃ v : Visit ι, v.listener = l ∧ ∃ s', Visited asks handles s v s' ∧
      consult asks handles l s = (s', v.answer) := by
  unfold consult
  cases ha : asks l s with
  | mk s' concerned =>
  cases concerned with
  | error f => exact ⟨.balks l f, rfl, s', .balks ha, rfl⟩
  | ok concerned =>
    cases concerned with
    | false => exact ⟨.passes l, rfl, s', .passes ha, rfl⟩
    | true => exact ⟨.handles l (handles l s').2, rfl, (handles l s').1, .handles ha rfl, rfl⟩

/-- **Every dispatch is a walk.** -/
theorem exists_walk (asks handles : ι → σ → σ × Except Failure Bool) (failFast : Bool)
    (ls : List ι) (s : σ) : ∃ vs : List (Visit ι),
      Walk asks handles failFast ls s vs (dispatch failFast (consult asks handles) ls s) := by
  induction ls generalizing s with
  | nil => exact ⟨[], .nil s⟩
  | cons l ls ih =>
    obtain ⟨v, rfl, s', hv, hconsult⟩ := exists_visited asks handles l s
    obtain ⟨vs, hvs⟩ := ih s'
    rw [dispatch, hconsult]
    cases ha : v.answer with
    | ok goesOn =>
      cases goesOn with
      | true => exact ⟨v :: vs, .cons hv (by simp [Visit.stops, ha]) hvs⟩
      | false =>
        exact ⟨[v], .stop hv (by simp [Visit.stops, ha]) ls (fun _ => rfl) fun _ => by
          simp [Visit.failure?, ha]⟩
    | error f =>
      cases failFast with
      | false => exact ⟨v :: vs, .cons hv (by simp [Visit.stops, ha]) hvs⟩
      | true =>
        refine ⟨[v], .stop hv (by simp [Visit.stops, ha]) ls ?_ fun _ => by
          simp [Visit.failure?, ha, ofListener_toFault]⟩
        intro hff
        cases hff

end Walk

/-! ## The listeners of a connector -/

/-- Whether a message concerns a listener. -/
def Listener.wants (l : Listener) (m : Message) : Bool :=
  match l.applies m with
  | .ok concerned => concerned
  | .error _ => false

/-- Whether a notice tells of the call of a handler. -/
def Notice.isCall : Notice → Bool
  | .called .. => true
  | _ => false

namespace Connector

/-- Ask the predicate of a listener. -/
def asks (m : Message) (l : ListenerId) (k : Connector) : Connector × Except Failure Bool :=
  (k, (k.listener l).applies m)

/-- Call the handler of a listener, which is put down. -/
def handles (id : Nat) (m : Message) (l : ListenerId) (k : Connector) :
    Connector × Except Failure Bool :=
  ((k.listener l).handle id m).run perform (k.note [.called l id m.mti])

/-- **The dispatch of a message** by a connector. -/
structure Dispatched (k : Connector) (id : Nat) (m : Message) (vs : List (Visit ListenerId)) : Prop
    extends Walk (asks m) (handles id m) k.settings.failOnListenerError k.chain k vs
      (k.dispatch id m) where
  /-- Handlers are called of those listeners that the message concerns, in their order. -/
  handlers : vs.filterMap Visit.handler? =
    (k.chain.take vs.length).filter fun l => (k.listener l).wants m
  /-- The history tells of these calls and of no others. -/
  history : ∃ ns, (k.dispatch id m).1.history = k.history ++ ns ∧ ns.filter Notice.isCall =
    (vs.filterMap Visit.handler?).map fun l => .called l id m.mti

variable {k k' : Connector} {id : Nat} {m : Message} {vs : List (Visit ListenerId)}

theorem call_eq_consult (id : Nat) (m : Message) : call id m = consult (asks m) (handles id m) := by
  funext l k
  unfold call consult asks
  cases (k.listener l).applies m with
  | error f => rfl
  | ok concerned => cases concerned <;> rfl

/-- No handler is called while `k` becomes `k'`, and the listeners stay as they are. -/
structure Undisturbed (k k' : Connector) : Prop where
  listener : ∀ l, k'.listener l = k.listener l
  history : ∃ ns, k'.history = k.history ++ ns ∧ ns.filter Notice.isCall = []

theorem Undisturbed.refl (k : Connector) : Undisturbed k k :=
  ⟨fun _ => rfl, [], (List.append_nil _).symm, rfl⟩

theorem Undisturbed.trans {k'' : Connector} (h : Undisturbed k k') (h' : Undisturbed k' k'') :
    Undisturbed k k'' where
  listener l := (h'.listener l).trans (h.listener l)
  history := by
    obtain ⟨ns, hns, hnone⟩ := h.history
    obtain ⟨ns', hns', hnone'⟩ := h'.history
    exact ⟨ns ++ ns', by rw [hns', hns, List.append_assoc],
      by rw [List.filter_append, hnone, hnone', List.append_nil]⟩

theorem undisturbed_perform (r : Request) (k : Connector) : Undisturbed k (perform r k).1 := by
  cases r with
  | send i n =>
    rw [perform_send]
    rcases k.send_cases i n with h | ⟨c, queue, -, h | ⟨-, ticket, h⟩⟩ <;> rw [h]
    · exact .refl k
    · exact ⟨fun l => rfl, [], (List.append_nil _).symm, rfl⟩
    · exact ⟨fun l => rfl, [.accepted i ticket n], rfl, rfl⟩
  | _ => exact ⟨fun l => by cases l <;> rfl, [], (List.append_nil _).symm, rfl⟩

theorem undisturbed_run (handler : Handler) (k : Connector) :
    Undisturbed k (handler.run perform k).1 := by
  induction handler generalizing k with
  | done r => exact .refl k
  | ask r next ih => exact (undisturbed_perform r k).trans (ih _ _)

/-- What a visit calls, and what the history tells of it. -/
theorem told_of_visited {v : Visit ListenerId} (h : Visited (asks m) (handles id m) k v k') :
    (∀ l, k'.listener l = k.listener l) ∧
      v.handler? = (if (k.listener v.listener).wants m then some v.listener else none) ∧
      ∃ ns, k'.history = k.history ++ ns ∧
        ns.filter Notice.isCall = v.handler?.toList.map fun l => .called l id m.mti := by
  cases h with
  | passes h =>
    obtain ⟨rfl, ha⟩ := Prod.mk.inj h
    exact ⟨fun _ => rfl, by simp [Visit.handler?, Visit.listener, Listener.wants, ha], [],
      (List.append_nil _).symm, rfl⟩
  | balks h =>
    obtain ⟨rfl, ha⟩ := Prod.mk.inj h
    exact ⟨fun _ => rfl, by simp [Visit.handler?, Visit.listener, Listener.wants, ha], [],
      (List.append_nil _).symm, rfl⟩
  | @handles l _ _ _ _ h hr =>
    obtain ⟨rfl, ha⟩ := Prod.mk.inj h
    have hrun := undisturbed_run ((k.listener l).handle id m) (k.note [.called l id m.mti])
    rw [← handles, hr] at hrun
    obtain ⟨ns, hns, hnone⟩ := hrun.history
    refine ⟨fun i => (hrun.listener i).trans rfl, ?_, .called l id m.mti :: ns, ?_, ?_⟩
    · simp [Visit.handler?, Visit.listener, Listener.wants, ha]
    · rw [hns]
      simp [note]
    · exact congrArg (.called l id m.mti :: ·) hnone

/-- The handlers that are called on a walk are those of the listeners that the message concerns, and
the history tells of them. -/
theorem told_of_visits (h : Visits (asks m) (handles id m) k vs k') :
    vs.filterMap Visit.handler? =
        (vs.map Visit.listener).filter (fun l => (k.listener l).wants m) ∧
      ∃ ns, k'.history = k.history ++ ns ∧ ns.filter Notice.isCall =
        (vs.filterMap Visit.handler?).map fun l => .called l id m.mti := by
  induction h with
  | nil k => exact ⟨rfl, [], (List.append_nil _).symm, rfl⟩
  | @cons k₁ k₂ k₃ v vs hv _ ih =>
    obtain ⟨hlisteners, hhandler, ns, hns, hcall⟩ := told_of_visited hv
    obtain ⟨hhandlers, ns', hns', hcalls⟩ := ih
    simp only [hlisteners] at hhandlers
    refine ⟨?_, ns ++ ns', by rw [hns', hns, List.append_assoc], ?_⟩
    · rw [List.map_cons, List.filter_cons, ← hhandlers, List.filterMap_cons, hhandler]
      cases (k₁.listener v.listener).wants m <;> rfl
    · rw [List.filter_append, hcall, hcalls, List.filterMap_cons]
      cases v.handler? <;> rfl

end Connector

/-- **The way of a message**, through listeners of any kind, and through those of a connector. -/
theorem dispatch_walks :
    (∀ (ι σ : Type) (asks handles : ι → σ → σ × Except Failure Bool) (failFast : Bool)
      (ls : List ι) (s : σ), ∃ vs : List (Visit ι),
        Walk asks handles failFast ls s vs (dispatch failFast (consult asks handles) ls s)) ∧
    ∀ (k : Connector) (id : Nat) (m : Message), ∃ vs, k.Dispatched id m vs := by
  refine ⟨fun ι σ => exists_walk, fun k id m => ?_⟩
  obtain ⟨vs, hvs⟩ := exists_walk (Connector.asks m) (Connector.handles id m)
    k.settings.failOnListenerError k.chain k
  rw [← Connector.call_eq_consult] at hvs
  have htold := Connector.told_of_visits hvs.visits
  rw [hvs.order] at htold
  exact ⟨vs, hvs, htold.1, htold.2⟩

end Interchange
