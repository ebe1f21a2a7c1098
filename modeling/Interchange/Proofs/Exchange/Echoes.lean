import Interchange.Proofs.Exchange.Parties
import Interchange.Proofs.Pack.RoundTrip
import Mathlib.Data.List.Perm.Subperm

/-!
# Echo requests are answered once

Both parties of an `Exchange` run the listener that answers echo requests. Under the rules that
answer requests only, an answer of one party is no request for the other one, so answers are never
answered. `Party.Stride` says what a move can make of a party. `Party.Kept` is the invariant of the
account that a party keeps of its answers: each was accepted, and each belongs to a message of the
other party of its own. A move keeps it (`Party.Kept.stride`), and so does everything that the other
party does (`Party.Kept.mono`).

`no_echo_storm` puts the two accounts together, at every moment of every run. The account is not the
last word: `answers_run` says that it holds what the listener makes the connection accept, so
`length_echoes_le` bounds the answers by what the connections accept, and `quiet_receive` says that
nothing else comes of the bytes of a message that a connector reads.
-/

namespace Interchange

/-! ## The types of responses -/

namespace Mti

variable {mti : UInt16}

theorem and_of_functionDigit (h : functionDigit mti = 0) : mti &&& 0x0010 = 0 :=
  calc mti &&& 0x0010 = functionDigit mti &&& 0x0010 := (UInt16.and_assoc mti 0x00F0 0x0010).symm
    _ = 0 := by rw [h]; rfl

/-- Where the function digit is zero, counting it up by one does not overflow. -/
theorem toNat_response (h : functionDigit mti = 0) : (response mti).toNat = mti.toNat + 0x0010 :=
  BitVec.toNat_add_of_and_eq_zero (UInt16.toBitVec_inj.2 (and_of_functionDigit h))

/-- Where the function digit is zero, counting it up by one carries nothing into another digit. -/
theorem response_and (h : functionDigit mti = 0) (mask : UInt16) :
    response mti &&& mask = mti &&& mask ||| 0x0010 &&& mask := by
  have hor : response mti = mti ||| 0x0010 := UInt16.toBitVec_inj.1
    (BitVec.add_eq_or_of_and_eq_zero _ _ (UInt16.toBitVec_inj.2 (and_of_functionDigit h)))
  rw [hor]
  exact UInt16.toBitVec_inj.1 (BitVec.and_or_distrib_right ..)

theorem functionDigit_response (h : functionDigit mti = 0) :
    functionDigit (response mti) = 0x0010 := by
  rw [functionDigit, response_and h, ← functionDigit, h]
  rfl

/-- The response to a request is of its version and its class. -/
theorem response_and_upper (h : functionDigit mti = 0) :
    response mti &&& 0xFF00 = mti &&& 0xFF00 := by
  rw [response_and h]
  exact UInt16.or_zero

end Mti

section

variable {rule : EchoRule} {version : Mti.Version} {mti : UInt16}

/-- What the rules that answer requests only take for an echo request is a request. -/
theorem EchoRule.functionDigit_of_holds (hr : rule = .exact ∨ rule = .networkManagementRequest)
    (h : rule.holds (Mti.echoRequest version) mti = true) : Mti.functionDigit mti = 0 := by
  rcases hr with rfl | rfl
  · have hmti : mti = Mti.echoRequest version := by simpa [holds] using h
    rw [hmti]
    cases version <;> rfl
  · have hmti : mti &&& 0x0F00 = 0x0800 ∧ Mti.functionDigit mti = 0 := by simpa [holds] using h
    exact hmti.2

/-- These rules take no response to a request for an echo request. -/
theorem EchoRule.functionDigit_ne_of_holds (hr : rule = .exact ∨ rule = .networkManagementRequest)
    {request : UInt16} (hq : Mti.functionDigit request = 0)
    (h : rule.holds (Mti.echoRequest version) mti = true) : mti ≠ Mti.response request := by
  intro hmti
  have hdigit := functionDigit_of_holds hr h
  rw [hmti, Mti.functionDigit_response hq] at hdigit
  exact absurd hdigit (by decide)

end

/-! ## What a connection accepts -/

namespace Connector

theorem posts_note (k : Connector) (ns : List Notice) (i : Nat) :
    (k.note ns).posts i = k.posts i ++ (ns.filterMap (Notice.queued? i)).map (·.message) := by
  rw [posts, outbound_note, List.map_append]
  rfl

/-- A message that is accepted comes behind those that were; one that is refused changes nothing.
-/
theorem posts_send (k : Connector) (i : Nat) (m : Message) :
    (∃ ticket, (k.send i m).2 = .ok ticket ∧ (k.send i m).1.posts i = k.posts i ++ [m]) ∨
      ∃ f, (k.send i m).2 = .error f ∧ (k.send i m).1.posts i = k.posts i := by
  unfold send
  split
  · exact .inr ⟨_, rfl, rfl⟩
  · next c hc =>
    split
    · next c' ticket hs =>
      refine .inl ⟨ticket, rfl, ?_⟩
      rw [posts_note]
      simp only [Notice.queued?, List.filterMap_cons, if_true]
      rfl
    · exact .inr ⟨_, rfl, rfl⟩

/-- **The listener that answers echo requests** keeps a message exactly when its answer is accepted,
and sends nothing else. -/
theorem posts_call_echo (k : Connector) (i : Nat) (m : Message) :
    ((k.call i m .echo).2 = .ok false ∧
        k.settings.echoRule.holds (Mti.echoRequest k.version) m.mti = true ∧
        (k.call i m .echo).1.posts i = k.posts i ++ [m.response]) ∨
      (k.call i m .echo).2 ≠ .ok false ∧ (k.call i m .echo).1.posts i = k.posts i := by
  have happlies : (k.listener .echo).applies m =
      .ok (k.settings.echoRule.holds (Mti.echoRequest k.version) m.mti) := rfl
  rw [call, happlies]
  cases hh : k.settings.echoRule.holds (Mti.echoRequest k.version) m.mti with
  | false => exact .inr ⟨by simp, rfl⟩
  | true =>
    have hhandle : (k.listener .echo).handle i m =
        Handler.askAll [.send i m.response] (.done (.ok false)) := rfl
    have hsend := posts_send (k.note [.called .echo i m.mti]) i m.response
    have hnote : (k.note [.called .echo i m.mti]).posts i = k.posts i := by
      rw [posts_note]
      exact List.append_nil _
    rw [hnote] at hsend
    dsimp only
    rw [hhandle, Handler.askAll, Handler.run, perform]
    generalize (k.note [.called .echo i m.mti]).send i m.response = r at hsend ⊢
    obtain ⟨k', o⟩ := r
    rcases hsend with ⟨ticket, rfl, hp⟩ | ⟨f, rfl, hp⟩
    · exact .inl ⟨rfl, rfl, hp⟩
    · refine .inr ⟨fun h => ?_, hp⟩
      cases h

theorem Continues.reject (k : Connector) (id : Nat) (f : Pack.Fault) :
    Continues k (k.reject id f) := by
  unfold Connector.reject
  split
  · rw [← perform_send]
    exact (accompanies id).perform _ k
  · exact .refl k

end Connector

namespace Exchange

open Connector (Continues)

/-! ## Moves -/

theorem getElem?_of_prefix {α : Type} {xs ys : List α} {n : Nat} {x : α} (h : xs <+: ys)
    (hx : xs[n]? = some x) : ys[n]? = some x := by
  obtain ⟨rest, rfl⟩ := h
  rw [List.getElem?_append_left (List.getElem?_eq_some_iff.1 hx).1, hx]

/-- A message arrives as what is read from its bytes. -/
def Arrives (posts : List Message) (index : Nat) (m : Message) : Prop :=
  ∃ q, posts[index]? = some q ∧ Pack.parse (Pack.serialize q) = .ok m

theorem Arrives.mono {posts posts' : List Message} {index : Nat} {m : Message}
    (h : Arrives posts index m) (hp : posts <+: posts') : Arrives posts' index m := by
  obtain ⟨q, hq, hm⟩ := h
  exact ⟨q, getElem?_of_prefix hp hq, hm⟩

namespace Party

/-- Whether the listener of a party takes a message for an echo request. -/
def isAsked (s : Party) (m : Message) : Bool :=
  s.connector.settings.echoRule.holds (Mti.echoRequest s.connector.version) m.mti

section

variable {s t : Party} (hk : Continues s.connector t.connector)

include hk

theorem isAsked_eq (m : Message) : t.isAsked m = s.isAsked m := by
  unfold isAsked
  rw [hk.settings, hk.version]

theorem posts_extend (hj : t.joined = s.joined) : s.posts <+: t.posts := by
  unfold Party.posts
  rw [hj]
  exact hk.posts s.joined

end

/-- What a move can make of a party, the other party having accepted `posts`. -/
inductive Stride (posts : List Message) (s : Party) : Party → Prop
  /-- Its connector goes on, and a message on its way may go on or be at its end. -/
  | goOn {k : Connector} (hk : Continues s.connector k) {p? : Option Passing}
    (hp : ∀ p ∈ p?, ∃ q ∈ s.passing?, p.index = q.index ∧ p.message = q.message) :
    Stride posts s { s with connector := k, passing? := p? }
  /-- A message arrives. -/
  | take {k : Connector} (hk : Continues s.connector k) {index : Nat} {m : Message}
    (hm : Arrives posts index m) (hi : index ∉ s.taken) (ls : Chain) :
    Stride posts s
      { s with connector := k, taken := s.taken ++ [index], passing? := some ⟨index, m, ls⟩ }
  /-- A message arrives that cannot be read. -/
  | refuse {k : Connector} (hk : Continues s.connector k) (index : Nat) :
    Stride posts s { s with connector := k, taken := s.taken ++ [index] }
  /-- The echo request on its way is answered. -/
  | answer {k : Connector} (hk : Continues s.connector k) {p : Passing} (hp : p ∈ s.passing?)
    (ha : s.isAsked p.message = true)
    (hposts : k.posts s.joined = s.posts ++ [p.message.response]) :
    Stride posts s
      { s with
        connector := k
        passing? := none
        answers := s.answers ++ [⟨s.posts.length, p.index, p.message⟩] }

variable {s t : Party} {posts : List Message} {p : Passing}

theorem stride_arrive (s : Party) (now : Nat) (posts : List Message) (index : Nat) :
    Stride posts s (s.arrive now posts index) := by
  have stays : Stride posts s s := .goOn (.refl _) fun p hp => ⟨p, hp, rfl, rfl⟩
  unfold arrive
  split
  · next m hm =>
    split
    · next hready =>
      have hi : index ∉ s.taken := by simp_all
      have hupdate := Continues.update s.connector s.joined fun c =>
        { c with activity := c.activity.record now }
      unfold Party.take
      dsimp only
      cases hparse : Pack.parse (Pack.serialize m) with
      | ok m' => exact .take (hupdate.trans (.note _ _)) ⟨m, hm, hparse⟩ hi _
      | error f => exact .refuse ((hupdate.trans (.reject _ _ f)).trans (.note _ _)) index
    · exact stays
  · exact stays

theorem stride_pass (posts : List Message) (hp : s.passing? = some p) (now : Nat) :
    Stride posts s (s.pass now p) := by
  have goes (ls : Chain) : ∀ q ∈ some { p with listeners := ls },
      ∃ q' ∈ s.passing?, q.index = q'.index ∧ q.message = q'.message := by
    rintro q ⟨⟩
    exact ⟨p, hp, rfl, rfl⟩
  have ends : ∀ q ∈ (none : Option Passing),
      ∃ q' ∈ s.passing?, q.index = q'.index ∧ q.message = q'.message := by
    rintro q ⟨⟩
  unfold pass
  split
  · exact .goOn (.refl _) ends
  · next l ls _ =>
    have hcall := (Continues.accompanies s.joined).applied p.message l s.connector
    split
    · next k hk =>
      rw [hk] at hcall
      exact .goOn hcall (goes ls)
    · next k hk =>
      have hcall' := s.connector.posts_call_echo s.joined p.message
      rw [hk] at hcall
      cases l with
      | named name =>
        rw [answersBy, List.append_nil]
        exact .goOn hcall ends
      | echo =>
        rw [hk] at hcall'
        rcases hcall' with ⟨-, ha, hposts⟩ | ⟨hne, -⟩
        · exact .answer hcall hp ha hposts
        · exact absurd rfl hne
    · next k f hk =>
      rw [hk] at hcall
      split
      · exact .goOn (hcall.trans (.fail _ _ _ _)) ends
      · exact .goOn hcall (goes ls)

/-- What the listener that answers echo requests sends is on the account: shown to it, a message
makes the connection accept the responses to the requests that go on the account, and nothing else.
-/
theorem pass_echo (s : Party) (now : Nat) {p : Passing} {ls : Chain}
    (hl : p.listeners = .echo :: ls) : ∃ as, (s.pass now p).answers = s.answers ++ as ∧
      (s.connector.call s.joined p.message .echo).1.posts s.joined =
        s.posts ++ as.map (·.received.response) := by
  have hcall := s.connector.posts_call_echo s.joined p.message
  unfold pass
  rw [hl]
  dsimp only
  generalize s.connector.call s.joined p.message .echo = r at hcall ⊢
  obtain ⟨k, o⟩ := r
  rcases hcall with ⟨rfl, -, hposts⟩ | ⟨hne, hposts⟩
  · exact ⟨[⟨s.posts.length, p.index, p.message⟩], rfl, hposts⟩
  · refine ⟨[], ?_, hposts.trans (List.append_nil _).symm⟩
    rw [List.append_nil]
    cases o with
    | ok goesOn =>
      cases goesOn with
      | true => rfl
      | false => exact absurd rfl hne
    | error f =>
      dsimp only
      split <;> rfl

/-- The messages that the connection of a party accepts in a move from the listener that answers
echo requests. -/
def echoed (s : Party) : Move → List Message
  | .visit =>
    match s.passing? with
    | some p =>
      if p.listeners.head? = some .echo then
        ((s.connector.call s.joined p.message .echo).1.posts s.joined).drop s.posts.length
      else []
    | none => []
  | .turn _ => []
  | .arrive _ => []

/-- No other listener answers an echo request for the account. -/
theorem answers_pass_of_ne (s : Party) (now : Nat) {p : Passing}
    (hl : p.listeners.head? ≠ some .echo) : (s.pass now p).answers = s.answers := by
  unfold pass
  split
  · rfl
  · next l ls hls =>
    split
    · rfl
    · cases l with
      | echo => exact absurd (by rw [hls]; rfl) hl
      | named name => exact List.append_nil _
    · split <;> rfl

/-- **The account grows by what the listener sends**: the responses to the requests on it are the
messages that the connection has accepted from the listener that answers echo requests. -/
theorem answers_step (s : Party) (now : Nat) (posts : List Message) (move : Move) :
    (s.step now posts move).answers.map (·.received.response) =
      s.answers.map (·.received.response) ++ s.echoed move := by
  cases move with
  | turn t =>
    rw [echoed, List.append_nil, step]
    split <;> rfl
  | arrive index =>
    have harrive : (s.arrive now posts index).answers = s.answers := by
      unfold arrive
      split
      · split
        · unfold Party.take
          dsimp only
          split <;> rfl
        · rfl
      · rfl
    rw [step, harrive, echoed, List.append_nil]
  | visit =>
    simp only [step, visit, echoed]
    cases s.passing? with
    | none => exact (List.append_nil _).symm
    | some p =>
      dsimp only
      split
      · next hl =>
        obtain ⟨ls, hls⟩ := List.head?_eq_some_iff.1 hl
        obtain ⟨as, has, hposts⟩ := s.pass_echo now hls
        rw [has, hposts, List.map_append, List.drop_left]
      · next hl => rw [s.answers_pass_of_ne now hl, List.append_nil]

/-- **What a move can make of a party.** -/
theorem stride_step (s : Party) (now : Nat) (posts : List Message) (move : Move) :
    Stride posts s (s.step now posts move) := by
  have stays : Stride posts s s := .goOn (.refl _) fun p hp => ⟨p, hp, rfl, rfl⟩
  cases move with
  | turn t =>
    unfold step
    dsimp only
    split
    · exact .goOn (.of_advances (Connector.advances_turn _ now t)) fun p hp => ⟨p, hp, rfl, rfl⟩
    · exact stays
  | arrive index => exact stride_arrive s now posts index
  | visit =>
    unfold step visit
    dsimp only
    split
    · next p hp => exact stride_pass posts hp now
    · exact stays

theorem Stride.continues (h : Stride posts s t) :
    Continues s.connector t.connector ∧ t.joined = s.joined := by
  cases h with
  | goOn hk => exact ⟨hk, rfl⟩
  | take hk => exact ⟨hk, rfl⟩
  | refuse hk => exact ⟨hk, rfl⟩
  | answer hk => exact ⟨hk, rfl⟩

theorem Stride.extends (h : Stride posts s t) : s.posts <+: t.posts :=
  posts_extend h.continues.1 h.continues.2

/-! ## The account of the answers -/

/-- An answer was accepted, and belongs to an echo request that arrived. -/
structure Founded (s : Party) (posts : List Message) (a : Answer) : Prop where
  accepted : s.posts[a.position]? = some a.received.response
  taken : a.request ∈ s.taken
  arrives : Arrives posts a.request a.received
  asked : s.isAsked a.received = true

theorem Founded.mono {posts' : List Message} {a : Answer} (h : s.Founded posts a)
    (hk : Continues s.connector t.connector) (hj : t.joined = s.joined) (ht : s.taken ⊆ t.taken)
    (hp : posts <+: posts') : t.Founded posts' a where
  accepted := getElem?_of_prefix (posts_extend hk hj) h.accepted
  taken := ht h.taken
  arrives := h.arrives.mono hp
  asked := (isAsked_eq hk _).trans h.asked

/-- What holds of the account that a party keeps, the other party having accepted `posts`. -/
structure Kept (s : Party) (posts : List Message) : Prop where
  /-- Every answer was accepted, and belongs to an echo request that arrived. -/
  founded : ∀ a ∈ s.answers, s.Founded posts a
  /-- No two answers are the same message. -/
  positions : (s.answers.map (·.position)).Nodup
  /-- No two answers belong to the same message. -/
  requests : (s.answers.map (·.request)).Nodup
  /-- The message on its way has arrived and was not answered. -/
  passing : ∀ p ∈ s.passing?, p.index ∈ s.taken ∧ Arrives posts p.index p.message ∧
    p.index ∉ s.answers.map (·.request)

namespace Kept

/-- The other party accepts more messages. -/
theorem mono {posts' : List Message} (h : s.Kept posts) (hp : posts <+: posts') :
    s.Kept posts' where
  founded a ha := (h.founded a ha).mono (.refl _) rfl (List.Subset.refl _) hp
  positions := h.positions
  requests := h.requests
  passing p hm := by
    obtain ⟨ht, hr, ha⟩ := h.passing p hm
    exact ⟨ht, hr.mono hp, ha⟩

/-- **A move keeps the account.** -/
theorem stride (h : s.Kept posts) (ht : Stride posts s t) : t.Kept posts := by
  have hposts : posts <+: posts := List.prefix_refl _
  cases ht with
  | goOn hk hp =>
    refine ⟨fun a ha => (h.founded a ha).mono hk rfl (List.Subset.refl _) hposts, h.positions,
      h.requests, fun p hm => ?_⟩
    obtain ⟨q, hq, hi, hm⟩ := hp p hm
    rw [hi, hm]
    exact h.passing q hq
  | @take k hk index m hm hi ls =>
    refine ⟨fun a ha => (h.founded a ha).mono hk rfl (List.subset_append_left _ _) hposts,
      h.positions, h.requests, ?_⟩
    rintro p ⟨⟩
    -- A message that was answered had arrived before.
    refine ⟨by simp, hm, fun hr => ?_⟩
    obtain ⟨a, ha, rfl⟩ := List.mem_map.1 hr
    exact hi (h.founded a ha).taken
  | refuse hk index =>
    refine ⟨fun a ha => (h.founded a ha).mono hk rfl (List.subset_append_left _ _) hposts,
      h.positions, h.requests, fun p hm => ?_⟩
    obtain ⟨ht, hr, ha⟩ := h.passing p hm
    exact ⟨List.mem_append_left _ ht, hr, ha⟩
  | @answer k hk p hp ha hk' =>
    obtain ⟨hpt, hpr, hpn⟩ := h.passing p hp
    refine ⟨fun a hm => ?_, ?_, ?_, by rintro q ⟨⟩⟩
    · rcases List.mem_append.1 hm with hm | hm
      · exact (h.founded a hm).mono hk rfl (List.Subset.refl _) hposts
      · cases List.mem_singleton.1 hm
        refine ⟨?_, hpt, hpr, (isAsked_eq hk _).trans ha⟩
        unfold Party.posts
        dsimp only
        rw [hk']
        exact List.getElem?_concat_length
    -- The answers that were there are among the messages accepted so far, and this one comes next.
    · have hlast : s.posts.length ∉ s.answers.map (·.position) := by
        intro hm
        obtain ⟨a, ha, hl⟩ := List.mem_map.1 hm
        have hlt := (List.getElem?_eq_some_iff.1 (h.founded a ha).accepted).1
        omega
      rw [List.map_append, List.map_singleton, ← List.concat_eq_append]
      exact h.positions.concat hlast
    · rw [List.map_append, List.map_singleton, ← List.concat_eq_append]
      exact h.requests.concat hpn

end Kept

/-- Which of a party's messages are no echo answers. -/
def unprompted (s : Party) : List Nat :=
  (List.range s.posts.length).filter (· ∉ s.answers.map (·.position))

/-- The messages that are no echo answers and the echo answers are no more than there are
messages. -/
theorem Kept.length_unprompted (h : s.Kept posts) :
    s.unprompted.length + s.answers.length ≤ s.posts.length := by
  have hnodup : (s.unprompted ++ s.answers.map (·.position)).Nodup := by
    refine (List.nodup_range.filter _).append h.positions fun n hn hp => ?_
    exact of_decide_eq_true (List.mem_filter.1 hn).2 hp
  have hsub : s.unprompted ++ s.answers.map (·.position) ⊆ List.range s.posts.length := by
    intro n hn
    rcases List.mem_append.1 hn with hn | hn
    · exact (List.mem_filter.1 hn).1
    · obtain ⟨a, ha, rfl⟩ := List.mem_map.1 hn
      exact List.mem_range.2 (List.getElem?_eq_some_iff.1 (h.founded a ha).accepted).1
  have hle := (List.subperm_of_subset hnodup hsub).length_le
  rwa [List.length_append, List.length_map, List.length_range] at hle

/-- How the echo answers of a party relate to the messages of the other one. -/
structure Quiet (s o : Party) : Prop where
  /-- No echo answer of the other party was answered. -/
  unanswered : ∀ a ∈ s.answers, ∀ b ∈ o.answers, a.request ≠ b.position
  /-- An answer belongs to a message of the other party that arrived, with its type, and with its
  fields if each of them has a length on the wire. -/
  received : ∀ a ∈ s.answers, a.request ∈ s.taken ∧ ∃ m, o.posts[a.request]? = some m ∧
    a.received.mti = m.mti ∧ (m.IsShort → a.received = m)
  /-- No two answers belong to the same message. -/
  distinct : (s.answers.map (·.request)).Nodup
  /-- An answer was accepted. It has the fields of the request, and its type with the function digit
  one higher, which neither overflows nor carries into the class digit. -/
  answered : ∀ a ∈ s.answers, ∃ m, s.posts[a.position]? = some m ∧ m.fields = a.received.fields ∧
    m.mti.toNat = a.received.mti.toNat + 0x0010 ∧
      m.mti &&& 0xFF00 = a.received.mti &&& 0xFF00
  /-- No two answers are the same message. -/
  separate : (s.answers.map (·.position)).Nodup
  /-- There are no more answers than messages of the other party that are no answers. -/
  bounded : s.answers.length ≤ o.unprompted.length

/-- An echo request of a party under these rules is a request. -/
theorem functionDigit_of_isAsked {m : Message} (hs : s.connector.settings.echoRule = .exact ∨
    s.connector.settings.echoRule = .networkManagementRequest) (h : s.isAsked m = true) :
    Mti.functionDigit m.mti = 0 :=
  EchoRule.functionDigit_of_holds hs h

theorem Kept.quiet {o : Party} (h : s.Kept o.posts) (ho : o.Kept s.posts)
    (hs : s.connector.settings.echoRule = .exact ∨
      s.connector.settings.echoRule = .networkManagementRequest)
    (hor : o.connector.settings.echoRule = .exact ∨
      o.connector.settings.echoRule = .networkManagementRequest) : Quiet s o := by
  -- The other party's answer would arrive with the type of a response, and the rule of this party
  -- takes no such type for that of an echo request.
  have hunanswered : ∀ a ∈ s.answers, ∀ b ∈ o.answers, a.request ≠ b.position := by
    intro a ha b hb heq
    obtain ⟨m, hm, hread⟩ := (h.founded a ha).arrives
    rw [heq, (ho.founded b hb).accepted] at hm
    cases hm
    have hdigit := functionDigit_of_isAsked hor (ho.founded b hb).asked
    exact EchoRule.functionDigit_ne_of_holds hs hdigit (h.founded a ha).asked
      (Pack.mti_of_parse_serialize hread)
  refine ⟨hunanswered, fun a ha => ?_, h.requests, fun a ha => ?_, h.positions, ?_⟩
  · obtain ⟨m, hm, hread⟩ := (h.founded a ha).arrives
    refine ⟨(h.founded a ha).taken, m, hm, Pack.mti_of_parse_serialize hread, fun hshort => ?_⟩
    rw [Pack.parse_serialize hshort] at hread
    cases hread
    rfl
  · have hdigit := functionDigit_of_isAsked hs (h.founded a ha).asked
    exact ⟨_, (h.founded a ha).accepted, rfl, Mti.toNat_response hdigit,
      Mti.response_and_upper hdigit⟩
  · have hsub : s.answers.map (·.request) ⊆ o.unprompted := by
      intro n hn
      obtain ⟨a, ha, rfl⟩ := List.mem_map.1 hn
      obtain ⟨m, hm, -⟩ := (h.founded a ha).arrives
      refine List.mem_filter.2 ⟨List.mem_range.2 (List.getElem?_eq_some_iff.1 hm).1, ?_⟩
      rw [decide_eq_true_eq]
      intro hp
      obtain ⟨b, hb, heq⟩ := List.mem_map.1 hp
      exact hunanswered a ha b hb heq.symm
    have hle := (List.subperm_of_subset h.requests hsub).length_le
    rwa [List.length_map] at hle

end Party

/-! ## Runs -/

/-- Both accounts hold, and the connectors go on from those of `e₀`. -/
structure Kept (e₀ e : Exchange) : Prop where
  left : e.left.Kept e.right.posts
  right : e.right.Kept e.left.posts
  leftContinues : Continues e₀.left.connector e.left.connector
  rightContinues : Continues e₀.right.connector e.right.connector

theorem kept_join (k l : Connector) (i j : Nat) : Kept (join k l i j) (join k l i j) := by
  have hnew (k : Connector) (i : Nat) (posts : List Message) :
      Party.Kept ⟨k, i, [], none, []⟩ posts :=
    ⟨by rintro a ⟨⟩, List.nodup_nil, List.nodup_nil, by rintro p ⟨⟩⟩
  exact ⟨hnew .., hnew .., .refl _, .refl _⟩

theorem Kept.party {e₀ e : Exchange} (h : Kept e₀ e) (side : Side) :
    (e.party side).Kept (e.party side.other).posts := by
  cases side with
  | left => exact h.left
  | right => exact h.right

/-- What a move can make of one party keeps both accounts. -/
theorem Kept.withParty {e₀ e : Exchange} (h : Kept e₀ e) {side : Side} {t : Party}
    (ht : Party.Stride (e.party side.other).posts (e.party side) t) :
    Kept e₀ (e.withParty side t) := by
  cases side with
  | left =>
    exact ⟨h.left.stride ht, h.right.mono ht.extends, h.leftContinues.trans ht.continues.1,
      h.rightContinues⟩
  | right =>
    exact ⟨h.left.mono ht.extends, h.right.stride ht, h.leftContinues,
      h.rightContinues.trans ht.continues.1⟩

theorem Kept.step {e₀ e : Exchange} (h : Kept e₀ e) (now : Nat) (side : Side) (move : Move) :
    Kept e₀ (e.step now side move) := by
  rw [step_eq]
  exact h.withParty (Party.stride_step ..)

theorem Kept.run {e₀ e : Exchange} (h : Kept e₀ e) (moves : List (Nat × Side × Move)) :
    Kept e₀ (e.run moves) := by
  induction moves generalizing e with
  | nil => exact h
  | cons m moves ih => exact ih (h.step m.1 m.2.1 m.2.2)

/-- Where both accounts hold, under rules that answer requests only, no echo answer is answered. -/
theorem Kept.quiet {k l : Connector} {i j : Nat} {e : Exchange} (h : Kept (join k l i j) e)
    (hk : k.settings.echoRule = .exact ∨ k.settings.echoRule = .networkManagementRequest)
    (hl : l.settings.echoRule = .exact ∨ l.settings.echoRule = .networkManagementRequest)
    (side : Side) : (e.party side).Quiet (e.party side.other) := by
  have hleft := h.leftContinues.settings
  have hright := h.rightContinues.settings
  change _ = k.settings at hleft
  change _ = l.settings at hright
  rw [← hleft] at hk
  rw [← hright] at hl
  cases side with
  | left => exact h.left.quiet h.right hk hl
  | right => exact h.right.quiet h.left hl hk

/-- **No echo storm.** Two connectors are joined, each with a rule that answers requests only,
whatever their versions, their other settings and their listeners are. After any moves of the two
in any order, no echo answer was answered, each echo answer belongs to a message of its own that
arrived, has its fields and its type with the function digit one higher, and there are no more of
them than messages of the other party that are no echo answers. -/
theorem no_echo_storm {k l : Connector}
    (hk : k.settings.echoRule = .exact ∨ k.settings.echoRule = .networkManagementRequest)
    (hl : l.settings.echoRule = .exact ∨ l.settings.echoRule = .networkManagementRequest)
    (i j : Nat) (moves : List (Nat × Side × Move)) :
    ((join k l i j).run moves).left.Quiet ((join k l i j).run moves).right ∧
      ((join k l i j).run moves).right.Quiet ((join k l i j).run moves).left := by
  have h := (kept_join k l i j).run moves
  exact ⟨h.quiet hk hl .left, h.quiet hk hl .right⟩

/-- Two connectors whose heartbeats cross: each of them answers the other's heartbeat, and the
answers arrive. -/
def crossing : Exchange :=
  (join { settings := { answerEchoes := true } }
      { settings := { answerEchoes := true, echoRule := .exact } } 1 1).run
    [(0, .left, .turn .init), (0, .left, .turn .openConnection),
      (0, .right, .turn .init), (0, .right, .turn .openConnection),
      (30000, .left, .turn (.happening 1 .alarm)), (30000, .right, .turn (.happening 1 .alarm)),
      (30001, .right, .arrive 0), (30001, .left, .arrive 0), (30002, .right, .visit),
      (30002, .left, .visit), (30003, .left, .arrive 1), (30003, .right, .arrive 1),
      (30004, .left, .visit), (30004, .right, .visit)]

theorem crossing_quiet :
    crossing.left.posts = [.echoRequest .v1987, .new 0x0810] ∧
      crossing.left.answers = [⟨1, 0, .echoRequest .v1987⟩] ∧
      crossing.right.answers = [⟨1, 0, .echoRequest .v1987⟩] ∧
      crossing.left.taken = [0, 1] ∧ crossing.right.taken = [0, 1] ∧
      crossing.left.Quiet crossing.right ∧ crossing.right.Quiet crossing.left := by
  refine ⟨?_, ?_, ?_, ?_, ?_, no_echo_storm (.inr rfl) (.inl rfl) 1 1 _⟩ <;> decide +kernel

/-! ## What the account stands for -/

/-- The messages that the connection of a party accepts in a run from the listener that answers echo
requests. -/
def echoes (side : Side) : Exchange → List (Nat × Side × Move) → List Message
  | _, [] => []
  | e, (now, who, move) :: moves =>
    (if who = side then (e.party side).echoed move else []) ++
      echoes side (e.step now who move) moves

/-- **The account holds the echo answers**: the responses to the requests on it are what the
connection has accepted from the listener that answers echo requests, and nothing else. -/
theorem answers_run (side : Side) (e : Exchange) (moves : List (Nat × Side × Move)) :
    ((e.run moves).party side).answers.map (·.received.response) =
      (e.party side).answers.map (·.received.response) ++ echoes side e moves := by
  induction moves generalizing e with
  | nil => exact (List.append_nil _).symm
  | cons m moves ih =>
    obtain ⟨now, who, move⟩ := m
    have hstep : ((e.step now who move).party side).answers.map (·.received.response) =
        (e.party side).answers.map (·.received.response) ++
          (if who = side then (e.party side).echoed move else []) := by
      rw [step_eq]
      split
      · next h =>
        rw [h, party_withParty, Party.answers_step]
      · next h =>
        rw [Side.eq_other_of_ne h, party_other_withParty, List.append_nil]
    rw [echoes, ← List.append_assoc, ← hstep]
    exact ih _

section

variable {k l : Connector}
  (hk : k.settings.echoRule = .exact ∨ k.settings.echoRule = .networkManagementRequest)
  (hl : l.settings.echoRule = .exact ∨ l.settings.echoRule = .networkManagementRequest)

include hk hl

/-- **Echo answers are bounded by messages**: in any run of two connectors that are joined, each
with a rule that answers requests only, their listeners answer no more often, taken together, than
either connection accepts messages. -/
theorem length_echoes_le (i j : Nat) (moves : List (Nat × Side × Move)) (side : Side) :
    (echoes .left (join k l i j) moves).length + (echoes .right (join k l i j) moves).length ≤
      (((join k l i j).run moves).party side).posts.length := by
  have h := (kept_join k l i j).run moves
  have hanswers (side : Side) : (((join k l i j).run moves).party side).answers.length =
      (echoes side (join k l i j) moves).length := by
    have hrun := congrArg List.length (answers_run side (join k l i j) moves)
    rw [List.length_map, List.length_append, List.length_map] at hrun
    cases side <;> simpa [party, join] using hrun
  have hleft := (h.quiet hk hl .left).bounded
  have hright := (h.quiet hk hl .right).bounded
  have hunprompted := (h.party side).length_unprompted
  rw [← hanswers, ← hanswers]
  cases side with
  | left =>
    rw [Nat.add_comm]
    exact Nat.le_trans (Nat.add_le_add_right hright _) hunprompted
  | right => exact Nat.le_trans (Nat.add_le_add_right hleft _) hunprompted

/-- **A read keeps quiet.** Wherever two such connectors come to stand, a party whose connection
reads the bytes of a message that has not arrived comes to stand where moves would have brought it:
the message has arrived and has gone through the listeners, what they answered is on the account,
and no echo answer is answered. -/
theorem quiet_receive (i j : Nat) (moves : List (Nat × Side × Move)) {side : Side} {index : Nat}
    {c : Connection} {m : Message} {bytes : List UInt8} {decoder : Decoder} :
    let e := (join k l i j).run moves
    let s := e.party side
    let o := e.party side.other
    s.connector.connection? s.joined = some c → c.reader = .reading → s.passing? = none →
      o.posts[index]? = some m → index ∉ s.taken →
      c.decoder.push s.connector.settings.codec bytes = (.ok [Pack.serialize m], decoder) →
      ∀ now, ∃ n t, t.connector = s.connector.receive c now bytes ∧ t.passing? = none ∧
        t.answers.map (·.received.response) = s.answers.map (·.received.response) ++
          echoes side (e.withParty side (s.decoding decoder)) (readMoves now side index n) ∧
        t.Quiet o ∧ o.Quiet t := by
  intro e s o hc hr hp hm hi hd now
  obtain ⟨n, t, hrun, hconnector, hpassing⟩ := exists_run_eq_receive hc hr hp hm hi hd now
  have hkept : Kept (join k l i j) e := (kept_join k l i j).run moves
  have hdecoding : Party.Stride o.posts s (s.decoding decoder) :=
    .goOn (.update ..) fun p hp => ⟨p, hp, rfl, rfl⟩
  have h := (hkept.withParty hdecoding).run (readMoves now side index n)
  have hanswers := answers_run side (e.withParty side (s.decoding decoder))
    (readMoves now side index n)
  rw [hrun] at h hanswers
  rw [party_withParty, party_withParty] at hanswers
  have hquiet := h.quiet hk hl side
  have hquiet' := h.quiet hk hl side.other
  rw [party_withParty, party_other_withParty] at hquiet
  rw [party_other_withParty, show side.other.other = side by cases side <;> rfl,
    party_withParty] at hquiet'
  exact ⟨n, t, hconnector, hpassing, hanswers, hquiet, hquiet'⟩

end

/-- A heartbeat is queued, and the connection at the other end reads its frame. -/
example :
    let e := (join { settings := { answerEchoes := true } } { settings := { answerEchoes := true } }
      1 1).run [(0, .left, .turn .init), (0, .left, .turn .openConnection),
        (0, .right, .turn .init), (0, .right, .turn .openConnection),
        (30000, .left, .turn (.happening 1 .alarm))]
    let codec := e.right.connector.settings.codec
    let m := Message.echoRequest .v1987
    (e.right.connector.connection? 1).any (fun c => c.reader = .reading ∧
        (codec.encode (Pack.serialize m)).toOption.any fun f =>
          (c.decoder.push codec f.bytes).1.toOption = some [Pack.serialize m]) ∧
      e.right.passing?.isNone ∧ e.left.posts[0]? = some m ∧ 0 ∉ e.right.taken := by
  decide +kernel

end Exchange

end Interchange
