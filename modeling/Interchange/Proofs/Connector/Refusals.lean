import Interchange.Proofs.Connector.Inbound
import Interchange.Proofs.Connector.Strides
import Interchange.Proofs.Frame.Carrying
import Interchange.Proofs.Pack.Rejects

/-!
# Bodies that are refused

A connector refuses a body that is no message: it answers with a reject message, if it is told to,
and publishes the fault. `Connector.refusals k i` lists the faults of the bodies that it refused on
connection `i`.

`Refuses i k fs k'` says that the faults `fs` come to this list while `k` becomes `k'`, and that
connection `i` keeps the bytes that it holds. Each thing that can happen to a connector is treated
once; only the bodies of the connection itself add to the list (`Refuses.handle`). So a turn refuses
bodies that its bytes complete (`exists_taken_turn`), a run refuses bodies that its pieces complete
(`exists_taken_run`), and these were sent.

`rejects_provoke_none` puts this together with what a reject message is on the wire: none is ever
refused, so two connectors that both answer do not go on answering each other.
-/

namespace Interchange

/-- Why a body is no message, if it is none. -/
def Pack.fault? (body : List UInt8) : Option Pack.Fault :=
  match Pack.parse body with
  | .ok _ => none
  | .error f => some f

/-- The fault of a body that was refused on a connection, if a notice tells of one. -/
def Notice.refusal? (i : Nat) : Notice → Option Pack.Fault
  | .published (.failed id (.parse f)) => if id = i then some f else none
  | _ => none

namespace Connector

open Notice

variable {k k' k'' : Connector} {id i now : Nat} {fs gs : List Pack.Fault} {ns : List Notice}

/-- The faults of the bodies that were refused on a connection, the oldest first. -/
def refusals (k : Connector) (i : Nat) : List Pack.Fault := k.history.filterMap (refusal? i)

theorem refusals_of_history (ns : List Notice) (h : k'.history = k.history ++ ns) :
    k'.refusals i = k.refusals i ++ ns.filterMap (refusal? i) := by
  rw [refusals, h, List.filterMap_append]
  rfl

theorem tells_of_refusal? {n : Notice} {f : Pack.Fault} (h : n.refusal? i = some f) :
    n.tells i = true := by
  unfold refusal? at h
  split at h
  · next id cause =>
    split at h
    · next hi => exact decide_eq_true hi
    · cases h
  · cases h

/-- A fault that ends a connection refuses no body. -/
theorem refusal?_failed {f : Fault} (h : id = i → f.endsConnection = true) :
    refusal? i (.published (.failed id f)) = none := by
  cases f with
  | parse cause => exact if_neg fun hi => Bool.false_ne_true (h hi)
  | _ => rfl

theorem filterMap_refusal?_logLine (k : Connector) (id : Nat) (d : Direction) (m : Message) :
    (k.logLine id d m).filterMap (refusal? i) = [] := by
  unfold logLine
  split <;> rfl

theorem filterMap_refusal?_notices (k : Connector) (id : Nat) (ss : List Signal) :
    (ss.flatMap (k.notices id)).filterMap (refusal? i) = [] := by
  induction ss with
  | nil => rfl
  | cons s ss ih =>
    rw [List.flatMap_cons, List.filterMap_append, ih, List.append_nil]
    cases s with
    | logged m => exact filterMap_refusal?_logLine k id .outbound m
    | _ => rfl

/-! ## What is refused -/

/-- The faults `fs` are those of the bodies that are refused on connection `i` while `k` becomes
`k'`. The connection keeps the bytes that it holds. -/
structure Refuses (i : Nat) (k : Connector) (fs : List Pack.Fault) (k' : Connector) : Prop where
  refusals : k'.refusals i = k.refusals i ++ fs
  decoder : Retains Connection.decoder i k k'

theorem settled_decoder : Settled Connection.decoder where
  queue _ _ := rfl
  close c := by
    unfold Connection.close
    split <;> rfl

namespace Refuses

/-- What makes nothing known of bodies. -/
theorem of_history (ns : List Notice) (hh : k'.history = k.history ++ ns)
    (hn : ns.filterMap (refusal? i) = []) (hd : Retains Connection.decoder i k k') :
    Refuses i k [] k' where
  refusals := (refusals_of_history ns hh).trans (by rw [hn])
  decoder := hd

theorem of_eq (hh : k'.history = k.history) (hd : Retains Connection.decoder i k k') :
    Refuses i k [] k' :=
  of_history [] (by rw [hh, List.append_nil]) rfl hd

theorem refl (i : Nat) (k : Connector) : Refuses i k [] k := of_eq rfl (.refl _ i k)

theorem trans (h : Refuses i k fs k') (h' : Refuses i k' gs k'') :
    Refuses i k (fs ++ gs) k'' where
  refusals := by rw [h'.refusals, h.refusals, List.append_assoc]
  decoder := h.decoder.trans h'.decoder

theorem note (i : Nat) (k : Connector) (ns : List Notice) :
    Refuses i k (ns.filterMap (refusal? i)) (k.note ns) :=
  ⟨refusals_of_history ns rfl, .of_connections_eq rfl⟩

theorem note_nil (h : ns.filterMap (refusal? i) = []) : Refuses i k [] (k.note ns) :=
  of_history ns rfl h (.of_connections_eq rfl)

/-- A change of one connection: if it is this one, it has to keep the bytes that it holds. -/
theorem update {f : Connection → Connection} (hf : ∀ c, c.id = id → (f c).id = id)
    (h : id = i → ∀ c, k.connection? i = some c → (f c).decoder = c.decoder) :
    Refuses i k [] (k.update id f) :=
  of_eq rfl (.update hf h)

/-! ### Requests and listeners -/

theorem send (i : Nat) (k : Connector) (id : Nat) (m : Message) :
    Refuses i k [] (k.send id m).1 := by
  have hd := Retains.send settled_decoder i k id m
  rcases k.send_cases id m with h | ⟨c, queue, -, h | ⟨-, ticket, h⟩⟩
  · exact of_eq (by rw [h]) hd
  · exact of_eq (by rw [h]; rfl) hd
  · exact of_history [.accepted id ticket m] (by rw [h]; rfl) rfl hd

theorem perform (i : Nat) (r : Request) (k : Connector) : Refuses i k [] (perform r k).1 := by
  cases r with
  | send id m =>
    rw [perform_send]
    exact send i k id m
  | close id => exact of_eq rfl (.close settled_decoder i k id)
  | append l => exact of_eq rfl (.of_connections_eq rfl)
  | insertFirst l => exact of_eq rfl (.of_connections_eq rfl)
  | remove l => exact of_eq rfl (.of_connections_eq rfl)

theorem reject (i : Nat) (k : Connector) (id : Nat) (f : Pack.Fault) :
    Refuses i k [] (k.reject id f) := by
  unfold Connector.reject
  split
  · exact send i k id _
  · exact refl i k

theorem run (i : Nat) (h : Handler) (k : Connector) :
    Refuses i k [] (h.run Connector.perform k).1 := by
  induction h generalizing k with
  | done r => exact refl i k
  | ask r next ih => exact (perform i r k).trans (ih _ _)

theorem call (i : Nat) (id : Nat) (m : Message) (l : ListenerId) (k : Connector) :
    Refuses i k [] (k.call id m l).1 := by
  unfold Connector.call
  split
  · exact refl i k
  · exact refl i k
  · exact (note i k [.called l id m.mti]).trans (run i _ _)

theorem dispatch (i : Nat) (k : Connector) (id : Nat) (m : Message) :
    Refuses i k [] (k.dispatch id m).1 :=
  dispatch_preserves (fun l _ h => h.trans (call i id m l _)) k.chain (refl i k)

/-! ### Bodies -/

/-- **Only a body that is no message is refused.** -/
theorem handle (i : Nat) (k : Connector) (body : List UInt8) :
    Refuses i k (Pack.fault? body).toList (k.handle i body).1 := by
  unfold Connector.handle Pack.fault?
  cases Pack.parse body with
  | ok m =>
    have hlog : Refuses i k [] (k.note (k.logLine i .inbound m)) :=
      note_nil (filterMap_refusal?_logLine k i .inbound m)
    exact hlog.trans (dispatch i _ i m)
  | error f =>
    have hpublish := note i (k.reject i f) [.published (.failed i (.parse f))]
    rw [List.filterMap_cons, refusal?, if_pos rfl] at hpublish
    exact (reject i k i f).trans hpublish

/-- The bodies that are taken before a listener fails are the first ones. -/
theorem handleAll (i : Nat) (k : Connector) (bodies : List (List UInt8)) :
    ∃ taken, taken <+: bodies ∧
      Refuses i k (taken.filterMap Pack.fault?) (k.handleAll i bodies).1 ∧
      ((k.handleAll i bodies).2 = .ok () → taken = bodies) := by
  induction bodies generalizing k with
  | nil => exact ⟨[], List.prefix_refl _, refl i k, fun _ => rfl⟩
  | cons b bs ih =>
    have hb := handle i k b
    have hcons (bs : List (List UInt8)) : (Pack.fault? b).toList ++ bs.filterMap Pack.fault? =
        (b :: bs).filterMap Pack.fault? := by
      rw [List.filterMap_cons]
      cases Pack.fault? b <;> rfl
    rw [Connector.handleAll]
    split
    · next k' hl =>
      obtain ⟨taken, hpre, htaken, hall⟩ := ih k'
      rw [hl] at hb
      refine ⟨b :: taken, (List.prefix_cons_inj b).2 hpre, ?_, fun hok => by rw [hall hok]⟩
      rw [← hcons]
      exact hb.trans htaken
    · next hl =>
      rw [hl] at hb
      refine ⟨[b], (List.prefix_cons_inj b).2 List.nil_prefix, ?_, fun hok => by cases hok⟩
      rw [← hcons, List.filterMap_nil, List.append_nil]
      exact hb

/-- Bodies of other connections are refused there. -/
theorem accompanies (h : id ≠ i) : Accompanies id fun k k' => Refuses i k [] k' where
  refl := refl i
  trans := trans
  perform := perform i
  log m k := note_nil (filterMap_refusal?_logLine k id .inbound m)
  call _ _ _ := note_nil rfl
  reject f k := note_nil (by rw [List.filterMap_cons, refusal?_failed fun hi => absurd hi h]; rfl)

/-! ### The way down -/

theorem finish (i : Nat) (k : Connector) (id : Nat) : Refuses i k [] (k.finish id) := by
  have hgone : Refuses i k []
      (k.update id fun c => { c with state := .disconnected, reader := .ended }) :=
    update (fun _ hc => hc) fun _ _ _ => rfl
  exact hgone.trans (note_nil rfl)

theorem windDown (i : Nat) (k : Connector) (id now : Nat) :
    Refuses i k [] (k.windDown id now) := by
  unfold Connector.windDown
  split
  · exact refl i k
  · split
    · exact finish i k id
    · refine update (fun c hc => ?_) fun _ c _ => settled_decoder.close c
      simp only [Connection.close]
      split <;> exact hc

/-- A fault that ends a connection is no refusal. -/
theorem fail {f : Fault} (hf : id = i → f.endsConnection = true) (k : Connector) (now : Nat) :
    Refuses i k [] (k.fail id now f) := by
  have hpublish : Refuses i k [] (k.publish (.failed id f)) :=
    note_nil (by rw [List.filterMap_cons, refusal?_failed hf]; rfl)
  exact hpublish.trans (windDown i _ id now)

/-! ### What happens to a connection -/

theorem stepWriter (i : Nat) (k : Connector) (c : Connection) (now : Nat) (e : Writer.Event) :
    Refuses i k [] (k.stepWriter c now e) := by
  unfold Connector.stepWriter
  cases c.writer.step k.settings.codec e with
  | mk writer signals =>
  have hupdate (activity : Activity) :
      Refuses i k [] (k.update c.id fun c => { c with writer, activity }) :=
    update (fun _ hc => hc) fun _ _ _ => rfl
  exact (hupdate _).trans (note_nil (filterMap_refusal?_notices k c.id signals))

theorem heartbeat (i : Nat) (k : Connector) (c : Connection) (now : Nat) :
    Refuses i k [] (k.heartbeat c now) := by
  have hsend := send i k c.id (.echoRequest k.version)
  unfold Connector.heartbeat
  split
  · next h =>
    rw [h] at hsend
    exact hsend.trans (update (fun _ hc => hc) fun _ _ _ => rfl)
  · next h => rwa [h] at hsend

theorem receive_of_ne {c : Connection} (h : c.id ≠ i) (k : Connector) (now : Nat)
    (bytes : List UInt8) : Refuses i k [] (k.receive c now bytes) := by
  unfold Connector.receive
  cases c.decoder.push k.settings.codec bytes with
  | mk bodies decoder =>
  have htake : Refuses i k [] (k.update c.id fun c =>
      { c with decoder, activity := c.activity.record now }) :=
    update (fun _ hc => hc) fun hi => absurd hi h
  cases bodies with
  | error f => exact htake.trans (fail (fun hi => absurd hi h) _ now)
  | ok bodies =>
    dsimp only
    have hall := htake.trans ((accompanies h).handleAll bodies _)
    split
    · next hl => rwa [hl] at hall
    · next hl =>
      rw [hl] at hall
      exact hall.trans (fail (fun hi => absurd hi h) _ now)

theorem stepReading (hk : k.Sound) {c : Connection} (hc : k.connection? c.id = some c) (now : Nat)
    {h : Happening} (hh : c.id = i → ∀ bytes, h ≠ .received bytes) :
    Refuses i k [] (k.stepReading c now h) := by
  cases h with
  | received bytes => exact receive_of_ne (fun hi => hh hi bytes rfl) k now bytes
  | inputEnded => exact windDown i k c.id now
  | inputFailed text => exact fail (fun _ => rfl) k now
  | sawClosing =>
    simp only [Connector.stepReading]
    split
    · exact windDown i k c.id now
    · exact refl i k
  | sawWriterEnd =>
    simp only [Connector.stepReading]
    split
    · next f hf =>
      exact fail (fun _ => hk.writers f (.inr ⟨c, Numbered.mem_of_get? hc, hf⟩)) k now
    · split
      · exact windDown i k c.id now
      · exact refl i k
  | alarm =>
    simp only [Connector.stepReading]
    split
    · split
      · exact heartbeat i k c now
      · exact refl i k
    · exact refl i k
  | drained => exact refl i k
  | gaveUp => exact refl i k
  | writer e => exact refl i k

theorem stepDraining (i : Nat) (k : Connector) (c : Connection) (since now : Nat) (h : Happening) :
    Refuses i k [] (k.stepDraining c since now h) := by
  cases h with
  | drained =>
    simp only [Connector.stepDraining]
    split
    · exact finish i k c.id
    · exact refl i k
  | gaveUp =>
    simp only [Connector.stepDraining]
    split
    · exact (stepWriter i k c now .abandon).trans (finish i _ c.id)
    · exact refl i k
  | _ => exact refl i k

theorem step (hk : k.Sound) (id now : Nat) {h : Happening}
    (hh : id = i → ∀ bytes, h ≠ .received bytes) : Refuses i k [] (k.step id now h) := by
  unfold Connector.step
  split
  · exact refl i k
  · next c hc =>
    obtain rfl := id_of_connection? hc
    split
    · split
      · exact stepWriter i k c now .closing
      · exact refl i k
    · exact refl i k
    · exact stepWriter i k c now _
    · split
      · exact stepReading hk hc now hh
      · exact stepDraining i k c _ now h
      · exact refl i k

/-- **A turn that brings no bytes for a connection refuses nothing there.** -/
theorem turn (hk : k.Sound) (now : Nat) {t : Turn} (ht : t.piece? i = none) :
    Refuses i k [] (k.turn now t) := by
  cases t with
  | init =>
    refine of_eq ?_ (.of_connections_eq k.connections_init)
    rw [Connector.turn, init]
    split
    · rfl
    · split <;> rfl
  | openConnection =>
    exact of_history [.published (.connected k.nextId)] rfl rfl (.openConnection i k now)
  | ask r => exact perform i r k
  | happening id h =>
    refine step hk id now ?_
    rintro rfl bytes rfl
    rw [Turn.piece?, if_pos rfl] at ht
    cases ht

end Refuses

/-! ## What a connection takes -/

/-- A connection that winds down does not read. -/
theorem reader_windDown {y : Connection} (hy : (k.windDown id now).connection? id = some y) :
    y.reader ≠ .reading := by
  unfold windDown at hy
  split at hy
  · next hc => cases hc.symm.trans hy
  · next c hc =>
    split at hy
    · rw [connection?_finish, if_pos rfl, hc] at hy
      cases hy
      intro h
      cases h
    · rw [connection?_update, if_pos rfl, hc] at hy
      · cases hy
        intro h
        cases h
      · intro c hc
        simp only [Connection.close]
        split <;> exact hc

/-- The bodies that a connection takes of pieces that arrive, if it goes on reading. -/
def due (k : Connector) (i : Nat) (xs : List (List UInt8)) : List (List UInt8) :=
  match k.connection? i with
  | some c => if c.reader = .reading then c.decoder.given k.settings.codec xs else []
  | none => []

section

variable {x : Connection} {xs : List (List UInt8)}

theorem due_of_reading (hx : k.connection? i = some x) (hr : x.reader = .reading) :
    k.due i xs = x.decoder.given k.settings.codec xs := by
  rw [due, hx]
  exact if_pos hr

theorem due_of_not_reading (h : ∀ y, k.connection? i = some y → y.reader ≠ .reading) :
    k.due i xs = [] := by
  unfold due
  split
  · next y hy => exact if_neg (h y hy)
  · rfl

/-- A connection that keeps what it holds takes no more than before. -/
theorem due_isPrefix (hx : k.connection? i = some x) (hs : k'.settings = k.settings)
    (hd : Retains Connection.decoder i k k') (hr : Strides now i k k')
    (xs : List (List UInt8)) : k'.due i xs <+: k.due i xs := by
  obtain ⟨y, hy, hdecoder⟩ := hd x hx
  obtain ⟨z, hz, hstride⟩ := hr x hx
  cases hy.symm.trans hz
  by_cases hreads : y.reader = .reading
  · have hsame : k'.due i xs = k.due i xs := by
      rw [due_of_reading hy hreads, due_of_reading hx (hstride.reading hreads), hs, hdecoder]
    exact hsame ▸ List.prefix_refl _
  · rw [due_of_not_reading fun z hz => by cases hy.symm.trans hz; exact hreads]
    exact List.nil_prefix

theorem due_fail (k : Connector) (i now : Nat) (f : Fault) (xs : List (List UInt8)) :
    (k.fail i now f).due i xs = [] :=
  due_of_not_reading fun _ hy => reader_windDown hy

theorem step_received (hx : k.connection? i = some x) (now : Nat) (bytes : List UInt8) :
    k.step i now (.received bytes) =
      if x.reader = .reading then k.receive x now bytes else k := by
  unfold step
  simp only [hx]
  cases x.reader <;> rfl

section Receive

variable (hx : k.connection? i = some x) {bytes : List UInt8} {decoder : Decoder}

include hx

theorem receive_of_error {f : Fault}
    (hp : x.decoder.push k.settings.codec bytes = (.error f, decoder)) (now : Nat) :
    k.receive x now bytes = (k.taking i decoder now).fail i now f := by
  rw [receive, hp, id_of_connection? hx]
  rfl

theorem receive_of_ok {bodies : List (List UInt8)}
    (hp : x.decoder.push k.settings.codec bytes = (.ok bodies, decoder)) (now : Nat) :
    k.receive x now bytes =
      match (k.taking i decoder now).handleAll i bodies with
      | (k, .ok ()) => k
      | (k, .error f) => k.fail i now f := by
  rw [receive, hp, id_of_connection? hx]
  rfl

/-- Behind the bodies that it has taken, a connection takes what it would have taken behind the
bytes. -/
theorem due_handleAll (hr : x.reader = .reading) (decoder : Decoder) (now : Nat)
    (bodies : List (List UInt8)) (xs : List (List UInt8)) :
    ((k.taking i decoder now).handleAll i bodies).1.due i xs <+:
      decoder.given k.settings.codec xs := by
  have hy := connection?_taking hx decoder now
  have hreads : (k.taking i decoder now).IsReading i :=
    ⟨x.state, by rw [face?, hy, Option.map_some, Connection.face, hr]⟩
  obtain ⟨taken, -, htaken, -⟩ := Refuses.handleAll i (k.taking i decoder now) bodies
  have hkeeps := (Keeps.accompanies i i).handleAll bodies (k.taking i decoder now)
  have hsettings := (Meanwhile.handleAll hreads bodies).changes.advances.configured.1
  have hstrides : Strides now i _ _ := .of_keeps hkeeps
  have hdue := due_isPrefix hy hsettings htaken.decoder hstrides xs
  rwa [due_of_reading hy hr] at hdue

/-- **A read** refuses bodies that its bytes complete, and no others. -/
theorem exists_taken_receive (hr : x.reader = .reading) (now : Nat) (bytes : List UInt8)
    (xs : List (List UInt8)) :
    ∃ taken, (k.receive x now bytes).refusals i = k.refusals i ++ taken.filterMap Pack.fault? ∧
      taken ++ (k.receive x now bytes).due i xs <+: k.due i (bytes :: xs) := by
  rw [due_of_reading hx hr]
  cases hp : x.decoder.push k.settings.codec bytes with
  | mk bodies decoder =>
  cases bodies with
  | error f =>
    have hf : f.endsConnection = true := Decoder.endsConnection_of_push (by rw [hp])
    have hfail := Refuses.fail (fun _ : i = i => hf) (k.taking i decoder now) now
    rw [receive_of_error hx hp, due_fail]
    exact ⟨[], hfail.refusals, List.nil_prefix⟩
  | ok bodies =>
    obtain ⟨taken, hpre, htaken, hall⟩ := Refuses.handleAll i (k.taking i decoder now) bodies
    have hdue := due_handleAll hx hr decoder now bodies xs
    refine ⟨taken, ?_⟩
    rw [receive_of_ok hx hp, Decoder.given_cons_of_ok hp]
    split
    · next k' hl =>
      rw [hl] at htaken hdue hall
      rw [hall rfl]
      exact ⟨hall rfl ▸ htaken.refusals, (List.prefix_append_right_inj _).2 hdue⟩
    · next k' f hl =>
      have hf : f.endsConnection = true := endsConnection_of_handleAll (congrArg Prod.snd hl)
      rw [hl] at htaken
      have hfail := htaken.trans (Refuses.fail (fun _ : i = i => hf) k' now)
      rw [due_fail, List.append_nil]
      refine ⟨?_, hpre.trans (List.prefix_append ..)⟩
      rw [hfail.refusals, List.append_nil]
      rfl

end Receive

/-- **A turn** refuses bodies that its bytes complete, and no others. -/
theorem exists_taken_turn (hk : k.Sound) (hx : k.connection? i = some x) (now : Nat) (t : Turn)
    (xs : List (List UInt8)) :
    ∃ taken, (k.turn now t).refusals i = k.refusals i ++ taken.filterMap Pack.fault? ∧
      taken ++ (k.turn now t).due i xs <+: k.due i ((t.piece? i).toList ++ xs) := by
  cases hp : t.piece? i with
  | none =>
    have hquiet := Refuses.turn hk now hp
    have hsettings := (advances_turn k now t).configured.1
    have hdue := due_isPrefix hx hsettings hquiet.decoder (exists_stride k now t i) xs
    exact ⟨[], hquiet.refusals, hdue⟩
  | some bytes =>
    cases eq_received_of_piece? hp
    rw [turn, step_received hx]
    split
    · next hr => exact exists_taken_receive hx hr now bytes xs
    · next hr =>
      refine ⟨[], (List.append_nil _).symm, ?_⟩
      rw [due_of_not_reading fun y hy => by cases hx.symm.trans hy; exact hr]
      exact List.nil_prefix

end

/-- **A run** refuses bodies that its pieces complete, each of them once and in their order. -/
theorem exists_taken_run (hk : k.Sound) (hx : (k.connection? i).isSome) (ts : List (Nat × Turn)) :
    ∃ taken, (k.run ts).refusals i = k.refusals i ++ taken.filterMap Pack.fault? ∧
      taken <+: k.due i (ts.filterMap fun t => t.2.piece? i) := by
  induction ts generalizing k with
  | nil => exact ⟨[], (List.append_nil _).symm, List.nil_prefix⟩
  | cons t ts ih =>
    obtain ⟨now, t⟩ := t
    obtain ⟨x, hx⟩ := Option.isSome_iff_exists.1 hx
    obtain ⟨y, hy, -⟩ := exists_stride k now t i x hx
    obtain ⟨first, hfirst, hdue⟩ :=
      exists_taken_turn hk hx now t (ts.filterMap fun t => t.2.piece? i)
    obtain ⟨rest, hrest, hpre⟩ :=
      ih (hk.advances (advances_turn k now t)) (Option.isSome_iff_exists.2 ⟨y, hy⟩)
    have hpieces : ((now, t) :: ts).filterMap (fun t => t.2.piece? i) =
        (t.piece? i).toList ++ ts.filterMap fun t => t.2.piece? i := by
      rw [List.filterMap_cons]
      cases t.piece? i <;> rfl
    refine ⟨first ++ rest, ?_, ?_⟩
    · rw [List.filterMap_append, ← List.append_assoc, ← hfirst]
      exact hrest
    · rw [hpieces]
      exact ((List.prefix_append_right_inj _).2 hpre).trans hdue

/-! ## A new connection -/

/-- A connection that is just opened has refused nothing, and holds no bytes. -/
theorem refusals_opened (hk : k.Sound) (opened : Nat) :
    (k.openConnection opened).refusals k.nextId = [] := by
  have hstory : story k.nextId k.history = [] := by
    have hcourse := hk.course k.nextId
    rw [face?, connection?_nextId hk.numbered] at hcourse
    generalize story k.nextId k.history = ns at hcourse
    cases hcourse
    rfl
  have hnone : k.refusals k.nextId = [] := by
    refine List.filterMap_eq_nil_iff.2 fun n hn => ?_
    cases hr : refusal? k.nextId n with
    | none => rfl
    | some f =>
      have hmem := mem_story (tells_of_refusal? hr) hn
      rw [hstory] at hmem
      cases hmem
  rw [refusals_of_history (k := k) [.published (.connected k.nextId)] rfl, hnone]
  rfl

theorem due_opened (hk : k.Sound) (opened : Nat) (xs : List (List UInt8)) :
    (k.openConnection opened).due k.nextId xs = Decoder.empty.given k.settings.codec xs := by
  obtain ⟨c, hc, hs, hd⟩ := connection?_opened hk opened
  rw [due_of_reading hc hs.reader, hd]
  rfl

/-- **What is refused on a new connection was sent**, if a sender with the geometry of the connector
frames what arrives. -/
theorem exists_taken_opened (hk : k.Sound) (opened : Nat) {sender : Codec}
    (hg : sender.geometry = k.settings.codec.geometry) {bs : List (List UInt8)}
    (hbs : ∀ b ∈ bs, 2 * b.length < UInt64.size) {ts : List (Nat × Turn)}
    (hcarries : Carries sender bs (ts.filterMap fun t => t.2.piece? k.nextId)) :
    ∃ taken, taken <+: bs ∧
      ((k.openConnection opened).run ts).refusals k.nextId = taken.filterMap Pack.fault? := by
  obtain ⟨c, hc, -⟩ := connection?_opened hk opened
  have hsound : (k.openConnection opened).Sound := hk.advance (.openConnection k opened)
  obtain ⟨taken, htaken, hdue⟩ :=
    exists_taken_run hsound (Option.isSome_iff_exists.2 ⟨c, hc⟩) ts
  rw [refusals_opened hk, List.nil_append] at htaken
  rw [due_opened hk] at hdue
  exact ⟨taken, hdue.trans (Decoder.given_isPrefix_of_carries hg hbs hcarries), htaken⟩

/-! ## Reject messages -/

theorem handle_of_parse {body : List UInt8} {m : Message} (h : Pack.parse body = .ok m)
    (k : Connector) (id : Nat) :
    k.handle id body = (k.note (k.logLine id .inbound m)).dispatch id m := by
  rw [handle, h]

theorem fault?_of_isBody {b : List UInt8} (hb : Reject.IsBody b) : Pack.fault? b = none := by
  obtain ⟨v, text, rfl⟩ := hb
  rw [Pack.fault?, Reject.parse_serialize_reply]

/-- **A reject message provokes none.** Whatever the fault and its wording, a reject message is well
formed. A receiver whose maximum length is 200 at least takes it out of its frame, and lets its
listeners see it as any other message.

So what a connector refuses on a connection are bodies that are no reject messages, whether or not
it answers them and whatever else happens: from the moment at which the connection is opened, the
bodies that it has refused are among those that were sent, in their order, and if all of these are
reject messages, it has refused none. -/
theorem rejects_provoke_none :
    (∀ v text, Reject.WellFormed v text (Reject.reply v text)) ∧
    (∀ (c sender : Codec) (b : List UInt8) (f : Frame), Reject.IsBody b →
      sender.geometry = c.geometry → 200 ≤ c.maxLength → sender.encode b = .ok f →
      Decoder.empty.push c f.bytes = (.ok [b], .empty)) ∧
    (∀ (k : Connector) (id : Nat) v text,
      k.handle id (Pack.serialize (Reject.reply v text)) =
        (k.note (k.logLine id .inbound (Reject.reply v text))).dispatch id
          (Reject.reply v text)) ∧
    ∀ (k : Connector), k.IsNew → ∀ (before : List (Nat × Turn)) (opened : Nat)
      (ts : List (Nat × Turn)) (sender : Codec) (bs : List (List UInt8)),
      sender.geometry = k.settings.codec.geometry → (∀ b ∈ bs, 2 * b.length < UInt64.size) →
      Carries sender bs (ts.filterMap fun t => t.2.piece? (k.run before).nextId) →
      let i := (k.run before).nextId
      let k' := ((k.run before).openConnection opened).run ts
      (∃ taken, taken <+: bs ∧ k'.refusals i = taken.filterMap Pack.fault?) ∧
        ((∀ b ∈ bs, Reject.IsBody b) → k'.refusals i = []) := by
  refine ⟨Reject.wellFormed_reply, ?_, ?_, ?_⟩
  · intro c sender b f hb hg hmax hf
    obtain ⟨v, text, rfl⟩ := hb
    have hsize := (Reject.wellFormed_reply v text).size
    refine Decoder.push_of_encode hg ?_ (Nat.le_trans hsize hmax) ?_ hf
    · exact List.ne_nil_of_length_pos (Pack.length_serialize_pos _)
    · exact Pack.length_serialize_lt (Reject.isShort_reply v text)
  · exact fun k id v text => handle_of_parse (Reject.parse_serialize_reply v text) k id
  · intro k hk before opened ts sender bs hg hbs hcarries i k'
    have hadvances := advances_run k before
    have hsettings : (k.run before).settings = k.settings := hadvances.configured.1
    rw [← hsettings] at hg
    obtain ⟨taken, hpre, htaken⟩ :=
      exists_taken_opened (hk.sound.advances hadvances) opened hg hbs hcarries
    refine ⟨⟨taken, hpre, htaken⟩, fun hall => htaken.trans ?_⟩
    exact List.filterMap_eq_nil_iff.2 fun b hb => fault?_of_isBody (hall b (hpre.subset hb))

/-- A reject message with a wording that is cut arrives in two pieces, at a connector that answers
what it refuses. -/
theorem rejects_provoke_none_in_pieces :
    let k : Connector :=
      { settings := { lengthWidth := 2, maxFrameLength := 200, replyOnError := true } }
    let sender : Codec := ⟨k.settings.geometry, 8192⟩
    let b := Pack.serialize (Reject.reply .v1993 "invalid type: string, expected u16")
    let f : Frame := ⟨[0, 78], b⟩
    let ts : List (Nat × Turn) := [(1, .happening 1 (.received (f.bytes.take 40))),
      (2, .happening 1 (.received (f.bytes.drop 40)))]
    k.IsNew ∧ sender.encode b = .ok f ∧ 200 ≤ k.settings.codec.maxLength ∧
      Decoder.empty.push k.settings.codec f.bytes = (.ok [b], .empty) ∧
      (((k.run [(0, .init)]).openConnection 0).run ts).refusals 1 = [] := by
  intro k sender b f ts
  have hb : Reject.IsBody b := ⟨_, _, rfl⟩
  have hnew : k.IsNew := ⟨rfl, rfl⟩
  have hf : sender.encode b = .ok f := by decide
  have hmax : 200 ≤ k.settings.codec.maxLength := by decide
  have hlen : ∀ b' ∈ [b], 2 * b'.length < UInt64.size := by decide
  obtain ⟨-, hpush, -, hrun⟩ := rejects_provoke_none
  have hcarries : Carries sender [b] (ts.filterMap fun t => t.2.piece? 1) := by
    have hframes : List.Forall₂ (fun b f => sender.encode b = .ok f) [b] [f] := .cons hf .nil
    exact .framed rfl hframes ⟨[], by decide⟩
  obtain ⟨-, hnone⟩ := hrun k hnew [(0, .init)] 0 ts sender [b] rfl hlen hcarries
  exact ⟨hnew, hf, hmax, hpush _ sender b f hb rfl hmax hf,
    hnone fun b' hb' => by rwa [List.mem_singleton.1 hb']⟩

end Connector

end Interchange
