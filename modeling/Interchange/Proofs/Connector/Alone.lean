import Interchange.Proofs.Connector.Confined

/-!
# A connection alone

`Connector.alone i` leaves nothing of a connector but connection `i`, as number 1. Where the
listeners keep to the connection that they are called with, whatever happens to the connection
happens to it alone in the same way (`alone_step`), and of what the surroundings do there remains
what concerns it (`alone_turn`).
-/

namespace Interchange

/-! ## Other numbers -/

/-- A request about the connection with another number. -/
def Request.renumber (n : Nat) : Request → Request
  | .send _ m => .send n m
  | .close _ => .close n
  | r => r

/-- What a request comes to where connection `i` is alone, as number 1: nothing, if it is about
another connection. -/
def Request.alone? (i : Nat) : Request → Option Request
  | .send id m => if id = i then some (.send 1 m) else none
  | .close id => if id = i then some (.close 1) else none
  | r => some r

/-- A handler that makes its requests about the connection with another number. -/
def Handler.renumber (n : Nat) : Handler → Handler
  | .done r => .done r
  | .ask r next => .ask (r.renumber n) fun answer => (next answer).renumber n

/-- The listener that treats every connection as it treats connection `i`. -/
def Listener.facing (i : Nat) (l : Listener) : Listener where
  applies := l.applies
  handle n m := (l.handle i m).renumber n

theorem Request.renumber_renumber (r : Request) (m n : Nat) :
    (r.renumber m).renumber n = r.renumber n := by
  cases r <;> rfl

theorem Handler.renumber_renumber (h : Handler) (m n : Nat) :
    (h.renumber m).renumber n = h.renumber n := by
  induction h with
  | done r => rfl
  | ask r next ih => simp only [renumber, r.renumber_renumber, ih]

theorem Handler.renumber_askAll (n : Nat) (rs : List Request) (next : Handler) :
    (Handler.askAll rs next).renumber n =
      Handler.askAll (rs.map (·.renumber n)) (next.renumber n) := by
  induction rs with
  | nil => rfl
  | cons r rs ih =>
    simp only [List.map_cons, askAll, renumber]
    congr 1
    funext answer
    cases answer with
    | ok _ => exact ih
    | error f => rfl

/-- An event of the connection with another number. -/
def Connection.Event.renumber (n : Nat) : Connection.Event → Connection.Event
  | connected _ => connected n
  | closed _ => closed n
  | failed _ f => failed n f

namespace Notice

/-- A notice about the connection with another number. -/
def renumber (n : Nat) : Notice → Notice
  | published e => published (e.renumber n)
  | called l _ mti => called l n mti
  | logged _ d text => logged n d text
  | accepted _ ticket m => accepted n ticket m
  | resolved _ ticket r => resolved n ticket r
  | sent _ bytes => sent n bytes
  | shut _ => shut n

/-- The notices about connection `i`, as if it were number 1. -/
def alone (i : Nat) (ns : List Notice) : List Notice :=
  (ns.filter (·.connection = i)).map (renumber 1)

theorem alone_append (i : Nat) (ms ns : List Notice) :
    alone i (ms ++ ns) = alone i ms ++ alone i ns := by
  rw [alone, List.filter_append, List.map_append]
  rfl

variable {i j : Nat} {ns : List Notice}

theorem alone_of_eq (h : ∀ n ∈ ns, n.connection = i) : alone i ns = ns.map (renumber 1) := by
  rw [alone, List.filter_eq_self.2 fun n hn => decide_eq_true (h n hn)]

theorem alone_of_ne (h : ∀ n ∈ ns, n.connection = j) (hij : j ≠ i) : alone i ns = [] := by
  rw [alone, List.filter_eq_nil_iff.2 fun n hn => by rw [h n hn, decide_eq_true_eq]; exact hij]
  rfl

end Notice

/-- A connection with another number. -/
def Connection.renumber (n : Nat) (c : Connection) : Connection := { c with id := n }

theorem Connection.renumber_send (n : Nat) (c : Connection) (m : Message) :
    (c.renumber n).send m = ((c.send m).1.renumber n, (c.send m).2) := by
  unfold send
  split
  · next h => rw [if_pos (show c.state.isClosing = true from h)]
  · next h => rw [if_neg (show ¬ c.state.isClosing = true from h)]; rfl

theorem Connection.renumber_close (n : Nat) (c : Connection) :
    (c.renumber n).close = c.close.renumber n := by
  unfold close
  split
  · next h => rw [if_pos (show c.state.isClosing = true from h)]
  · next h => rw [if_neg (show ¬ c.state.isClosing = true from h)]; rfl

namespace Connector

variable {k k' : Connector} {i now : Nat} {c : Connection}

/-! ## A connector with one connection -/

/-- A connector with no connection but number `i`, which is its number 1. -/
def alone (i : Nat) (k : Connector) : Connector :=
  { k with
    registry := k.registry.map fun e => (e.1, e.2.facing i)
    connections := ((k.connection? i).map (·.renumber 1)).toList
    history := Notice.alone i k.history }

/-- What concerns another connection is not seen. -/
theorem Confined.alone {j : Nat} (h : Confined j k k') (hij : j ≠ i) : k'.alone i = k.alone i := by
  obtain ⟨ns, hns, hn⟩ := h.history
  unfold Connector.alone
  rw [h.settings, h.version, h.registry, h.chain, h.initialized, h.others i hij.symm, hns,
    Notice.alone_append, Notice.alone_of_ne hn hij, List.append_nil]

theorem connection?_alone (i : Nat) (k : Connector) :
    (k.alone i).connection? 1 = (k.connection? i).map (·.renumber 1) := by
  cases h : k.connection? i with
  | none => rw [connection?, alone, h]; rfl
  | some c => rw [connection?, alone, h]; rfl

theorem alone_note {ns : List Notice} (h : ∀ n ∈ ns, n.connection = i) :
    (k.note ns).alone i = (k.alone i).note (ns.map (·.renumber 1)) := by
  simp only [alone, note, Notice.alone_append, Notice.alone_of_eq h]
  rfl

theorem alone_publish {e : Connection.Event} (h : e.id = i) :
    (k.publish e).alone i = (k.alone i).publish (e.renumber 1) :=
  alone_note fun _ hn => by cases List.mem_singleton.1 hn; exact h

theorem alone_update {f g : Connection → Connection} (hf : ∀ c, c.id = i → (f c).id = i)
    (hfg : ∀ c, k.connection? i = some c → (f c).renumber 1 = g (c.renumber 1)) :
    (k.update i f).alone i = (k.alone i).update 1 g := by
  have hconn : (k.update i f).connection? i = (k.connection? i).map f := by
    rw [connection?_update hf, if_pos rfl]
  unfold alone
  rw [hconn]
  cases hc : k.connection? i with
  | none => rfl
  | some c =>
    simp only [Option.map_some, hfg c hc]
    rfl

theorem alone_logLine (k : Connector) (i : Nat) (d : Direction) (m : Message) :
    (k.logLine i d m).map (·.renumber 1) = (k.alone i).logLine 1 d m := by
  have hsettings : (k.alone i).settings = k.settings := rfl
  unfold logLine
  rw [hsettings]
  split <;> rfl

theorem alone_notices (k : Connector) (i : Nat) (ss : List Signal) :
    (ss.flatMap (k.notices i)).map (·.renumber 1) = ss.flatMap ((k.alone i).notices 1) := by
  rw [List.map_flatMap]
  congr 1
  funext s
  cases s with
  | logged m => exact alone_logLine k i .outbound m
  | _ => rfl

/-! ## Requests and listeners -/

theorem alone_send (i : Nat) (k : Connector) (m : Message) :
    (k.alone i).send 1 m = (k.send i m).map (alone i) id := by
  unfold send
  rw [connection?_alone]
  cases hc : k.connection? i with
  | none => rfl
  | some c =>
    have hid := id_of_connection? hc
    simp only [Option.map_some, c.renumber_send]
    have hkeeps : (c.send m).1.id = i := by
      obtain ⟨queue, hq, -⟩ := c.send_cases m
      rw [hq]
      exact hid
    cases hs : c.send m with
    | mk d r =>
    rw [hs] at hkeeps
    have hupdate : (k.update i fun _ => d).alone i = (k.alone i).update 1 fun _ => d.renumber 1 :=
      alone_update (fun _ _ => hkeeps) fun _ _ => rfl
    cases r with
    | error f => exact Prod.ext hupdate.symm rfl
    | ok ticket =>
      refine Prod.ext ?_ rfl
      dsimp only [Prod.map_apply]
      rw [alone_note, hupdate]
      · rfl
      · exact fun _ hn => by cases List.mem_singleton.1 hn; rfl

theorem alone_close (i : Nat) (k : Connector) : (k.close i).alone i = (k.alone i).close 1 :=
  alone_update (fun c hc => c.id_close.trans hc) fun c _ => (c.renumber_close 1).symm

theorem alone_perform {r : Request} (hr : r.IsAbout i) (k : Connector) :
    perform (r.renumber 1) (k.alone i) = (perform r k).map (alone i) id := by
  cases r with
  | send n m =>
    cases show n = i from hr
    simp only [Request.renumber, perform, alone_send]
    generalize k.send i m = p
    obtain ⟨k', r⟩ := p
    cases r <;> rfl
  | close n =>
    cases show n = i from hr
    exact Prod.ext (alone_close i k).symm rfl
  | append l => exact hr.elim
  | insertFirst l => exact hr.elim
  | remove l => exact hr.elim

theorem alone_run {h : Handler} (hh : h.KeepsTo i) (k : Connector) :
    (h.renumber 1).run perform (k.alone i) = (h.run perform k).map (alone i) id := by
  induction h generalizing k with
  | done r => rfl
  | ask r next ih =>
    simp only [Handler.renumber, Handler.run, alone_perform hh.1, Prod.map_fst, Prod.map_snd]
    exact ih _ (hh.2 _) _

/-- The listeners of a connection alone are those of the connector, each facing the connection. -/
theorem listener_alone (k : Connector) (i : Nat) (l : ListenerId) :
    ((k.alone i).listener l).applies = (k.listener l).applies ∧
      ∀ m, ((k.alone i).listener l).handle 1 m = ((k.listener l).handle i m).renumber 1 := by
  cases l with
  | echo =>
    exact ⟨rfl, fun m => (Handler.renumber_askAll 1 [.send i m.response] (.done (.ok false))).symm⟩
  | named name =>
    have hlookup : (k.registry.map fun e => (e.1, e.2.facing i)).lookup name =
        (k.registry.lookup name).map (Listener.facing i) := by
      generalize k.registry = es
      induction es with
      | nil => rfl
      | cons e es ih =>
        rw [List.map_cons, List.lookup_cons, List.lookup_cons]
        split
        · rfl
        · exact ih
    simp only [listener, alone, hlookup]
    cases k.registry.lookup name with
    | none => exact ⟨rfl, fun _ => rfl⟩
    | some l => exact ⟨rfl, fun _ => rfl⟩

theorem alone_call (hk : k.KeepsApart) (m : Message) (l : ListenerId) :
    call 1 m l (k.alone i) = (call i m l k).map (alone i) id := by
  obtain ⟨happlies, hhandle⟩ := listener_alone k i l
  unfold call
  rw [happlies, hhandle]
  cases (k.listener l).applies m with
  | error f => rfl
  | ok b =>
    cases b with
    | false => rfl
    | true =>
      have hcalled : (k.note [.called l i m.mti]).alone i =
          (k.alone i).note [.called l 1 m.mti] :=
        alone_note fun _ hn => by cases List.mem_singleton.1 hn; rfl
      dsimp only
      rw [← hcalled]
      exact alone_run (hk.listener l i m) _

theorem alone_dispatch (hk : k.KeepsApart) (m : Message) (failFast : Bool) (ls : List ListenerId) :
    Interchange.dispatch failFast (call 1 m) ls (k.alone i) =
      (Interchange.dispatch failFast (call i m) ls k).map (alone i) id := by
  induction ls generalizing k with
  | nil => rfl
  | cons l ls ih =>
    have hrest := ih ((Confined.call hk i m l).keepsApart hk)
    exact dispatch_cons_congr (alone i) (alone_call hk m l) hrest

theorem alone_reject (i : Nat) (k : Connector) (f : Pack.Fault) :
    (k.reject i f).alone i = (k.alone i).reject 1 f := by
  unfold reject
  rw [show (k.alone i).settings = k.settings from rfl]
  split
  · exact (congrArg Prod.fst (alone_send i k _)).symm
  · rfl

theorem alone_handle (hk : k.KeepsApart) (i : Nat) (body : List UInt8) :
    (k.alone i).handle 1 body = (k.handle i body).map (alone i) id := by
  unfold handle
  cases Pack.parse body with
  | ok m =>
    have hlog : (k.note (k.logLine i .inbound m)).alone i =
        (k.alone i).note ((k.alone i).logLine 1 .inbound m) := by
      rw [alone_note, alone_logLine]
      exact fun _ hn => connection_of_mem_logLine hn
    dsimp only
    rw [← hlog]
    exact alone_dispatch (k := k.note (k.logLine i .inbound m)) hk m _ _
  | error f =>
    refine Prod.ext ?_ rfl
    dsimp only [Prod.map_apply]
    rw [alone_publish (i := i) rfl, alone_reject]
    rfl

theorem alone_handleAll (hk : k.KeepsApart) (i : Nat) (bodies : List (List UInt8)) :
    (k.alone i).handleAll 1 bodies = (k.handleAll i bodies).map (alone i) id := by
  induction bodies generalizing k with
  | nil => rfl
  | cons b bs ih =>
    have hrest := ih ((Confined.handle hk i b).keepsApart hk)
    rw [handleAll, handleAll, alone_handle hk]
    generalize k.handle i b = p at hrest
    obtain ⟨k', r⟩ := p
    cases r with
    | ok _ => exact hrest
    | error f => rfl

/-! ## What happens to a connection -/

theorem alone_finish (i : Nat) (k : Connector) : (k.finish i).alone i = (k.alone i).finish 1 := by
  have hgone : (k.update i fun c => { c with state := .disconnected, reader := .ended }).alone i =
      (k.alone i).update 1 fun c => { c with state := .disconnected, reader := .ended } :=
    alone_update (fun _ hc => hc) fun _ _ => rfl
  unfold finish
  rw [alone_publish (i := i) rfl, hgone]
  rfl

theorem alone_windDown (i : Nat) (k : Connector) (now : Nat) :
    (k.windDown i now).alone i = (k.alone i).windDown 1 now := by
  unfold windDown
  rw [connection?_alone]
  cases hc : k.connection? i with
  | none => rfl
  | some c =>
    dsimp only [Option.map_some]
    rw [show (c.renumber 1).writer = c.writer from rfl]
    split
    · exact alone_finish i k
    · refine alone_update (fun c hc => c.id_close.trans hc) fun c _ => ?_
      rw [c.renumber_close]
      rfl

theorem alone_fail (i : Nat) (k : Connector) (now : Nat) (f : Fault) :
    (k.fail i now f).alone i = (k.alone i).fail 1 now f := by
  unfold fail
  rw [alone_windDown, alone_publish (i := i) rfl]
  rfl

theorem alone_stepWriter (k : Connector) (c : Connection) (now : Nat) (e : Writer.Event) :
    (k.stepWriter c now e).alone c.id = (k.alone c.id).stepWriter (c.renumber 1) now e := by
  unfold stepWriter
  rw [show (k.alone c.id).settings = k.settings from rfl,
    show (c.renumber 1).writer = c.writer from rfl]
  cases c.writer.step k.settings.codec e with
  | mk writer signals =>
  dsimp only
  rw [alone_note, alone_notices, alone_update]
  · rfl
  · exact fun _ hc => hc
  · exact fun _ _ => rfl
  · exact fun _ hn => connection_of_mem_notices hn

theorem alone_receive (hk : k.KeepsApart) (c : Connection) (now : Nat) (bytes : List UInt8) :
    (k.receive c now bytes).alone c.id = (k.alone c.id).receive (c.renumber 1) now bytes := by
  unfold receive
  rw [show (k.alone c.id).settings = k.settings from rfl,
    show (c.renumber 1).decoder = c.decoder from rfl]
  cases c.decoder.push k.settings.codec bytes with
  | mk bodies decoder =>
  have htake :
      (k.update c.id fun c => { c with decoder, activity := c.activity.record now }).alone c.id =
        (k.alone c.id).update 1 fun c => { c with decoder, activity := c.activity.record now } :=
    alone_update (fun _ hc => hc) fun _ _ => rfl
  dsimp only
  rw [show (c.renumber 1).id = 1 from rfl, ← htake]
  cases bodies with
  | error f => exact alone_fail c.id _ now f
  | ok bodies =>
    dsimp only
    rw [alone_handleAll]
    · generalize handleAll _ c.id bodies = p
      obtain ⟨k', r⟩ := p
      cases r with
      | ok _ => rfl
      | error f => exact alone_fail c.id k' now f
    · exact hk

theorem alone_heartbeat (k : Connector) (c : Connection) (now : Nat) :
    (k.heartbeat c now).alone c.id = (k.alone c.id).heartbeat (c.renumber 1) now := by
  unfold heartbeat
  rw [show (c.renumber 1).id = 1 from rfl, show (k.alone c.id).version = k.version from rfl,
    alone_send]
  generalize k.send c.id _ = p
  obtain ⟨k', r⟩ := p
  cases r with
  | ok ticket => exact alone_update (fun _ hc => hc) fun _ _ => rfl
  | error f => rfl

theorem alone_stepReading (hk : k.KeepsApart) (c : Connection) (now : Nat) (h : Happening) :
    (k.stepReading c now h).alone c.id = (k.alone c.id).stepReading (c.renumber 1) now h := by
  have hstate : (c.renumber 1).state = c.state := rfl
  have hwriter : (c.renumber 1).writer = c.writer := rfl
  cases h with
  | received bytes => exact alone_receive hk c now bytes
  | inputEnded => exact alone_windDown c.id k now
  | inputFailed text => exact alone_fail c.id k now _
  | sawClosing =>
    simp only [stepReading, hstate]
    split
    · exact alone_windDown c.id k now
    · rfl
  | sawWriterEnd =>
    simp only [stepReading, hwriter]
    split
    · exact alone_fail c.id k now _
    · split
      · exact alone_windDown c.id k now
      · rfl
  | alarm =>
    simp only [stepReading, show (k.alone c.id).window? = k.window? from rfl,
      show (c.renumber 1).activity = c.activity from rfl]
    split
    · split
      · exact alone_heartbeat k c now
      · rfl
    · rfl
  | drained => rfl
  | gaveUp => rfl
  | writer e => rfl

theorem alone_stepDraining (k : Connector) (c : Connection) (since now : Nat) (h : Happening) :
    (k.stepDraining c since now h).alone c.id =
      (k.alone c.id).stepDraining (c.renumber 1) since now h := by
  have hwriter : (c.renumber 1).writer = c.writer := rfl
  cases h with
  | drained =>
    simp only [stepDraining, hwriter]
    split
    · exact alone_finish c.id k
    · rfl
  | gaveUp =>
    simp only [stepDraining, hwriter]
    split
    · rw [alone_finish, alone_stepWriter]
      rfl
    · rfl
  | _ => rfl

/-- **What happens to a connection is what happens to it alone.** -/
theorem alone_step (hk : k.KeepsApart) (i now : Nat) (h : Happening) :
    (k.step i now h).alone i = (k.alone i).step 1 now h := by
  unfold step
  rw [connection?_alone]
  cases hc : k.connection? i with
  | none => rfl
  | some c =>
    obtain rfl := id_of_connection? hc
    dsimp only [Option.map_some]
    rw [show (c.renumber 1).state = c.state from rfl,
      show (c.renumber 1).reader = c.reader from rfl]
    split
    · split
      · exact alone_stepWriter k c now .closing
      · rfl
    · rfl
    · exact alone_stepWriter k c now _
    · split
      · exact alone_stepReading hk c now h
      · exact alone_stepDraining k c _ now h
      · rfl

/-! ## What the surroundings do -/

/-- What a turn of a connector whose next connection has number `n` comes to for connection `i`
alone. -/
def Turn.alone? (i n : Nat) : Turn → Option Turn
  | .init => some .init
  | .openConnection => if n = i then some .openConnection else none
  | .ask r => (r.alone? i).map .ask
  | .happening id h => if id = i then some (.happening 1 h) else none

theorem alone_init (i : Nat) (k : Connector) : k.init.1.alone i = (k.alone i).init.1 := by
  unfold init
  rw [show (k.alone i).settings = k.settings from rfl,
    show (k.alone i).initialized = k.initialized from rfl]
  cases k.settings.validate with
  | error f => rfl
  | ok _ =>
    dsimp only
    split <;> rfl

/-- A connection that is opened is the first one of the connector in which it is alone. -/
theorem alone_openConnection (h : k.connection? k.nextId = none) (now : Nat) :
    (k.openConnection now).alone k.nextId = (k.alone k.nextId).openConnection now := by
  have hopened : (k.openConnection now).connection? k.nextId =
      some (.start k.nextId k.settings.maxPendingWrites.toNat now) := by
    rw [connection?_openConnection, h, Option.none_or, if_pos rfl]
  have hconnected : Notice.alone k.nextId (k.openConnection now).history =
      Notice.alone k.nextId k.history ++ [.published (.connected 1)] := by
    rw [openConnection, Notice.alone_append]
    congr 1
    exact Notice.alone_of_eq fun _ hn => by cases List.mem_singleton.1 hn; rfl
  have hnone : (k.alone k.nextId).connections = [] := by
    rw [alone, h]
    rfl
  have hfirst : (k.alone k.nextId).nextId = 1 := by rw [nextId, hnone]; rfl
  have hright : (k.alone k.nextId).openConnection now = { k.alone k.nextId with
      connections := [.start 1 k.settings.maxPendingWrites.toNat now]
      history := Notice.alone k.nextId k.history ++ [.published (.connected 1)] } := by
    rw [openConnection, hfirst, hnone]
    rfl
  rw [hright, alone, hopened, hconnected]
  rfl

theorem alone_openConnection_of_ne (h : k.nextId ≠ i) (now : Nat) :
    (k.openConnection now).alone i = k.alone i := by
  have hconnected : Notice.alone i (k.openConnection now).history = Notice.alone i k.history := by
    have hother : Notice.alone i [.published (.connected k.nextId)] = [] := by
      refine Notice.alone_of_ne (fun _ hn => ?_) h
      cases List.mem_singleton.1 hn
      rfl
    rw [openConnection, Notice.alone_append, hother, List.append_nil]
  rw [alone, connection?_openConnection, if_neg h, Option.or_none, hconnected]
  rfl

theorem alone_ask (i : Nat) (k : Connector) (r : Request) :
    (perform r k).1.alone i = (r.alone? i).elim (k.alone i) fun r => (perform r (k.alone i)).1 := by
  have habout {r : Request} (hr : r.IsAbout i) :
      (perform r k).1.alone i = (perform (r.renumber 1) (k.alone i)).1 :=
    (congrArg Prod.fst (alone_perform hr k)).symm
  cases r with
  | send n m =>
    rw [Request.alone?]
    split
    · next hn => exact habout hn
    · next hn => exact (Confined.perform (r := .send n m) rfl k).alone hn
  | close n =>
    rw [Request.alone?]
    split
    · next hn => exact habout hn
    · next hn => exact (Confined.perform (r := .close n) rfl k).alone hn
  | append l => rfl
  | insertFirst l => rfl
  | remove l => rfl

/-- **What a turn does to a connection** is what is left of the turn does to it alone. -/
theorem alone_turn (hk : k.KeepsApart) (hn : k.connection? k.nextId = none) (i now : Nat)
    (t : Turn) :
    (k.turn now t).alone i = (t.alone? i k.nextId).elim (k.alone i) ((k.alone i).turn now) := by
  cases t with
  | init => exact alone_init i k
  | openConnection =>
    rw [Turn.alone?]
    split
    · next hi =>
      subst hi
      exact alone_openConnection hn now
    · next hi => exact alone_openConnection_of_ne hi now
  | ask r =>
    rw [turn, alone_ask, Turn.alone?]
    cases r.alone? i with
    | none => rfl
    | some r => rfl
  | happening id h =>
    rw [Turn.alone?]
    split
    · next hid =>
      subst hid
      exact alone_step hk id now h
    · next hid => exact (confined_step hk id now h).alone hid

end Connector

end Interchange
