import Interchange.Proofs.Frame.BeforeFault
import Interchange.Proofs.Outbound.Accounting
import Interchange.Proofs.Pack.RoundTrip

/-!
# From sender to receiver

Messages go through a queue and a writer onto a stream, arrive in pieces, and are read again. The
stream is reliable: what has arrived is a beginning of what the socket accepted. `delivered` says
that the receiver then has a beginning of the messages that were accepted and can be framed, in
their order, and that nothing it reads is at fault.

It puts three facts together: what the socket accepted begins the frames of the messages
(`Balanced.sent`), frames are read as their bodies however they are cut (`received_frames`), and a
body is read as its message (`parse_serialize`).
-/

namespace Interchange

/-- What a receiver makes of the pieces of a stream: for each piece the fault of the framing, or
what each body that it completes is read as. -/
def received (c : Codec) (pieces : List (List UInt8)) :
    List (Except Fault (List (Except Pack.Fault Message))) :=
  (Decoder.pushAll c .empty pieces).1.map fun r => r.map (·.map Pack.parse)

/-- Images that are grouped have groups of preimages. -/
theorem exists_groups {α β : Type} {f : α → β} {groups : List (List β)} {xs : List α}
    (h : groups.flatten = xs.map f) :
    ∃ xss : List (List α), groups = xss.map (·.map f) ∧ xss.flatten = xs := by
  induction groups generalizing xs with
  | nil =>
    have hxs : xs = [] := by simpa using h.symm
    exact ⟨[], rfl, hxs.symm⟩
  | cons g groups ih =>
    rw [List.flatten_cons] at h
    obtain ⟨ys, zs, rfl, rfl, hzs⟩ := List.map_eq_append_iff.1 h.symm
    obtain ⟨xss, rfl, hxss⟩ := ih hzs.symm
    exact ⟨ys :: xss, rfl, by rw [List.flatten_cons, hxss]⟩

namespace Writer

variable {c : Codec} (hc : c.geometry.isFramed)

/-- The frames of messages. -/
def framesOf (c : Codec) (ms : List Queued) : List Frame := (framed c ms).map (·.2)

theorem frameBytes_eq (ms : List Queued) :
    frameBytes c ms = (framesOf c ms).flatMap Frame.bytes := by
  rw [framesOf, List.flatMap_map, frameBytes]

include hc in
/-- A codec takes the frames of short messages, and their bodies are what was serialized. -/
theorem takes_framesOf {ms : List Queued} (hm : ∀ q ∈ ms, q.message.IsShort) :
    (∀ f ∈ framesOf c ms, c.Takes f) ∧
      (framesOf c ms).map (·.body) = (framable c ms).map fun q => Pack.serialize q.message := by
  have htakes {q : Queued} {f : Frame} (hq : q.message.IsShort) (hf : frame c q.message = .ok f) :
      c.Takes f ∧ f.body = Pack.serialize q.message :=
    Codec.takes_of_encode hc hf (Pack.length_serialize_lt hq)
  induction ms with
  | nil => exact ⟨by simp [framesOf, framed], rfl⟩
  | cons q ms ih =>
    obtain ⟨hall, hbodies⟩ := ih fun p hp => hm p (by simp [hp])
    cases hf : frame c q.message with
    | ok f =>
      obtain ⟨hq, hbody⟩ := htakes (hm q (by simp)) hf
      rw [framesOf, framed_cons_ok hf, framable, List.filter_cons_of_pos (isFramable_ok hf)]
      refine ⟨?_, ?_⟩
      · intro g hg
        rcases List.mem_cons.1 hg with rfl | hg
        · exact hq
        · exact hall g hg
      · simp only [List.map_cons, hbody]
        exact congrArg _ hbodies
    | error e =>
      rw [framesOf, framed_cons_error hf, framable,
        List.filter_cons_of_neg (by simp [isFramable_error hf])]
      exact ⟨hall, hbodies⟩

include hc in
/-- **Short messages are received** from any beginning of their frames, however it is cut: a
beginning of the messages, and all of them when all bytes have arrived. -/
theorem received_frames {ms : List Queued} (hm : ∀ q ∈ ms, q.message.IsShort)
    {pieces : List (List UInt8)} (hp : pieces.flatten <+: frameBytes c ms) :
    ∃ mss : List (List Message),
      received c pieces = mss.map (fun ns => .ok (ns.map .ok)) ∧
        mss.flatten <+: (framable c ms).map (·.message) ∧
          (pieces.flatten = frameBytes c ms → mss.flatten = (framable c ms).map (·.message)) := by
  obtain ⟨htakes, hbodies⟩ := takes_framesOf hc hm
  rw [frameBytes_eq] at hp ⊢
  -- No piece is at fault, since every prefix in the stream announces a body.
  have hsound : (c.read hc pieces.flatten).fault? = none := by
    have hbegin : pieces.flatten <+: (framesOf c ms).flatMap Frame.bytes ++ [] := by simpa using hp
    apply Decoder.fault?_read_of_lt hc htakes hbegin
    have := hp.length_le
    have := Codec.prefixLength_pos hc
    omega
  rw [← Decoder.readFrom_feed_empty] at hsound
  obtain ⟨bss, hresults, hbss⟩ := Decoder.pushAll_of_sound hc (Decoder.atRest_empty hc) hsound
  rw [Decoder.readFrom_feed_empty] at hbss
  have hwhole : (c.read hc ((framesOf c ms).flatMap Frame.bytes)).bodies =
      (framable c ms).map fun q => Pack.serialize q.message :=
    (Codec.bodies_read_frames hc htakes).trans hbodies
  have hbegin : bss.flatten <+: (framable c ms).map fun q => Pack.serialize q.message := by
    obtain ⟨rest, hrest⟩ := hp
    rw [hbss, ← hwhole, ← hrest]
    exact Decoder.bodies_read_append hc pieces.flatten rest
  obtain ⟨qs, hqs, hflat⟩ : ∃ qs, qs <+: framable c ms ∧
      bss.flatten = qs.map fun q => Pack.serialize q.message := by
    refine ⟨(framable c ms).take bss.flatten.length, List.take_prefix .., ?_⟩
    rw [List.map_take]
    exact List.prefix_iff_eq_take.1 hbegin
  obtain ⟨qss, rfl, hqss⟩ := exists_groups hflat
  have hshort : ∀ ns ∈ qss, ∀ q ∈ ns, q.message.IsShort := by
    intro ns hns q hq
    have hmem : q ∈ framable c ms := hqs.subset (hqss ▸ List.mem_flatten.2 ⟨ns, hns, hq⟩)
    exact hm q (List.mem_filter.1 hmem).1
  refine ⟨qss.map (·.map (·.message)), ?_, ?_, ?_⟩
  · rw [received, hresults, List.map_map, List.map_map, List.map_map]
    refine List.map_congr_left fun ns hns => ?_
    simp only [Function.comp, Except.map, List.map_map]
    refine congrArg _ (List.map_congr_left fun q hq => ?_)
    exact Pack.parse_serialize (hshort ns hns q hq)
  · rw [← List.map_flatten, hqss]
    exact hqs.map _
  · intro hall
    rw [← List.map_flatten, hqss]
    refine congrArg _ (hqs.eq_of_length ?_)
    have hlength := congrArg List.length hbss
    rw [hflat, hall, hwhole, List.length_map, List.length_map] at hlength
    exact hlength

end Writer

namespace Outbound

open Writer

/-- **End to end**: at every moment, the receiver has read without any fault a beginning of the
accepted messages that can be framed, in their order. It has read all of them when every byte of
their frames has arrived, and that is when the writer has nothing left to do and all that the socket
accepted has arrived. -/
theorem delivered {c : Codec} (hc : c.geometry.isFramed) (bound : Nat) {xs : List Action}
    (hm : ∀ q ∈ ((new bound).run c xs).accepted, q.message.IsShort) {pieces : List (List UInt8)}
    (hp : pieces.flatten <+: ((new bound).run c xs).report.sent) :
    ∃ mss : List (List Message),
      received c pieces = mss.map (fun ns => .ok (ns.map .ok)) ∧
        mss.flatten <+: (framable c ((new bound).run c xs).accepted).map (·.message) ∧
          (pieces.flatten = frameBytes c ((new bound).run c xs).accepted →
            mss.flatten = (framable c ((new bound).run c xs).accepted).map (·.message)) ∧
          (((new bound).run c xs).writer.isSettled = true →
            pieces.flatten = ((new bound).run c xs).report.sent →
              mss.flatten = (framable c ((new bound).run c xs).accepted).map (·.message)) := by
  obtain ⟨a, ha⟩ := balanced c bound xs
  obtain ⟨mss, hreceived, hbegin, hall⟩ := received_frames hc hm (hp.trans ha.sent)
  exact ⟨mss, hreceived, hbegin, hall, fun hs hpieces => hall (hpieces.trans (ha.settled hs).1)⟩

theorem delivered_after_partial_write :
    let c : Codec := ⟨.binary 2, 64⟩
    let xs : List Action := [.raise, .enqueue (.new 0x0800), .writer .wake, .writer .wake,
      .writer (.wrote 3), .writer (.wrote 100), .writer .flushed]
    let pieces : List (List UInt8) := [[0], 16 :: Pack.serialize (.new 0x0800)]
    (∀ q ∈ ((new 1).run c xs).accepted, q.message.IsShort) ∧
      pieces.flatten = ((new 1).run c xs).report.sent ∧
        ∃ mss : List (List Message),
          received c pieces = mss.map (fun ns => .ok (ns.map .ok)) ∧
            mss.flatten = [.new 0x0800] := by
  intro c xs pieces
  have hm : ∀ q ∈ ((new 1).run c xs).accepted, q.message.IsShort := by
    have hqueued : ((new 1).run c xs).accepted = [⟨0, .new 0x0800⟩] := by decide
    intro q hq e he
    rw [hqueued, List.mem_singleton] at hq
    rw [hq] at he
    cases he
  have hpieces : pieces.flatten = ((new 1).run c xs).report.sent := by decide
  have hsettled : ((new 1).run c xs).writer.isSettled = true := by decide
  have haccepted : (framable c ((new 1).run c xs).accepted).map (·.message) = [.new 0x0800] := by
    decide
  have hbegin : pieces.flatten <+: ((new 1).run c xs).report.sent :=
    ⟨[], (List.append_nil _).trans hpieces⟩
  obtain ⟨mss, hreceived, -, -, hall⟩ := delivered (c := c) rfl 1 hm hbegin
  exact ⟨hm, hpieces, mss, hreceived, (hall hsettled hpieces).trans haccepted⟩

end Outbound

end Interchange
