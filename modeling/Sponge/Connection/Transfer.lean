import Sponge.Connection.Emission

/-!
Two connections exchanging their streams.

An `Endpoint` is a connection with the bytes its application has written, as far as the
outbound stream took them, and the bytes it has read. `Transfer cfgA cfgB a b` says the
pair is reached from two fresh connections by their applications' calls and by a network
that may drop, duplicate, delay and reorder segments: any segment one side has emitted may
be delivered to the other, any number of times, in any order, or never. An application
writes only while its outbound stream is open.

When each side's stream fits in the other's receive capacity, in 64 bits together with
it, and below `2^31`, what each
side has received is a prefix of what the other wrote, and its inbound stream ends only
once the other's outbound stream has ended and every byte has arrived
(`transfer_safe`). The invariant behind it, `Flow`, pairs the sender's `EmitInv` with the
receiver's `RecvInv`. The capacity is what rules out the overrun of `window_overrun`:
every segment then lands inside the receiver's window.
-/

namespace Sponge

namespace TCPConnection

open TCPSender StreamReassembler

/-- A call of an application that neither writes nor reads. -/
def Event.Control : Event → Prop
  | .connect | .endInputStream | .tick _ => True
  | _ => False

/-- A connection, with what its application wrote (as far as the outbound stream took
it) and what it read. -/
structure Endpoint where
  conn : TCPConnection
  written : List UInt8
  read : List UInt8

/-- One call of an endpoint's application; it writes only while its stream is open. -/
inductive AppStep : Endpoint → Endpoint → Prop
  | write {c : TCPConnection} {w r : List UInt8} (data : List UInt8) :
      c.sender.stream.inputEnded = false →
      AppStep ⟨c, w, r⟩ ⟨(c.write data).1, w ++ data.take (c.write data).2, r⟩
  | read {c : TCPConnection} {w r : List UInt8} (len : Nat) :
      AppStep ⟨c, w, r⟩ ⟨(c.readInbound len).1, w, r ++ (c.readInbound len).2⟩
  | control {c : TCPConnection} {w r : List UInt8} (e : Event) :
      e.Control → AppStep ⟨c, w, r⟩ ⟨c.step e, w, r⟩

/-- The pairs of endpoints reached from fresh connections with the configurations
`cfgA` and `cfgB`. -/
inductive Transfer (cfgA cfgB : TCPConfig) : Endpoint → Endpoint → Prop
  | init (isnA isnB : WrappingInt32) :
      Transfer cfgA cfgB ⟨TCPConnection.init cfgA isnA, [], []⟩ ⟨TCPConnection.init cfgB isnB, [], []⟩
  | appA {a a' b : Endpoint} : Transfer cfgA cfgB a b → AppStep a a' → Transfer cfgA cfgB a' b
  | appB {a b b' : Endpoint} : Transfer cfgA cfgB a b → AppStep b b' → Transfer cfgA cfgB a b'
  | deliverA {a b : Endpoint} (seg : TCPSegment) :
      Transfer cfgA cfgB a b → seg ∈ b.conn.segmentsOut →
      Transfer cfgA cfgB { a with conn := a.conn.segmentReceived seg } b
  | deliverB {a b : Endpoint} (seg : TCPSegment) :
      Transfer cfgA cfgB a b → seg ∈ a.conn.segmentsOut →
      Transfer cfgA cfgB a { b with conn := b.conn.segmentReceived seg }

variable {cfgA cfgB : TCPConfig} {a a' b b' : Endpoint}

theorem AppStep.written_length_le (hs : AppStep a a') : a.written.length ≤ a'.written.length := by
  cases hs with
  | write data _ => simp
  | read len => exact le_rfl
  | control e _ => exact le_rfl

/-- An application writes only while its stream is open. -/
theorem AppStep.written_eq (hs : AppStep a a') :
    ∃ extra, a'.written = a.written ++ extra ∧ (a.conn.sender.stream.inputEnded = true → extra = []) := by
  cases hs with
  | write data hend => exact ⟨_, rfl, fun h => by rw [hend] at h; cases h⟩
  | read len => exact ⟨[], (List.append_nil _).symm, fun _ => rfl⟩
  | control e _ => exact ⟨[], (List.append_nil _).symm, fun _ => rfl⟩

/-- The two sides play the same game. -/
theorem Transfer.swap (ht : Transfer cfgA cfgB a b) : Transfer cfgB cfgA b a := by
  induction ht with
  | init isnA isnB => exact .init isnB isnA
  | appA _ hs ih => exact .appB ih hs
  | appB _ hs ih => exact .appA ih hs
  | deliverA seg _ hseg ih => exact .deliverB seg ih hseg
  | deliverB seg _ hseg ih => exact .deliverA seg ih hseg

/-! ## What the calls do to the receiver -/

@[simp] theorem reset_receiver (c : TCPConnection) (sendRst : Bool) :
    (c.reset sendRst).receiver =
      { c.receiver with reassembler := { c.receiver.reassembler with output := c.receiver.reassembler.output.setError } } := by
  unfold reset
  split <;> rfl

/-- A call that neither writes, reads nor delivers leaves the receiver alone, or resets it. -/
theorem step_receiver_of_control (c : TCPConnection) {e : Event} (he : e.Control) :
    (c.step e).receiver = c.receiver ∨
      (c.step e).receiver =
        { c.receiver with reassembler := { c.receiver.reassembler with output := c.receiver.reassembler.output.setError } } := by
  cases e with
  | connect => exact Or.inl (by simp [TCPConnection.step, connect])
  | endInputStream => exact Or.inl (by simp [TCPConnection.step, endInputStream])
  | tick ms =>
    show (c.tick ms).receiver = c.receiver ∨ (c.tick ms).receiver = _
    unfold TCPConnection.tick
    dsimp only
    rw [checkDone_receiver, sendOutboundSegments_receiver]
    -- past the retransmission limit the connection resets
    split
    · exact Or.inr (reset_receiver _ true)
    · exact Or.inl rfl
  | write data => exact he.elim
  | read len => exact he.elim
  | segmentReceived seg => exact he.elim

/-- A delivered segment reaches the receiver, or is ignored, or resets it. -/
theorem segmentReceived_receiver (c : TCPConnection) (seg : TCPSegment) :
    (c.segmentReceived seg).receiver = c.receiver ∨
      (c.segmentReceived seg).receiver =
        { c.receiver with reassembler := { c.receiver.reassembler with output := c.receiver.reassembler.output.setError } } ∨
      (c.segmentReceived seg).receiver = c.receiver.segmentReceived seg := by
  rcases segmentReceived_cases c seg with e | e | ⟨_, _, _, -, -, -, e⟩ <;> rw [e]
  · exact Or.inl rfl
  · exact Or.inr (Or.inl (reset_receiver _ false))
  · exact Or.inr (Or.inr (checkDone_receiver _))

/-! ## The invariant of one direction -/

/-- Every call of an application that neither writes nor reads keeps the emission
invariant. -/
theorem EmitInv.control {c : TCPConnection} {isn : WrappingInt32} {w : List UInt8} {E : List TCPSegment}
    (h : EmitInv c isn w E) {e : Event} (he : e.Control) : ∃ Q, EmitInv (c.step e) isn w (E ++ Q) := by
  cases e with
  | connect => exact ⟨_, h.connect⟩
  | endInputStream => exact ⟨_, h.endInputStream⟩
  | tick ms => exact h.tick ms
  | write data => exact he.elim
  | read len => exact he.elim
  | segmentReceived seg => exact he.elim

theorem EmitInv.appStep {isn : WrappingInt32} {E : List TCPSegment} (h : a.conn.EmitInv isn a.written E)
    (hs : AppStep a a') : ∃ Q, a'.conn.EmitInv isn a'.written (E ++ Q) := by
  cases hs with
  | write data hend => exact ⟨_, h.write hend data⟩
  | read len => exact (h.readInbound len).exists_append
  | control e he => exact h.control he

/-- Along every run, `a` keeps its emission invariant over what its application wrote:
by induction on the run, with the ISN it started with. -/
theorem Transfer.emitInv (ht : Transfer cfgA cfgB a b) : ∃ E, a.conn.EmitInv a.conn.sender.isn a.written E := by
  suffices h : ∃ isn E, a.conn.EmitInv isn a.written E by
    obtain ⟨isn, E, h⟩ := h
    rw [h.sender.isn_eq]
    exact ⟨E, h⟩
  induction ht with
  | init isnA isnB => exact ⟨_, _, EmitInv.init cfgA isnA⟩
  | appA _ hs ih =>
    obtain ⟨isn, E, h⟩ := ih
    obtain ⟨Q, hQ⟩ := h.appStep hs
    exact ⟨isn, _, hQ⟩
  | appB _ _ ih => exact ih
  | deliverA seg _ _ ih =>
    obtain ⟨isn, E, h⟩ := ih
    obtain ⟨Q, hQ⟩ := h.segmentReceived seg
    exact ⟨isn, _, hQ⟩
  | deliverB _ _ _ ih => exact ih

/-- **What a connection emits.** Along every run, whatever the capacities, every segment
`a` has emitted (sent, stamped, retransmitted, or sent after a reset) that occupies
sequence space sits at an absolute sequence number where it carries the SYN exactly at
0 and the bytes `a`'s application wrote; a FIN comes right after the last of them. -/
theorem emitted_correct (ht : Transfer cfgA cfgB a b) {seg : TCPSegment} (hseg : seg ∈ a.conn.segmentsOut) :
    CorrectSegment a.conn.sender.isn a.written seg := by
  obtain ⟨E, h⟩ := ht.emitInv
  exact h.correctSegment hseg

/-- After the handshake `A` writes `"hi"`: the segment carrying it is a correct segment
of what `A` wrote. -/
theorem emitted_correct_hello :
    ∃ a b, Transfer {} {} a b ∧ ∃ seg ∈ a.conn.segmentsOut, seg.payload = [104, 105] ∧
      CorrectSegment a.conn.sender.isn a.written seg := by
  have n₁ := Transfer.appA (.init ⟨0⟩ ⟨0⟩ : Transfer {} {} _ _) (.control .connect trivial)
  have n₂ := Transfer.deliverB { header := { seqno := ⟨0⟩, syn := true, win := 64000 } } n₁ (by decide)
  have n₃ := Transfer.deliverA
    { header := { seqno := ⟨0⟩, ackno := ⟨1⟩, ack := true, syn := true, win := 64000 } } n₂ (by decide)
  have n₄ := Transfer.appA n₃ (.write [104, 105] (by decide))
  exact ⟨_, _, n₄, { header := { seqno := ⟨1⟩, ackno := ⟨1⟩, ack := true, win := 64000 }, payload := [104, 105] },
    by decide, rfl, emitted_correct n₄ (by decide)⟩

/-- The stream from `a` to `b`, whose receiver has capacity `C`: `a` emits segments of
what it wrote, having handed `E` over; `b`'s receiver assembles them with history `h`,
whose reads are what `b` read; and `b` knows the stream's end only from a FIN in `E`. -/
structure Flow (C : Nat) (a b : Endpoint) (isn : WrappingInt32) (E : List TCPSegment) (h : History) : Prop where
  emit : a.conn.EmitInv isn a.written E
  recv : RecvInv a.written isn b.conn.receiver h
  popped : h.popped = b.read
  eof : b.conn.receiver.reassembler.gotEof = true → ∃ e ∈ E, e.header.fin = true
  capacity : b.conn.receiver.capacity = C

namespace Flow

variable {C : Nat} {isn : WrappingInt32} {E : List TCPSegment} {h h' : History}

theorem init (cfgA cfgB : TCPConfig) (isnA isnB : WrappingInt32) :
    Flow cfgB.recvCapacity ⟨TCPConnection.init cfgA isnA, [], []⟩ ⟨TCPConnection.init cfgB isnB, [], []⟩
      (TCPConnection.init cfgA isnA).sender.isn [] History.init where
  emit := EmitInv.init cfgA isnA
  recv := RecvInv.init [] _ cfgB.recvCapacity
  popped := rfl
  eof := fun hg => by simp [TCPConnection.init, TCPReceiver.init, StreamReassembler.init] at hg
  capacity := rfl

/-- A step of `a`, with `E` grown by `Q`. -/
theorem ofEmit (hf : Flow C a b isn E h) {Q : List TCPSegment} (he : a'.conn.EmitInv isn a'.written (E ++ Q))
    (hr : RecvInv a'.written isn b.conn.receiver h) : Flow C a' b isn (E ++ Q) h where
  emit := he
  recv := hr
  popped := hf.popped
  eof := fun hg => by
    obtain ⟨e, he, hfin⟩ := hf.eof hg
    exact ⟨e, List.mem_append_left _ he, hfin⟩
  capacity := hf.capacity

/-- A step of `b`, given what it does to the receiver. -/
theorem ofRecv (hf : Flow C a b isn E h) (hr : RecvInv a.written isn b'.conn.receiver h')
    (hp : h'.popped = b'.read)
    (hg : b'.conn.receiver.reassembler.gotEof = true →
      b.conn.receiver.reassembler.gotEof = true ∨ ∃ e ∈ E, e.header.fin = true)
    (hc : b'.conn.receiver.capacity = b.conn.receiver.capacity) : Flow C a b' isn E h' where
  emit := hf.emit
  recv := hr
  popped := hp
  eof := fun hg' => (hg hg').elim hf.eof id
  capacity := hc.trans hf.capacity

/-- A step of `b` that leaves its receiver alone or resets it. -/
theorem ofRecvFrame (hf : Flow C a b isn E h) (hp : b'.read = b.read)
    (hr : b'.conn.receiver = b.conn.receiver ∨
      b'.conn.receiver = { b.conn.receiver with reassembler :=
        { b.conn.receiver.reassembler with output := b.conn.receiver.reassembler.output.setError } }) :
    Flow C a b' isn E h := by
  rcases hr with hr | hr
  · exact hf.ofRecv (hr ▸ hf.recv) (hf.popped.trans hp.symm) (fun hg => Or.inl (hr ▸ hg)) (by rw [hr])
  · exact hf.ofRecv (hr ▸ hf.recv.setError) (hf.popped.trans hp.symm) (fun hg => Or.inl (by rw [hr] at hg; exact hg))
      (by rw [hr])

theorem appA (hf : Flow C a b isn E h) (hs : AppStep a a') : ∃ E', Flow C a' b isn E' h := by
  obtain ⟨Q, hQ⟩ := hf.emit.appStep hs
  obtain ⟨extra, hw, hopen⟩ := hs.written_eq
  -- `b` has no FIN while `a` still writes, so its invariant holds over the longer stream
  have hrecv : RecvInv a'.written isn b.conn.receiver h := by
    rw [hw]
    refine hf.recv.append extra fun hg => hopen ?_
    obtain ⟨e, he, hfin⟩ := hf.eof hg
    exact hf.emit.inputEnded_of_fin he hfin
  exact ⟨E ++ Q, hf.ofEmit hQ hrecv⟩

theorem deliverA (hf : Flow C a b isn E h) (seg : TCPSegment) :
    ∃ E', Flow C { a with conn := a.conn.segmentReceived seg } b isn E' h := by
  obtain ⟨Q, hQ⟩ := hf.emit.segmentReceived seg
  exact ⟨E ++ Q, hf.ofEmit hQ hf.recv⟩

theorem appB (hf : Flow C a b isn E h) (hs : AppStep b b') : ∃ h', Flow C a b' isn E h' := by
  cases hs with
  | write data _ => exact ⟨h, hf.ofRecvFrame rfl (Or.inl rfl)⟩
  | read len =>
    refine ⟨_, hf.ofRecv (hf.recv.popOutput len) ?_ (fun hg => Or.inl hg) rfl⟩
    show h.popped ++ _ = _
    rw [hf.popped]
    rfl
  | control e he => exact ⟨h, hf.ofRecvFrame rfl (step_receiver_of_control _ he)⟩

/-- A segment `a` emitted, delivered to `b`: it is a correct segment of what `a` wrote,
inside `b`'s window when the whole stream fits in it. -/
theorem deliverB (hf : Flow C a b isn E h) (hS : a.written.length ≤ C) (h64 : C + a.written.length < 2 ^ 64)
    (h31 : a.written.length + 1 < 2 ^ 31) {seg : TCPSegment} (hseg : seg ∈ a.conn.segmentsOut) :
    ∃ h', Flow C a { b with conn := b.conn.segmentReceived seg } isn E h' := by
  rcases segmentReceived_receiver b.conn seg with hr | hr | hr
  · exact ⟨h, hf.ofRecvFrame rfl (Or.inl hr)⟩
  · exact ⟨h, hf.ofRecvFrame rfl (Or.inr hr)⟩
  obtain ⟨h', hp, hi⟩ := hf.recv.segmentReceived (hf.capacity ▸ hS) (hf.capacity ▸ h64) h31
    (hf.emit.correctSegment hseg)
  refine ⟨h', hf.ofRecv (hr ▸ hi) (hp.trans hf.popped) (fun hg => ?_)
    (by rw [hr]; exact TCPReceiver.segmentReceived_capacity _ _)⟩
  -- the FIN, if that is what ended the stream, is one `a` handed over
  rw [hr] at hg
  rcases TCPReceiver.segmentReceived_gotEof hg with hg | hfin
  · exact Or.inl hg
  · obtain ⟨e, he, c', rfl⟩ := hf.emit.out seg hseg
    exact Or.inr ⟨e, he, by rwa [stampSegment_fin] at hfin⟩

end Flow

/-- Along every run, while `a`'s stream fits in `b`'s capacity, both fit together in 64
bits, and the stream stays below `2^31`, the stream from `a` to `b` keeps its invariant:
by induction on the run, one lemma per step; the bounds hold before each step since `a`
only writes more. -/
theorem Transfer.flow (ht : Transfer cfgA cfgB a b) (hS : a.written.length ≤ cfgB.recvCapacity)
    (h64 : cfgB.recvCapacity + a.written.length < 2 ^ 64) (h31 : a.written.length + 1 < 2 ^ 31) :
    ∃ isn E h, Flow cfgB.recvCapacity a b isn E h := by
  induction ht with
  | init isnA isnB => exact ⟨_, _, _, Flow.init cfgA cfgB isnA isnB⟩
  | appA _ hs ih =>
    have hle := hs.written_length_le
    obtain ⟨isn, E, h, hf⟩ := ih (by omega) (by omega) (by omega)
    obtain ⟨E', hf'⟩ := hf.appA hs
    exact ⟨isn, E', h, hf'⟩
  | appB _ hs ih =>
    obtain ⟨isn, E, h, hf⟩ := ih hS h64 h31
    obtain ⟨h', hf'⟩ := hf.appB hs
    exact ⟨isn, E, h', hf'⟩
  | deliverA seg _ _ ih =>
    obtain ⟨isn, E, h, hf⟩ := ih hS h64 h31
    obtain ⟨E', hf'⟩ := hf.deliverA seg
    exact ⟨isn, E', h, hf'⟩
  | deliverB seg _ hseg ih =>
    obtain ⟨isn, E, h, hf⟩ := ih hS h64 h31
    obtain ⟨h', hf'⟩ := hf.deliverB hS h64 h31 hseg
    exact ⟨isn, E, h', hf'⟩

/-- What `b` has received of `a`'s stream: the bytes it read and the bytes buffered in
its inbound stream are what `a`'s application wrote, up to `bytes_written()`; and the
inbound stream ends only once `a`'s outbound stream has ended and all of it arrived. -/
def Delivered (a b : Endpoint) : Prop :=
  b.read ++ b.conn.inboundStream.content = a.written.take b.conn.inboundStream.bytesWritten ∧
    b.conn.inboundStream.bytesWritten ≤ a.written.length ∧
    (b.conn.inboundStream.inputEnded = true →
      a.conn.sender.stream.inputEnded = true ∧ b.conn.inboundStream.bytesWritten = a.written.length)

theorem Flow.delivered {C : Nat} {isn : WrappingInt32} {E : List TCPSegment} {h : History}
    (hf : Flow C a b isn E h) : Delivered a b := by
  have hr := hf.recv.run
  refine ⟨hf.popped ▸ hr.bytes, hr.written_le, fun hend => ?_⟩
  obtain ⟨hsaw, hlen⟩ := hr.inputEnded_iff_sawEof.mp hend
  obtain ⟨e, he, hfin⟩ := hf.eof (hr.gotEof_eq.trans hsaw)
  exact ⟨hf.emit.inputEnded_of_fin he hfin, hlen⟩

/-- **End-to-end delivery.** Two connections, with any configurations, whose segments a
network may drop, duplicate, delay and reorder, and whose applications write only while
their outbound streams are open: as long as each side's stream fits in the other's
receive capacity, stream and capacity together fit in the 64 bits of a `size_t`, and the
stream stays below `2^31`, each side has received a prefix of what the other
wrote, and its inbound stream ends only once the other's outbound stream has ended and
every byte has arrived. -/
theorem transfer_safe (ht : Transfer cfgA cfgB a b)
    (hab : a.written.length ≤ cfgB.recvCapacity ∧ cfgB.recvCapacity + a.written.length < 2 ^ 64 ∧
      a.written.length + 1 < 2 ^ 31)
    (hba : b.written.length ≤ cfgA.recvCapacity ∧ cfgA.recvCapacity + b.written.length < 2 ^ 64 ∧
      b.written.length + 1 < 2 ^ 31) :
    Delivered a b ∧ Delivered b a := by
  obtain ⟨_, _, _, hf⟩ := ht.flow hab.1 hab.2.1 hab.2.2
  obtain ⟨_, _, _, hf'⟩ := ht.swap.flow hba.1 hba.2.1 hba.2.2
  exact ⟨hf.delivered, hf'.delivered⟩

/-- `A` connects and writes `"hi"`; the handshake, `A`'s acknowledgement and then its
bytes reach `B`, which reads them. -/
theorem transfer_safe_hello :
    ∃ a b, Transfer {} {} a b ∧ b.read = [104, 105] ∧ Delivered a b ∧ Delivered b a := by
  have n₁ := Transfer.appA (.init ⟨0⟩ ⟨0⟩ : Transfer {} {} _ _) (.control .connect trivial)
  have n₂ := Transfer.deliverB { header := { seqno := ⟨0⟩, syn := true, win := 64000 } } n₁ (by decide)
  have n₃ := Transfer.deliverA
    { header := { seqno := ⟨0⟩, ackno := ⟨1⟩, ack := true, syn := true, win := 64000 } } n₂ (by decide)
  -- while its SYN is unacknowledged `B` drops a segment with data, so the bare
  -- acknowledgement goes first
  have n₄ := Transfer.appA n₃ (.write [104, 105] (by decide))
  have n₅ := Transfer.deliverB { header := { seqno := ⟨1⟩, ackno := ⟨1⟩, ack := true, win := 64000 } } n₄
    (by decide)
  have n₆ := Transfer.deliverB
    { header := { seqno := ⟨1⟩, ackno := ⟨1⟩, ack := true, win := 64000 }, payload := [104, 105] } n₅ (by decide)
  have n₇ := Transfer.appB n₆ (.read 2)
  exact ⟨_, _, n₇, by decide, transfer_safe n₇ (by decide) (by decide)⟩

end TCPConnection

end Sponge
