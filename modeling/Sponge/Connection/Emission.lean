import Sponge.TCPConnection
import Sponge.Receiver.Assembly

/-!
What a connection puts on the wire.

`_send_outbound_segments()` moves the sender's queue to the connection's, stamping each
segment with the receiver's ackno and window, and `_reset` drops the queue. `SenderInv`
reads the sender's own queue, so here it is kept over `prependOut E`: the queue behind
the segments `E` the sender has handed over (`Handed`). No sender operation reads its
queue; each commutes with `prependOut` and so keeps `Handed`. `EmitInv` adds that every
segment the connection emitted is one of `E`, stamped. Every call of the connection keeps
it, with `E` grown by what the call handed over, and every emitted segment is a
`CorrectSegment` of the written stream (`EmitInv.correctSegment`).
-/

namespace Sponge

namespace TCPSender

/-- The sender with `E` in front of its queue: the queue it would have if the connection
had not taken `E` from it. -/
@[reducible] def prependOut (s : TCPSender) (E : List TCPSegment) : TCPSender :=
  { s with segmentsOut := E ++ s.segmentsOut }

section PrependOut

variable (E : List TCPSegment) (s : TCPSender)

@[simp] theorem prependOut_isn : (s.prependOut E).isn = s.isn := rfl
@[simp] theorem prependOut_stream : (s.prependOut E).stream = s.stream := rfl

end PrependOut

/-! ## No sender operation reads its queue -/

section Commute

variable (E : List TCPSegment)

theorem send_prependOut (s : TCPSender) (b : TCPSegmentBuilder) :
    (s.prependOut E).send b = (s.send b).prependOut E := by
  unfold send prependOut
  dsimp only
  split <;> (try split) <;> simp

theorem fillPass_prependOut (s : TCPSender) (b : TCPSegmentBuilder) :
    (s.prependOut E).fillPass b = ((s.fillPass b).1.prependOut E, (s.fillPass b).2) := by
  -- a pass does not read the queue: its branch, the read and the segment are the same
  have hk : (s.prependOut E).passEnd = s.passEnd := rfl
  have hp : (s.prependOut E).popped = s.popped.prependOut E := rfl
  have hb : (s.prependOut E).payloadBuilder b = s.payloadBuilder b := rfl
  rw [fillPass_eq, fillPass_eq, hk, hp, hb]
  cases s.passEnd with
  | shut => rfl
  | idle => rfl
  | data => rw [send_prependOut]
  | dataFin => exact Prod.ext (send_prependOut E { s.popped with fined := true } _) rfl

theorem fillLoop_prependOut (n : Nat) (s : TCPSender) (b : TCPSegmentBuilder) :
    fillLoop n (s.prependOut E) b = (fillLoop n s b).prependOut E := by
  induction n generalizing s b with
  | zero => rfl
  | succ n ih =>
    rw [fillLoop, fillLoop, fillPass_prependOut]
    rcases s.fillPass b with ⟨s', _ | b'⟩
    · rfl
    · exact ih s' b'

theorem fillWindow_prependOut (s : TCPSender) : (s.prependOut E).fillWindow = s.fillWindow.prependOut E := by
  have e₁ : (s.prependOut E).inClosed = s.inClosed := rfl
  have e₂ : (s.prependOut E).nextSeqnoWrapped = s.nextSeqnoWrapped := rfl
  unfold fillWindow
  rw [e₁, e₂, prependOut_stream]
  split
  · exact send_prependOut E s _
  · exact fillLoop_prependOut E _ s _

theorem ackReceived_prependOut (s : TCPSender) (ackno : WrappingInt32) (win : UInt16) :
    (s.prependOut E).ackReceived ackno win = (s.ackReceived ackno win).prependOut E := by
  -- the branch an ack takes does not read the queue
  have hk : (s.prependOut E).ackEnd ackno = s.ackEnd ackno := rfl
  rw [ackReceived_eq, ackReceived_eq, hk]
  cases s.ackEnd ackno with
  | ignored => rfl
  | newData =>
    rw [← fillWindow_prependOut]
    unfold acceptAck
    dsimp only
    split <;> rfl
  | sameAckno => rfl

theorem tick_prependOut (s : TCPSender) (ms : Nat) : (s.prependOut E).tick ms = (s.tick ms).prependOut E := by
  unfold tick
  dsimp only
  -- only a retransmission touches the queue, appending the oldest outstanding segment
  rcases s.segmentsPending with _ | ⟨seg, tail⟩
  · rfl
  · split_ifs <;> simp only [List.append_assoc]

theorem sendEmptySegment_prependOut (s : TCPSender) :
    (s.prependOut E).sendEmptySegment = s.sendEmptySegment.prependOut E :=
  send_prependOut E s _

end Commute

theorem ackReceived_isn (s : TCPSender) (ackno : WrappingInt32) (win : UInt16) :
    (s.ackReceived ackno win).isn = s.isn := by
  rw [ackReceived_eq]
  cases s.ackEnd ackno <;> simp [fillWindow_frame]

theorem SenderInv.setError {s : TCPSender} {w : List UInt8} (hi : SenderInv s w) :
    SenderInv { s with stream := s.stream.setError } w :=
  { hi with stream := hi.stream.setError }

/-- A sender with ISN `isn` that has handed the segments `E` over to its connection, and
keeps its invariant over the bytes `w` written to its stream. -/
structure Handed (s : TCPSender) (isn : WrappingInt32) (w : List UInt8) (E : List TCPSegment) : Prop where
  isn_eq : s.isn = isn
  inv : SenderInv (s.prependOut E) w

namespace Handed

variable {s : TCPSender} {isn : WrappingInt32} {w : List UInt8} {E : List TCPSegment}

theorem fillWindow (h : s.Handed isn w E) : s.fillWindow.Handed isn w E := by
  refine ⟨(fillWindow_frame s).1.trans h.isn_eq, ?_⟩
  rw [← fillWindow_prependOut]
  exact h.inv.fillWindow

theorem ackReceived (h : s.Handed isn w E) (ackno : WrappingInt32) (win : UInt16) :
    (s.ackReceived ackno win).Handed isn w E := by
  refine ⟨(ackReceived_isn s ackno win).trans h.isn_eq, ?_⟩
  rw [← ackReceived_prependOut]
  exact h.inv.ackReceived ackno win

theorem tick (h : s.Handed isn w E) (ms : Nat) : (s.tick ms).Handed isn w E := by
  refine ⟨(tick_frame s ms).1.trans h.isn_eq, ?_⟩
  rw [← tick_prependOut]
  exact h.inv.tick ms

theorem sendEmptySegment (h : s.Handed isn w E) : s.sendEmptySegment.Handed isn w E := by
  refine ⟨(send_isn _ s).trans h.isn_eq, ?_⟩
  rw [← sendEmptySegment_prependOut]
  exact h.inv.sendEmptySegment

theorem streamInEndInput (h : s.Handed isn w E) : s.streamInEndInput.Handed isn w E :=
  ⟨h.isn_eq, h.inv.endInput⟩

theorem streamInWrite (h : s.Handed isn w E) (hend : s.stream.inputEnded = false) (data : List UInt8) :
    (s.streamInWrite data).Handed isn (w ++ data.take (s.stream.write data).2) E :=
  ⟨h.isn_eq, h.inv.write hend data⟩

/-- Handing the queue over moves its segments into `E`. -/
theorem flush (h : s.Handed isn w E) : Handed { s with segmentsOut := [] } isn w (E ++ s.segmentsOut) := by
  refine ⟨h.isn_eq, ?_⟩
  have hs : ({ s with segmentsOut := [] } : TCPSender).prependOut (E ++ s.segmentsOut) = s.prependOut E := by
    simp [prependOut]
  rw [hs]
  exact h.inv

/-- What `_reset` does to the sender: its stream fails and ends, and its queue is dropped,
which `E` counts as handed over. -/
theorem resetStream (h : s.Handed isn w E) :
    Handed { s with stream := s.stream.setError.endInput, segmentsOut := [] } isn w (E ++ s.segmentsOut) :=
  (⟨h.isn_eq, h.inv.setError.endInput⟩ : Handed { s with stream := s.stream.setError.endInput } isn w E).flush

end Handed

/-- Every segment in the sender's queue is a correct segment of the written stream: once
a FIN is sent the stream has ended with every byte read, so the FIN sits right after it. -/
theorem SenderInv.correctSegment {s : TCPSender} {w : List UInt8} (hi : SenderInv s w)
    {seg : TCPSegment} (hseg : seg ∈ s.segmentsOut) : CorrectSegment s.isn w seg := by
  rcases Nat.eq_zero_or_pos seg.lengthInSequenceSpace with h0 | hpos
  · exact Or.inl h0
  obtain ⟨a, hat, -, hfin⟩ := hi.out seg hseg hpos
  refine Or.inr ⟨a, hat, fun hf => ?_⟩
  obtain ⟨hfined, hend⟩ := hfin hf
  have hrw := (hi.fined_eof hfined).2
  have hn := hi.nextSeqno_of_fined hfined
  have hw := hi.written_length
  rw [lengthInSequenceSpace_eq, hf, if_pos rfl] at hend
  omega

end TCPSender

open TCPSender

/-! ## Stamping keeps a segment's place -/

namespace TCPConnection

section Stamp

variable (c : TCPConnection) (seg : TCPSegment)

@[simp] theorem stampSegment_payload : (c.stampSegment seg).payload = seg.payload := rfl
@[simp] theorem stampSegment_seqno : (c.stampSegment seg).header.seqno = seg.header.seqno := by
  unfold stampSegment; split <;> split_ifs <;> rfl
@[simp] theorem stampSegment_syn : (c.stampSegment seg).header.syn = seg.header.syn := by
  unfold stampSegment; split <;> split_ifs <;> rfl
@[simp] theorem stampSegment_fin : (c.stampSegment seg).header.fin = seg.header.fin := by
  unfold stampSegment; split <;> split_ifs <;> rfl
@[simp] theorem checkDone_segmentsOut : c.checkDone.segmentsOut = c.segmentsOut := by
  unfold checkDone; split <;> rfl

end Stamp

end TCPConnection

/-- A segment's place in the sequence space reads only its payload, seqno, SYN and FIN. -/
theorem CorrectSegment.congr {isn : WrappingInt32} {S : List UInt8} {seg seg' : TCPSegment}
    (h : CorrectSegment isn S seg) (hp : seg'.payload = seg.payload)
    (hq : seg'.header.seqno = seg.header.seqno) (hs : seg'.header.syn = seg.header.syn)
    (hf : seg'.header.fin = seg.header.fin) : CorrectSegment isn S seg' := by
  have hb : synBit seg' = synBit seg := by simp only [synBit, hs]
  have hl : seg'.lengthInSequenceSpace = seg.lengthInSequenceSpace := by
    rw [lengthInSequenceSpace_eq, lengthInSequenceSpace_eq, hp, hb, hf]
  rcases h with h | ⟨a, hat, hfin⟩
  · exact Or.inl (hl.trans h)
  · refine Or.inr ⟨a, ⟨hq.trans hat.seqno, hs ▸ hat.syn_iff, ?_, hp ▸ hat.payload_le⟩, ?_⟩
    · rw [hp, hb]
      exact hat.payload
    · rw [hf, hb, hp]
      exact hfin

theorem CorrectSegment.stamp {isn : WrappingInt32} {S : List UInt8} {seg : TCPSegment}
    (h : CorrectSegment isn S seg) (c : TCPConnection) : CorrectSegment isn S (c.stampSegment seg) :=
  h.congr (c.stampSegment_payload seg) (c.stampSegment_seqno seg) (c.stampSegment_syn seg)
    (c.stampSegment_fin seg)

namespace TCPConnection

/-- The connection's emission invariant, over the sender's ISN `isn`, the bytes `w`
written to its outbound stream and the segments `E` its sender has handed over. -/
structure EmitInv (c : TCPConnection) (isn : WrappingInt32) (w : List UInt8) (E : List TCPSegment) : Prop where
  sender : c.sender.Handed isn w E
  out : ∀ seg ∈ c.segmentsOut, ∃ e ∈ E, ∃ c' : TCPConnection, seg = c'.stampSegment e

namespace EmitInv

variable {c c' : TCPConnection} {isn : WrappingInt32} {w : List UInt8} {E : List TCPSegment}

theorem init (cfg : TCPConfig) (randomIsn : WrappingInt32) :
    EmitInv (TCPConnection.init cfg randomIsn) (TCPConnection.init cfg randomIsn).sender.isn [] [] where
  sender := ⟨rfl, SenderInv.init _ _ _ _⟩
  out := by simp [TCPConnection.init]

/-- Every segment the connection emitted is a correct segment of `w`. -/
theorem correctSegment (h : EmitInv c isn w E) {seg : TCPSegment} (hseg : seg ∈ c.segmentsOut) :
    CorrectSegment isn w seg := by
  obtain ⟨e, he, c', rfl⟩ := h.out seg hseg
  have he' : e ∈ (c.sender.prependOut E).segmentsOut := List.mem_append_left _ he
  have hc := h.sender.inv.correctSegment he'
  rw [prependOut_isn, h.sender.isn_eq] at hc
  exact hc.stamp c'

/-- A FIN handed over means the outbound stream has ended. -/
theorem inputEnded_of_fin (h : EmitInv c isn w E) {e : TCPSegment} (he : e ∈ E) (hf : e.header.fin = true) :
    c.sender.stream.inputEnded = true := by
  have hfined : (c.sender.prependOut E).fined = true :=
    h.sender.inv.fin_sent.mpr ⟨e, List.mem_append_left _ he, hf⟩
  exact (h.sender.inv.fined_eof hfined).1

/-- A step that hands the segments `Q` over and emits nothing but stamped segments of
`Q`. -/
theorem handOver (h : EmitInv c isn w E) {Q : List TCPSegment} (hs : c'.sender.Handed isn w (E ++ Q))
    (ho : ∀ seg ∈ c'.segmentsOut, seg ∈ c.segmentsOut ∨ ∃ e ∈ Q, ∃ c'' : TCPConnection, seg = c''.stampSegment e) :
    EmitInv c' isn w (E ++ Q) where
  sender := hs
  out := by
    intro seg hseg
    rcases ho seg hseg with hold | ⟨e, he, c'', rfl⟩
    · obtain ⟨e, he, c'', rfl⟩ := h.out seg hold
      exact ⟨e, List.mem_append_left _ he, c'', rfl⟩
    · exact ⟨e, List.mem_append_right _ he, c'', rfl⟩

/-- A step that emits nothing and keeps the sender handed over. -/
theorem frame (h : EmitInv c isn w E) (hs : c'.sender.Handed isn w E) (ho : c'.segmentsOut = c.segmentsOut) :
    EmitInv c' isn w E :=
  ⟨hs, ho ▸ h.out⟩

/-- A step that hands nothing over. -/
theorem exists_append (h : EmitInv c isn w E) : ∃ Q, EmitInv c isn w (E ++ Q) :=
  ⟨[], by rw [List.append_nil]; exact h⟩

theorem sendOutboundSegments (h : EmitInv c isn w E) :
    EmitInv c.sendOutboundSegments isn w (E ++ c.sender.segmentsOut) := by
  refine h.handOver h.sender.flush fun seg hseg => ?_
  rcases List.mem_append.mp hseg with hold | hnew
  · exact Or.inl hold
  · obtain ⟨e, he, rfl⟩ := List.mem_map.mp hnew
    exact Or.inr ⟨e, he, c, rfl⟩

theorem checkDone (h : EmitInv c isn w E) : EmitInv c.checkDone isn w E :=
  h.frame ((checkDone_sender c).symm ▸ h.sender) (checkDone_segmentsOut c)

theorem reset (h : EmitInv c isn w E) (sendRst : Bool) :
    ∃ Q, EmitInv (c.reset sendRst) isn w (E ++ Q) := by
  unfold TCPConnection.reset
  extract_lets _ _ _ _ _ c₁
  have h₁ : EmitInv c₁ isn w (E ++ c.sender.segmentsOut) :=
    h.handOver h.sender.resetStream fun seg hseg => Or.inl hseg
  split
  · -- with `send_rst`, an empty segment goes out after the queue is dropped
    refine ⟨c.sender.segmentsOut ++ c₁.sender.sendEmptySegment.segmentsOut, ?_⟩
    rw [← List.append_assoc]
    apply sendOutboundSegments
    exact h₁.frame h₁.sender.sendEmptySegment rfl
  · exact ⟨_, h₁⟩

/-! Each call of the connection keeps the invariant, with `E` grown by what it handed
over. -/

theorem connect (h : EmitInv c isn w E) :
    EmitInv c.connect isn w (E ++ c.sender.fillWindow.segmentsOut) := by
  unfold TCPConnection.connect
  apply checkDone
  apply sendOutboundSegments
  exact h.frame h.sender.fillWindow rfl

theorem endInputStream (h : EmitInv c isn w E) :
    EmitInv c.endInputStream isn w (E ++ c.sender.streamInEndInput.fillWindow.segmentsOut) := by
  unfold TCPConnection.endInputStream
  apply checkDone
  apply sendOutboundSegments
  exact h.frame h.sender.streamInEndInput.fillWindow rfl

/-- A write to an outbound stream that has not ended: the bytes it takes join `w`. -/
theorem write (h : EmitInv c isn w E) (hend : c.sender.stream.inputEnded = false) (data : List UInt8) :
    EmitInv (c.write data).1 isn (w ++ data.take (c.write data).2)
      (E ++ (c.sender.streamInWrite data).fillWindow.segmentsOut) := by
  unfold TCPConnection.write
  apply sendOutboundSegments
  exact ⟨(h.sender.streamInWrite hend data).fillWindow, h.out⟩

theorem readInbound (h : EmitInv c isn w E) (len : Nat) : EmitInv (c.readInbound len).1 isn w E :=
  h.frame h.sender rfl

theorem tick (h : EmitInv c isn w E) (ms : Nat) : ∃ Q, EmitInv (c.tick ms) isn w (E ++ Q) := by
  unfold TCPConnection.tick
  extract_lets c₁ c₂
  have h₁ : EmitInv c₁ isn w E := h.frame (h.sender.tick ms) rfl
  -- past the retransmission limit the connection resets, dropping its sender's queue
  have h₂ : ∃ Q, EmitInv c₂ isn w (E ++ Q) := by
    dsimp only [c₂]
    split
    · exact h₁.reset true
    · exact h₁.exists_append
  obtain ⟨Q, h₂⟩ := h₂
  refine ⟨Q ++ c₂.sender.segmentsOut, ?_⟩
  rw [← List.append_assoc]
  exact h₂.sendOutboundSegments.checkDone

/-- Any segment, from any peer: its acknowledgement reaches the sender through
`ack_received`, which keeps the invariant whatever the ackno and window. -/
theorem segmentReceived (h : EmitInv c isn w E) (seg : TCPSegment) :
    ∃ Q, EmitInv (c.segmentReceived seg) isn w (E ++ Q) := by
  rcases segmentReceived_cases c seg with e | e | ⟨s₂, s₃, l, hs₂, hs₃, -, e⟩ <;> rw [e]
  · apply exists_append
    exact h.frame h.sender rfl
  · apply reset
    exact h.frame h.sender rfl
  · have h₃ : s₃.Handed isn w E :=
      answer_preserves (P := (·.Handed isn w E)) hs₂ hs₃ h.sender (h.sender.ackReceived _ _).fillWindow
        Handed.fillWindow Handed.sendEmptySegment
    have h₁ : EmitInv { c with timeSinceLastSegmentReceived := 0,
                               receiver := c.receiver.segmentReceived seg, sender := s₃ } isn w E :=
      h.frame h₃ rfl
    have h₄ := h₁.sendOutboundSegments
    refine ⟨s₃.segmentsOut, checkDone ?_⟩
    exact h₄.frame h₄.sender rfl

end EmitInv

end TCPConnection

end Sponge
