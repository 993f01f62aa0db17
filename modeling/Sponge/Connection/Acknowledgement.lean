import Sponge.Connection.Transfer

/-!
Acknowledgements between two connections.

A connection's segments carry ACK only from its stamping: the sender never sets it
(`NoAcks`), and `_send_outbound_segments()` writes the receiver's `ackno()`, the
absolute sequence number `absAckno` after the assembled bytes, wrapped with the peer's
ISN. That number only grows: a push writes more and never reopens an ended stream. So
every acknowledgement a connection has emitted is at most what its receiver has
assembled now (`AckInv`). On the other side only such an acknowledgement moves the
sender's left edge, to the ackno unwrapped, which below `2^31` is the number the peer
wrapped. Along every run the sender thus never takes as acknowledged a byte the peer has
not assembled (`acked_received`).
-/

namespace Sponge

/-! ## What a receiver acknowledges only grows -/

namespace StreamReassembler

theorem reassemble_bytesWritten_le (r : StreamReassembler) (l : List Segment) :
    r.output.bytesWritten ≤ (reassemble r l).output.bytesWritten := by
  induction l generalizing r with
  | nil => exact le_rfl
  | cons s rest ih =>
    simp only [reassemble]
    split
    · split
      · simp
      · split
        · simp
        · exact le_trans (by simp) (ih _)
    · exact le_rfl

/-- A push only writes more, and never reopens an ended output. -/
theorem pushSubstring_output_mono (r : StreamReassembler) (data : List UInt8) (index : Nat) (eof : Bool) :
    r.output.bytesWritten ≤ (r.pushSubstring data index eof).output.bytesWritten ∧
      (r.output.inputEnded = true → (r.pushSubstring data index eof).output.inputEnded = true) := by
  unfold pushSubstring
  split_ifs with hend
  · exact ⟨le_rfl, id⟩
  · exact ⟨le_rfl, id⟩
  · refine ⟨?_, fun h => absurd h hend⟩
    rw [closeInput_bytesWritten]
    calc r.output.bytesWritten
        = ((r.recordEof (Word.add 64 index data.length) eof).pushInterval
            (r.windowSegment data index)).output.bytesWritten := by
          simp
      _ ≤ _ := reassemble_bytesWritten_le _ _

end StreamReassembler

namespace TCPReceiver

/-- The absolute sequence number `ackno()` wraps: the SYN, the bytes written and, once the
input ended, the FIN. -/
def absAckno (r : TCPReceiver) : Nat :=
  r.streamOut.bytesWritten + 1 + (if r.streamOut.inputEnded then 1 else 0)

theorem ackno_of_senderIsn {r : TCPReceiver} {isn : WrappingInt32} (h : r.senderIsn = some isn) :
    r.ackno = some (wrap (UInt64.ofNat r.absAckno) isn) := by
  simp [ackno, h, absAckno]

theorem absAckno_le_push {r r' : TCPReceiver} {data : List UInt8} {index : Nat} {eof : Bool}
    (h : r'.reassembler = r.reassembler.pushSubstring data index eof) : r.absAckno ≤ r'.absAckno := by
  obtain ⟨hw, he⟩ := StreamReassembler.pushSubstring_output_mono r.reassembler data index eof
  unfold absAckno streamOut
  rw [h]
  by_cases hend : r.reassembler.output.inputEnded = true
  · rw [if_pos hend, if_pos (he hend)]
    omega
  · rw [if_neg hend]
    split_ifs <;> omega

theorem absAckno_le_segmentReceived (r : TCPReceiver) (seg : TCPSegment) :
    r.absAckno ≤ (r.segmentReceived seg).absAckno := by
  rcases segmentReceived_reassembler r seg with h | ⟨i, h⟩
  · unfold absAckno streamOut
    rw [h]
  · exact absAckno_le_push h

end TCPReceiver

/-! ## The sender sets no ACK -/

namespace TCPSender

@[simp] theorem buildSegment_ack (b : TCPSegmentBuilder) : b.buildSegment.header.ack = b.ack := rfl

/-- The sender never sets ACK: the connection does, when it stamps a segment. -/
structure NoAcks (s : TCPSender) : Prop where
  out : ∀ seg ∈ s.segmentsOut, seg.header.ack = false
  pending : ∀ seg ∈ s.segmentsPending, seg.header.ack = false

/-- The builder a pass hands on keeps the ACK flag it was given. -/
theorem fillPass_ack {s : TCPSender} {b b' : TCPSegmentBuilder} (h : (s.fillPass b).2 = some b') :
    b'.ack = b.ack := by
  rw [fillPass_eq] at h
  cases hk : s.passEnd <;> simp only [hk, reduceCtorEq, Option.some.injEq] at h
  · rw [← h]
    rfl
  · rw [← h]
    rfl

namespace NoAcks

variable {s : TCPSender}

theorem send (h : s.NoAcks) {b : TCPSegmentBuilder} (hb : b.ack = false) : (s.send b).NoAcks where
  out := by
    intro seg hseg
    rcases List.mem_append.mp ((send_segmentsOut b s) ▸ hseg) with hold | hnew
    · exact h.out seg hold
    · rw [List.mem_singleton.mp hnew, buildSegment_ack, hb]
  pending := by
    intro seg hseg
    rw [send_segmentsPending] at hseg
    split at hseg
    · rcases List.mem_append.mp hseg with hold | hnew
      · exact h.pending seg hold
      · rw [List.mem_singleton.mp hnew, buildSegment_ack, hb]
    · exact h.pending seg hseg

/-- A pass sends with the builder it was given, ACK untouched. -/
theorem fillPass (h : s.NoAcks) {b : TCPSegmentBuilder} (hb : b.ack = false) : (s.fillPass b).1.NoAcks := by
  -- reading the stream and marking the FIN leave both queues alone
  have h' : s.popped.NoAcks := ⟨h.out, h.pending⟩
  rw [fillPass_eq]
  cases s.passEnd with
  | shut => exact h
  | idle => exact h'
  | data => exact h'.send hb
  | dataFin =>
    have h'' : ({ s.popped with fined := true } : TCPSender).NoAcks := ⟨h.out, h.pending⟩
    exact h''.send hb

theorem fillLoop (h : s.NoAcks) (n : Nat) {b : TCPSegmentBuilder} (hb : b.ack = false) :
    (TCPSender.fillLoop n s b).NoAcks := by
  induction n generalizing s b with
  | zero => exact h
  | succ n ih =>
    have h₁ := h.fillPass hb
    rw [TCPSender.fillLoop]
    rcases hp : s.fillPass b with ⟨s', _ | b'⟩
    · rw [hp] at h₁
      exact h₁
    · rw [hp] at h₁
      exact ih h₁ ((fillPass_ack (by rw [hp])).trans hb)

theorem fillWindow (h : s.NoAcks) : s.fillWindow.NoAcks := by
  unfold TCPSender.fillWindow
  split
  · exact h.send rfl
  · exact h.fillLoop _ rfl

theorem ackReceived (h : s.NoAcks) (ackno : WrappingInt32) (win : UInt16) : (s.ackReceived ackno win).NoAcks := by
  have h' : ∀ t : TCPSender, t.segmentsOut = s.segmentsOut → (∀ seg ∈ t.segmentsPending, seg ∈ s.segmentsPending) →
      t.NoAcks :=
    fun t ho hp => ⟨ho ▸ h.out, fun seg hseg => h.pending seg (hp seg hseg)⟩
  rw [ackReceived_eq]
  cases s.ackEnd ackno with
  | ignored => exact h' _ rfl fun _ h => h
  | newData =>
    apply NoAcks.fillWindow
    refine h' _ (acceptAck_segmentsOut ..) fun _ h => ?_
    rw [acceptAck_segmentsPending] at h
    exact mem_of_mem_popAcked h
  | sameAckno => exact h' _ rfl fun _ h => h

theorem tick (h : s.NoAcks) (ms : Nat) : (s.tick ms).NoAcks := by
  obtain ⟨-, -, -, -, hp, ho⟩ := tick_frame s ms
  refine ⟨?_, by rw [hp]; exact h.pending⟩
  rcases ho with ho | ⟨x, hx, ho⟩
  · rw [ho]
    exact h.out
  · -- a retransmission is an outstanding segment
    intro seg hseg
    rw [ho] at hseg
    rcases List.mem_append.mp hseg with hold | hnew
    · exact h.out seg hold
    · rw [List.mem_singleton.mp hnew]
      exact h.pending x hx

theorem sendEmptySegment (h : s.NoAcks) : s.sendEmptySegment.NoAcks := h.send rfl

theorem streamInWrite (h : s.NoAcks) (data : List UInt8) : (s.streamInWrite data).NoAcks := ⟨h.out, h.pending⟩

theorem streamInEndInput (h : s.NoAcks) : s.streamInEndInput.NoAcks := ⟨h.out, h.pending⟩

end NoAcks

end TCPSender

/-! ## What a connection acknowledges -/

namespace TCPConnection

open TCPSender

theorem stampSegment_ackno (c : TCPConnection) {seg : TCPSegment} (hseg : seg.header.ack = false)
    (h : (c.stampSegment seg).header.ack = true) : c.receiver.ackno = some (c.stampSegment seg).header.ackno := by
  unfold stampSegment at h ⊢
  cases hr : c.receiver.ackno <;> simp only [hr] at h ⊢ <;> split_ifs at h ⊢ <;> simp_all

/-- The acknowledgements a connection emitted, about the stream of a peer with ISN `isn`:
its sender sets no ACK, and every segment with ACK set acknowledges at most what the
receiver has assembled. -/
structure AckInv (isn : WrappingInt32) (c : TCPConnection) : Prop where
  sender : c.sender.NoAcks
  out : ∀ seg ∈ c.segmentsOut, seg.header.ack = true →
    ∃ n ≤ c.receiver.absAckno, seg.header.ackno = wrap (UInt64.ofNat n) isn

namespace AckInv

variable {c c' : TCPConnection} {isn : WrappingInt32}

theorem init (cfg : TCPConfig) (randomIsn : WrappingInt32) : AckInv isn (TCPConnection.init cfg randomIsn) where
  sender := ⟨by simp [TCPConnection.init, TCPSender.init], by simp [TCPConnection.init, TCPSender.init]⟩
  out := by simp [TCPConnection.init]

/-- A step that emits nothing, keeps the sender's segments free of ACK and only lets the
receiver assemble more. -/
theorem frame (h : AckInv isn c) (hs : c'.sender.NoAcks) (ho : c'.segmentsOut = c.segmentsOut)
    (hr : c.receiver.absAckno ≤ c'.receiver.absAckno) : AckInv isn c' where
  sender := hs
  out := by
    intro seg hseg hack
    obtain ⟨n, hn, heq⟩ := h.out seg (ho ▸ hseg) hack
    exact ⟨n, hn.trans hr, heq⟩

/-- Stamping acknowledges what the receiver has assembled, once it knows the peer's
ISN. -/
theorem sendOutboundSegments (h : AckInv isn c)
    (hisn : c.receiver.senderIsn = none ∨ c.receiver.senderIsn = some isn) : AckInv isn c.sendOutboundSegments where
  sender := ⟨fun _ hseg => (List.not_mem_nil hseg).elim, h.sender.pending⟩
  out := by
    intro seg hseg hack
    rcases List.mem_append.mp hseg with hold | hnew
    · exact h.out seg hold hack
    obtain ⟨e, he, rfl⟩ := List.mem_map.mp hnew
    have hackno := c.stampSegment_ackno (h.sender.out e he) hack
    rcases hisn with hisn | hisn
    · simp [TCPReceiver.ackno, hisn] at hackno
    · rw [TCPReceiver.ackno_of_senderIsn hisn] at hackno
      exact ⟨_, le_rfl, (Option.some.inj hackno).symm⟩

theorem checkDone (h : AckInv isn c) : AckInv isn c.checkDone :=
  h.frame (by rw [checkDone_sender]; exact h.sender) (checkDone_segmentsOut c) (by rw [checkDone_receiver])

theorem reset (h : AckInv isn c) (hisn : c.receiver.senderIsn = none ∨ c.receiver.senderIsn = some isn)
    (sendRst : Bool) : AckInv isn (c.reset sendRst) := by
  unfold TCPConnection.reset
  extract_lets _ _ _ _ _ c₁
  have h₁ : AckInv isn c₁ :=
    h.frame ⟨fun _ hseg => (List.not_mem_nil hseg).elim, h.sender.pending⟩ rfl le_rfl
  split
  · refine sendOutboundSegments ?_ hisn
    exact h₁.frame h₁.sender.sendEmptySegment rfl le_rfl
  · exact h₁

/-! Each call keeps the invariant, given that the receiver's ISN, if any, is the peer's. -/

section Calls

variable (hisn : c.receiver.senderIsn = none ∨ c.receiver.senderIsn = some isn)
include hisn

theorem connect (h : AckInv isn c) : AckInv isn c.connect := by
  unfold TCPConnection.connect
  apply checkDone
  refine sendOutboundSegments ?_ hisn
  exact h.frame h.sender.fillWindow rfl le_rfl

theorem endInputStream (h : AckInv isn c) : AckInv isn c.endInputStream := by
  unfold TCPConnection.endInputStream
  apply checkDone
  refine sendOutboundSegments ?_ hisn
  exact h.frame h.sender.streamInEndInput.fillWindow rfl le_rfl

theorem write (h : AckInv isn c) (data : List UInt8) : AckInv isn (c.write data).1 := by
  unfold TCPConnection.write
  refine sendOutboundSegments ?_ hisn
  exact h.frame (h.sender.streamInWrite data).fillWindow rfl le_rfl

theorem tick (h : AckInv isn c) (ms : Nat) : AckInv isn (c.tick ms) := by
  unfold TCPConnection.tick
  extract_lets c₁ c₂
  have h₁ : AckInv isn c₁ := h.frame (h.sender.tick ms) rfl le_rfl
  have h₂ : AckInv isn c₂ := by
    dsimp only [c₂]
    split
    · exact h₁.reset hisn true
    · exact h₁
  have hr : c₂.receiver.senderIsn = c.receiver.senderIsn := by
    dsimp only [c₂]
    split
    · rw [reset_receiver]
    · rfl
  exact (h₂.sendOutboundSegments (hr ▸ hisn)).checkDone

end Calls

theorem readInbound (h : AckInv isn c) (len : Nat) : AckInv isn (c.readInbound len).1 :=
  h.frame h.sender rfl le_rfl

/-- A delivered segment: the receiver only assembles more, and acknowledges it once the
stamping reads its new state. -/
theorem segmentReceived (h : AckInv isn c) (seg : TCPSegment)
    (hisn : c.receiver.senderIsn = none ∨ c.receiver.senderIsn = some isn)
    (hisn' : (c.receiver.segmentReceived seg).senderIsn = none ∨
      (c.receiver.segmentReceived seg).senderIsn = some isn) : AckInv isn (c.segmentReceived seg) := by
  rcases segmentReceived_cases c seg with e | e | ⟨s₂, s₃, l, hs₂, hs₃, -, e⟩ <;> rw [e]
  · exact h.frame h.sender rfl le_rfl
  · refine reset (c := { c with timeSinceLastSegmentReceived := 0 }) ?_ hisn false
    exact h.frame h.sender rfl le_rfl
  · have h₃ : s₃.NoAcks :=
      answer_preserves (P := NoAcks) hs₂ hs₃ h.sender (h.sender.ackReceived _ _).fillWindow
        NoAcks.fillWindow NoAcks.sendEmptySegment
    have h₁ : AckInv isn { c with timeSinceLastSegmentReceived := 0,
                                  receiver := c.receiver.segmentReceived seg, sender := s₃ } :=
      h.frame h₃ rfl (TCPReceiver.absAckno_le_segmentReceived _ _)
    have h₄ := h₁.sendOutboundSegments hisn'
    apply checkDone
    exact h₄.frame h₄.sender rfl le_rfl

end AckInv

end TCPConnection

/-! ## What moves the left edge of the window -/

namespace TCPSender

theorem ackReceived_receiverWindowLeft (s : TCPSender) (ackno : WrappingInt32) (win : UInt16) :
    (s.ackReceived ackno win).receiverWindowLeft = s.receiverWindowLeft ∨
      (s.ackReceived ackno win).receiverWindowLeft = (unwrap ackno s.isn (UInt64.ofNat s.receiverWindowLeft)).toNat := by
  rw [ackReceived_eq]
  cases s.ackEnd ackno <;> simp [fillWindow_frame]

theorem tick_receiverWindowLeft (s : TCPSender) (ms : Nat) :
    (s.tick ms).receiverWindowLeft = s.receiverWindowLeft := by
  unfold tick
  dsimp only
  rcases s.segmentsPending with _ | ⟨seg, tail⟩ <;> split_ifs <;> rfl

end TCPSender

namespace TCPConnection

open TCPSender

theorem reset_receiverWindowLeft (c : TCPConnection) (sendRst : Bool) :
    (c.reset sendRst).sender.receiverWindowLeft = c.sender.receiverWindowLeft := by
  unfold reset
  split <;> simp [sendOutboundSegments, sendEmptySegment]

theorem write_receiverWindowLeft (c : TCPConnection) (data : List UInt8) :
    (c.write data).1.sender.receiverWindowLeft = c.sender.receiverWindowLeft := by
  simp [write, sendOutboundSegments, fillWindow_frame, streamInWrite]

theorem receiverWindowLeft_of_control (c : TCPConnection) {e : Event} (he : e.Control) :
    (c.step e).sender.receiverWindowLeft = c.sender.receiverWindowLeft := by
  cases e with
  | connect => simp [TCPConnection.step, connect, sendOutboundSegments, fillWindow_frame]
  | endInputStream =>
    simp [TCPConnection.step, endInputStream, sendOutboundSegments, fillWindow_frame, streamInEndInput]
  | tick ms =>
    show (c.tick ms).sender.receiverWindowLeft = _
    unfold TCPConnection.tick
    dsimp only
    rw [checkDone_sender]
    split <;> simp [sendOutboundSegments, reset_receiverWindowLeft, tick_receiverWindowLeft]
  | write data => exact he.elim
  | read len => exact he.elim
  | segmentReceived seg => exact he.elim

/-- Only an acknowledgement moves the left edge: to the ackno it carries, unwrapped. -/
theorem segmentReceived_receiverWindowLeft (c : TCPConnection) (seg : TCPSegment) :
    (c.segmentReceived seg).sender.receiverWindowLeft = c.sender.receiverWindowLeft ∨
      seg.header.ack = true ∧ (c.segmentReceived seg).sender.receiverWindowLeft =
        (unwrap seg.header.ackno c.sender.isn (UInt64.ofNat c.sender.receiverWindowLeft)).toNat := by
  rcases segmentReceived_cases c seg with e | e | ⟨s₂, s₃, l, hs₂, hs₃, -, e⟩ <;> rw [e]
  · exact Or.inl rfl
  · exact Or.inl (reset_receiverWindowLeft _ false)
  -- the sender's answer keeps the edge; only its acknowledgement moves it
  · have e₃ : s₃.receiverWindowLeft = s₂.receiverWindowLeft := by
      rcases hs₃ with rfl | rfl | rfl <;> simp [fillWindow_frame, sendEmptySegment]
    rw [checkDone_sender]
    show s₃.receiverWindowLeft = _ ∨ _ ∧ s₃.receiverWindowLeft = _
    rw [e₃]
    rcases hs₂ with rfl | ⟨hack, rfl⟩
    · exact Or.inl rfl
    rw [(fillWindow_frame _).2.1]
    rcases ackReceived_receiverWindowLeft c.sender seg.header.ackno seg.header.win with h | h
    · exact Or.inl h
    · exact Or.inr ⟨hack, h⟩

/-! ## Over a run -/

open StreamReassembler

variable {cfgA cfgB : TCPConfig} {a a' b b' : Endpoint}

theorem AppStep.receiverWindowLeft_eq (hs : AppStep a a') :
    a'.conn.sender.receiverWindowLeft = a.conn.sender.receiverWindowLeft := by
  cases hs with
  | write data _ => exact write_receiverWindowLeft _ data
  | read len => rfl
  | control e he => exact receiverWindowLeft_of_control _ he

theorem AppStep.absAckno_le (hs : AppStep b b') : b.conn.receiver.absAckno ≤ b'.conn.receiver.absAckno := by
  cases hs with
  | write data _ => exact le_rfl
  | read len => exact le_rfl
  | control e he =>
    rcases step_receiver_of_control _ he with hr | hr
    · rw [hr]
    · -- a reset only fails the stream
      rw [hr]
      exact le_rfl

/-- A delivered segment only lets the receiver assemble more: it is ignored, fails the
stream or is pushed. -/
theorem segmentReceived_absAckno_le (c : TCPConnection) (seg : TCPSegment) :
    c.receiver.absAckno ≤ (c.segmentReceived seg).receiver.absAckno := by
  rcases segmentReceived_receiver c seg with hr | hr | hr
  · rw [hr]
  · rw [hr]
    exact le_rfl
  · rw [hr]
    exact TCPReceiver.absAckno_le_segmentReceived _ _

theorem AckInv.appStep {isn : WrappingInt32} (h : AckInv isn b.conn)
    (hisn : b.conn.receiver.senderIsn = none ∨ b.conn.receiver.senderIsn = some isn) (hs : AppStep b b') :
    AckInv isn b'.conn := by
  cases hs with
  | write data _ => exact h.write hisn data
  | read len => exact h.readInbound len
  | control e he =>
    cases e with
    | connect => exact h.connect hisn
    | endInputStream => exact h.endInputStream hisn
    | tick ms => exact h.tick hisn ms
    | write data => exact he.elim
    | read len => exact he.elim
    | segmentReceived seg => exact he.elim

/-- What `b` acknowledges is bounded by what `a` wrote: the SYN, the bytes and the FIN. -/
theorem Flow.absAckno_le {C : Nat} {isn : WrappingInt32} {E : List TCPSegment} {h : History}
    (hf : Flow C a b isn E h) : b.conn.receiver.absAckno ≤ a.written.length + 2 := by
  have hw := hf.recv.run.written_le
  unfold TCPReceiver.absAckno TCPReceiver.streamOut
  split_ifs <;> omega

/-- Along every run, while `a`'s stream fits in `b`'s capacity, in 64 bits together with
it, and below `2^31 - 1`, the stream from `a` to `b` keeps its invariant, `b`'s
acknowledgements are truthful, and `a`'s left edge is one of them: by induction on the
run. -/
theorem Transfer.ackInv (ht : Transfer cfgA cfgB a b) (hS : a.written.length ≤ cfgB.recvCapacity)
    (h64 : cfgB.recvCapacity + a.written.length < 2 ^ 64) (h31 : a.written.length + 2 < 2 ^ 31) :
    ∃ isn E h, Flow cfgB.recvCapacity a b isn E h ∧ AckInv isn b.conn ∧
      a.conn.sender.receiverWindowLeft ≤ b.conn.receiver.absAckno := by
  induction ht with
  | init isnA isnB => exact ⟨_, _, _, Flow.init cfgA cfgB isnA isnB, AckInv.init cfgB isnB, Nat.zero_le _⟩
  | appA _ hs ih =>
    have hle := hs.written_length_le
    obtain ⟨isn, E, h, hf, hack, hleft⟩ := ih (by omega) (by omega) (by omega)
    obtain ⟨E', hf'⟩ := hf.appA hs
    exact ⟨isn, E', h, hf', hack, hs.receiverWindowLeft_eq ▸ hleft⟩
  | appB _ hs ih =>
    obtain ⟨isn, E, h, hf, hack, hleft⟩ := ih hS h64 h31
    obtain ⟨h', hf'⟩ := hf.appB hs
    exact ⟨isn, E, h', hf', hack.appStep hf.recv.senderIsn hs, hleft.trans hs.absAckno_le⟩
  | @deliverA a₀ b₀ seg _ hseg ih =>
    obtain ⟨isn, E, h, hf, hack, hleft⟩ := ih hS h64 h31
    obtain ⟨E', hf'⟩ := hf.deliverA seg
    refine ⟨isn, E', h, hf', hack, ?_⟩
    rcases segmentReceived_receiverWindowLeft a₀.conn seg with heq | ⟨hflag, heq⟩
    · exact heq ▸ hleft
    -- the acknowledgement is one `b` emitted: its ackno unwraps to what `b` had assembled
    obtain ⟨n, hn, hackno⟩ := hack.out seg hseg hflag
    have hb := hf.absAckno_le
    have h31' : a₀.written.length + 2 < 2 ^ 31 := h31
    rw [heq, hackno, hf.emit.sender.isn_eq, unwrap_wrap_of_lt (by omega) (by omega), UInt64.toNat_ofNat']
    simp only [Nat.reducePow]
    omega
  | @deliverB a₀ b₀ seg _ hseg ih =>
    obtain ⟨isn, E, h, hf, hack, hleft⟩ := ih hS h64 h31
    obtain ⟨h', hf'⟩ := hf.deliverB hS h64 (by omega) hseg
    have hisn' : (b₀.conn.receiver.segmentReceived seg).senderIsn = none ∨
        (b₀.conn.receiver.segmentReceived seg).senderIsn = some isn := by
      rw [TCPReceiver.segmentReceived_senderIsn]
      split
      · next hs => exact Or.inr (by rw [(hf.emit.correctSegment hseg).seqno_of_syn hs])
      · exact hf.recv.senderIsn
    exact ⟨isn, E, h', hf', hack.segmentReceived seg hf.recv.senderIsn hisn',
      hleft.trans (segmentReceived_absAckno_le b₀.conn seg)⟩

/-- **Acknowledgements are truthful.** Along every run, while `a`'s stream fits in `b`'s
capacity, in 64 bits together with it, and below `2^31 - 1`, `a`'s sender never takes as
acknowledged more than `b` has assembled: its left edge, up to which it drops its
outstanding segments, is at most `b`'s `ackno()` unwrapped, the SYN, the bytes `b`'s
inbound stream has taken and, once it ended, the FIN. Behind it: `b`'s sender sets ACK on
none of its segments; every segment `b` has emitted with ACK set carries `a`'s ISN
advanced by at most that much, as stamping writes `ackno()`; and no delivery or call of
`b`'s application makes `b`'s `ackno()` go back. -/
theorem acked_received (ht : Transfer cfgA cfgB a b) (hS : a.written.length ≤ cfgB.recvCapacity)
    (h64 : cfgB.recvCapacity + a.written.length < 2 ^ 64) (h31 : a.written.length + 2 < 2 ^ 31) :
    a.conn.sender.receiverWindowLeft ≤ b.conn.receiver.absAckno ∧
      b.conn.sender.NoAcks ∧
      (∀ seg ∈ b.conn.segmentsOut, seg.header.ack = true →
        ∃ n ≤ b.conn.receiver.absAckno, seg.header.ackno = wrap (UInt64.ofNat n) a.conn.sender.isn) ∧
      (∀ seg, b.conn.receiver.absAckno ≤ (b.conn.segmentReceived seg).receiver.absAckno) ∧
      (∀ b', AppStep b b' → b.conn.receiver.absAckno ≤ b'.conn.receiver.absAckno) := by
  obtain ⟨_, _, _, hf, hack, hleft⟩ := ht.ackInv hS h64 h31
  rw [hf.emit.sender.isn_eq]
  exact ⟨hleft, hack.sender, hack.out, segmentReceived_absAckno_le b.conn, fun _ hs => hs.absAckno_le⟩

/-- `A` sends `"hi"` after the handshake; `B` assembles it and its acknowledgement, with
ackno 3, reaches `A`, whose left edge moves to 3: the SYN and the two bytes `B` holds. -/
theorem acked_received_hello :
    ∃ a b, Transfer {} {} a b ∧ a.conn.sender.receiverWindowLeft = 3 ∧
      a.conn.sender.receiverWindowLeft ≤ b.conn.receiver.absAckno ∧ b.conn.sender.NoAcks := by
  have n₁ := Transfer.appA (.init ⟨0⟩ ⟨0⟩ : Transfer {} {} _ _) (.control .connect trivial)
  have n₂ := Transfer.deliverB { header := { seqno := ⟨0⟩, syn := true, win := 64000 } } n₁ (by decide)
  have n₃ := Transfer.deliverA
    { header := { seqno := ⟨0⟩, ackno := ⟨1⟩, ack := true, syn := true, win := 64000 } } n₂ (by decide)
  have n₄ := Transfer.appA n₃ (.write [104, 105] (by decide))
  have n₅ := Transfer.deliverB { header := { seqno := ⟨1⟩, ackno := ⟨1⟩, ack := true, win := 64000 } } n₄
    (by decide)
  have n₆ := Transfer.deliverB
    { header := { seqno := ⟨1⟩, ackno := ⟨1⟩, ack := true, win := 64000 }, payload := [104, 105] } n₅ (by decide)
  have n₇ := Transfer.deliverA { header := { seqno := ⟨1⟩, ackno := ⟨3⟩, ack := true, win := 63998 } } n₆
    (by decide)
  obtain ⟨hleft, hacks, -⟩ := acked_received n₇ (by decide) (by decide) (by decide)
  exact ⟨_, _, n₇, by decide, hleft, hacks⟩

end TCPConnection

end Sponge
