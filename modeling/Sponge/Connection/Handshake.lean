import Sponge.Connection.Network
import Sponge.Receiver.Assembly
import Sponge.Sender.FillWindow

/-!
The three-way handshake.

Two fresh connections, with any configurations and ISNs, complete the handshake when `A`
connects and each segment is delivered once (`handshake`). Each step holds for any segment
with the flags of that step: a listening connection and a SYN
(`segmentReceived_listen_syn_spec`), a connection in `SYN_SENT` and the acknowledgement of
its SYN (`connect_segmentReceived_synAck_spec`), one in `SYN_RCVD` and the final ACK
(`segmentReceived_synRcvd_ack_spec`). The receiver sees segments with no payload
(`TCPReceiver.segmentReceived_of_empty`), and the sender the acknowledgement of its lone
SYN (`TCPSender.ackReceived_of_outstanding`).
-/

namespace Sponge

namespace TCPSender

/-- A sender with one segment outstanding, of length 1 at absolute sequence number `n` (its
SYN, or its FIN), and nothing more to send. -/
structure Outstanding (s : TCPSender) (seg : TCPSegment) (n : Nat) : Prop where
  nextSeqno : s.nextSeqno = n + 1
  left : s.receiverWindowLeft = n
  right : n + 1 ≤ s.receiverWindowRight
  pending : s.segmentsPending = [seg]
  seqno : seg.header.seqno = wrap (UInt64.ofNat n) s.isn
  length : seg.lengthInSequenceSpace = 1
  small : n < 2 ^ 30
  inv : s.stream.Inv
  drained : s.stream.bufferSize = 0
  idle : s.stream.inputEnded = false ∨ s.fined = true

section Outstanding

variable {s : TCPSender} {seg : TCPSegment} {n : Nat} {ackno : WrappingInt32} (h : s.Outstanding seg n)
include h

variable (ha : ackno = wrap (UInt64.ofNat (n + 1)) s.isn)
include ha

/-- The acknowledgement of the outstanding segment: the window opens at `n + 1`, the segment
leaves the outstanding list and the timer stops; there is nothing to add. -/
theorem ackReceived_of_outstanding (w : UInt16) :
    s.ackReceived ackno w =
      { s with zeroWindowSize := w == 0, receiverWindowSize := if w == 0 then 1 else w.toNat,
               receiverWindowLeft := n + 1, receiverWindowRight := n + 1 + if w == 0 then 1 else w.toNat,
               retransmissionTimeout := s.initialRetransmissionTimeout, consecutiveRetransmissions := 0,
               segmentsPending := [], timer := s.timer.stop } := by
  have hn : n + 1 < 2 ^ 31 := by have := h.small; omega
  have hA : (unwrap ackno s.isn (UInt64.ofNat s.receiverWindowLeft)).toNat = n + 1 := by
    rw [ha, h.left, unwrap_wrap_of_lt hn (by omega), UInt64.toNat_ofNat', Nat.mod_eq_of_lt (by omega)]
  have hend : s.ackEnd ackno = .newData := by
    unfold ackEnd
    rw [hA, if_neg (by have := h.right; omega), if_pos (by rw [h.left]; omega)]
  have hpop : popAcked s.isn (n + 1) s.segmentsPending = [] := by
    rw [h.pending, popAcked, h.seqno, unwrap_wrap_of_lt (by omega) hn, UInt64.toNat_ofNat',
      Nat.mod_eq_of_lt (by omega)]
    simp [h.length, popAcked]
  rw [ackReceived_eq, hend]
  dsimp only
  rw [fillWindow_of_idle (by simp [inClosed, h.nextSeqno]) (by simpa using h.inv) (by simpa using h.drained)
    (by simpa using h.idle), acceptAck_eq]
  simp only [hA, hpop, if_true]

/-- The acknowledged sender has nothing more to send. -/
theorem fillWindow_ackReceived_of_outstanding (w : UInt16) :
    (s.ackReceived ackno w).fillWindow = s.ackReceived ackno w := by
  rw [ackReceived_of_outstanding h ha]
  exact fillWindow_of_idle (by simp [inClosed, h.nextSeqno]) h.inv h.drained h.idle

end Outstanding

end TCPSender

namespace TCPConnection

/-- The first `fill_window` of a fresh connection sends the SYN at the ISN. -/
theorem init_sender_fillWindow (cfg : TCPConfig) (randomIsn : WrappingInt32) :
    (init cfg randomIsn).sender.fillWindow =
      let syn : TCPSegment :=
        { header := { seqno := wrap (UInt64.ofNat 0) (cfg.fixedIsn.getD randomIsn), syn := true } }
      { (init cfg randomIsn).sender with segmentsOut := [syn], segmentsPending := [syn], nextSeqno := 1,
                                          timer := ({} : RetransmissionTimer).start cfg.rtTimeout.toNat } := rfl

/-- A listening connection takes a SYN: the receiver learns the peer's ISN, and the sender's
SYN goes out stamped with the acknowledgement. -/
theorem segmentReceived_listen_syn (cfg : TCPConfig) (randomIsn : WrappingInt32) {seg : TCPSegment}
    (hsyn : seg.header.syn = true) (hrst : seg.header.rst = false) (hp : seg.payload = [])
    (hf : seg.header.fin = false) :
    (init cfg randomIsn).segmentReceived seg =
      let c := init cfg randomIsn
      { c with receiver := { c.receiver with senderIsn := some seg.header.seqno },
               sender := c.sender.fillWindow }.sendOutboundSegments := by
  unfold segmentReceived
  dsimp only
  rw [TCPReceiver.segmentReceived_of_empty _ _ rfl hp hf]
  rw [hsyn, hrst, show decide ((init cfg randomIsn).sender.nextSeqnoAbsolute > 0) = false from rfl,
    Bool.and_false]
  rfl

/-- A connection in `SYN_SENT` takes the acknowledgement of its SYN, with the peer's SYN: the
receiver learns the peer's ISN, the sender takes the ackno and window, and an empty segment
acknowledges the peer's SYN. -/
theorem connect_segmentReceived_synAck (cfg : TCPConfig) (randomIsn : WrappingInt32) {seg : TCPSegment}
    (hsyn : seg.header.syn = true) (hack : seg.header.ack = true) (hrst : seg.header.rst = false)
    (hp : seg.payload = []) (hf : seg.header.fin = false)
    (ha : seg.header.ackno = wrap (UInt64.ofNat 1) (cfg.fixedIsn.getD randomIsn)) :
    (init cfg randomIsn).connect.segmentReceived seg =
      let c := (init cfg randomIsn).connect
      { c with receiver := { c.receiver with senderIsn := some seg.header.seqno },
               sender := (c.sender.ackReceived seg.header.ackno seg.header.win).sendEmptySegment
        }.sendOutboundSegments := by
  have hlen : seg.lengthInSequenceSpace = 1 := by simp [TCPSegment.lengthInSequenceSpace, hsyn, hp, hf]
  unfold segmentReceived
  dsimp only
  rw [TCPReceiver.segmentReceived_of_empty _ _ rfl hp hf,
    TCPSender.fillWindow_ackReceived_of_outstanding ?syn ?ack, TCPSender.ackReceived_of_outstanding ?syn ?ack]
  case ack => exact ha
  case syn => exact ⟨rfl, rfl, le_rfl, rfl, rfl, rfl, by norm_num, ByteStream.inv_init _, rfl, .inl rfl⟩
  rw [hsyn, hrst, hack, hp, hlen]
  rfl

/-- A connection whose sender has one segment outstanding and nothing more to send takes a
bare acknowledgement of that segment that its receiver ignores: only the sender changes, and
nothing goes out. -/
theorem segmentReceived_ack_of_outstanding {c : TCPConnection} {out seg : TCPSegment} {n : Nat}
    (hrecv : c.receiver.segmentReceived seg = c.receiver) (hlisten : c.receiver.inListen = false)
    (hS : c.sender.Outstanding out n) (hout : c.sender.segmentsOut = [])
    (hlinger : c.receiver.streamOut.eof = false ∨ c.sender.stream.eof = true)
    (hsyn : seg.header.syn = false) (hack : seg.header.ack = true) (hrst : seg.header.rst = false)
    (hp : seg.payload = []) (hf : seg.header.fin = false)
    (ha : seg.header.ackno = wrap (UInt64.ofNat (n + 1)) c.sender.isn) :
    c.segmentReceived seg =
      { c with sender := c.sender.ackReceived seg.header.ackno seg.header.win,
               timeSinceLastSegmentReceived := 0 }.checkDone := by
  have hlen : seg.lengthInSequenceSpace = 0 := by simp [TCPSegment.lengthInSequenceSpace, hsyn, hp, hf]
  have hl : ¬(c.receiver.streamOut.eof = true ∧ c.sender.stream.eof = false) := by
    rcases hlinger with h | h <;> simp [h]
  unfold segmentReceived
  dsimp only
  rw [hrecv, TCPSender.fillWindow_ackReceived_of_outstanding hS ha, TCPSender.ackReceived_of_outstanding hS ha]
  simp [hrst, hsyn, hack, hp, hlen, hlisten, hout, hS.nextSeqno, TCPSender.nextSeqnoAbsolute,
    sendOutboundSegments, hl]

/-- `connect()` sends one SYN at the ISN and enters `SYN_SENT`. -/
theorem connect_spec (cfg : TCPConfig) (randomIsn : WrappingInt32) :
    (∃ win, (init cfg randomIsn).connect.segmentsOut =
      [{ header := { seqno := cfg.fixedIsn.getD randomIsn, syn := true, win } }]) ∧
    (init cfg randomIsn).connect.state = TCPState.ofState .synSent := by
  refine ⟨⟨_, by rw [← wrap_zero (cfg.fixedIsn.getD randomIsn)]; rfl⟩, rfl⟩

/-- A listening connection answers any SYN without payload or FIN with one SYN/ACK: its own
ISN, the peer's ISN plus one as ackno. It enters `SYN_RCVD`. -/
theorem segmentReceived_listen_syn_spec (cfg : TCPConfig) (randomIsn : WrappingInt32) (seg : TCPSegment)
    (hsyn : seg.header.syn = true) (hrst : seg.header.rst = false) (hp : seg.payload = [])
    (hf : seg.header.fin = false) :
    (∃ win, ((init cfg randomIsn).segmentReceived seg).segmentsOut =
      [{ header := { seqno := cfg.fixedIsn.getD randomIsn, ackno := wrap (UInt64.ofNat 1) seg.header.seqno,
                     ack := true, syn := true, win } }]) ∧
    ((init cfg randomIsn).segmentReceived seg).state = TCPState.ofState .synRcvd := by
  rw [segmentReceived_listen_syn cfg randomIsn hsyn hrst hp hf]
  refine ⟨⟨_, by rw [← wrap_zero (cfg.fixedIsn.getD randomIsn)]; rfl⟩, rfl⟩

/-- A connection in `SYN_SENT` that receives a SYN/ACK of its ISN plus one answers with one
empty ACK of the peer's ISN plus one and enters `ESTABLISHED`. -/
theorem connect_segmentReceived_synAck_spec (cfg : TCPConfig) (randomIsn : WrappingInt32) (seg : TCPSegment)
    (hsyn : seg.header.syn = true) (hack : seg.header.ack = true) (hrst : seg.header.rst = false)
    (hp : seg.payload = []) (hf : seg.header.fin = false)
    (ha : seg.header.ackno = wrap (UInt64.ofNat 1) (cfg.fixedIsn.getD randomIsn)) :
    (∃ win, ((init cfg randomIsn).connect.segmentReceived seg).segmentsOut =
      (init cfg randomIsn).connect.segmentsOut ++
        [{ header := { seqno := wrap (UInt64.ofNat 1) (cfg.fixedIsn.getD randomIsn),
                       ackno := wrap (UInt64.ofNat 1) seg.header.seqno, ack := true, win } }]) ∧
    ((init cfg randomIsn).connect.segmentReceived seg).state = TCPState.ofState .established := by
  rw [connect_segmentReceived_synAck cfg randomIsn hsyn hack hrst hp hf ha]
  dsimp only
  rw [TCPSender.ackReceived_of_outstanding ?syn ?ack]
  case ack => exact ha
  case syn => exact ⟨rfl, rfl, le_rfl, rfl, rfl, rfl, by norm_num, ByteStream.inv_init _, rfl, .inl rfl⟩
  exact ⟨⟨_, rfl⟩, rfl⟩

/-- A connection in `SYN_RCVD` that receives a bare ACK of its ISN plus one sends nothing and
enters `ESTABLISHED`. -/
theorem segmentReceived_synRcvd_ack_spec (cfg : TCPConfig) (randomIsn : WrappingInt32) (syn seg : TCPSegment)
    (hsyn : syn.header.syn = true) (hrst : syn.header.rst = false) (hp : syn.payload = [])
    (hf : syn.header.fin = false)
    (hsyn' : seg.header.syn = false) (hack' : seg.header.ack = true) (hrst' : seg.header.rst = false)
    (hp' : seg.payload = []) (hf' : seg.header.fin = false)
    (ha' : seg.header.ackno = wrap (UInt64.ofNat 1) (cfg.fixedIsn.getD randomIsn)) :
    (((init cfg randomIsn).segmentReceived syn).segmentReceived seg).segmentsOut =
      ((init cfg randomIsn).segmentReceived syn).segmentsOut ∧
    (((init cfg randomIsn).segmentReceived syn).segmentReceived seg).state =
      TCPState.ofState .established := by
  rw [segmentReceived_listen_syn cfg randomIsn hsyn hrst hp hf]
  dsimp only
  rw [init_sender_fillWindow]
  dsimp only
  rw [segmentReceived_ack_of_outstanding ?recv ?listen ?syn ?out ?linger hsyn' hack' hrst' hp' hf' ?ack,
    TCPSender.ackReceived_of_outstanding ?syn ?ack]
  case recv =>
    rw [TCPReceiver.segmentReceived_of_empty _ _ rfl hp' hf', hsyn']
    rfl
  case listen | out => rfl
  case linger => exact .inl rfl
  case ack => exact ha'
  case syn => exact ⟨rfl, rfl, le_rfl, rfl, rfl, rfl, by norm_num, ByteStream.inv_init _, rfl, .inl rfl⟩
  exact ⟨rfl, rfl⟩

/-- **The three-way handshake.** Two fresh connections, with any configurations and ISNs:
`A` connects and each segment is delivered once. `A` sends a SYN at its ISN, `B` answers with
a SYN/ACK at its own ISN acknowledging `A`'s, and `A` acknowledges it with an empty segment.
`A` goes through `SYN_SENT`, `B` through `SYN_RCVD`, both end `ESTABLISHED`, no other segment
is sent, and the network can reach the pair. -/
theorem handshake (cfgA cfgB : TCPConfig) (randomA randomB : WrappingInt32) :
    let isnA : WrappingInt32 := cfgA.fixedIsn.getD randomA
    let isnB : WrappingInt32 := cfgB.fixedIsn.getD randomB
    ∃ synA synAck ackA : TCPSegment,
      let a₁ : TCPConnection := (init cfgA randomA).connect
      let b₁ : TCPConnection := (init cfgB randomB).segmentReceived synA
      let a₂ : TCPConnection := a₁.segmentReceived synAck
      let b₂ : TCPConnection := b₁.segmentReceived ackA
      Net a₂ b₂ ∧
      a₁.segmentsOut = [synA] ∧ b₁.segmentsOut = [synAck] ∧
      a₂.segmentsOut = [synA, ackA] ∧ b₂.segmentsOut = [synAck] ∧
      (synA.header.syn = true ∧ synA.header.ack = false ∧ synA.header.seqno = isnA) ∧
      (synAck.header.syn = true ∧ synAck.header.ack = true ∧ synAck.header.seqno = isnB ∧
        synAck.header.ackno = wrap (UInt64.ofNat 1) isnA) ∧
      (ackA.header.syn = false ∧ ackA.header.ack = true ∧ ackA.header.seqno = wrap (UInt64.ofNat 1) isnA ∧
        ackA.header.ackno = wrap (UInt64.ofNat 1) isnB) ∧
      (∀ seg ∈ [synA, synAck, ackA], seg.payload = [] ∧ seg.header.rst = false ∧ seg.header.fin = false) ∧
      a₁.state = .ofState .synSent ∧ b₁.state = .ofState .synRcvd ∧
      a₂.state = .ofState .established ∧ b₂.state = .ofState .established := by
  intro isnA isnB
  obtain ⟨⟨winA, hA₁⟩, hsA₁⟩ := connect_spec cfgA randomA
  let synA : TCPSegment := { header := { seqno := isnA, syn := true, win := winA } }
  obtain ⟨⟨winB, hB₁⟩, hsB₁⟩ := segmentReceived_listen_syn_spec cfgB randomB synA rfl rfl rfl rfl
  let synAck : TCPSegment :=
    { header := { seqno := isnB, ackno := wrap (UInt64.ofNat 1) isnA, ack := true, syn := true, win := winB } }
  obtain ⟨⟨winA', hA₂⟩, hsA₂⟩ := connect_segmentReceived_synAck_spec cfgA randomA synAck rfl rfl rfl rfl rfl rfl
  let ackA : TCPSegment :=
    { header := { seqno := wrap (UInt64.ofNat 1) isnA, ackno := wrap (UInt64.ofNat 1) isnB, ack := true,
                  win := winA' } }
  obtain ⟨hB₂, hsB₂⟩ :=
    segmentReceived_synRcvd_ack_spec cfgB randomB synA ackA rfl rfl rfl rfl rfl rfl rfl rfl rfl rfl
  have n₁ : Net (init cfgA randomA).connect (init cfgB randomB) := .appA .connect (.init _ _ _ _) trivial
  have n₂ := Net.deliverB synA n₁ (by rw [hA₁]; exact List.mem_singleton_self _)
  have n₃ := Net.deliverA synAck n₂ (by rw [hB₁]; exact List.mem_singleton_self _)
  have n₄ := Net.deliverB ackA n₃ (by rw [hA₂]; exact List.mem_append_right _ (List.mem_singleton_self _))
  refine ⟨synA, synAck, ackA, n₄, hA₁, hB₁, by rw [hA₂, hA₁]; rfl, by rw [hB₂, hB₁], ⟨rfl, rfl, rfl⟩,
    ⟨rfl, rfl, rfl, rfl⟩, ⟨rfl, rfl, rfl, rfl⟩, by simp [synA, synAck, ackA], hsA₁, hsB₁, hsA₂, hsB₂⟩

end TCPConnection

end Sponge
