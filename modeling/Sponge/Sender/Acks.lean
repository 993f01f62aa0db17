import Sponge.Sender.FillWindow

/-!
Acknowledgements at the sender.

`ack_received` takes any ackno past the last accepted one and up to the right edge
(`ackReceived_window`): it becomes the last accepted ackno and sets the right edge,
whether or not the sender has sent that far. Only an ackno past the right edge is
ignored, so an ackno between `next_seqno_absolute()` and the right edge, for bytes
never sent, is taken (`ackno_past_next_accepted`).
-/

namespace Sponge

namespace TCPSender

/-- An ackno past the last accepted one and within the right edge is accepted, and the
right edge follows it by the window, a zero window counting as one. -/
theorem ackReceived_window (s : TCPSender) (ackno : WrappingInt32) (win : UInt16)
    (hleft : s.receiverWindowLeft < (unwrap ackno s.isn (UInt64.ofNat s.receiverWindowLeft)).toNat)
    (hright : (unwrap ackno s.isn (UInt64.ofNat s.receiverWindowLeft)).toNat ≤ s.receiverWindowRight) :
    (s.ackReceived ackno win).receiverWindowLeft =
        (unwrap ackno s.isn (UInt64.ofNat s.receiverWindowLeft)).toNat ∧
      (s.ackReceived ackno win).receiverWindowRight =
        (unwrap ackno s.isn (UInt64.ofNat s.receiverWindowLeft)).toNat + if win = 0 then 1 else win.toNat := by
  unfold ackReceived
  dsimp only
  rw [if_neg (by omega), if_pos hleft, (fillWindow_frame _).2.1, (fillWindow_frame _).2.2]
  -- the window update itself; the timer and the outstanding segments do not touch it
  constructor
  · split <;> rfl
  · split <;> simp_all [beq_iff_eq]

/-- After the SYN is acknowledged with a window of 1000, an ackno of 5 is accepted though
only the SYN was ever sent: the last accepted ackno moves from 1 to 5, past
`next_seqno_absolute()` = 1, and the right edge from 1001 to 1005. -/
theorem ackno_past_next_accepted :
    (((init 100 1000 (some ⟨0⟩) ⟨0⟩).fillWindow).ackReceived ⟨1⟩ 1000).nextSeqno = 1 ∧
    (((init 100 1000 (some ⟨0⟩) ⟨0⟩).fillWindow).ackReceived ⟨1⟩ 1000).receiverWindowLeft = 1 ∧
    (((init 100 1000 (some ⟨0⟩) ⟨0⟩).fillWindow).ackReceived ⟨1⟩ 1000).receiverWindowRight = 1001 ∧
    ((((init 100 1000 (some ⟨0⟩) ⟨0⟩).fillWindow).ackReceived ⟨1⟩ 1000).ackReceived ⟨5⟩ 1000).nextSeqno = 1 ∧
    ((((init 100 1000 (some ⟨0⟩) ⟨0⟩).fillWindow).ackReceived ⟨1⟩ 1000).ackReceived ⟨5⟩ 1000).receiverWindowLeft = 5 ∧
    ((((init 100 1000 (some ⟨0⟩) ⟨0⟩).fillWindow).ackReceived ⟨1⟩ 1000).ackReceived ⟨5⟩ 1000).receiverWindowRight = 1005 := by
  decide

/-- The same ackno again sets the right edge from the new window, wherever the sender has
got to, and sends nothing. -/
theorem ackReceived_same_ackno (s : TCPSender) (ackno : WrappingInt32) (win : UInt16)
    (hsame : (unwrap ackno s.isn (UInt64.ofNat s.receiverWindowLeft)).toNat = s.receiverWindowLeft)
    (hle : s.receiverWindowLeft ≤ s.receiverWindowRight) :
    (s.ackReceived ackno win).receiverWindowRight = s.receiverWindowLeft + (if win = 0 then 1 else win.toNat) ∧
      (s.ackReceived ackno win).nextSeqno = s.nextSeqno ∧
      (s.ackReceived ackno win).segmentsOut = s.segmentsOut := by
  unfold ackReceived
  dsimp only
  rw [if_neg (by omega), if_neg (by omega), if_pos hsame]
  refine ⟨?_, rfl, rfl⟩
  split <;> simp_all [beq_iff_eq]

/-- With the right edge behind `next_seqno_absolute()`, the remaining window wraps as a
`uint64_t` and the loop may send a whole `MAX_PAYLOAD_SIZE`. -/
theorem payloadLenLimit_of_lt {s : TCPSender} (h : s.receiverWindowRight < s.nextSeqno)
    (h64 : s.nextSeqno - s.receiverWindowRight ≤ 2 ^ 64 - TCPConfig.maxPayloadSize) :
    s.payloadLenLimit = TCPConfig.maxPayloadSize := by
  have hmax : TCPConfig.maxPayloadSize = 1000 := rfl
  rw [payloadLenLimit, Word.sub_of_lt h (by omega)]
  omega

/-- A repeated ackno with a smaller window sends the sender past the right edge. The SYN is
acknowledged with a window of 4 and `"abcd"` fills it, up to 5; the same ackno then comes
with a window of 0, and the right edge goes back to 2. After `"e"` is written,
`fill_window` finds `2 - 5` to spare and sends it at 5: `next_seqno_absolute()` goes to 6,
past both 5 and the right edge. -/
theorem fill_window_past_right_edge :
    let s : TCPSender := ((((init 10 1000 (some ⟨0⟩) ⟨0⟩).fillWindow.ackReceived ⟨1⟩ 4).streamInWrite
      [97, 98, 99, 100]).fillWindow.ackReceived ⟨1⟩ 0).streamInWrite [101]
    s.inClosed = false ∧ s.receiverWindowLeft = 1 ∧ s.receiverWindowRight = 2 ∧ s.nextSeqno = 5 ∧
      max s.nextSeqno s.receiverWindowRight < s.fillWindow.nextSeqno := by
  decide

/-- An acknowledgement of the ISN alone opens the window before the SYN is acknowledged.
After the SYN, `"abc"` is written; an ackno equal to the ISN, absolute 0, is the last
accepted ackno again, so it sets the right edge to 10; `fill_window` then sends `"abc"` at
1 while the last accepted ackno is still 0. -/
theorem payload_before_syn_acked :
    let s : TCPSender := ((init 10 1000 (some ⟨0⟩) ⟨0⟩).fillWindow.streamInWrite [97, 98, 99]).ackReceived ⟨0⟩ 10
    (unwrap ⟨0⟩ s.isn (UInt64.ofNat 0)).toNat = 0 ∧ s.fillWindow.receiverWindowLeft = 0 ∧
      ∃ seg ∈ s.fillWindow.segmentsOut, seg.payload = [97, 98, 99] := by
  decide

end TCPSender

end Sponge
