import Sponge.TCPConnection
import Sponge.Reassembler.Run
import Sponge.Sender.Fidelity

/-!
How a connection ends.

`active()` is computed each time, not latched: it reads `_done()`, the linger flag and
the time since the last segment. A reset is final: both streams fail, the connection
stops lingering, no operation clears either, and `active()` stays false whatever
happens next (`reset_stays_inactive`).

The other ways out are not. `_done()` and the linger decision read `eof()` of the
inbound stream, which needs the application to have read every byte: a connection whose
peer has finished stays active while an inbound byte is unread
(`shutdown_waits_for_reads`). A segment resets the time since the last segment, so a
connection whose linger time ran out is active again when one more arrives
(`linger_expiry_revived`). And `state()` can leave the official states: a SYN carrying
a FIN in `LISTEN` gives a receiver that has the FIN beside a sender in `SYN_SENT`
(`syn_fin_unofficial`).
-/

namespace Sponge

/-! ## No operation clears a stream's error -/

namespace StreamReassembler

@[simp] theorem closeInput_error (r : StreamReassembler) : r.closeInput.output.error = r.output.error := by
  unfold closeInput; split <;> rfl

@[simp] theorem pushSubstring_error (r : StreamReassembler) (data : List UInt8) (index : Nat) (eof : Bool) :
    (r.pushSubstring data index eof).output.error = r.output.error := by
  unfold pushSubstring
  split_ifs <;> simp

end StreamReassembler

@[simp] theorem TCPReceiver.segmentReceived_error (r : TCPReceiver) (seg : TCPSegment) :
    (r.segmentReceived seg).streamOut.error = r.streamOut.error := by
  unfold TCPReceiver.segmentReceived TCPReceiver.streamOut
  dsimp only
  split_ifs <;> (try split) <;> (try split_ifs) <;> simp

namespace TCPSender

@[simp] theorem fillWindow_stream_error (s : TCPSender) : s.fillWindow.stream.error = s.stream.error :=
  fillWindow_preserves (fun t => t.stream.error = s.stream.error) (fun _ _ h => by simpa using h)
    (fun _ _ h => by simpa using h) (fun _ h => h) rfl

@[simp] theorem ackReceived_stream_error (s : TCPSender) (ackno : WrappingInt32) (win : UInt16) :
    (s.ackReceived ackno win).stream.error = s.stream.error := by
  rw [ackReceived_eq]
  cases s.ackEnd ackno <;> simp

@[simp] theorem tick_stream (s : TCPSender) (ms : Nat) : (s.tick ms).stream = s.stream :=
  (tick_frame s ms).2.1

@[simp] theorem sendEmptySegment_stream (s : TCPSender) : s.sendEmptySegment.stream = s.stream :=
  send_stream _ _

end TCPSender

namespace TCPConnection

variable {c : TCPConnection}

/-! ## A reset is final -/

/-- A connection after `_reset`: both streams failed and it does not linger. -/
structure Dead (c : TCPConnection) : Prop where
  inbound_error : c.receiver.streamOut.error = true
  outbound_error : c.sender.stream.error = true
  no_linger : c.lingerAfterStreamsFinish = false

theorem Dead.done (h : Dead c) : c.done = true := by
  simp [TCPConnection.done, h.inbound_error, h.outbound_error]

theorem Dead.active (h : Dead c) : c.active = false := by
  simp [TCPConnection.active, h.done, h.no_linger]

/-- What a step must keep for the connection to stay dead. -/
theorem Dead.of_frame (h : Dead c) {c' : TCPConnection}
    (hi : c'.receiver.streamOut.error = c.receiver.streamOut.error)
    (ho : c'.sender.stream.error = c.sender.stream.error)
    (hl : c'.lingerAfterStreamsFinish = true → c.lingerAfterStreamsFinish = true) : Dead c' where
  inbound_error := hi.trans h.inbound_error
  outbound_error := ho.trans h.outbound_error
  no_linger := by
    cases hc : c'.lingerAfterStreamsFinish
    · rfl
    · simpa [h.no_linger] using hl hc

theorem dead_reset (c : TCPConnection) (sendRst : Bool) : Dead (c.reset sendRst) := by
  unfold reset
  split <;> exact ⟨by simp [TCPReceiver.streamOut], by simp, rfl⟩

theorem Dead.sendOutboundSegments (h : Dead c) : Dead c.sendOutboundSegments :=
  h.of_frame rfl rfl id

theorem Dead.checkDone (h : Dead c) : Dead c.checkDone :=
  h.of_frame (by simp) (by simp) (by simp)

theorem Dead.segmentReceived (h : Dead c) (seg : TCPSegment) : Dead (c.segmentReceived seg) := by
  rcases segmentReceived_cases c seg with e | e | ⟨s₂, s₃, l, hs₂, hs₃, hl, e⟩ <;> rw [e]
  · exact h.of_frame rfl rfl id
  · exact dead_reset _ _
  -- the receiver and the sender's operations keep the errors, and the linger flag can
  -- only be cleared
  · have ho : s₃.stream.error = c.sender.stream.error :=
      answer_preserves (P := fun s => s.stream.error = c.sender.stream.error) hs₂ hs₃ rfl (by simp)
        (by simp +contextual) (by simp +contextual)
    refine h.of_frame (by simp) (by simpa using ho) ?_
    rcases hl with rfl | rfl <;> simp

theorem Dead.step (h : Dead c) (e : Event) : Dead (c.step e) := by
  cases e with
  | connect =>
    exact h.of_frame (by simp [TCPConnection.step, connect]) (by simp [TCPConnection.step, connect])
      (by simp [TCPConnection.step, connect])
  | write data =>
    exact h.of_frame (by simp [TCPConnection.step, write])
      (by simp [TCPConnection.step, write, TCPSender.streamInWrite]) (by simp [TCPConnection.step, write])
  | endInputStream =>
    exact h.of_frame (by simp [TCPConnection.step, endInputStream])
      (by simp [TCPConnection.step, endInputStream]) (by simp [TCPConnection.step, endInputStream])
  | tick ms =>
    unfold TCPConnection.step TCPConnection.tick
    dsimp only
    -- past the retransmission limit the connection is reset again
    split
    · exact (dead_reset _ _).sendOutboundSegments.checkDone
    · exact h.of_frame (by simp) (by simp) (by simp)
  | read len =>
    exact h.of_frame (by simp [TCPConnection.step, readInbound, TCPReceiver.streamOut,
      StreamReassembler.popOutput]) rfl id
  | segmentReceived seg => exact h.segmentReceived seg

/-- By induction on the events, one `Dead.step` at a time. -/
theorem Dead.run (h : Dead c) (events : List Event) : Dead (c.run events) := by
  induction events generalizing c with
  | nil => exact h
  | cons e events ih => exact ih (h.step e)

/-- **A reset connection stays dead.** After `_reset`, sent or received, `active()` is
false after any sequence of calls. -/
theorem reset_stays_inactive (c : TCPConnection) (sendRst : Bool) (events : List Event) :
    ((c.reset sendRst).run events).active = false :=
  ((dead_reset c sendRst).run events).active

/-! ## Shutdown waits on the application and on the clock -/

/-- The peer finishes first and its last byte stays unread. After the handshake the peer
sends one byte with its FIN, which is assembled: the inbound stream has ended while the
outbound one has not, so the connection should not linger. The application then ends its
stream, and the FIN is acknowledged. The connection is in `TIME_WAIT`, lingering and
active, with the byte still buffered, and it is still there 100 s later: `_done()` waits
for the inbound stream's `eof()`, which waits for a read. -/
theorem shutdown_waits_for_reads :
    ((init { fixedIsn := some ⟨0⟩ } ⟨0⟩).run [.connect,
        .segmentReceived { header := { seqno := ⟨0⟩, syn := true, ack := true, ackno := ⟨1⟩, win := 10 } },
        .segmentReceived { payload := [120],
                           header := { seqno := ⟨1⟩, fin := true, ack := true, ackno := ⟨1⟩, win := 10 } },
        .endInputStream,
        .segmentReceived { header := { seqno := ⟨3⟩, ack := true, ackno := ⟨2⟩, win := 10 } }]).state =
      TCPState.ofState .timeWait ∧
    ((init { fixedIsn := some ⟨0⟩ } ⟨0⟩).run [.connect,
        .segmentReceived { header := { seqno := ⟨0⟩, syn := true, ack := true, ackno := ⟨1⟩, win := 10 } },
        .segmentReceived { payload := [120],
                           header := { seqno := ⟨1⟩, fin := true, ack := true, ackno := ⟨1⟩, win := 10 } },
        .endInputStream,
        .segmentReceived { header := { seqno := ⟨3⟩, ack := true, ackno := ⟨2⟩, win := 10 } }]).inboundStream.bufferSize = 1 ∧
    ((init { fixedIsn := some ⟨0⟩ } ⟨0⟩).run [.connect,
        .segmentReceived { header := { seqno := ⟨0⟩, syn := true, ack := true, ackno := ⟨1⟩, win := 10 } },
        .segmentReceived { payload := [120],
                           header := { seqno := ⟨1⟩, fin := true, ack := true, ackno := ⟨1⟩, win := 10 } },
        .endInputStream,
        .segmentReceived { header := { seqno := ⟨3⟩, ack := true, ackno := ⟨2⟩, win := 10 } },
        .tick 100000]).active = true := by
  decide

/-- A connection whose linger time ran out comes back. It ends its stream first, and the
peer's FIN arrives with the acknowledgement of its own: the connection lingers, done at
time 0. After `10 * rt_timeout` ms it is no longer active; a retransmission of the peer's
FIN then resets the time since the last segment to 0, and it is active again. -/
theorem linger_expiry_revived :
    ((init { fixedIsn := some ⟨0⟩ } ⟨0⟩).run [.connect,
        .segmentReceived { header := { seqno := ⟨0⟩, syn := true, ack := true, ackno := ⟨1⟩, win := 10 } },
        .endInputStream,
        .segmentReceived { header := { seqno := ⟨1⟩, fin := true, ack := true, ackno := ⟨2⟩, win := 10 } },
        .tick 10000]).active = false ∧
    ((init { fixedIsn := some ⟨0⟩ } ⟨0⟩).run [.connect,
        .segmentReceived { header := { seqno := ⟨0⟩, syn := true, ack := true, ackno := ⟨1⟩, win := 10 } },
        .endInputStream,
        .segmentReceived { header := { seqno := ⟨1⟩, fin := true, ack := true, ackno := ⟨2⟩, win := 10 } },
        .tick 10000,
        .segmentReceived { header := { seqno := ⟨1⟩, fin := true, ack := true, ackno := ⟨2⟩, win := 10 } }]).active =
      true := by
  decide

/-! ## The summary can leave the official states -/

/-- A SYN carrying a FIN in `LISTEN`: the receiver takes both, so its stream ends, and the
sender answers with its SYN. The summary pairs a receiver that has the FIN with a sender
in `SYN_SENT`, which no official state does. -/
theorem syn_fin_unofficial :
    ¬ TCPState.IsOfficial ((init { fixedIsn := some ⟨0⟩ } ⟨0⟩).segmentReceived
      { header := { seqno := ⟨0⟩, syn := true, fin := true } }).state := by
  generalize hc : (init { fixedIsn := some ⟨0⟩ } ⟨0⟩).segmentReceived
    { header := { seqno := ⟨0⟩, syn := true, fin := true } } = c
  have hr : c.state.receiver = .finRecv := by subst hc; decide
  have hs : c.state.sender = .synSent := by subst hc; decide
  intro ho
  rcases TCPState.sender_of_finRecv ho hr with h | h | h <;> rw [hs] at h <;> cases h

end TCPConnection

end Sponge
