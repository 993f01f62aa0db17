import Sponge.TCPReceiver
import Sponge.TCPSender

/-!
The connection summary of `tcp_helpers/tcp_state.{hh,cc}`.

A `TCPState` is the sender's and the receiver's summary with the two flags of the
connection. The summaries are the string constants of `TCPSenderStateSummary` and
`TCPReceiverStateSummary`, here enumerations; the twelve official states are
`TCPState.State`, each with the summary `ofState` gives it.
-/

namespace Sponge

/-- `TCPReceiverStateSummary`. -/
inductive ReceiverSummary
  | error | listen | synRecv | finRecv
  deriving DecidableEq, Repr

/-- `TCPSenderStateSummary`. -/
inductive SenderSummary
  | error | closed | synSent | synAcked | finSent | finAcked
  deriving DecidableEq, Repr

/-- `TCPState`; two states are equal when all four fields are. -/
structure TCPState where
  sender : SenderSummary
  receiver : ReceiverSummary
  active : Bool := true
  lingerAfterStreamsFinish : Bool := true
  deriving DecidableEq, Repr

namespace TCPState

/-- `TCPState::State`, the official states. -/
inductive State
  | listen | synRcvd | synSent | established | closeWait | lastAck
  | finWait1 | finWait2 | closing | timeWait | closed | reset
  deriving DecidableEq, Repr

/-- The list of all twelve official states. -/
def State.all : List State :=
  [.listen, .synRcvd, .synSent, .established, .closeWait, .lastAck,
   .finWait1, .finWait2, .closing, .timeWait, .closed, .reset]

theorem State.mem_all (st : State) : st ∈ State.all := by
  cases st <;> decide

/-- `TCPState(State)`. -/
def ofState : State → TCPState
  | .listen => { receiver := .listen, sender := .closed }
  | .synRcvd => { receiver := .synRecv, sender := .synSent }
  | .synSent => { receiver := .listen, sender := .synSent }
  | .established => { receiver := .synRecv, sender := .synAcked }
  | .closeWait => { receiver := .finRecv, sender := .synAcked, lingerAfterStreamsFinish := false }
  | .lastAck => { receiver := .finRecv, sender := .finSent, lingerAfterStreamsFinish := false }
  | .closing => { receiver := .finRecv, sender := .finSent }
  | .finWait1 => { receiver := .synRecv, sender := .finSent }
  | .finWait2 => { receiver := .synRecv, sender := .finAcked }
  | .timeWait => { receiver := .finRecv, sender := .finAcked }
  | .reset => { receiver := .error, sender := .error, lingerAfterStreamsFinish := false,
                active := false }
  | .closed => { receiver := .finRecv, sender := .finAcked, lingerAfterStreamsFinish := false,
                 active := false }

/-- `state_summary(receiver)`. -/
def receiverSummary (receiver : TCPReceiver) : ReceiverSummary :=
  if receiver.streamOut.error then .error
  else if receiver.ackno.isNone then .listen
  else if receiver.streamOut.inputEnded then .finRecv
  else .synRecv

/-- `state_summary(sender)`. -/
def senderSummary (sender : TCPSender) : SenderSummary :=
  if sender.stream.error then .error
  else if sender.nextSeqnoAbsolute = 0 then .closed
  else if sender.nextSeqnoAbsolute = sender.bytesInFlight then .synSent
  else if !sender.stream.eof then .synAcked
  else if sender.nextSeqnoAbsolute < sender.stream.bytesWritten + 2 then .synAcked
  else if sender.bytesInFlight ≠ 0 then .finSent
  else .finAcked

/-- `TCPState(sender, receiver, active, linger)`: an inactive connection does not
linger. -/
def ofConnection (sender : TCPSender) (receiver : TCPReceiver) (active linger : Bool) : TCPState :=
  { sender := senderSummary sender, receiver := receiverSummary receiver, active,
    lingerAfterStreamsFinish := if active then linger else false }

/-- Whether a summary is one of the twelve official states. -/
def IsOfficial (t : TCPState) : Prop := ∃ st, ofState st = t

instance (t : TCPState) : Decidable (IsOfficial t) :=
  decidable_of_iff (∃ st ∈ State.all, ofState st = t)
    ⟨fun ⟨st, _, h⟩ => ⟨st, h⟩, fun ⟨st, h⟩ => ⟨st, State.mem_all st, h⟩⟩

/-- In an official state whose receiver has seen the FIN, the sender is past
`SYN_SENT`. -/
theorem sender_of_finRecv {t : TCPState} (ht : IsOfficial t) (hr : t.receiver = .finRecv) :
    t.sender = .synAcked ∨ t.sender = .finSent ∨ t.sender = .finAcked := by
  obtain ⟨st, rfl⟩ := ht
  cases st <;> simp_all [ofState]

/-- The summary of a sender whose stream ended before its SYN was acknowledged. An ack of the
ISN acknowledges nothing but opens a window of 10, and `fill_window` sends the FIN right after
the SYN: both are out, neither is acknowledged (the ackno is still 0), and since every sequence
number sent is in flight the summary is `SYN_SENT`, not `FIN_SENT`. -/
theorem fin_before_syn_acked_summary :
    let s : TCPSender :=
      (((TCPSender.init 10 1000 (some ⟨0⟩) ⟨0⟩).fillWindow.streamInEndInput).ackReceived ⟨0⟩ 10).fillWindow
    (∃ seg ∈ s.segmentsOut, seg.header.syn = true) ∧ (∃ seg ∈ s.segmentsOut, seg.header.fin = true) ∧
      s.receiverWindowLeft = 0 ∧ s.nextSeqno = 2 ∧ senderSummary s = .synSent := by
  decide

end TCPState

end Sponge
