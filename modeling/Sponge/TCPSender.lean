import Sponge.ByteStream
import Sponge.TCPSegment
import Sponge.Lib.Word

/-!
The TCP sender of `tcp_sender.{hh,cc}`, with its `RetransmissionTimer` and
`TCPSegmentBuilder`.

Absolute sequence numbers and the window edges are naturals; the one `uint64_t`
subtraction that can wrap, the remaining window of `fill_window`, is `Word.sub 64`,
and the doubling of the `unsigned int` timeout and the count of retransmissions, also an
`unsigned int`, are taken modulo `2^32`. The loop of
`fill_window` runs on fuel: each pass that does not end the loop reads a byte of the
stream or sends the FIN, so `bufferSize + 1` passes are all the loop can make
(`fillLoop_succ`).
Queues are lists, pushed at the end.
-/

namespace Sponge

/-- `RetransmissionTimer`. -/
structure RetransmissionTimer where
  timeout : Nat := 0
  timeElapsed : Nat := 0
  running : Bool := false
  deriving DecidableEq, Repr

namespace RetransmissionTimer

def reset (_t : RetransmissionTimer) (timeout : Nat) : RetransmissionTimer :=
  { timeout, timeElapsed := 0, running := false }

def start (t : RetransmissionTimer) (timeout : Nat) : RetransmissionTimer :=
  { t.reset timeout with running := true }

/-- `timeout()`: running, and the time elapsed has reached the timeout. -/
def timedOut (t : RetransmissionTimer) : Bool := t.running && decide (t.timeElapsed ≥ t.timeout)

def tick (t : RetransmissionTimer) (msSinceLastTick : Nat) : RetransmissionTimer :=
  if t.running then { t with timeElapsed := t.timeElapsed + msSinceLastTick } else t

def stop (t : RetransmissionTimer) : RetransmissionTimer := { t with running := false }

@[simp] theorem tick_running (t : RetransmissionTimer) (ms : Nat) : (t.tick ms).running = t.running := by
  unfold tick; split <;> rfl
@[simp] theorem start_running (t : RetransmissionTimer) (timeout : Nat) : (t.start timeout).running = true :=
  rfl
@[simp] theorem stop_running (t : RetransmissionTimer) : t.stop.running = false := rfl

end RetransmissionTimer

/-- `TCPSegmentBuilder`, with the setters the sender uses. -/
structure TCPSegmentBuilder where
  ack : Bool := false
  rst : Bool := false
  syn : Bool := false
  fin : Bool := false
  seqno : WrappingInt32 := ⟨0⟩
  ackno : WrappingInt32 := ⟨0⟩
  data : List UInt8 := []
  deriving DecidableEq, Repr

namespace TCPSegmentBuilder

def withSyn (b : TCPSegmentBuilder) : TCPSegmentBuilder := { b with syn := true }

def withFin (b : TCPSegmentBuilder) : TCPSegmentBuilder := { b with fin := true }

def withSeqno (b : TCPSegmentBuilder) (seqno : WrappingInt32) : TCPSegmentBuilder := { b with seqno }

def withData (b : TCPSegmentBuilder) (data : List UInt8) : TCPSegmentBuilder := { b with data }

def buildSegment (b : TCPSegmentBuilder) : TCPSegment :=
  { header := { ack := b.ack, fin := b.fin, syn := b.syn, rst := b.rst, ackno := b.ackno,
                seqno := b.seqno },
    payload := b.data }

end TCPSegmentBuilder

/-- `TCPSender` with its private fields. -/
structure TCPSender where
  isn : WrappingInt32
  segmentsOut : List TCPSegment := []
  initialRetransmissionTimeout : Nat
  stream : ByteStream
  nextSeqno : Nat := 0
  zeroWindowSize : Bool := false
  receiverWindowSize : Nat := 1
  /-- the last accepted ackno -/
  receiverWindowLeft : Nat := 0
  /-- the last accepted ackno plus the window -/
  receiverWindowRight : Nat := 1
  retransmissionTimeout : Nat
  segmentsPending : List TCPSegment := []
  fined : Bool := false
  timer : RetransmissionTimer := {}
  consecutiveRetransmissions : Nat := 0
  deriving DecidableEq, Repr

namespace TCPSender

/-- `TCPSender(capacity, retx_timeout, fixed_isn)`; `randomIsn` stands for the value of
`random_device` used when no ISN is fixed. -/
def init (capacity : Nat) (retxTimeout : UInt16) (fixedIsn : Option WrappingInt32)
    (randomIsn : WrappingInt32) : TCPSender :=
  { isn := fixedIsn.getD randomIsn, initialRetransmissionTimeout := retxTimeout.toNat,
    stream := ByteStream.init capacity, retransmissionTimeout := retxTimeout.toNat }

/-- `bytes_in_flight()`: the sequence space of the outstanding segments. -/
def bytesInFlight (s : TCPSender) : Nat := (s.segmentsPending.map TCPSegment.lengthInSequenceSpace).sum

def nextSeqnoAbsolute (s : TCPSender) : Nat := s.nextSeqno

/-- `next_seqno()`: the next absolute sequence number, wrapped. -/
def nextSeqnoWrapped (s : TCPSender) : WrappingInt32 := wrap (UInt64.ofNat s.nextSeqno) s.isn

def inClosed (s : TCPSender) : Bool := s.nextSeqno = 0

def inSynSent (s : TCPSender) : Bool := s.nextSeqno > 0 && s.nextSeqno = s.bytesInFlight

def inSynAcked (s : TCPSender) : Bool :=
  (s.nextSeqno > s.bytesInFlight && !s.stream.eof) ||
    (s.stream.eof && s.nextSeqno < s.stream.bytesWritten + 2)

def inFinSent (s : TCPSender) : Bool :=
  s.stream.eof && s.nextSeqno = s.stream.bytesWritten + 2 && s.bytesInFlight > 0

def inFinAcked (s : TCPSender) : Bool :=
  s.stream.eof && s.nextSeqno = s.stream.bytesWritten + 2 && s.bytesInFlight = 0

/-- `_send(builder)`: push the segment out; one that occupies sequence space is also
kept outstanding and starts the timer if it is stopped. -/
def send (s : TCPSender) (builder : TCPSegmentBuilder) : TCPSender :=
  let seg := builder.buildSegment
  let s := { s with segmentsOut := s.segmentsOut ++ [seg] }
  let s :=
    if seg.lengthInSequenceSpace > 0 then
      let s := { s with segmentsPending := s.segmentsPending ++ [seg] }
      if s.timer.running then s else { s with timer := s.timer.start s.retransmissionTimeout }
    else s
  { s with nextSeqno := s.nextSeqno + seg.lengthInSequenceSpace }

/-- One pass of the loop of `fill_window`: read up to `payload_len_limit` bytes
(`_stream.read`: a peek, then a pop) and send them, with the FIN once the stream is at
its end and the window has room for it. It returns the builder to go on with, or none
when the loop ends: its condition fails, or there is nothing to send yet (`break`).
The window is measured at the start of each pass, as the source does before the loop
and at the end of each pass. -/
def fillPass (s : TCPSender) (builder : TCPSegmentBuilder) : TCPSender × Option TCPSegmentBuilder :=
  let receiverWindowRemaining := Word.sub 64 s.receiverWindowRight s.nextSeqno
  let payloadLenLimit := min receiverWindowRemaining TCPConfig.maxPayloadSize
  if payloadLenLimit > 0 ∧ s.fined = false then
    let payload := s.stream.peekOutput payloadLenLimit
    let s := { s with stream := s.stream.popOutput payloadLenLimit }
    let builder := (builder.withSeqno s.nextSeqnoWrapped).withData payload
    if payload = [] ∧ s.stream.eof = false then (s, none)
    else if s.stream.eof = false ∧ payload ≠ [] then (s.send builder, some builder)
    else if s.stream.eof then
      if payload.length < payloadLenLimit then
        ({ s with fined := true }.send builder.withFin, some builder.withFin)
      else if receiverWindowRemaining > payloadLenLimit then
        ({ s with fined := true }.send builder.withFin, some builder.withFin)
      else (s.send builder, some builder)
    else (s, some builder)
  else (s, none)

/-- The loop of `fill_window`, on fuel. -/
def fillLoop : Nat → TCPSender → TCPSegmentBuilder → TCPSender
  | 0, s, _ => s
  | fuel + 1, s, builder =>
    match s.fillPass builder with
    | (s, some builder) => fillLoop fuel s builder
    | (s, none) => s

/-- `fill_window()`: the SYN first; then as much of the stream as the window takes. -/
def fillWindow (s : TCPSender) : TCPSender :=
  if s.inClosed then s.send (({} : TCPSegmentBuilder).withSeqno s.nextSeqnoWrapped).withSyn
  else fillLoop (s.stream.bufferSize + 1) s {}

/-- The loop of `ack_received` over the outstanding segments: drop those that end at or
before the ackno `left`. -/
def popAcked (isn : WrappingInt32) (left : Nat) : List TCPSegment → List TCPSegment
  | [] => []
  | seg :: rest =>
    if (unwrap seg.header.seqno isn (UInt64.ofNat left)).toNat + seg.lengthInSequenceSpace ≤ left then
      popAcked isn left rest
    else seg :: rest

/-- `ack_received(ackno, window_size)`. An ackno past the right edge is ignored; a new
one moves the window, resets the timeout, drops what it acknowledges and fills the
window; the same ackno again only takes the new window size. -/
def ackReceived (s : TCPSender) (ackno : WrappingInt32) (windowSize : UInt16) : TCPSender :=
  let absoluteAckno := (unwrap ackno s.isn (UInt64.ofNat s.receiverWindowLeft)).toNat
  let s := { s with zeroWindowSize := windowSize == 0 }
  if absoluteAckno > s.receiverWindowRight then s
  else if absoluteAckno > s.receiverWindowLeft then
    let size := if s.zeroWindowSize then 1 else windowSize.toNat
    let s := { s with receiverWindowSize := size, receiverWindowLeft := absoluteAckno,
                      receiverWindowRight := absoluteAckno + size,
                      retransmissionTimeout := s.initialRetransmissionTimeout,
                      consecutiveRetransmissions := 0 }
    let s := { s with segmentsPending := popAcked s.isn s.receiverWindowLeft s.segmentsPending }
    let s := if s.segmentsPending = [] then { s with timer := s.timer.stop }
      else { s with timer := s.timer.start s.retransmissionTimeout }
    s.fillWindow
  else if absoluteAckno = s.receiverWindowLeft then
    let size := if s.zeroWindowSize then 1 else windowSize.toNat
    { s with receiverWindowSize := size, receiverWindowLeft := absoluteAckno,
             receiverWindowRight := absoluteAckno + size }
  else s

/-- `tick(ms_since_last_tick)`: on expiry, retransmit the oldest outstanding segment and,
unless the window was zero, double the timeout. -/
def tick (s : TCPSender) (msSinceLastTick : Nat) : TCPSender :=
  let s := { s with timer := s.timer.tick msSinceLastTick }
  let s :=
    match s.segmentsPending with
    | seg :: _ =>
      if s.timer.timedOut then
        let s := { s with segmentsOut := s.segmentsOut ++ [seg],
                          consecutiveRetransmissions := (s.consecutiveRetransmissions + 1) % 2 ^ 32 }
        let s := if s.zeroWindowSize then s
          else { s with retransmissionTimeout := s.retransmissionTimeout * 2 % 2 ^ 32 }
        { s with timer := s.timer.start s.retransmissionTimeout }
      else s
    | [] => s
  if s.segmentsPending = [] then { s with timer := s.timer.stop } else s

/-- `send_empty_segment()`. -/
def sendEmptySegment (s : TCPSender) : TCPSender :=
  s.send (({} : TCPSegmentBuilder).withSeqno s.nextSeqnoWrapped)

/-- The application's `stream_in().write(data)`. -/
def streamInWrite (s : TCPSender) (data : List UInt8) : TCPSender :=
  { s with stream := (s.stream.write data).1 }

/-- The application's `stream_in().end_input()`. -/
def streamInEndInput (s : TCPSender) : TCPSender := { s with stream := s.stream.endInput }

/-! ## Accessor lemmas -/

section Accessors

variable (b : TCPSegmentBuilder) (s : TCPSender)

@[simp] theorem buildSegment_payload : b.buildSegment.payload = b.data := rfl
@[simp] theorem buildSegment_seqno : b.buildSegment.header.seqno = b.seqno := rfl
@[simp] theorem buildSegment_syn : b.buildSegment.header.syn = b.syn := rfl
@[simp] theorem buildSegment_fin : b.buildSegment.header.fin = b.fin := rfl
@[simp] theorem withSeqno_syn (q : WrappingInt32) : (b.withSeqno q).syn = b.syn := rfl
@[simp] theorem withSeqno_fin (q : WrappingInt32) : (b.withSeqno q).fin = b.fin := rfl
@[simp] theorem withSeqno_seqno (q : WrappingInt32) : (b.withSeqno q).seqno = q := rfl
@[simp] theorem withSeqno_data (q : WrappingInt32) : (b.withSeqno q).data = b.data := rfl
@[simp] theorem withData_syn (d : List UInt8) : (b.withData d).syn = b.syn := rfl
@[simp] theorem withData_fin (d : List UInt8) : (b.withData d).fin = b.fin := rfl
@[simp] theorem withData_seqno (d : List UInt8) : (b.withData d).seqno = b.seqno := rfl
@[simp] theorem withData_data (d : List UInt8) : (b.withData d).data = d := rfl
@[simp] theorem withFin_syn : b.withFin.syn = b.syn := rfl
@[simp] theorem withFin_fin : b.withFin.fin = true := rfl
@[simp] theorem withFin_seqno : b.withFin.seqno = b.seqno := rfl
@[simp] theorem withFin_data : b.withFin.data = b.data := rfl
@[simp] theorem withSyn_syn : b.withSyn.syn = true := rfl
@[simp] theorem withSyn_fin : b.withSyn.fin = b.fin := rfl
@[simp] theorem withSyn_seqno : b.withSyn.seqno = b.seqno := rfl
@[simp] theorem withSyn_data : b.withSyn.data = b.data := rfl
@[simp] theorem empty_syn : ({} : TCPSegmentBuilder).syn = false := rfl
@[simp] theorem empty_fin : ({} : TCPSegmentBuilder).fin = false := rfl
@[simp] theorem empty_data : ({} : TCPSegmentBuilder).data = [] := rfl

theorem lengthInSequenceSpace_buildSegment :
    b.buildSegment.lengthInSequenceSpace =
      b.data.length + (if b.syn then 1 else 0) + (if b.fin then 1 else 0) := rfl

/-- `_send` as one record update: whether the segment occupies sequence space decides only
whether it is kept outstanding and whether the timer starts. -/
theorem send_eq : s.send b =
    { s with segmentsOut := s.segmentsOut ++ [b.buildSegment],
             segmentsPending :=
               if 0 < b.buildSegment.lengthInSequenceSpace then s.segmentsPending ++ [b.buildSegment]
               else s.segmentsPending,
             timer :=
               if 0 < b.buildSegment.lengthInSequenceSpace ∧ s.timer.running = false then
                 s.timer.start s.retransmissionTimeout
               else s.timer,
             nextSeqno := s.nextSeqno + b.buildSegment.lengthInSequenceSpace } := by
  unfold send
  dsimp only
  split
  · next hlen => split <;> simp_all
  · next hlen => simp [hlen]

@[simp] theorem send_segmentsOut : (s.send b).segmentsOut = s.segmentsOut ++ [b.buildSegment] := by
  rw [send_eq]
@[simp] theorem send_segmentsPending :
    (s.send b).segmentsPending =
      if 0 < b.buildSegment.lengthInSequenceSpace then s.segmentsPending ++ [b.buildSegment]
      else s.segmentsPending := by
  rw [send_eq]
@[simp] theorem send_nextSeqno :
    (s.send b).nextSeqno = s.nextSeqno + b.buildSegment.lengthInSequenceSpace := by
  rw [send_eq]
@[simp] theorem send_stream : (s.send b).stream = s.stream := by
  rw [send_eq]
@[simp] theorem send_fined : (s.send b).fined = s.fined := by
  rw [send_eq]
@[simp] theorem send_isn : (s.send b).isn = s.isn := by
  rw [send_eq]
@[simp] theorem send_receiverWindowLeft : (s.send b).receiverWindowLeft = s.receiverWindowLeft := by
  rw [send_eq]
@[simp] theorem send_receiverWindowRight : (s.send b).receiverWindowRight = s.receiverWindowRight := by
  rw [send_eq]
@[simp] theorem send_retransmissionTimeout :
    (s.send b).retransmissionTimeout = s.retransmissionTimeout := by
  rw [send_eq]
@[simp] theorem streamInWrite_stream (data : List UInt8) :
    (s.streamInWrite data).stream = (s.stream.write data).1 := rfl
@[simp] theorem streamInEndInput_stream : s.streamInEndInput.stream = s.stream.endInput := rfl
@[simp] theorem send_consecutiveRetransmissions :
    (s.send b).consecutiveRetransmissions = s.consecutiveRetransmissions := by
  rw [send_eq]

@[simp] theorem send_zeroWindowSize : (s.send b).zeroWindowSize = s.zeroWindowSize := by
  rw [send_eq]
@[simp] theorem send_initialRetransmissionTimeout :
    (s.send b).initialRetransmissionTimeout = s.initialRetransmissionTimeout := by
  rw [send_eq]

/-- A segment that occupies sequence space leaves the timer running; an empty one leaves it
as it was. -/
theorem send_timer_running :
    (s.send b).timer.running = (s.timer.running || decide (0 < b.buildSegment.lengthInSequenceSpace)) := by
  rw [send_eq]
  dsimp only
  split
  · next h => simp [h.1, h.2, RetransmissionTimer.start, RetransmissionTimer.reset]
  · next h => cases hr : s.timer.running <;> simp_all

end Accessors

/-! ## What an acknowledgement does -/

/-- The branch `ack_received` takes, by where the ackno falls. -/
inductive AckEnd
  /-- past the right edge, or behind the last ackno accepted: only the zero-window flag moves -/
  | ignored
  /-- of new data: the window moves, the timeout is reset and the window is filled -/
  | newData
  /-- the last ackno accepted again: the new window size is taken -/
  | sameAckno
  deriving DecidableEq, Repr

def ackEnd (s : TCPSender) (ackno : WrappingInt32) : AckEnd :=
  let absoluteAckno := (unwrap ackno s.isn (UInt64.ofNat s.receiverWindowLeft)).toNat
  if absoluteAckno > s.receiverWindowRight then .ignored
  else if absoluteAckno > s.receiverWindowLeft then .newData
  else if absoluteAckno = s.receiverWindowLeft then .sameAckno
  else .ignored

/-- The sender as a new ackno leaves it before the window is filled: the window moved to
the ackno, the timeout and the count reset, the acknowledged segments dropped and the
timer following what is left. -/
def acceptAck (s : TCPSender) (ackno : WrappingInt32) (windowSize : UInt16) : TCPSender :=
  let absoluteAckno := (unwrap ackno s.isn (UInt64.ofNat s.receiverWindowLeft)).toNat
  let size := if windowSize == 0 then 1 else windowSize.toNat
  let s := { s with zeroWindowSize := windowSize == 0, receiverWindowSize := size,
                    receiverWindowLeft := absoluteAckno, receiverWindowRight := absoluteAckno + size,
                    retransmissionTimeout := s.initialRetransmissionTimeout,
                    consecutiveRetransmissions := 0 }
  let s := { s with segmentsPending := popAcked s.isn s.receiverWindowLeft s.segmentsPending }
  if s.segmentsPending = [] then { s with timer := s.timer.stop }
  else { s with timer := s.timer.start s.retransmissionTimeout }

section AcceptAck

variable (s : TCPSender) (ackno : WrappingInt32) (windowSize : UInt16)

/-- The acknowledgement as one record update: the window moves, the timeout and the count
are reset, acknowledged segments leave the outstanding list, and what is left of it decides
the timer. -/
theorem acceptAck_eq : s.acceptAck ackno windowSize =
    let absoluteAckno := (unwrap ackno s.isn (UInt64.ofNat s.receiverWindowLeft)).toNat
    let size := if windowSize == 0 then 1 else windowSize.toNat
    let pending := popAcked s.isn absoluteAckno s.segmentsPending
    { s with zeroWindowSize := windowSize == 0, receiverWindowSize := size,
             receiverWindowLeft := absoluteAckno, receiverWindowRight := absoluteAckno + size,
             retransmissionTimeout := s.initialRetransmissionTimeout,
             consecutiveRetransmissions := 0, segmentsPending := pending,
             timer := if pending = [] then s.timer.stop else s.timer.start s.initialRetransmissionTimeout } := by
  unfold acceptAck
  dsimp only
  split <;> rfl

@[simp] theorem acceptAck_isn : (s.acceptAck ackno windowSize).isn = s.isn := by
  rw [acceptAck_eq]
@[simp] theorem acceptAck_stream : (s.acceptAck ackno windowSize).stream = s.stream := by
  rw [acceptAck_eq]
@[simp] theorem acceptAck_nextSeqno : (s.acceptAck ackno windowSize).nextSeqno = s.nextSeqno := by
  rw [acceptAck_eq]
@[simp] theorem acceptAck_fined : (s.acceptAck ackno windowSize).fined = s.fined := by
  rw [acceptAck_eq]
@[simp] theorem acceptAck_segmentsOut : (s.acceptAck ackno windowSize).segmentsOut = s.segmentsOut := by
  rw [acceptAck_eq]
@[simp] theorem acceptAck_receiverWindowLeft :
    (s.acceptAck ackno windowSize).receiverWindowLeft =
      (unwrap ackno s.isn (UInt64.ofNat s.receiverWindowLeft)).toNat := by
  rw [acceptAck_eq]
@[simp] theorem acceptAck_segmentsPending :
    (s.acceptAck ackno windowSize).segmentsPending =
      popAcked s.isn (unwrap ackno s.isn (UInt64.ofNat s.receiverWindowLeft)).toNat s.segmentsPending := by
  rw [acceptAck_eq]
@[simp] theorem acceptAck_zeroWindowSize :
    (s.acceptAck ackno windowSize).zeroWindowSize = (windowSize == 0) := by
  rw [acceptAck_eq]
@[simp] theorem acceptAck_retransmissionTimeout :
    (s.acceptAck ackno windowSize).retransmissionTimeout = s.initialRetransmissionTimeout := by
  rw [acceptAck_eq]
@[simp] theorem acceptAck_consecutiveRetransmissions :
    (s.acceptAck ackno windowSize).consecutiveRetransmissions = 0 := by
  rw [acceptAck_eq]
@[simp] theorem acceptAck_initialRetransmissionTimeout :
    (s.acceptAck ackno windowSize).initialRetransmissionTimeout = s.initialRetransmissionTimeout := by
  rw [acceptAck_eq]

/-- The timer runs after a new ackno exactly when something is still outstanding. -/
theorem acceptAck_timer_running :
    (s.acceptAck ackno windowSize).timer.running = true ↔
      (s.acceptAck ackno windowSize).segmentsPending ≠ [] := by
  rw [acceptAck_eq]
  dsimp only
  split
  · next hp => simp [hp]
  · next hp => simp [hp]

end AcceptAck

/-- **Everything an acknowledgement does**, by the branch it takes. -/
theorem ackReceived_eq (s : TCPSender) (ackno : WrappingInt32) (windowSize : UInt16) :
    s.ackReceived ackno windowSize =
      match s.ackEnd ackno with
      | .ignored => { s with zeroWindowSize := windowSize == 0 }
      | .newData => (s.acceptAck ackno windowSize).fillWindow
      | .sameAckno =>
        let absoluteAckno := (unwrap ackno s.isn (UInt64.ofNat s.receiverWindowLeft)).toNat
        let size := if windowSize == 0 then 1 else windowSize.toNat
        { s with zeroWindowSize := windowSize == 0, receiverWindowSize := size,
                 receiverWindowLeft := absoluteAckno, receiverWindowRight := absoluteAckno + size } := by
  unfold ackReceived ackEnd acceptAck
  dsimp only
  generalize (unwrap ackno s.isn (UInt64.ofNat s.receiverWindowLeft)).toNat = A
  by_cases h0 : A > s.receiverWindowRight
  · simp only [if_pos h0]
  simp only [if_neg h0]
  by_cases h1 : A > s.receiverWindowLeft
  · simp only [if_pos h1]
  simp only [if_neg h1]
  by_cases h2 : A = s.receiverWindowLeft
  · simp only [if_pos h2]
  · simp only [if_neg h2]

end TCPSender

end Sponge
