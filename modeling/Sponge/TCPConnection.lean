import Sponge.TCPState

/-!
The TCP connection of `tcp_connection.{hh,cc}`.

A connection owns a `TCPReceiver` and a `TCPSender` and moves the sender's segments
to its own queue, stamped with the receiver's ackno and window
(`sendOutboundSegments`). The queue is kept whole: it lists every segment the
connection has emitted, in order. Times are milliseconds held as `size_t`: `tick` adds
to the time since the last segment in 64 bits (`Word.add 64`), and the linger test of
`active()` subtracts in 64 bits (`Word.sub 64`). The ISN the sender draws from
`random_device` is a parameter.

`Event` is a call of the connection's interface, `step` performs it, and `run` performs
a sequence of them.
-/

namespace Sponge

/-- `TCPConnection` with its private fields. -/
structure TCPConnection where
  cfg : TCPConfig
  receiver : TCPReceiver
  sender : TCPSender
  segmentsOut : List TCPSegment := []
  lingerAfterStreamsFinish : Bool := true
  timeSinceLastSegmentReceived : Nat := 0
  timeDone : Option Nat := none
  rstSet : Bool := false
  deriving DecidableEq, Repr

namespace TCPConnection

/-- `TCPConnection(cfg)`. -/
def init (cfg : TCPConfig) (randomIsn : WrappingInt32) : TCPConnection :=
  { cfg, receiver := TCPReceiver.init cfg.recvCapacity,
    sender := TCPSender.init cfg.sendCapacity cfg.rtTimeout cfg.fixedIsn randomIsn }

/-- `inbound_stream()`. -/
def inboundStream (c : TCPConnection) : ByteStream := c.receiver.streamOut

def bytesInFlight (c : TCPConnection) : Nat := c.sender.bytesInFlight

def unassembledBytes (c : TCPConnection) : Nat := c.receiver.unassembledBytes

def remainingOutboundCapacity (c : TCPConnection) : Nat := c.sender.stream.remainingCapacity

/-- The header fields `_send_outbound_segments` sets on a segment of the sender: the
receiver's ackno, its window capped at the largest `char16_t`, and RST once set. -/
def stampSegment (c : TCPConnection) (seg : TCPSegment) : TCPSegment :=
  let header :=
    match c.receiver.ackno with
    | some ackno => { seg.header with ack := true, ackno }
    | none => seg.header
  let header := { header with
    win := if c.receiver.windowSize > 65535 then 65535 else UInt16.ofNat c.receiver.windowSize }
  let header := if c.rstSet then { header with rst := true } else header
  { seg with header }

/-- `_send_outbound_segments()`: the sender's queue, stamped, moves to the connection's. -/
def sendOutboundSegments (c : TCPConnection) : TCPConnection :=
  { c with sender := { c.sender with segmentsOut := [] },
           segmentsOut := c.segmentsOut ++ c.sender.segmentsOut.map c.stampSegment }

/-- `_done()`: the inbound stream is at its end or failed, and the outbound stream
failed or is at its end with the FIN sent and nothing in flight. -/
def done (c : TCPConnection) : Bool :=
  (c.receiver.streamOut.eof || c.receiver.streamOut.error) &&
    (c.sender.stream.error ||
      (c.sender.stream.eof && c.sender.bytesInFlight == 0 && c.sender.fined))

/-- `_check_done()`: the first time the connection is done, note the time since the last
segment. -/
def checkDone (c : TCPConnection) : TCPConnection :=
  if c.done && c.timeDone.isNone then { c with timeDone := some c.timeSinceLastSegmentReceived }
  else c

/-- `active()`. -/
def active (c : TCPConnection) : Bool :=
  if !c.done then true
  else if !c.lingerAfterStreamsFinish then false
  else
    match c.timeDone with
    | some timeDone =>
      decide (Word.sub 64 c.timeSinceLastSegmentReceived timeDone < 10 * c.cfg.rtTimeout.toNat)
    | none => false

/-- `_reset(send_rst)`: both streams fail, the sender's queue is dropped, and with
`send_rst` an empty segment goes out with RST set. -/
def reset (c : TCPConnection) (sendRst : Bool) : TCPConnection :=
  let receiver := { c.receiver with
    reassembler := { c.receiver.reassembler with output := c.receiver.reassembler.output.setError } }
  let sender := { c.sender with stream := c.sender.stream.setError.endInput, segmentsOut := [] }
  let c := { c with receiver, sender, lingerAfterStreamsFinish := false }
  if sendRst then { c with rstSet := true, sender := c.sender.sendEmptySegment }.sendOutboundSegments
  else c

/-- `segment_received(seg)`. -/
def segmentReceived (c : TCPConnection) (seg : TCPSegment) : TCPConnection :=
  let c := { c with timeSinceLastSegmentReceived := 0 }
  if seg.header.rst then
    if c.receiver.inListen && c.sender.inClosed then c
    else if c.sender.inSynSent && !seg.header.ack then c
    else c.reset false
  else if c.receiver.inListen && !seg.header.syn then c
  else if c.sender.inSynSent && seg.header.ack && seg.payload.length > 0 then c
  else
    let c := { c with receiver := c.receiver.segmentReceived seg }
    let c :=
      if seg.header.ack && c.sender.nextSeqnoAbsolute > 0 then
        { c with sender := (c.sender.ackReceived seg.header.ackno seg.header.win).fillWindow }
      else c
    -- a SYN before ours: answer with our SYN; anything else in sequence space: acknowledge it
    let c :=
      if seg.header.syn && c.sender.nextSeqnoAbsolute = 0 then { c with sender := c.sender.fillWindow }
      else if seg.lengthInSequenceSpace > 0 && c.sender.nextSeqnoAbsolute > 0 then
        { c with sender := c.sender.sendEmptySegment }
      else c
    let c := c.sendOutboundSegments
    let c :=
      if c.receiver.streamOut.eof && !c.sender.stream.eof then
        { c with lingerAfterStreamsFinish := false }
      else c
    c.checkDone

/-- `write(data)`, with the number of bytes the outbound stream took. -/
def write (c : TCPConnection) (data : List UInt8) : TCPConnection × Nat :=
  let wc := (c.sender.stream.write data).2
  ({ c with sender := (c.sender.streamInWrite data).fillWindow }.sendOutboundSegments, wc)

/-- `tick(ms_since_last_tick)`: past `MAX_RETX_ATTEMPTS` consecutive retransmissions the
connection is reset. -/
def tick (c : TCPConnection) (msSinceLastTick : Nat) : TCPConnection :=
  let c := { c with timeSinceLastSegmentReceived := Word.add 64 c.timeSinceLastSegmentReceived msSinceLastTick,
                    sender := c.sender.tick msSinceLastTick }
  let c := if c.sender.consecutiveRetransmissions > TCPConfig.maxRetxAttempts then c.reset true else c
  c.sendOutboundSegments.checkDone

/-- `end_input_stream()`. -/
def endInputStream (c : TCPConnection) : TCPConnection :=
  { c with sender := c.sender.streamInEndInput.fillWindow }.sendOutboundSegments.checkDone

/-- `connect()`. -/
def connect (c : TCPConnection) : TCPConnection :=
  { c with sender := c.sender.fillWindow }.sendOutboundSegments.checkDone

/-- The application's `inbound_stream().read(len)`, with the bytes read. -/
def readInbound (c : TCPConnection) (len : Nat) : TCPConnection × List UInt8 :=
  ({ c with receiver := { c.receiver with reassembler := c.receiver.reassembler.popOutput len } },
    c.inboundStream.peekOutput len)

/-- `state()`. -/
def state (c : TCPConnection) : TCPState :=
  TCPState.ofConnection c.sender c.receiver c.active c.lingerAfterStreamsFinish

/-- A call of the connection's interface, from the application or the network. -/
inductive Event
  | connect
  | write (data : List UInt8)
  | endInputStream
  | tick (ms : Nat)
  | read (len : Nat)
  | segmentReceived (seg : TCPSegment)
  deriving DecidableEq, Repr

def step (c : TCPConnection) : Event → TCPConnection
  | .connect => c.connect
  | .write data => (c.write data).1
  | .endInputStream => c.endInputStream
  | .tick ms => c.tick ms
  | .read len => (c.readInbound len).1
  | .segmentReceived seg => c.segmentReceived seg

/-- The connection after a sequence of events. -/
def run (c : TCPConnection) (events : List Event) : TCPConnection := events.foldl step c

section Accessors

variable (c : TCPConnection)

@[simp] theorem sendOutboundSegments_receiver : c.sendOutboundSegments.receiver = c.receiver := rfl
@[simp] theorem sendOutboundSegments_sender_stream :
    c.sendOutboundSegments.sender.stream = c.sender.stream := rfl
@[simp] theorem sendOutboundSegments_lingerAfterStreamsFinish :
    c.sendOutboundSegments.lingerAfterStreamsFinish = c.lingerAfterStreamsFinish := rfl
@[simp] theorem checkDone_receiver : c.checkDone.receiver = c.receiver := by
  unfold checkDone; split <;> rfl
@[simp] theorem checkDone_sender : c.checkDone.sender = c.sender := by
  unfold checkDone; split <;> rfl
@[simp] theorem checkDone_lingerAfterStreamsFinish :
    c.checkDone.lingerAfterStreamsFinish = c.lingerAfterStreamsFinish := by
  unfold checkDone; split <;> rfl

end Accessors

/-! ## What a segment does -/

/-- What `segment_received` can do: ignore the segment, reset, or hand it to the
receiver, let the sender take its acknowledgement and answer, send the queue out, and
perhaps stop lingering. -/
theorem segmentReceived_cases (c : TCPConnection) (seg : TCPSegment) :
    c.segmentReceived seg = { c with timeSinceLastSegmentReceived := 0 } ∨
    c.segmentReceived seg = { c with timeSinceLastSegmentReceived := 0 }.reset false ∨
    ∃ s₂ s₃ : TCPSender, ∃ l : Bool,
      (s₂ = c.sender ∨ seg.header.ack = true ∧ s₂ = (c.sender.ackReceived seg.header.ackno seg.header.win).fillWindow) ∧
      (s₃ = s₂ ∨ s₃ = s₂.fillWindow ∨ s₃ = s₂.sendEmptySegment) ∧
      (l = c.lingerAfterStreamsFinish ∨ l = false) ∧
      c.segmentReceived seg =
        { { c with timeSinceLastSegmentReceived := 0, receiver := c.receiver.segmentReceived seg,
                   sender := s₃ }.sendOutboundSegments with lingerAfterStreamsFinish := l }.checkDone := by
  unfold TCPConnection.segmentReceived
  extract_lets c₀ c₁ c₂ c₃ c₄ c₅
  have hs₁ : c₁.sender = c.sender := rfl
  split
  · split
    · exact Or.inl rfl
    split
    · exact Or.inl rfl
    · exact Or.inr (Or.inl rfl)
  split
  · exact Or.inl rfl
  split
  · exact Or.inl rfl
  refine Or.inr (Or.inr ⟨c₂.sender, c₃.sender, c₅.lingerAfterStreamsFinish, ?_, ?_, ?_, ?_⟩)
  · dsimp only [c₂]
    split
    · next hack => exact Or.inr ⟨((Bool.and_eq_true _ _).mp hack).1, by rw [hs₁]⟩
    · exact Or.inl rfl
  · dsimp only [c₃]
    split_ifs
    · exact Or.inr (Or.inl rfl)
    · exact Or.inr (Or.inr rfl)
    · exact Or.inl rfl
  · dsimp only [c₅]
    split
    · exact Or.inr rfl
    · exact Or.inl (by dsimp only [c₄, c₃, c₂, c₁, c₀]; split_ifs <;> rfl)
  · -- every stage keeps all but the fields the next one sets
    have e₂ : c₂ = { c₁ with sender := c₂.sender } := by
      dsimp only [c₂]
      split <;> rfl
    have e₃ : c₃ = { c₁ with sender := c₃.sender } := by
      dsimp only [c₃]
      rw [e₂]
      split_ifs <;> rfl
    have e₅ : c₅ = { c₄ with lingerAfterStreamsFinish := c₅.lingerAfterStreamsFinish } := by
      dsimp only [c₅]
      split <;> rfl
    rw [e₅]
    dsimp only [c₄]
    rw [e₃]

/-- A property of senders that taking an acknowledgement and filling the window, filling
the window, and sending an empty segment all keep holds of the sender that
`segmentReceived_cases` finds. -/
theorem answer_preserves {P : TCPSender → Prop} {seg : TCPSegment} {s s₂ s₃ : TCPSender}
    (hs₂ : s₂ = s ∨ seg.header.ack = true ∧ s₂ = (s.ackReceived seg.header.ackno seg.header.win).fillWindow)
    (hs₃ : s₃ = s₂ ∨ s₃ = s₂.fillWindow ∨ s₃ = s₂.sendEmptySegment) (h : P s)
    (hack : P (s.ackReceived seg.header.ackno seg.header.win).fillWindow)
    (hfill : ∀ {s}, P s → P s.fillWindow) (hempty : ∀ {s}, P s → P s.sendEmptySegment) : P s₃ := by
  have h₂ : P s₂ := by
    rcases hs₂ with rfl | ⟨-, rfl⟩
    exacts [h, hack]
  rcases hs₃ with rfl | rfl | rfl
  exacts [h₂, hfill h₂, hempty h₂]

end TCPConnection

end Sponge
