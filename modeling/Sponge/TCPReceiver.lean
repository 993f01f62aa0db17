import Sponge.StreamReassembler
import Sponge.TCPSegment

/-!
The TCP receiver of `tcp_receiver.{hh,cc}`.

The receiver learns the sender's ISN from a SYN, turns each segment's sequence
number into a stream index with `unwrap`, checkpointed at `bytes_written()`, and
hands the payload to its `StreamReassembler`. Its `ackno()` is the absolute sequence
number after the assembled bytes, the SYN and, once the stream ended, the FIN.
-/

namespace Sponge

/-- `TCPReceiver` with its private fields. -/
structure TCPReceiver where
  reassembler : StreamReassembler
  capacity : Nat
  senderIsn : Option WrappingInt32 := none
  deriving DecidableEq, Repr

namespace TCPReceiver

/-- `TCPReceiver(capacity)`. -/
def init (capacity : Nat) : TCPReceiver := { reassembler := StreamReassembler.init capacity, capacity }

def streamOut (r : TCPReceiver) : ByteStream := r.reassembler.output

def unassembledBytes (r : TCPReceiver) : Nat := r.reassembler.unassembledBytes

/-- `ackno()`: none before a SYN; then the wrapped absolute sequence number of the
first byte not yet assembled, counting the SYN and, once the input ended, the FIN. -/
def ackno (r : TCPReceiver) : Option WrappingInt32 :=
  match r.senderIsn with
  | none => none
  | some isn =>
    let streamIndex := r.streamOut.bytesWritten
    let absSeqno := streamIndex + 1 + (if r.streamOut.inputEnded then 1 else 0)
    some (wrap (UInt64.ofNat absSeqno) isn)

/-- `window_size()`. -/
def windowSize (r : TCPReceiver) : Nat := r.streamOut.remainingCapacity

def inListen (r : TCPReceiver) : Bool := r.ackno.isNone

def inSynRecv (r : TCPReceiver) : Bool := r.ackno.isSome && !r.streamOut.inputEnded

def inFinRecv (r : TCPReceiver) : Bool := r.streamOut.inputEnded

/-- `segment_received(seg)`: every SYN sets the ISN; in `SYN_RECV` the payload is
pushed at its stream index, a segment at absolute sequence number 0 only if it
carries the SYN. -/
def segmentReceived (r : TCPReceiver) (seg : TCPSegment) : TCPReceiver :=
  let r := if seg.header.syn then { r with senderIsn := some seg.header.seqno } else r
  if r.inSynRecv then
    match r.senderIsn with
    | some isn =>
      let absSeqno := (unwrap seg.header.seqno isn (UInt64.ofNat r.streamOut.bytesWritten)).toNat
      if absSeqno = 0 ∧ seg.header.syn = false then r
      else
        let absSeqno := if absSeqno = 0 then 1 else absSeqno
        { r with reassembler := r.reassembler.pushSubstring seg.payload (absSeqno - 1) seg.header.fin }
    | none => r
  else r

/-- A segment far past the window reaches `push_substring`, whose trim then wraps. With a
capacity of 1 and the SYN at 0, a segment at sequence number 6 carrying `"ab"` is pushed at
stream index 5, with no window check; `push_substring` keeps `0 + 1 - 5` bytes of it,
`2^64 - 4` as a `size_t`, and views that many bytes from the start of the two. -/
theorem far_segment_trim_wraps :
    let r : TCPReceiver := (init 1).segmentReceived { header := { seqno := ⟨0⟩, syn := true } }
    let seg : TCPSegment := { header := { seqno := ⟨6⟩ }, payload := [97, 98] }
    r.inSynRecv = true ∧ (r.segmentReceived seg).reassembler = r.reassembler.pushSubstring seg.payload 5 false ∧
      r.reassembler.output.bytesWritten ≤ 5 + seg.payload.length ∧
      r.reassembler.pushSubstringLen 5 seg.payload.length = 2 ^ 64 - 4 := by
  decide

end TCPReceiver

end Sponge
