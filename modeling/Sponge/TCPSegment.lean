import Sponge.WrappingIntegers

/-!
The TCP segment of `tcp_helpers/tcp_header.hh` and `tcp_segment.{hh,cc}`, and the
configuration of `tcp_config.hh`.

A header keeps every field of `TCPHeader` with its default; the payload `Buffer` is
its list of bytes.
-/

namespace Sponge

/-- `TCPHeader`. -/
structure TCPHeader where
  sport : UInt16 := 0
  dport : UInt16 := 0
  seqno : WrappingInt32 := ⟨0⟩
  ackno : WrappingInt32 := ⟨0⟩
  /-- data offset, in 32-bit words: `LENGTH / 4` -/
  doff : UInt8 := 5
  urg : Bool := false
  ack : Bool := false
  psh : Bool := false
  rst : Bool := false
  syn : Bool := false
  fin : Bool := false
  win : UInt16 := 0
  cksum : UInt16 := 0
  uptr : UInt16 := 0
  deriving DecidableEq, Repr

/-- `TCPSegment`. -/
structure TCPSegment where
  header : TCPHeader := {}
  payload : List UInt8 := []
  deriving DecidableEq, Repr

/-- `length_in_sequence_space()`: the payload, plus one for each of SYN and FIN. -/
def TCPSegment.lengthInSequenceSpace (seg : TCPSegment) : Nat :=
  seg.payload.length + (if seg.header.syn then 1 else 0) + (if seg.header.fin then 1 else 0)

namespace TCPConfig

/-- `DEFAULT_CAPACITY`. -/
def defaultCapacity : Nat := 64000

/-- `MAX_PAYLOAD_SIZE`. -/
def maxPayloadSize : Nat := 1000

/-- `TIMEOUT_DFLT`, in milliseconds. -/
def timeoutDflt : UInt16 := 1000

/-- `MAX_RETX_ATTEMPTS`. -/
def maxRetxAttempts : Nat := 8

end TCPConfig

/-- `TCPConfig`. -/
structure TCPConfig where
  rtTimeout : UInt16 := TCPConfig.timeoutDflt
  recvCapacity : Nat := TCPConfig.defaultCapacity
  sendCapacity : Nat := TCPConfig.defaultCapacity
  fixedIsn : Option WrappingInt32 := none
  deriving DecidableEq, Repr

end Sponge
