import Sponge.TCPConnection

/-!
Two connections joined by a network.

`Net a b` says the pair is reached from two fresh connections by calls of each side's
application and by deliveries. The network may drop, duplicate, delay and reorder
segments: any segment one side has emitted may be delivered to the other, any number of
times, in any order, or never.

Along such a run a stale acknowledgement can move the sender's right edge below what it
has already sent. The remaining window of `fill_window` then wraps around as a
`uint64_t`, the sender sends past the peer's window, and the peer's `push_substring`
computes a length past the end of the payload (`window_overrun`).
-/

namespace Sponge

namespace TCPConnection

/-- The calls an application makes: every event but a delivered segment. -/
def Event.FromApp : Event → Prop
  | .segmentReceived _ => False
  | _ => True

/-- The pairs of connections a network can reach. -/
inductive Net : TCPConnection → TCPConnection → Prop
  | init (cfgA cfgB : TCPConfig) (isnA isnB : WrappingInt32) :
      Net (TCPConnection.init cfgA isnA) (TCPConnection.init cfgB isnB)
  | appA {a b : TCPConnection} (e : Event) : Net a b → e.FromApp → Net (a.step e) b
  | appB {a b : TCPConnection} (e : Event) : Net a b → e.FromApp → Net a (b.step e)
  | deliverA {a b : TCPConnection} (seg : TCPSegment) :
      Net a b → seg ∈ b.segmentsOut → Net (a.segmentReceived seg) b
  | deliverB {a b : TCPConnection} (seg : TCPSegment) :
      Net a b → seg ∈ a.segmentsOut → Net a (b.segmentReceived seg)

/-- A stale acknowledgement makes the sender overrun the receiver's window. `B` has a
capacity of 2. `A` connects and sends `"ab"`; `B` acknowledges it with a window of 0,
the application reads it, and a duplicate of `"ab"` makes `B` acknowledge again with a
window of 2. `A` takes that acknowledgement, its right edge moves to 5, and it sends
`"cd"` at 3. The first acknowledgement arrives late: same ackno, window 0, so the right
edge goes back to 4, below `next_seqno_absolute()` = 5, and the remaining window
`4 - 5` wraps. `A` sends `"e"` at 5 and `"f"` at 6. Delivered to `B`, which has
written 2 bytes, `"f"` is pushed at stream index 5, and `push_substring` keeps
`2 + 2 - 5` bytes of it, `2^64 - 1` as a `size_t`, past the end of its one byte. -/
theorem window_overrun :
    ∃ a b, Net a b ∧ ∃ seg ∈ a.segmentsOut,
      b.receiver.inSynRecv = true ∧ b.receiver.senderIsn = some ⟨0⟩ ∧
      (unwrap seg.header.seqno ⟨0⟩ (UInt64.ofNat b.receiver.streamOut.bytesWritten)).toNat = 6 ∧
      seg.payload = [102] ∧
      b.receiver.reassembler.pushSubstringLen 5 seg.payload.length = 2 ^ 64 - 1 := by
  -- the handshake, then "ab" from A
  have n₁ := Net.appA .connect (.init { recvCapacity := 10, sendCapacity := 10, fixedIsn := some ⟨0⟩ }
    { recvCapacity := 2, sendCapacity := 10, fixedIsn := some ⟨0⟩ } ⟨0⟩ ⟨0⟩) trivial
  have n₂ := Net.deliverB { header := { seqno := ⟨0⟩, syn := true, win := 10 } } n₁ (by decide)
  have n₃ := Net.deliverA { header := { seqno := ⟨0⟩, ackno := ⟨1⟩, ack := true, syn := true, win := 2 } } n₂
    (by decide)
  have n₄ := Net.appA (.write [97, 98]) n₃ trivial
  have n₅ := Net.deliverB { header := { seqno := ⟨1⟩, ackno := ⟨1⟩, ack := true, win := 10 } } n₄ (by decide)
  -- B takes "ab", acknowledges it with a window of 0, reads it, and acknowledges a
  -- duplicate with a window of 2
  have n₆ := Net.deliverB { header := { seqno := ⟨1⟩, ackno := ⟨1⟩, ack := true, win := 10 },
                            payload := [97, 98] } n₅ (by decide)
  have n₇ := Net.appB (.read 2) n₆ trivial
  have n₈ := Net.deliverB { header := { seqno := ⟨1⟩, ackno := ⟨1⟩, ack := true, win := 10 },
                            payload := [97, 98] } n₇ (by decide)
  -- A takes the second acknowledgement, sends "cd", then takes the stale first one
  have n₉ := Net.deliverA { header := { seqno := ⟨1⟩, ackno := ⟨3⟩, ack := true, win := 2 } } n₈ (by decide)
  have n₁₀ := Net.appA (.write [99, 100]) n₉ trivial
  have n₁₁ := Net.deliverA { header := { seqno := ⟨1⟩, ackno := ⟨3⟩, ack := true, win := 0 } } n₁₀
    (by decide)
  -- with the window wrapped, "e" and "f" go out past it
  have n₁₂ := Net.appA (.write [101]) n₁₁ trivial
  have n₁₃ := Net.appA (.write [102]) n₁₂ trivial
  exact ⟨_, _, n₁₃, { header := { seqno := ⟨6⟩, ackno := ⟨1⟩, ack := true, win := 10 }, payload := [102] },
    by decide, by decide, by decide, by decide, rfl, by decide⟩

end TCPConnection

end Sponge
