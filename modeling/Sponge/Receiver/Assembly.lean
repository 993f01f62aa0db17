import Sponge.TCPReceiver
import Sponge.Reassembler.Run
import Sponge.Sender.Fidelity

/-!
What the receiver assembles from the segments a sender of one stream puts on the wire.

`CorrectSegment isn S seg` is the contract between the two halves: a segment that
occupies sequence space sits at the absolute sequence number of the bytes of `S` it
carries, and a FIN ends `S`. On a stream shorter than `2^31` that fits in the receiver's
capacity, and with it in 64 bits, `unwrap` finds each such segment's stream index and the
window never cuts it, so every segment is a push of a substring of `S` at its true index,
or an empty push.
`RecvInv`, the reassembler's run invariant beside the ISN, then holds after every
segment (`RecvInv.segmentReceived`), every read and every failure of the stream, and
keeps holding while `S` grows and its end is not yet known (`RecvInv.append`).
-/

namespace Sponge

open Intervals TCPSender StreamReassembler

/-- A segment a sender of the stream `S` with ISN `isn` may send: it occupies no sequence
space, or it sits where its bytes are in `S`, and a FIN comes right after the last
byte of `S`. -/
def CorrectSegment (isn : WrappingInt32) (S : List UInt8) (seg : TCPSegment) : Prop :=
  seg.lengthInSequenceSpace = 0 ∨
    ∃ a, SegmentAt isn S a seg ∧ (seg.header.fin = true → a + synBit seg + seg.payload.length = S.length + 1)

section Segments

variable {isn : WrappingInt32} {S : List UInt8} {a : Nat} {seg : TCPSegment}

/-- A segment at `a` that occupies sequence space carries its payload at stream index
`a + synBit seg - 1`, inside `S`. -/
theorem TCPSender.SegmentAt.index_bounds (hat : SegmentAt isn S a seg)
    (hfin : seg.header.fin = true → a + synBit seg + seg.payload.length = S.length + 1)
    (hpos : 0 < seg.lengthInSequenceSpace) :
    1 ≤ a + synBit seg ∧ a + synBit seg - 1 + seg.payload.length ≤ S.length := by
  have hsyn := hat.syn_iff
  have hone : 1 ≤ a + synBit seg := by
    by_cases ha : a = 0
    · simp [synBit, hsyn.mpr ha]
    · omega
  refine ⟨hone, ?_⟩
  rcases Nat.eq_zero_or_pos seg.payload.length with hp | hp
  · -- no payload: the segment is a SYN at 0 or a FIN right after `S`
    rw [lengthInSequenceSpace_eq, hp] at hpos
    cases hf : seg.header.fin
    · have hs : seg.header.syn = true := by
        by_contra hs
        simp [synBit, hs, hf] at hpos
      simp [synBit, hsyn.mp hs, hs, hp]
    · have := hfin hf
      omega
  · -- a nonempty payload is a slice of `S` of its full length
    have hl := congrArg List.length hat.payload
    simp only [List.extract_eq_take_drop, List.length_take, List.length_drop] at hl
    omega

/-- A SYN of `S` carries the ISN. -/
theorem CorrectSegment.seqno_of_syn (h : CorrectSegment isn S seg) (hs : seg.header.syn = true) :
    seg.header.seqno = isn := by
  rcases h with h0 | ⟨a, hat, -⟩
  · simp [lengthInSequenceSpace_eq, synBit, hs] at h0
  · rw [hat.seqno, hat.syn_iff.mp hs, wrap_zero]

end Segments

/-- The receiver's invariant over the stream `S` of a sender with ISN `isn`: the
reassembler's run invariant, with the receiver's capacity, and an ISN that is the
sender's once known. -/
structure RecvInv (S : List UInt8) (isn : WrappingInt32) (r : TCPReceiver) (h : History) : Prop where
  run : RunInv S r.capacity r.reassembler h
  senderIsn : r.senderIsn = none ∨ r.senderIsn = some isn

namespace RecvInv

variable {S : List UInt8} {isn : WrappingInt32} {r : TCPReceiver} {h : History}

theorem init (S : List UInt8) (isn : WrappingInt32) (capacity : Nat) :
    RecvInv S isn (TCPReceiver.init capacity) History.init :=
  ⟨runInv_init S capacity, Or.inl rfl⟩

theorem popOutput (hi : RecvInv S isn r h) (len : Nat) :
    RecvInv S isn { r with reassembler := r.reassembler.popOutput len }
      (h.pop (r.reassembler.output.peekOutput len)) :=
  ⟨hi.run.pop len, hi.senderIsn⟩

theorem setError (hi : RecvInv S isn r h) :
    RecvInv S isn { r with reassembler := { r.reassembler with output := r.reassembler.output.setError } } h :=
  ⟨hi.run.setError, hi.senderIsn⟩

theorem append (hi : RecvInv S isn r h) (extra : List UInt8)
    (hend : r.reassembler.gotEof = true → extra = []) : RecvInv (S ++ extra) isn r h :=
  ⟨hi.run.append extra hend, hi.senderIsn⟩

/-- The push the receiver makes for a segment of `S` it has placed: the run invariant
holds after it, and nothing is read. -/
theorem push (hi : RecvInv S isn r h) (hS : S.length ≤ r.capacity) (h64 : r.capacity + S.length < 2 ^ 64)
    {i : Nat} {seg : TCPSegment}
    (hseg : seg.lengthInSequenceSpace = 0 ∨
      (seg.payload = S.extract i (i + seg.payload.length) ∧ i + seg.payload.length ≤ S.length ∧
        (seg.header.fin = true → i + seg.payload.length = S.length))) :
    ∃ h', h'.popped = h.popped ∧
      RecvInv S isn { r with reassembler := r.reassembler.pushSubstring seg.payload i seg.header.fin } h' := by
  rcases hseg with h0 | ⟨hp, hk, he⟩
  · -- a segment in no sequence space is an empty push without `eof`
    have hp : seg.payload = [] := by
      rw [lengthInSequenceSpace_eq] at h0
      exact List.eq_nil_of_length_eq_zero (by omega)
    have hf : seg.header.fin = false := by
      rw [lengthInSequenceSpace_eq] at h0
      cases hf : seg.header.fin
      · rfl
      · simp [hf] at h0
    rw [hp, hf]
    exact ⟨h, rfl, hi.run.pushSubstring_nil i, hi.senderIsn⟩
  · rw [hp]
    refine ⟨h.push i seg.payload.length (r.reassembler.output.bytesWritten + r.capacity) seg.header.fin, rfl,
      hi.run.pushSubstring hk he ?_ h64, hi.senderIsn⟩
    have := hi.run.written_le
    omega

/-- **A correct segment keeps the receiver's invariant.** A SYN sets the sender's ISN;
`unwrap`, checkpointed below `2^31`, places a segment of `S` at its absolute sequence
number; and the push that follows is of its bytes of `S` at their index, or empty. -/
theorem segmentReceived (hi : RecvInv S isn r h) (hS : S.length ≤ r.capacity)
    (h64 : r.capacity + S.length < 2 ^ 64) (h31 : S.length + 1 < 2 ^ 31) {seg : TCPSegment}
    (hseg : CorrectSegment isn S seg) :
    ∃ h', h'.popped = h.popped ∧ RecvInv S isn (r.segmentReceived seg) h' := by
  unfold TCPReceiver.segmentReceived
  dsimp only
  generalize hr₁ : (if seg.header.syn = true then { r with senderIsn := some seg.header.seqno } else r) = r₁
  have h₁ : RecvInv S isn r₁ h := by
    rw [← hr₁]
    split
    · next hs => exact ⟨hi.run, Or.inr (by rw [hseg.seqno_of_syn hs])⟩
    · exact hi
  have hcap₁ : r₁.capacity = r.capacity := by
    rw [← hr₁]
    split <;> rfl
  have hS₁ : S.length ≤ r₁.capacity := hcap₁ ▸ hS
  have h64₁ : r₁.capacity + S.length < 2 ^ 64 := hcap₁ ▸ h64
  split
  · split
    · next i hsome =>
      have hi' : i = isn := by
        rcases h₁.senderIsn with h | h <;> rw [h] at hsome <;> cases hsome
        rfl
      subst hi'
      split
      · exact ⟨h, rfl, h₁⟩
      · by_cases h0 : seg.lengthInSequenceSpace = 0
        · exact h₁.push hS₁ h64₁ (Or.inl h0)
        -- a segment in sequence space sits at `a`, which `unwrap` finds
        obtain ⟨a, hat, hfin⟩ := hseg.resolve_left h0
        obtain ⟨hone, hend⟩ := hat.index_bounds hfin (Nat.pos_of_ne_zero h0)
        have hbw : r₁.streamOut.bytesWritten ≤ S.length := h₁.run.written_le
        have habs : (unwrap seg.header.seqno i (UInt64.ofNat r₁.streamOut.bytesWritten)).toNat = a := by
          rw [hat.seqno, unwrap_wrap_of_lt (by omega) (by omega), UInt64.toNat_ofNat']
          omega
        have hidx : (if a = 0 then 1 else a) - 1 = a + synBit seg - 1 := by
          by_cases ha : a = 0
          · simp [ha, synBit, hat.syn_iff.mpr ha]
          · have hs : seg.header.syn = false := by
              cases hs : seg.header.syn
              · rfl
              · exact absurd (hat.syn_iff.mp hs) ha
            simp [ha, synBit, hs]
        rw [habs, hidx]
        exact h₁.push hS₁ h64₁ (Or.inr ⟨hat.payload, hend, fun hf => by have := hfin hf; omega⟩)
    · exact ⟨h, rfl, h₁⟩
  · exact ⟨h, rfl, h₁⟩

end RecvInv

/-! ## What a segment can change -/

/-- A push records an end of the stream only if it carries one. -/
theorem StreamReassembler.pushSubstring_gotEof {r : StreamReassembler} {data : List UInt8} {index : Nat}
    {eof : Bool} (h : (r.pushSubstring data index eof).gotEof = true) : r.gotEof = true ∨ eof = true := by
  unfold StreamReassembler.pushSubstring at h
  split_ifs at h
  · exact Or.inl h
  · exact Or.inl h
  · simpa using h

/-- An empty push without FIN into a reassembler that holds nothing changes nothing. -/
theorem StreamReassembler.pushSubstring_nil_init (capacity index : Nat) :
    (StreamReassembler.init capacity).pushSubstring [] index false = StreamReassembler.init capacity := by
  simp [StreamReassembler.pushSubstring, StreamReassembler.recordEof, StreamReassembler.windowSegment,
    StreamReassembler.pushInterval, Segment.size, Segment.ofData, StreamReassembler.reassemble,
    StreamReassembler.closeInput, StreamReassembler.init]

/-- An empty push with FIN at the first index ends the output of a reassembler that holds
nothing. -/
theorem StreamReassembler.pushSubstring_fin_init (capacity : Nat) :
    (StreamReassembler.init capacity).pushSubstring [] 0 true =
      { StreamReassembler.init capacity with gotEof := true, output := (ByteStream.init capacity).endInput } := by
  simp [StreamReassembler.pushSubstring, StreamReassembler.recordEof, StreamReassembler.windowSegment,
    StreamReassembler.pushInterval, Segment.size, Segment.ofData, StreamReassembler.reassemble,
    StreamReassembler.closeInput, StreamReassembler.init, Word.add]

namespace TCPReceiver

theorem segmentReceived_capacity (r : TCPReceiver) (seg : TCPSegment) :
    (r.segmentReceived seg).capacity = r.capacity := by
  unfold segmentReceived
  dsimp only
  split_ifs <;> (try split) <;> (try split_ifs) <;> rfl

theorem segmentReceived_senderIsn (r : TCPReceiver) (seg : TCPSegment) :
    (r.segmentReceived seg).senderIsn = if seg.header.syn then some seg.header.seqno else r.senderIsn := by
  unfold segmentReceived
  dsimp only
  split_ifs <;> (try split) <;> (try split_ifs) <;> rfl

/-- A segment leaves the reassembler alone or pushes its payload, with its FIN, at some
index. -/
theorem segmentReceived_reassembler (r : TCPReceiver) (seg : TCPSegment) :
    (r.segmentReceived seg).reassembler = r.reassembler ∨
      ∃ i, (r.segmentReceived seg).reassembler = r.reassembler.pushSubstring seg.payload i seg.header.fin := by
  unfold segmentReceived
  dsimp only
  generalize hr₁ : (if seg.header.syn = true then { r with senderIsn := some seg.header.seqno } else r) = r₁
  have hre : r₁.reassembler = r.reassembler := by
    rw [← hr₁]
    split <;> rfl
  rw [← hre]
  split
  · split
    · split
      · exact Or.inl rfl
      · exact Or.inr ⟨_, rfl⟩
    · exact Or.inl rfl
  · exact Or.inl rfl

/-- The receiver learns that the stream ended only from a segment with a FIN. -/
theorem segmentReceived_gotEof {r : TCPReceiver} {seg : TCPSegment}
    (h : (r.segmentReceived seg).reassembler.gotEof = true) :
    r.reassembler.gotEof = true ∨ seg.header.fin = true := by
  rcases segmentReceived_reassembler r seg with hr | ⟨i, hr⟩ <;> rw [hr] at h
  · exact Or.inl h
  · exact StreamReassembler.pushSubstring_gotEof h

/-- A segment without payload or FIN leaves a receiver that has assembled nothing as it is,
but for the ISN a SYN sets. -/
theorem segmentReceived_of_empty (r : TCPReceiver) (seg : TCPSegment)
    (hr : r.reassembler = .init r.capacity) (hp : seg.payload = []) (hf : seg.header.fin = false) :
    r.segmentReceived seg = if seg.header.syn then { r with senderIsn := some seg.header.seqno } else r := by
  have hre : (r.segmentReceived seg).reassembler = r.reassembler := by
    rcases segmentReceived_reassembler r seg with h | ⟨i, h⟩ <;> rw [h]
    rw [hp, hf, hr, StreamReassembler.pushSubstring_nil_init]
  have hisn := segmentReceived_senderIsn r seg
  have hcap := segmentReceived_capacity r seg
  generalize r.segmentReceived seg = r' at hre hisn hcap
  obtain ⟨re, ca, si⟩ := r'
  dsimp only at hre hisn hcap
  subst hre hcap hisn
  split <;> rfl

/-- A FIN without payload at the first sequence number after the SYN ends the inbound
stream of a receiver that has assembled nothing. -/
theorem segmentReceived_fin (r : TCPReceiver) (seg : TCPSegment) {isn : WrappingInt32}
    (hr : r.reassembler = .init r.capacity) (hisn : r.senderIsn = some isn) (hsyn : seg.header.syn = false)
    (hp : seg.payload = []) (hf : seg.header.fin = true) (hseq : seg.header.seqno = wrap (UInt64.ofNat 1) isn) :
    r.segmentReceived seg =
      { r with reassembler := { StreamReassembler.init r.capacity with
                                gotEof := true, output := (ByteStream.init r.capacity).endInput } } := by
  have hsr : r.inSynRecv = true := by
    simp [inSynRecv, ackno, hisn, streamOut, hr, StreamReassembler.init, ByteStream.init]
  have hA : (unwrap seg.header.seqno isn (UInt64.ofNat r.streamOut.bytesWritten)).toNat = 1 := by
    rw [hseq, streamOut, hr, show (StreamReassembler.init r.capacity).output.bytesWritten = 0 from rfl,
      unwrap_wrap_of_lt (by norm_num) (by norm_num)]
    rfl
  unfold segmentReceived
  simp only [hsyn, Bool.false_eq_true, if_false, hsr, if_true, hisn, hA, one_ne_zero, false_and]
  rw [hp, hf, hr, StreamReassembler.pushSubstring_fin_init]

/-- Once its inbound stream has ended, a receiver ignores every segment without SYN. -/
theorem segmentReceived_of_ended (r : TCPReceiver) (seg : TCPSegment) (he : r.streamOut.inputEnded = true)
    (hsyn : seg.header.syn = false) : r.segmentReceived seg = r := by
  unfold segmentReceived
  simp [hsyn, inSynRecv, he]

end TCPReceiver

end Sponge
