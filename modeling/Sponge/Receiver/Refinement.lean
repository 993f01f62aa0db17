import Sponge.TCPReceiver

/-!
The receiver as a reassembler fed at fixed offsets.

`FedReassembler` is the receiver as its specification reads: each segment's payload
is pushed into a `StreamReassembler` at the stream index its sequence number names
relative to the ISN, until the stream ends, and nothing happens before a SYN. The
ISN is the sequence number of the latest SYN: `segment_received` sets it on every
segment that carries one (`second_syn_moves_isn`). `segmentReceived_abs` says one
segment moves the receiver as it moves the fed reassembler, and
`receiver_refines_fed` follows from it along every sequence of segments.
-/

namespace Sponge

/-- The receiver's specification: the ISN it fixes its offsets with, and the
reassembler it feeds. -/
structure FedReassembler where
  isn : Option WrappingInt32
  reassembler : StreamReassembler

namespace FedReassembler

def init (capacity : Nat) : FedReassembler := ⟨none, StreamReassembler.init capacity⟩

/-- The stream index of a segment at absolute sequence number `a`: `a - 1`, or `0`
for the SYN at `a = 0`; none for another segment at `a = 0`. -/
def fedIndex (isn : WrappingInt32) (checkpoint : Nat) (seg : TCPSegment) : Option Nat :=
  let a := (unwrap seg.header.seqno isn (UInt64.ofNat checkpoint)).toNat
  if a = 0 then (if seg.header.syn then some 0 else none) else some (a - 1)

/-- Feed one segment: a SYN fixes the ISN; then, while the stream has not ended, the
payload is pushed at its index, with the FIN as `eof`. -/
def feed (f : FedReassembler) (seg : TCPSegment) : FedReassembler :=
  let isn := if seg.header.syn then some seg.header.seqno else f.isn
  match isn with
  | none => f
  | some i =>
    if f.reassembler.output.inputEnded then { f with isn }
    else
      match fedIndex i f.reassembler.output.bytesWritten seg with
      | none => { f with isn }
      | some index => ⟨isn, f.reassembler.pushSubstring seg.payload index seg.header.fin⟩

theorem feed_isn (f : FedReassembler) (seg : TCPSegment) :
    (f.feed seg).isn = if seg.header.syn then some seg.header.seqno else f.isn := by
  unfold feed
  generalize hI : (if seg.header.syn then some seg.header.seqno else f.isn) = I
  cases I with
  | none =>
    -- no ISN: the segment carries no SYN and none was seen before
    dsimp only
    split at hI
    · simp at hI
    · exact hI
  | some i =>
    dsimp only
    split
    · rfl
    · split <;> rfl

/-- The ISN a sequence of segments leaves: that of the latest SYN among them. -/
theorem isn_foldl_feed (segs : List TCPSegment) (f : FedReassembler) :
    (segs.foldl feed f).isn = ((segs.filter (·.header.syn)).getLast?.map (·.header.seqno)).or f.isn := by
  induction segs generalizing f with
  | nil => simp
  | cons seg segs ih =>
    rw [List.foldl_cons, ih, feed_isn]
    by_cases hs : seg.header.syn = true
    · cases hl : (segs.filter (·.header.syn)).getLast? <;>
        simp [hs, hl, List.getLast?_cons]
    · simp [hs]

end FedReassembler

namespace TCPReceiver

/-- What the receiver's state is, read as a fed reassembler. -/
def abs (r : TCPReceiver) : FedReassembler := ⟨r.senderIsn, r.reassembler⟩

/-- `ackno()` is the wrapped sequence number after the SYN, the assembled bytes and,
once the stream ended, the FIN. -/
theorem ackno_eq (r : TCPReceiver) :
    r.ackno = r.senderIsn.map fun isn =>
      wrap (UInt64.ofNat (r.streamOut.bytesWritten + 1 + if r.streamOut.inputEnded then 1 else 0)) isn := by
  unfold ackno
  cases r.senderIsn <;> rfl

theorem inSynRecv_iff (r : TCPReceiver) :
    r.inSynRecv = true ↔ r.senderIsn.isSome ∧ r.streamOut.inputEnded = false := by
  simp only [inSynRecv, ackno_eq, Option.isSome_map, Bool.and_eq_true, Bool.not_eq_eq_eq_not,
    Bool.not_true]

/-- **One segment moves the receiver as it moves the fed reassembler.** -/
theorem segmentReceived_abs (r : TCPReceiver) (seg : TCPSegment) :
    (r.segmentReceived seg).abs = r.abs.feed seg := by
  -- after the SYN check both sides hold the same ISN
  obtain ⟨r₁, hr₁, hisn, hre⟩ : ∃ r₁ : TCPReceiver,
      (if seg.header.syn then { r with senderIsn := some seg.header.seqno } else r) = r₁ ∧
      (if seg.header.syn then some seg.header.seqno else r.senderIsn) = r₁.senderIsn ∧
      r₁.reassembler = r.reassembler := ⟨_, rfl, by split <;> rfl, by split <;> rfl⟩
  unfold segmentReceived FedReassembler.feed
  dsimp only [abs]
  rw [hr₁, hisn]
  have hout : r₁.streamOut = r.reassembler.output := by rw [streamOut, hre]
  cases hi : r₁.senderIsn with
  | none =>
    -- no SYN yet: nothing happens on either side
    have hn : r₁.inSynRecv = false := by
      cases h : r₁.inSynRecv
      · rfl
      · simpa [hi] using (inSynRecv_iff r₁).mp h
    have hr : r.senderIsn = none := by
      rw [hi] at hisn
      split at hisn
      · simp at hisn
      · exact hisn
    simp only [hn, Bool.false_eq_true, if_false, hi, hre, hr]
  | some isn =>
    by_cases hend : r.reassembler.output.inputEnded = true
    · -- the stream has ended: only the ISN moves
      have hn : r₁.inSynRecv = false := by
        cases h : r₁.inSynRecv
        · rfl
        · simpa [hout, hend] using (inSynRecv_iff r₁).mp h
      simp only [hn, Bool.false_eq_true, if_false, hend, if_true, hi, hre]
    · have hy : r₁.inSynRecv = true := by simp [inSynRecv_iff, hi, hout, hend]
      simp only [hy, if_true, hend, Bool.false_eq_true, if_false, hout, hre,
        FedReassembler.fedIndex]
      -- the stream index: a segment at absolute sequence number 0 counts only with a SYN
      by_cases h0 : (unwrap seg.header.seqno isn (UInt64.ofNat r.reassembler.output.bytesWritten)).toNat = 0
      · cases hs : seg.header.syn <;> simp [h0, hi, hre]
      · simp [h0]

/-- Along any sequence of segments, the receiver stays the fed reassembler. -/
theorem abs_foldl (segs : List TCPSegment) (r : TCPReceiver) :
    (segs.foldl segmentReceived r).abs = segs.foldl FedReassembler.feed r.abs := by
  induction segs generalizing r with
  | nil => rfl
  | cons seg segs ih => rw [List.foldl_cons, List.foldl_cons, ih, segmentReceived_abs]

/-- **The receiver refines the fed reassembler.** After any sequence of segments,
its stream and unassembled bytes are those of a reassembler fed each payload at its
offset, the ISN is the sequence number of the latest SYN, and `ackno()` is the
sequence number after the SYN, the assembled bytes and the FIN. -/
theorem receiver_refines_fed (capacity : Nat) (segs : List TCPSegment) :
    (segs.foldl segmentReceived (init capacity)).reassembler =
      (segs.foldl FedReassembler.feed (FedReassembler.init capacity)).reassembler ∧
    (segs.foldl segmentReceived (init capacity)).senderIsn =
      (segs.filter (·.header.syn)).getLast?.map (·.header.seqno) ∧
    (segs.foldl segmentReceived (init capacity)).ackno =
      (segs.foldl segmentReceived (init capacity)).senderIsn.map fun isn =>
        wrap (UInt64.ofNat ((segs.foldl segmentReceived (init capacity)).streamOut.bytesWritten + 1 +
          if (segs.foldl segmentReceived (init capacity)).streamOut.inputEnded then 1 else 0)) isn := by
  have h := abs_foldl segs (init capacity)
  have hinit : (init capacity).abs = FedReassembler.init capacity := rfl
  rw [hinit] at h
  refine ⟨congrArg FedReassembler.reassembler h, ?_, ackno_eq _⟩
  have hisn := congrArg FedReassembler.isn h
  rw [FedReassembler.isn_foldl_feed] at hisn
  simpa [abs, FedReassembler.init] using hisn

/-- A later SYN moves the ISN: after a SYN at 0 and a SYN at 5 carrying one byte,
the ISN is 5, the byte is assembled, and `ackno()` is 7, not the `wrap(2, 0)` the
first SYN's ISN gives. -/
theorem second_syn_moves_isn :
    ([{ header := { seqno := ⟨0⟩, syn := true } }, { header := { seqno := ⟨5⟩, syn := true }, payload := [120] }].foldl
        segmentReceived (init 4)).senderIsn = some ⟨5⟩ ∧
    ([{ header := { seqno := ⟨0⟩, syn := true } }, { header := { seqno := ⟨5⟩, syn := true }, payload := [120] }].foldl
        segmentReceived (init 4)).streamOut.bytesWritten = 1 ∧
    ([{ header := { seqno := ⟨0⟩, syn := true } }, { header := { seqno := ⟨5⟩, syn := true }, payload := [120] }].foldl
        segmentReceived (init 4)).ackno = some ⟨7⟩ ∧
    some (wrap (UInt64.ofNat 2) ⟨0⟩) ≠ some ⟨7⟩ := by
  decide

end TCPReceiver

end Sponge
