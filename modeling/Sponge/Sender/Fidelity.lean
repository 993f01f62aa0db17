import Sponge.Sender.FillWindow
import Sponge.Lib.Intervals

/-!
What the sender puts into its segments.

`SegmentAt isn written a seg` says that a segment occupying sequence space from the
absolute sequence number `a` carries what the stream has there: its sequence number
is `a` wrapped, it has the SYN exactly at `0`, and its payload is the bytes of
`written` from index `a - 1 + [SYN]`. `SenderInv` is the sender's run invariant over
the bytes `written` to its stream so far: every segment it has pushed out is so
placed, the segments tile the sequence space up to `next_seqno_absolute()`, at most
one carries the FIN and it ends the tiling, and `next_seqno_absolute()` counts the
SYN, the bytes read and the FIN.

The invariant holds along every run in which nothing is written to the stream after
`end_input()` (`Reach.senderInv`); the `ByteStream` takes such writes, and a FIN sent
before one then no longer marks the end of the stream (`fin_before_late_write`).
-/

namespace Sponge

namespace TCPSender

open Intervals

/-- `[SYN]`: the sequence number the SYN takes. -/
def synBit (seg : TCPSegment) : Nat := if seg.header.syn then 1 else 0

/-- A segment occupying sequence space from `a` carries what the stream `written` has
there. -/
structure SegmentAt (isn : WrappingInt32) (written : List UInt8) (a : Nat) (seg : TCPSegment) :
    Prop where
  seqno : seg.header.seqno = wrap (UInt64.ofNat a) isn
  syn_iff : seg.header.syn = true ↔ a = 0
  payload : seg.payload = written.extract (a + synBit seg - 1) (a + synBit seg - 1 + seg.payload.length)
  payload_le : seg.payload.length ≤ TCPConfig.maxPayloadSize

/-- The sender's run invariant over the bytes `written` to its stream. -/
structure SenderInv (s : TCPSender) (written : List UInt8) : Prop where
  stream : s.stream.Inv
  written_length : written.length = s.stream.bytesWritten
  content : s.stream.content = written.drop s.stream.bytesRead
  /-- before the SYN nothing is read; after it, the SYN, the bytes read and the FIN -/
  next : (s.nextSeqno = 0 ∧ s.stream.bytesRead = 0 ∧ s.fined = false) ∨
    s.nextSeqno = 1 + s.stream.bytesRead + (if s.fined then 1 else 0)
  fined_eof : s.fined = true → s.stream.inputEnded = true ∧ s.stream.bytesRead = s.stream.bytesWritten
  pending_sub : ∀ seg ∈ s.segmentsPending, seg ∈ s.segmentsOut
  out : ∀ seg ∈ s.segmentsOut, 0 < seg.lengthInSequenceSpace → ∃ a, SegmentAt s.isn written a seg ∧
    a + seg.lengthInSequenceSpace ≤ s.nextSeqno ∧
    (seg.header.fin = true → s.fined = true ∧ a + seg.lengthInSequenceSpace = s.nextSeqno)
  fin_unique : ∀ seg ∈ s.segmentsOut, ∀ seg' ∈ s.segmentsOut,
    seg.header.fin = true → seg'.header.fin = true → seg = seg'
  syn_sent : 0 < s.nextSeqno ↔ ∃ seg ∈ s.segmentsOut, seg.header.syn = true
  fin_sent : s.fined = true ↔ ∃ seg ∈ s.segmentsOut, seg.header.fin = true

variable {s t : TCPSender} {w : List UInt8}

theorem lengthInSequenceSpace_eq (seg : TCPSegment) :
    seg.lengthInSequenceSpace = seg.payload.length + synBit seg + (if seg.header.fin then 1 else 0) := rfl

/-! ## Steps that keep the invariant -/

/-- Changing what the invariant does not read keeps it; so does pushing out again a
segment already pushed, and dropping outstanding segments. -/
theorem SenderInv.frame (hi : SenderInv s w) (hisn : t.isn = s.isn) (hstream : t.stream = s.stream)
    (hnext : t.nextSeqno = s.nextSeqno) (hfined : t.fined = s.fined)
    (hout : ∀ seg, seg ∈ t.segmentsOut ↔ seg ∈ s.segmentsOut)
    (hpend : ∀ seg ∈ t.segmentsPending, seg ∈ s.segmentsPending) : SenderInv t w where
  stream := hstream ▸ hi.stream
  written_length := hstream ▸ hi.written_length
  content := hstream ▸ hi.content
  next := by rw [hnext, hstream, hfined]; exact hi.next
  fined_eof := by rw [hfined, hstream]; exact hi.fined_eof
  pending_sub := fun seg h => (hout seg).mpr (hi.pending_sub seg (hpend seg h))
  out := by
    intro seg h hlen
    rw [hisn, hnext, hfined]
    exact hi.out seg ((hout seg).mp h) hlen
  fin_unique := fun seg h seg' h' => hi.fin_unique seg ((hout seg).mp h) seg' ((hout seg').mp h')
  syn_sent := by
    rw [hnext, hi.syn_sent]
    exact exists_congr fun seg => and_congr_left' (hout seg).symm
  fin_sent := by
    rw [hfined, hi.fin_sent]
    exact exists_congr fun seg => and_congr_left' (hout seg).symm

theorem SenderInv.init (capacity : Nat) (retxTimeout : UInt16) (fixedIsn : Option WrappingInt32)
    (randomIsn : WrappingInt32) : SenderInv (TCPSender.init capacity retxTimeout fixedIsn randomIsn) [] where
  stream := ByteStream.inv_init capacity
  written_length := rfl
  content := rfl
  next := Or.inl ⟨rfl, rfl, rfl⟩
  fined_eof := by simp [TCPSender.init]
  pending_sub := by simp [TCPSender.init]
  out := by simp [TCPSender.init]
  fin_unique := by simp [TCPSender.init]
  syn_sent := by simp [TCPSender.init]
  fin_sent := by simp [TCPSender.init]

/-- A segment already placed stays placed when the stream grows: its bytes were read. -/
theorem SegmentAt.append {isn : WrappingInt32} {a : Nat} {seg : TCPSegment}
    (h : SegmentAt isn w a seg) (extra : List UInt8) : SegmentAt isn (w ++ extra) a seg where
  seqno := h.seqno
  syn_iff := h.syn_iff
  payload := eq_extract_append h.payload
  payload_le := h.payload_le

/-- Writing to a stream whose input has not ended. -/
theorem SenderInv.write (hi : SenderInv s w) (hend : s.stream.inputEnded = false) (data : List UInt8) :
    SenderInv (s.streamInWrite data) (w ++ data.take (s.stream.write data).2) := by
  have hnf : s.fined = false := by
    cases hf : s.fined
    · rfl
    · simp [(hi.fined_eof hf).1] at hend
  have hread := hi.stream.read_le
  have hlen := hi.written_length
  refine ⟨hi.stream.write data, ?_, ?_, hi.next, fun h => by simp [streamInWrite, hnf] at h,
    hi.pending_sub, ?_,
    hi.fin_unique, hi.syn_sent, hi.fin_sent⟩
  · simp only [streamInWrite_stream, List.length_append, List.length_take, ByteStream.write_bytesWritten,
      ByteStream.write_count, hlen]
    omega
  · simp only [streamInWrite_stream, ByteStream.write_content, ByteStream.write_bytesRead, hi.content,
      ByteStream.write_count]
    rw [List.drop_append_of_le_length (by omega)]
  · intro seg h hpos
    obtain ⟨a, hat, hle, hfin⟩ := hi.out seg h hpos
    exact ⟨a, hat.append _, hle, hfin⟩

theorem SenderInv.endInput (hi : SenderInv s w) : SenderInv s.streamInEndInput w where
  stream := hi.stream.endInput
  written_length := hi.written_length
  content := hi.content
  next := hi.next
  fined_eof := fun h => ⟨rfl, (hi.fined_eof h).2⟩
  pending_sub := hi.pending_sub
  out := hi.out
  fin_unique := hi.fin_unique
  syn_sent := hi.syn_sent
  fin_sent := hi.fin_sent

theorem exists_mem_append_singleton {l : List TCPSegment} {x : TCPSegment} {p : TCPSegment → Prop} :
    (∃ seg ∈ l ++ [x], p seg) ↔ (∃ seg ∈ l, p seg) ∨ p x := by
  simp only [List.mem_append, List.mem_singleton, or_and_right, exists_or, exists_eq_left]

/-- `_send` keeps the outstanding segments among those pushed out. -/
theorem send_pending_sub (b : TCPSegmentBuilder) (h : ∀ seg ∈ s.segmentsPending, seg ∈ s.segmentsOut) :
    ∀ seg ∈ (s.send b).segmentsPending, seg ∈ (s.send b).segmentsOut := by
  intro seg hseg
  simp only [send_segmentsPending, send_segmentsOut] at hseg ⊢
  split at hseg
  · rcases List.mem_append.mp hseg with hseg | hseg
    · exact List.mem_append_left _ (h seg hseg)
    · exact List.mem_append_right _ hseg
  · exact List.mem_append_left _ (h seg hseg)

theorem send_nextSeqno_pos {b : TCPSegmentBuilder} (h : 0 < t.nextSeqno) : 0 < (t.send b).nextSeqno := by
  rw [send_nextSeqno]
  omega

/-- Sending a segment without payload or FIN: the SYN at sequence number 0, or an empty
segment. -/
theorem SenderInv.send_empty (hi : SenderInv s w) {b : TCPSegmentBuilder}
    (hseqno : b.seqno = s.nextSeqnoWrapped) (hdata : b.data = []) (hfin : b.fin = false)
    (hsyn : b.syn = true → s.nextSeqno = 0) : SenderInv (s.send b) w := by
  have hlen : b.buildSegment.lengthInSequenceSpace = if b.syn then 1 else 0 := by
    simp [lengthInSequenceSpace_buildSegment, hdata, hfin]
  refine ⟨by simpa using hi.stream, by simpa using hi.written_length, by simpa using hi.content,
    ?_, by simpa using hi.fined_eof, send_pending_sub b hi.pending_sub, ?_, ?_, ?_, ?_⟩
  · -- the SYN is the first sequence number
    rw [send_nextSeqno, send_stream, send_fined, hlen]
    cases hb : b.syn
    · simpa using hi.next
    · obtain ⟨-, h0, hf⟩ | hn := hi.next
      · right; simp [hsyn hb, h0, hf]
      · have := hsyn hb; omega
  · intro seg h hpos
    simp only [send_segmentsOut, List.mem_append, List.mem_singleton, send_isn, send_nextSeqno,
      send_fined] at h ⊢
    rcases h with h | rfl
    · obtain ⟨a, hat, hle, hfin'⟩ := hi.out seg h hpos
      exact ⟨a, hat, by omega, fun hf => by
        obtain ⟨h₁, h₂⟩ := hfin' hf
        refine ⟨h₁, ?_⟩
        -- the FIN ends the sequence space, so nothing that takes sequence space follows it
        cases hb : b.syn
        · simp [hlen, hb, h₂]
        · have := hsyn hb; omega⟩
    · -- the new segment is the SYN, at 0
      have hb : b.syn = true := by
        cases hb : b.syn
        · simp [hlen, hb] at hpos
        · rfl
      refine ⟨0, ⟨?_, ?_, ?_, ?_⟩, ?_, ?_⟩
      · simp [hseqno, nextSeqnoWrapped, hsyn hb]
      · simp [hb]
      · simp [hdata]
      · simp [hdata, TCPConfig.maxPayloadSize]
      · omega
      · simp [hfin]
  · intro seg h seg' h' hf hf'
    simp only [send_segmentsOut, List.mem_append, List.mem_singleton] at h h'
    rcases h with h | rfl
    · rcases h' with h' | rfl
      · exact hi.fin_unique seg h seg' h' hf hf'
      · simp [hfin] at hf'
    · simp [hfin] at hf
  · rw [send_nextSeqno, hlen, send_segmentsOut, exists_mem_append_singleton, ← hi.syn_sent]
    cases hb : b.syn
    · simp [hb]
    · simp only [if_true, buildSegment_syn, hb, or_true, iff_true]
      omega
  · rw [send_fined, hi.fin_sent, send_segmentsOut, exists_mem_append_singleton]
    simp [hfin]

/-- What `peek_output(n)` returns is `written` from `bytes_read()` on. -/
theorem SenderInv.peekOutput_eq_extract (hi : SenderInv s w) (n : Nat) :
    s.stream.peekOutput n =
      w.extract s.stream.bytesRead (s.stream.bytesRead + (s.stream.peekOutput n).length) := by
  rw [ByteStream.peekOutput_eq hi.stream, hi.content, List.extract_eq_take_drop,
    Nat.add_sub_cancel_left, List.length_take]
  exact List.take_eq_take_min

/-- Popping when there is nothing to peek changes nothing the invariant reads. -/
theorem SenderInv.pop_empty (hi : SenderInv s w) {n : Nat} (hpeek : s.stream.peekOutput n = []) :
    SenderInv { s with stream := s.stream.popOutput n } w := by
  have hk : min n s.stream.bufferSize = 0 := by
    rw [← ByteStream.peekOutput_length hi.stream, hpeek, List.length_nil]
  refine ⟨hi.stream.popOutput n, hi.written_length, ?_, ?_, ?_, hi.pending_sub, hi.out,
    hi.fin_unique, hi.syn_sent, hi.fin_sent⟩
  · simp only [ByteStream.popOutput_content hi.stream, ByteStream.popOutput_bytesRead, hk,
      List.drop_zero, Nat.add_zero]
    exact hi.content
  · simpa [hk] using hi.next
  · simpa [hk] using hi.fined_eof

/-- Sending the next `n` bytes of the stream, popped in the same step, with the FIN only
if the stream is then at its end. -/
theorem SenderInv.send_payload (hi : SenderInv s w) (hpos : 0 < s.nextSeqno) (hnf : s.fined = false)
    {n : Nat} (hn : n ≤ TCPConfig.maxPayloadSize) {b : TCPSegmentBuilder}
    (hseqno : b.seqno = s.nextSeqnoWrapped) (hdata : b.data = s.stream.peekOutput n)
    (hsyn : b.syn = false) (hisn : t.isn = s.isn) (hnext : t.nextSeqno = s.nextSeqno)
    (hout : t.segmentsOut = s.segmentsOut) (hpend : t.segmentsPending = s.segmentsPending)
    (hstream : t.stream = s.stream.popOutput n) (hfined : t.fined = b.fin)
    (heof : b.fin = true → t.stream.eof = true) : SenderInv (t.send b) w := by
  have hk := ByteStream.peekOutput_length hi.stream n
  have hn1 : s.nextSeqno = 1 + s.stream.bytesRead := by
    rcases hi.next with ⟨h0, -, -⟩ | h
    · omega
    · simpa [hnf] using h
  have hlen : b.buildSegment.lengthInSequenceSpace =
      min n s.stream.bufferSize + if b.fin then 1 else 0 := by
    rw [lengthInSequenceSpace_buildSegment, hdata, hk, hsyn]
    simp
  -- no FIN was sent before this segment
  have hnone : ∀ seg ∈ s.segmentsOut, seg.header.fin = false := by
    intro seg h
    cases hf : seg.header.fin
    · rfl
    · have hsent := hi.fin_sent.mpr ⟨seg, h, hf⟩
      rw [hnf] at hsent
      cases hsent
  have hst : t.stream.Inv := hstream ▸ hi.stream.popOutput n
  refine ⟨?_, ?_, ?_, ?_, ?_, send_pending_sub b (by rw [hpend, hout]; exact hi.pending_sub), ?_, ?_, ?_, ?_⟩
  · rw [send_stream]; exact hst
  · rw [send_stream, hstream, ByteStream.popOutput_bytesWritten]; exact hi.written_length
  · rw [send_stream, hstream, ByteStream.popOutput_content hi.stream, ByteStream.popOutput_bytesRead,
      hi.content, List.drop_drop]
  · right
    rw [send_nextSeqno, send_stream, send_fined, hlen, hnext, hstream, hfined,
      ByteStream.popOutput_bytesRead, hn1]
    omega
  · -- the FIN goes out only with the stream at its end, every byte read
    intro hf
    rw [send_fined, hfined] at hf
    obtain ⟨hend, hsz⟩ := (ByteStream.eof_iff _).mp (heof hf)
    have hr := hst.read_le
    rw [send_stream]
    exact ⟨hend, by simp only [ByteStream.bufferSize] at hsz; omega⟩
  · intro seg h hpos'
    rw [send_segmentsOut, List.mem_append, List.mem_singleton] at h
    rw [send_isn, send_nextSeqno, send_fined, hisn, hnext, hfined]
    rcases h with h | rfl
    · rw [hout] at h
      obtain ⟨a, hat, hle, -⟩ := hi.out seg h hpos'
      exact ⟨a, hat, by omega, fun hf => by simp [hnone seg h] at hf⟩
    · -- the new segment starts at `next_seqno_absolute()`, right after the bytes read
      refine ⟨s.nextSeqno, ⟨?_, ?_, ?_, ?_⟩, Nat.le_refl _, fun hf => ⟨hf, rfl⟩⟩
      · simp [hseqno, nextSeqnoWrapped]
      · simp only [buildSegment_syn, hsyn, Bool.false_eq_true, false_iff]
        omega
      · simp only [buildSegment_payload, synBit, buildSegment_syn, hsyn, Bool.false_eq_true,
          if_false, Nat.add_zero, hdata, hn1, Nat.add_sub_cancel_left]
        exact hi.peekOutput_eq_extract n
      · simp only [buildSegment_payload, hdata, hk]
        omega
  · intro seg h seg' h' hf hf'
    rw [send_segmentsOut, List.mem_append, List.mem_singleton, hout] at h h'
    rcases h with h | rfl
    · simp [hnone seg h] at hf
    · rcases h' with h' | rfl
      · simp [hnone seg' h'] at hf'
      · rfl
  · rw [send_nextSeqno, send_segmentsOut, hnext, hout, exists_mem_append_singleton]
    exact ⟨fun _ => Or.inl (hi.syn_sent.mp hpos), fun _ => by omega⟩
  · rw [send_fined, send_segmentsOut, hfined, hout, exists_mem_append_singleton, buildSegment_fin]
    constructor
    · exact Or.inr
    · rintro (⟨seg, h, hf⟩ | hf)
      · simp [hnone seg h] at hf
      · exact hf

/-- One pass of the loop keeps the invariant; the builder it goes on with carries no SYN,
and a FIN only once the FIN is sent. -/
theorem SenderInv.fillPass (hi : SenderInv s w) (hpos : 0 < s.nextSeqno) {b : TCPSegmentBuilder}
    (hsyn : b.syn = false) (hfin : b.fin = false) {s' : TCPSender} {ob : Option TCPSegmentBuilder}
    (h : s.fillPass b = (s', ob)) :
    SenderInv s' w ∧ 0 < s'.nextSeqno ∧
      ∀ b', ob = some b' → b'.syn = false ∧ (b'.fin = false ∨ s'.fined = true) := by
  rw [fillPass_eq] at h
  have hle : s.payloadLenLimit ≤ TCPConfig.maxPayloadSize := min_le_right _ _
  cases hk : s.passEnd with
  | shut =>
    -- no room, or the FIN is sent: the loop ends here
    simp only [hk, Prod.mk.injEq] at h
    obtain ⟨rfl, rfl⟩ := h
    exact ⟨hi, hpos, by simp⟩
  | idle =>
    -- nothing to send yet: the read took no byte
    simp only [hk, Prod.mk.injEq] at h
    obtain ⟨rfl, rfl⟩ := h
    exact ⟨hi.pop_empty (peekOutput_of_passEnd_idle hk), hpos, by simp⟩
  | data =>
    simp only [hk, Prod.mk.injEq] at h
    obtain ⟨rfl, rfl⟩ := h
    have hgo : 0 < s.payloadLenLimit ∧ s.fined = false := passEnd_ne_shut (by rw [hk]; decide)
    refine ⟨hi.send_payload hpos hgo.2 hle rfl rfl hsyn rfl rfl rfl rfl rfl (hgo.2.trans hfin.symm)
      (by simp [payloadBuilder, hfin]), send_nextSeqno_pos hpos, ?_⟩
    rintro _ ⟨⟩
    exact ⟨hsyn, Or.inl hfin⟩
  | dataFin =>
    -- the FIN goes out with the bytes, the stream at its end
    simp only [hk, Prod.mk.injEq] at h
    obtain ⟨rfl, rfl⟩ := h
    have hgo : 0 < s.payloadLenLimit ∧ s.fined = false := passEnd_ne_shut (by rw [hk]; decide)
    refine ⟨hi.send_payload hpos hgo.2 hle rfl rfl hsyn rfl rfl rfl rfl rfl rfl
      (fun _ => eof_of_passEnd_dataFin hk), send_nextSeqno_pos hpos, ?_⟩
    rintro _ ⟨⟩
    exact ⟨hsyn, Or.inr (by rw [send_fined])⟩

/-- The loop keeps the invariant: by induction on the fuel, a pass at a time. -/
theorem SenderInv.fillLoop (hi : SenderInv s w) (hpos : 0 < s.nextSeqno) (n : Nat)
    {b : TCPSegmentBuilder} (hsyn : b.syn = false) (hfin : b.fin = false ∨ s.fined = true) :
    SenderInv (TCPSender.fillLoop n s b) w := by
  induction n generalizing s b with
  | zero => exact hi
  | succ n ih =>
    rcases hfin with hfin | hf
    · rw [TCPSender.fillLoop]
      rcases hp : s.fillPass b with ⟨s', _ | b'⟩
      · exact (hi.fillPass hpos hsyn hfin hp).1
      · obtain ⟨hi', hpos', hb'⟩ := hi.fillPass hpos hsyn hfin hp
        obtain ⟨hsyn', hfin'⟩ := hb' b' rfl
        exact ih hi' hpos' hsyn' hfin'
    · rw [fillLoop_of_fined hf]
      exact hi

theorem SenderInv.fillWindow (hi : SenderInv s w) : SenderInv s.fillWindow w := by
  unfold TCPSender.fillWindow
  split
  · next hc =>
    -- closed: the SYN, at 0
    exact hi.send_empty rfl rfl rfl fun _ => by simpa [inClosed] using hc
  · next hc =>
    have hpos : 0 < s.nextSeqno := by
      simp only [inClosed, decide_eq_true_eq] at hc
      omega
    exact hi.fillLoop hpos _ rfl (Or.inl rfl)

theorem mem_of_mem_popAcked {isn : WrappingInt32} {left : Nat} {l : List TCPSegment}
    {seg : TCPSegment} (h : seg ∈ popAcked isn left l) : seg ∈ l := by
  induction l with
  | nil => simp [popAcked] at h
  | cons x l ih =>
    unfold popAcked at h
    split at h
    · exact List.mem_cons_of_mem _ (ih h)
    · exact h

theorem SenderInv.ackReceived (hi : SenderInv s w) (ackno : WrappingInt32) (windowSize : UInt16) :
    SenderInv (s.ackReceived ackno windowSize) w := by
  -- what an ack changes, the window, the timer and the outstanding segments, the
  -- invariant reads only through the outstanding segments, which it can only drop
  have hframe : ∀ t : TCPSender, t.isn = s.isn → t.stream = s.stream → t.nextSeqno = s.nextSeqno →
      t.fined = s.fined → t.segmentsOut = s.segmentsOut →
      (∀ seg ∈ t.segmentsPending, seg ∈ s.segmentsPending) → SenderInv t w :=
    fun t h₁ h₂ h₃ h₄ h₅ h₆ => hi.frame h₁ h₂ h₃ h₄ (fun seg => by rw [h₅]) h₆
  rw [ackReceived_eq]
  -- a new ackno drops acknowledged segments and fills the window; anything else only
  -- moves the window
  cases s.ackEnd ackno with
  | ignored => exact hframe _ rfl rfl rfl rfl rfl fun _ h => h
  | newData =>
    apply SenderInv.fillWindow
    refine hframe _ (acceptAck_isn ..) (acceptAck_stream ..) (acceptAck_nextSeqno ..) (acceptAck_fined ..)
      (acceptAck_segmentsOut ..) fun _ h => ?_
    rw [acceptAck_segmentsPending] at h
    exact mem_of_mem_popAcked h
  | sameAckno => exact hframe _ rfl rfl rfl rfl rfl fun _ h => h

/-- A tick changes neither the stream nor the sequence space, keeps the outstanding
segments, and may push out again the oldest of them. -/
theorem tick_frame (s : TCPSender) (ms : Nat) :
    (s.tick ms).isn = s.isn ∧ (s.tick ms).stream = s.stream ∧ (s.tick ms).nextSeqno = s.nextSeqno ∧
      (s.tick ms).fined = s.fined ∧ (s.tick ms).segmentsPending = s.segmentsPending ∧
      ((s.tick ms).segmentsOut = s.segmentsOut ∨
        ∃ seg ∈ s.segmentsPending, (s.tick ms).segmentsOut = s.segmentsOut ++ [seg]) := by
  unfold TCPSender.tick
  rcases hp : s.segmentsPending with _ | ⟨seg, rest⟩
  · -- nothing outstanding: only the timer moves
    dsimp only
    split <;> simp
  · -- the oldest outstanding segment may go out again
    dsimp only
    split_ifs <;> simp

theorem SenderInv.tick (hi : SenderInv s w) (ms : Nat) : SenderInv (s.tick ms) w := by
  obtain ⟨h₁, h₂, h₃, h₄, h₅, h₆⟩ := tick_frame s ms
  refine hi.frame h₁ h₂ h₃ h₄ (fun seg => ?_) (fun seg h => by rwa [h₅] at h)
  rcases h₆ with h₆ | ⟨x, hx, h₆⟩
  · rw [h₆]
  · -- a retransmission pushes out a segment already pushed
    rw [h₆, List.mem_append, List.mem_singleton]
    exact ⟨fun h => h.elim id fun e => e ▸ hi.pending_sub x hx, Or.inl⟩

theorem SenderInv.sendEmptySegment (hi : SenderInv s w) : SenderInv s.sendEmptySegment w :=
  hi.send_empty rfl rfl rfl fun h => by simp at h

/-- With the FIN sent, the sequence space is the SYN, the bytes read and the FIN. -/
theorem SenderInv.nextSeqno_of_fined (hi : SenderInv s w) (hfined : s.fined = true) :
    s.nextSeqno = 1 + s.stream.bytesRead + 1 := by
  rcases hi.next with ⟨-, -, hf⟩ | hn
  · simp [hfined] at hf
  · simpa [hfined] using hn

/-! ## Runs -/

/-- The sender's runs in which nothing is written to the stream after `end_input()`,
with the bytes the stream has accepted so far. -/
inductive Reach : TCPSender → List UInt8 → Prop
  | init (capacity : Nat) (retxTimeout : UInt16) (fixedIsn : Option WrappingInt32)
      (randomIsn : WrappingInt32) : Reach (TCPSender.init capacity retxTimeout fixedIsn randomIsn) []
  | write {s : TCPSender} {w : List UInt8} (data : List UInt8) :
      Reach s w → s.stream.inputEnded = false →
      Reach (s.streamInWrite data) (w ++ data.take (s.stream.write data).2)
  | endInput {s : TCPSender} {w : List UInt8} : Reach s w → Reach s.streamInEndInput w
  | fillWindow {s : TCPSender} {w : List UInt8} : Reach s w → Reach s.fillWindow w
  | ackReceived {s : TCPSender} {w : List UInt8} (ackno : WrappingInt32) (windowSize : UInt16) :
      Reach s w → Reach (s.ackReceived ackno windowSize) w
  | tick {s : TCPSender} {w : List UInt8} (ms : Nat) : Reach s w → Reach (s.tick ms) w
  | sendEmptySegment {s : TCPSender} {w : List UInt8} : Reach s w → Reach s.sendEmptySegment w

/-- The invariant holds along every such run: by induction on the run, one step lemma
per operation. -/
theorem Reach.senderInv (h : Reach s w) : SenderInv s w := by
  induction h with
  | init capacity retxTimeout fixedIsn randomIsn => exact SenderInv.init capacity retxTimeout fixedIsn randomIsn
  | write data _ hend ih => exact ih.write hend data
  | endInput _ ih => exact ih.endInput
  | fillWindow _ ih => exact ih.fillWindow
  | ackReceived ackno windowSize _ ih => exact ih.ackReceived ackno windowSize
  | tick ms _ ih => exact ih.tick ms
  | sendEmptySegment _ ih => exact ih.sendEmptySegment

/-- **Stream fidelity.** Along every run that writes nothing after `end_input()`, every
segment occupying sequence space that the sender has pushed out, first transmissions and
retransmissions alike, sits at an absolute sequence number `a` where it carries the SYN
exactly at `0` and the written bytes from `a - 1 + [SYN]`, at most
`MAX_PAYLOAD_SIZE` of them, and ends by `next_seqno_absolute()`; a FIN comes only once
the stream has ended, marks its end and ends the sequence space; at most one segment
carries a FIN; and `next_seqno_absolute()` counts the SYN, the bytes read and the FIN. -/
theorem sender_stream_fidelity (h : Reach s w) :
    w.length = s.stream.bytesWritten ∧
    (∀ seg ∈ s.segmentsOut, 0 < seg.lengthInSequenceSpace → ∃ a, SegmentAt s.isn w a seg ∧
      a + seg.lengthInSequenceSpace ≤ s.nextSeqno ∧
      (seg.header.fin = true → s.stream.inputEnded = true ∧
        a + synBit seg + seg.payload.length = s.stream.bytesWritten + 1 ∧
        a + seg.lengthInSequenceSpace = s.nextSeqno)) ∧
    (∀ seg ∈ s.segmentsOut, ∀ seg' ∈ s.segmentsOut,
      seg.header.fin = true → seg'.header.fin = true → seg = seg') ∧
    s.nextSeqno = (if ∃ seg ∈ s.segmentsOut, seg.header.syn = true then 1 else 0) +
      s.stream.bytesRead + (if ∃ seg ∈ s.segmentsOut, seg.header.fin = true then 1 else 0) := by
  have hi := h.senderInv
  refine ⟨hi.written_length, ?_, hi.fin_unique, ?_⟩
  · intro seg hseg hpos
    obtain ⟨a, hat, hle, hfin⟩ := hi.out seg hseg hpos
    refine ⟨a, hat, hle, fun hf => ?_⟩
    obtain ⟨hfined, hend⟩ := hfin hf
    obtain ⟨hended, hrw⟩ := hi.fined_eof hfined
    have hn := hi.nextSeqno_of_fined hfined
    refine ⟨hended, ?_, hend⟩
    rw [lengthInSequenceSpace_eq, hf, if_pos rfl] at hend
    omega
  · simp only [← hi.syn_sent, ← hi.fin_sent]
    rcases hi.next with ⟨h0, hr, hf⟩ | hn
    · simp [h0, hr, hf]
    · rw [if_pos (by omega)]
      omega

theorem sender_stream_fidelity_run :
    let s := ((((init 10 1000 (some ⟨0⟩) ⟨0⟩).fillWindow.ackReceived ⟨1⟩ 100).streamInWrite
      [104, 105]).streamInEndInput.fillWindow).tick 1000
    let w := [] ++ [104, 105].take
      (((init 10 1000 (some ⟨0⟩) ⟨0⟩).fillWindow.ackReceived ⟨1⟩ 100).stream.write [104, 105]).2
    w.length = s.stream.bytesWritten ∧
    (∀ seg ∈ s.segmentsOut, 0 < seg.lengthInSequenceSpace → ∃ a, SegmentAt s.isn w a seg ∧
      a + seg.lengthInSequenceSpace ≤ s.nextSeqno ∧
      (seg.header.fin = true → s.stream.inputEnded = true ∧
        a + synBit seg + seg.payload.length = s.stream.bytesWritten + 1 ∧
        a + seg.lengthInSequenceSpace = s.nextSeqno)) ∧
    (∀ seg ∈ s.segmentsOut, ∀ seg' ∈ s.segmentsOut,
      seg.header.fin = true → seg'.header.fin = true → seg = seg') ∧
    s.nextSeqno = (if ∃ seg ∈ s.segmentsOut, seg.header.syn = true then 1 else 0) +
      s.stream.bytesRead + (if ∃ seg ∈ s.segmentsOut, seg.header.fin = true then 1 else 0) :=
  sender_stream_fidelity (.tick 1000 (.fillWindow (.endInput
    (.write [104, 105] (.ackReceived ⟨1⟩ 100 (.fillWindow (.init 10 1000 (some ⟨0⟩) ⟨0⟩))) (by decide)))))

/-- A write after `end_input()` is taken, and a FIN sent before it is then retransmitted
as the end of a stream that has grown: after the SYN is acknowledged, the input is ended
and the FIN goes out at absolute sequence number 1, so for an empty stream; one byte is
then written, and the retransmission on expiry still carries the FIN at 1, where
`bytes_written() + 1` is 2. -/
theorem fin_before_late_write :
    ((((init 10 1000 (some ⟨0⟩) ⟨0⟩).fillWindow.ackReceived ⟨1⟩ 100).streamInEndInput.fillWindow.streamInWrite
      [120]).tick 1000).isn = ⟨0⟩ ∧
    ((((init 10 1000 (some ⟨0⟩) ⟨0⟩).fillWindow.ackReceived ⟨1⟩ 100).streamInEndInput.fillWindow.streamInWrite
      [120]).tick 1000).segmentsOut.getLast? = some { header := { seqno := ⟨1⟩, fin := true } } ∧
    ((((init 10 1000 (some ⟨0⟩) ⟨0⟩).fillWindow.ackReceived ⟨1⟩ 100).streamInEndInput.fillWindow.streamInWrite
      [120]).tick 1000).stream.bytesWritten = 1 := by
  decide

end TCPSender

end Sponge
