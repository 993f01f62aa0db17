import Sponge.Connection.Acknowledgement

/-!
The window a connection advertises never shrinks.

`_send_outbound_segments()` stamps each segment with the receiver's `ackno()` and with
`window_size()` cut to 16 bits. Behind the ackno stands `absAckno`: the SYN, the bytes
written and the FIN. The right edge of the window, `absAckno` plus the window, is the
bytes read plus the capacity (plus the SYN and FIN), or `absAckno + 65535` under the cut.
A reassembler only writes to its output and ends it (`ByteStream.Feeds`), the application
only reads, and a reset only marks the stream failed; so every call moves the receiver
forward (`TCPReceiver.Advances`) and with it both numbers. Within one call the receiver
changes before anything is stamped (`Emits.step`). `stampLog` pairs each emitted segment
with the `absAckno` it was stamped with, and along every run the log is ordered
(`window_never_shrinks`); once the peer's SYNs all carry one ISN, every ACK is its number
wrapped with that ISN.
-/

namespace Sponge

namespace ByteStream

/-- `s'` is `s` after writes and the end of its input: the capacity and the count of reads
stay, the count of writes and the end only move forward. -/
structure Feeds (s s' : ByteStream) : Prop where
  capacity : s'.capacity = s.capacity
  bytesRead : s'.bytesRead = s.bytesRead
  bytesWritten : s.bytesWritten ≤ s'.bytesWritten
  inputEnded : s.inputEnded = true → s'.inputEnded = true
  inv : s.Inv → s'.Inv

namespace Feeds

variable {s s₁ s₂ : ByteStream}

theorem refl (s : ByteStream) : Feeds s s := ⟨rfl, rfl, le_rfl, id, id⟩

theorem trans (h₁ : Feeds s s₁) (h₂ : Feeds s₁ s₂) : Feeds s s₂ :=
  ⟨h₂.capacity.trans h₁.capacity, h₂.bytesRead.trans h₁.bytesRead, h₁.bytesWritten.trans h₂.bytesWritten,
    h₂.inputEnded ∘ h₁.inputEnded, h₂.inv ∘ h₁.inv⟩

theorem write (s : ByteStream) (data : List UInt8) : Feeds s (s.write data).1 :=
  ⟨rfl, rfl, by simp, id, fun hs => hs.write data⟩

theorem endInput (s : ByteStream) : Feeds s s.endInput :=
  ⟨rfl, rfl, le_rfl, fun _ => rfl, fun hs => hs.endInput⟩

end Feeds

end ByteStream

namespace StreamReassembler

open ByteStream

theorem reassemble_feeds (r : StreamReassembler) (l : List Segment) : r.output.Feeds (reassemble r l).output := by
  induction l generalizing r with
  | nil => exact .refl _
  | cons s rest ih =>
    simp only [reassemble]
    split
    · split
      · exact .write _ _
      · split
        · exact .write _ _
        · refine (Feeds.write r.output s.str).trans ?_
          exact ih { r with output := (r.output.write s.str).1,
                            unassembledBytes := r.unassembledBytes - (r.output.write s.str).2 }
    · exact .refl _

theorem closeInput_feeds (r : StreamReassembler) : r.output.Feeds r.closeInput.output := by
  unfold closeInput
  split
  · exact .endInput _
  · exact .refl _

/-- `push_substring` only writes to its output and ends it. -/
theorem pushSubstring_feeds (r : StreamReassembler) (data : List UInt8) (index : Nat) (eof : Bool) :
    r.output.Feeds (r.pushSubstring data index eof).output := by
  unfold pushSubstring
  split_ifs
  · exact .refl _
  · exact .refl _
  · refine Feeds.trans ?_ ((reassemble_feeds _ _).trans (closeInput_feeds _))
    rw [pushInterval_output, recordEof_output]
    exact .refl _

end StreamReassembler

namespace TCPReceiver

open ByteStream

/-- `r'` is the receiver `r` later on: its inbound stream has only been written, read and
ended, and an ISN, once known, stays known. -/
structure Advances (r r' : TCPReceiver) : Prop where
  capacity : r'.streamOut.capacity = r.streamOut.capacity
  bytesRead : r.streamOut.bytesRead ≤ r'.streamOut.bytesRead
  bytesWritten : r.streamOut.bytesWritten ≤ r'.streamOut.bytesWritten
  inputEnded : r.streamOut.inputEnded = true → r'.streamOut.inputEnded = true
  inv : r.streamOut.Inv → r'.streamOut.Inv
  known : r.senderIsn.isSome = true → r'.senderIsn.isSome = true

namespace Advances

variable {r r₁ r₂ : TCPReceiver}

theorem refl (r : TCPReceiver) : Advances r r := ⟨rfl, le_rfl, le_rfl, id, id, id⟩

theorem trans (h₁ : Advances r r₁) (h₂ : Advances r₁ r₂) : Advances r r₂ :=
  ⟨h₂.capacity.trans h₁.capacity, h₁.bytesRead.trans h₂.bytesRead, h₁.bytesWritten.trans h₂.bytesWritten,
    h₂.inputEnded ∘ h₁.inputEnded, h₂.inv ∘ h₁.inv, h₂.known ∘ h₁.known⟩

theorem of_feeds (h : r.streamOut.Feeds r'.streamOut) (hk : r.senderIsn.isSome = true → r'.senderIsn.isSome = true) :
    Advances r r' :=
  ⟨h.capacity, h.bytesRead.ge, h.bytesWritten, h.inputEnded, h.inv, hk⟩

theorem segmentReceived (r : TCPReceiver) (seg : TCPSegment) : Advances r (r.segmentReceived seg) := by
  have hk : r.senderIsn.isSome = true → (r.segmentReceived seg).senderIsn.isSome = true := by
    rw [segmentReceived_senderIsn]
    split <;> simp
  refine of_feeds ?_ hk
  unfold streamOut
  rcases segmentReceived_reassembler r seg with h | ⟨i, h⟩ <;> rw [h]
  · exact .refl _
  · exact StreamReassembler.pushSubstring_feeds _ _ _ _

theorem popOutput (r : TCPReceiver) (len : Nat) :
    Advances r { r with reassembler := r.reassembler.popOutput len } :=
  ⟨rfl, by simp [streamOut, StreamReassembler.popOutput], le_rfl, id, fun hs => hs.popOutput len, id⟩

theorem setError (r : TCPReceiver) :
    Advances r { r with reassembler := { r.reassembler with output := r.reassembler.output.setError } } :=
  ⟨rfl, le_rfl, le_rfl, id, fun hs => hs.setError, id⟩

theorem absAckno_le (h : Advances r r') : r.absAckno ≤ r'.absAckno := by
  have hw := h.bytesWritten
  unfold absAckno
  by_cases he : r.streamOut.inputEnded = true
  · rw [if_pos he, if_pos (h.inputEnded he)]
    omega
  · rw [if_neg he]
    split_ifs <;> omega

/-- The right edge of the window, the ackno plus the window cut to 16 bits, only moves
forward: it is the bytes read plus the capacity, or the ackno plus `65535`. -/
theorem windowEnd_le (h : Advances r r') (hi : r.streamOut.Inv) :
    r.absAckno + min r.windowSize 65535 ≤ r'.absAckno + min r'.windowSize 65535 := by
  have hi' := h.inv hi
  have ha := h.absAckno_le
  have hr₁ := hi.read_le
  have hs₁ := hi.size_le
  have hr₂ := hi'.read_le
  have hs₂ := hi'.size_le
  have hc := h.capacity
  have hread := h.bytesRead
  unfold windowSize remainingCapacity
  unfold bufferSize at hs₁ hs₂ ⊢
  unfold absAckno at ha ⊢
  by_cases he : r.streamOut.inputEnded = true
  · rw [if_pos he, if_pos (h.inputEnded he)] at ha ⊢
    omega
  · rw [if_neg he] at ha ⊢
    split_ifs at ha ⊢ <;> omega

end Advances

end TCPReceiver

namespace TCPConnection

open TCPSender TCPReceiver

/-- The window and the acknowledgement of a segment as `_send_outbound_segments()` writes
them from the receiver `r`: `window_size()` cut to 16 bits, and ACK with `ackno()` once
there is one. -/
def Stamped (r : TCPReceiver) (seg : TCPSegment) : Prop :=
  seg.header.win.toNat = min r.windowSize 65535 ∧ seg.header.ack = r.ackno.isSome ∧
    (seg.header.ack = true → r.ackno = some seg.header.ackno)

theorem stampSegment_win (c : TCPConnection) (seg : TCPSegment) :
    (c.stampSegment seg).header.win.toNat = min c.receiver.windowSize 65535 := by
  have hwin : (c.stampSegment seg).header.win =
      if c.receiver.windowSize > 65535 then 65535 else UInt16.ofNat c.receiver.windowSize := by
    unfold stampSegment
    split <;> split_ifs <;> rfl
  rw [hwin]
  split
  · simp only [UInt16.reduceToNat]
    omega
  · rw [UInt16.toNat_ofNat']
    omega

theorem stampSegment_stamped (c : TCPConnection) {seg : TCPSegment} (hseg : seg.header.ack = false) :
    Stamped c.receiver (c.stampSegment seg) := by
  refine ⟨c.stampSegment_win seg, ?_, c.stampSegment_ackno hseg⟩
  · unfold stampSegment
    cases c.receiver.ackno <;> split_ifs <;> simp_all

/-- One call of the connection: the receiver advances, the connection's queue grows by
segments stamped with the receiver after the call, and the sender sets no ACK. -/
structure Emits (c c' : TCPConnection) : Prop where
  receiver : c.receiver.Advances c'.receiver
  out : ∃ new, c'.segmentsOut = c.segmentsOut ++ new ∧ ∀ seg ∈ new, Stamped c'.receiver seg
  sender : c'.sender.NoAcks

namespace Emits

variable {c c₁ c₂ : TCPConnection}

theorem refl (hs : c.sender.NoAcks) : Emits c c := ⟨.refl _, ⟨[], by simp, by simp⟩, hs⟩

/-- A step that emits nothing may come first. -/
theorem pre (h : Emits c₁ c₂) (hr : c.receiver.Advances c₁.receiver) (ho : c₁.segmentsOut = c.segmentsOut) :
    Emits c c₂ := by
  obtain ⟨new, hnew, hst⟩ := h.out
  exact ⟨hr.trans h.receiver, ⟨new, by rw [hnew, ho], hst⟩, h.sender⟩

/-- A step that leaves the receiver alone may come after. -/
theorem trans (h₁ : Emits c c₁) (h₂ : Emits c₁ c₂) (hr : c₂.receiver = c₁.receiver) : Emits c c₂ := by
  obtain ⟨new₁, hnew₁, hst₁⟩ := h₁.out
  obtain ⟨new₂, hnew₂, hst₂⟩ := h₂.out
  refine ⟨h₁.receiver.trans h₂.receiver, ⟨new₁ ++ new₂, by rw [hnew₂, hnew₁, List.append_assoc], ?_⟩, h₂.sender⟩
  intro seg hseg
  rcases List.mem_append.mp hseg with h | h
  · exact hr ▸ hst₁ seg h
  · exact hst₂ seg h

theorem congr (h : Emits c c₁) (hr : c₂.receiver = c₁.receiver) (ho : c₂.segmentsOut = c₁.segmentsOut)
    (hs : c₂.sender = c₁.sender) : Emits c c₂ := by
  obtain ⟨new, hnew, hst⟩ := h.out
  exact ⟨hr ▸ h.receiver, ⟨new, by rw [ho, hnew], hr ▸ hst⟩, hs ▸ h.sender⟩

theorem checkDone (h : Emits c c₁) : Emits c c₁.checkDone :=
  h.congr (checkDone_receiver _) (checkDone_segmentsOut _) (checkDone_sender _)

theorem sendOutboundSegments (hs : c.sender.NoAcks) : Emits c c.sendOutboundSegments := by
  refine ⟨.refl _, ⟨c.sender.segmentsOut.map c.stampSegment, rfl, ?_⟩,
    ⟨fun _ h => (List.not_mem_nil h).elim, hs.pending⟩⟩
  intro seg hseg
  obtain ⟨e, he, rfl⟩ := List.mem_map.mp hseg
  exact c.stampSegment_stamped (hs.out e he)

/-- The pattern of the application's calls: a new sender, then its queue goes out. -/
theorem sendOutboundSegments_of {s : TCPSender} (hs : s.NoAcks) : Emits c { c with sender := s }.sendOutboundSegments :=
  pre (sendOutboundSegments (c := { c with sender := s }) hs) (.refl _) rfl

theorem reset (hs : c.sender.NoAcks) (sendRst : Bool) : Emits c (c.reset sendRst) := by
  unfold TCPConnection.reset
  extract_lets _ _ _ _ _ c₁
  have hs₁ : c₁.sender.NoAcks := ⟨fun _ h => (List.not_mem_nil h).elim, hs.pending⟩
  have h₁ : c.receiver.Advances c₁.receiver := Advances.setError c.receiver
  refine pre ?_ h₁ rfl
  split
  · exact pre (sendOutboundSegments hs₁.sendEmptySegment) (.refl _) rfl
  · exact refl hs₁

/-- Every call emits only segments stamped with the receiver as the call leaves it: the
receiver changes, if at all, before anything is stamped. -/
theorem step (hs : c.sender.NoAcks) (e : Event) : Emits c (c.step e) := by
  cases e with
  | connect =>
    show Emits c c.connect
    unfold TCPConnection.connect
    exact (sendOutboundSegments_of hs.fillWindow).checkDone
  | write data => exact sendOutboundSegments_of (hs.streamInWrite data).fillWindow
  | endInputStream =>
    show Emits c c.endInputStream
    unfold TCPConnection.endInputStream
    exact (sendOutboundSegments_of hs.streamInEndInput.fillWindow).checkDone
  | tick ms =>
    show Emits c (c.tick ms)
    unfold TCPConnection.tick
    extract_lets c₁ c₂
    -- past the retransmission limit, the reset stamps its RST before the queue goes out
    have h₂ : Emits c₁ c₂ := by
      dsimp only [c₂]
      split
      · exact reset (hs.tick ms) true
      · exact refl (hs.tick ms)
    have h₁ : c.receiver.Advances c₁.receiver := .refl _
    exact ((h₂.pre h₁ rfl).trans (sendOutboundSegments h₂.sender) rfl).checkDone
  | read len =>
    have h₁ : c.receiver.Advances (c.readInbound len).1.receiver := Advances.popOutput c.receiver len
    exact pre (refl hs) h₁ rfl
  | segmentReceived seg =>
    show Emits c (c.segmentReceived seg)
    have h₀ : c.receiver.Advances { c with timeSinceLastSegmentReceived := 0 }.receiver := .refl _
    have hs₀ : { c with timeSinceLastSegmentReceived := 0 }.sender.NoAcks := hs
    rcases segmentReceived_cases c seg with e | e | ⟨s₂, s₃, l, hs₂, hs₃, -, e⟩ <;> rw [e]
    · exact pre (refl hs₀) h₀ rfl
    · exact pre (reset hs₀ false) h₀ rfl
    · have h₃ : s₃.NoAcks :=
        answer_preserves (P := NoAcks) hs₂ hs₃ hs (hs.ackReceived _ _).fillWindow NoAcks.fillWindow
          NoAcks.sendEmptySegment
      let d : TCPConnection :=
        { c with timeSinceLastSegmentReceived := 0, receiver := c.receiver.segmentReceived seg, sender := s₃ }
      have hd : Emits c d.sendOutboundSegments :=
        pre (sendOutboundSegments (c := d) h₃) (Advances.segmentReceived _ _) rfl
      have hl : Emits c { d.sendOutboundSegments with lingerAfterStreamsFinish := l } := hd.congr rfl rfl rfl
      exact hl.checkDone

end Emits

/-- Only a SYN sets the receiver's ISN, to its sequence number. -/
theorem step_senderIsn (c : TCPConnection) (e : Event) :
    (c.step e).receiver.senderIsn = c.receiver.senderIsn ∨
      ∃ seg, e = .segmentReceived seg ∧ seg.header.syn = true ∧
        (c.step e).receiver.senderIsn = some seg.header.seqno := by
  cases e with
  | connect => rcases step_receiver_of_control c (e := .connect) trivial with h | h <;> exact .inl (by rw [h])
  | endInputStream =>
    rcases step_receiver_of_control c (e := .endInputStream) trivial with h | h <;> exact .inl (by rw [h])
  | tick ms => rcases step_receiver_of_control c (e := .tick ms) trivial with h | h <;> exact .inl (by rw [h])
  | write data => exact .inl rfl
  | read len => exact .inl rfl
  | segmentReceived seg =>
    simp only [TCPConnection.step]
    rcases segmentReceived_receiver c seg with h | h | h <;> rw [h]
    · exact .inl rfl
    · exact .inl rfl
    · rw [TCPReceiver.segmentReceived_senderIsn]
      split
      · next hsyn => exact .inr ⟨seg, rfl, hsyn, rfl⟩
      · exact .inl rfl

/-! ## Along a run -/

/-- One call, with each segment it emitted paired with the absolute ackno of the receiver
after the call. -/
def logEvent (acc : TCPConnection × List (Nat × TCPSegment)) (e : Event) : TCPConnection × List (Nat × TCPSegment) :=
  let c := acc.1.step e
  (c, acc.2 ++ (c.segmentsOut.drop acc.1.segmentsOut.length).map fun seg => (c.receiver.absAckno, seg))

/-- The segments a run emits, each with the absolute ackno it was stamped with. -/
def stampLog (c : TCPConnection) (events : List Event) : List (Nat × TCPSegment) :=
  (events.foldl logEvent (c, [])).2

theorem foldl_logEvent_fst (c : TCPConnection) (L : List (Nat × TCPSegment)) (events : List Event) :
    (events.foldl logEvent (c, L)).1 = c.run events := by
  induction events generalizing c L with
  | nil => rfl
  | cons e events ih => exact ih _ _

theorem stampLog_append (c : TCPConnection) (events : List Event) (e : Event) :
    stampLog c (events ++ [e]) = stampLog c events ++
      (((c.run events).step e).segmentsOut.drop (c.run events).segmentsOut.length).map
        fun seg => (((c.run events).step e).receiver.absAckno, seg) := by
  unfold stampLog
  rw [List.foldl_append, List.foldl_cons, List.foldl_nil]
  have h := foldl_logEvent_fst c [] events
  generalize events.foldl logEvent (c, []) = acc at h ⊢
  obtain ⟨c', L⟩ := acc
  subst h
  rfl

theorem run_append (c : TCPConnection) (events : List Event) (e : Event) :
    c.run (events ++ [e]) = (c.run events).step e := by
  rw [run, List.foldl_append]
  rfl

/-- `y` was stamped no earlier than `x`: its absolute ackno and the right edge of its
window are no smaller, and it carries ACK if `x` does. -/
def WindowLe (x y : Nat × TCPSegment) : Prop :=
  x.1 ≤ y.1 ∧ x.1 + x.2.header.win.toNat ≤ y.1 + y.2.header.win.toNat ∧
    (x.2.header.ack = true → y.2.header.ack = true)

/-- A logged segment is no further than what the receiver `r` would stamp now. -/
def Below (x : Nat × TCPSegment) (r : TCPReceiver) : Prop :=
  x.1 ≤ r.absAckno ∧ x.1 + x.2.header.win.toNat ≤ r.absAckno + min r.windowSize 65535 ∧
    (x.2.header.ack = true → r.senderIsn.isSome = true)

theorem ackno_isSome (r : TCPReceiver) : r.ackno.isSome = r.senderIsn.isSome := by
  unfold TCPReceiver.ackno
  cases r.senderIsn <;> rfl

theorem Stamped.below {r : TCPReceiver} {seg : TCPSegment} (hs : Stamped r seg) : Below (r.absAckno, seg) r :=
  ⟨le_rfl, by rw [hs.1], fun hack => by rw [← ackno_isSome, ← hs.2.1, hack]⟩

theorem Below.windowLe {x : Nat × TCPSegment} {r : TCPReceiver} {seg : TCPSegment} (hb : Below x r)
    (hs : Stamped r seg) : WindowLe x (r.absAckno, seg) :=
  ⟨hb.1, by rw [hs.1]; exact hb.2.1, fun hack => by rw [hs.2.1, ackno_isSome]; exact hb.2.2 hack⟩

theorem Below.advance {x : Nat × TCPSegment} {r r' : TCPReceiver} (hb : Below x r) (ha : r.Advances r')
    (hi : r.streamOut.Inv) : Below x r' :=
  ⟨hb.1.trans ha.absAckno_le, hb.2.1.trans (ha.windowEnd_le hi), ha.known ∘ hb.2.2⟩

/-- A stamped segment with ACK acknowledges the receiver's absolute ackno wrapped with its
ISN: a segment gets ACK only once the receiver knows one. -/
theorem Stamped.ackno_eq {r : TCPReceiver} {seg : TCPSegment} {isn : WrappingInt32} (hs : Stamped r seg)
    (hisn : r.senderIsn = none ∨ r.senderIsn = some isn) (hack : seg.header.ack = true) :
    seg.header.ackno = wrap (UInt64.ofNat r.absAckno) isn := by
  have hknown : r.senderIsn.isSome = true := by
    rw [← ackno_isSome, ← hs.2.1]
    exact hack
  have hsome : r.senderIsn = some isn := by
    rcases hisn with h0 | h1
    · rw [h0] at hknown
      cases hknown
    · exact h1
  have hackno := hs.2.2 hack
  rw [TCPReceiver.ackno_of_senderIsn hsome] at hackno
  exact (Option.some.inj hackno).symm

/-- What a run of a connection has emitted, read against its receiver now, when every SYN
it received carried the ISN `isn`. -/
structure WindowInv (isn : WrappingInt32) (c₀ : TCPConnection) (events : List Event) : Prop where
  out : (stampLog c₀ events).map Prod.snd = (c₀.run events).segmentsOut
  sender : (c₀.run events).sender.NoAcks
  stream : (c₀.run events).receiver.streamOut.Inv
  senderIsn : (c₀.run events).receiver.senderIsn = none ∨ (c₀.run events).receiver.senderIsn = some isn
  below : ∀ x ∈ stampLog c₀ events, Below x (c₀.run events).receiver
  acked : ∀ x ∈ stampLog c₀ events, x.2.header.ack = true → x.2.header.ackno = wrap (UInt64.ofNat x.1) isn
  ordered : (stampLog c₀ events).Pairwise WindowLe

theorem windowInv_init (cfg : TCPConfig) (randomIsn isn : WrappingInt32) :
    WindowInv isn (init cfg randomIsn) [] where
  out := rfl
  sender := ⟨by simp [run, TCPConnection.init, TCPSender.init], by simp [run, TCPConnection.init, TCPSender.init]⟩
  stream := ByteStream.inv_init _
  senderIsn := .inl rfl
  below := by simp [stampLog]
  acked := by simp [stampLog]
  ordered := List.Pairwise.nil

/-- One more call keeps the invariant, if a SYN it delivers carries `isn`: its segments,
all stamped with the receiver after it, are logged after everything the receiver has
since moved past. -/
theorem WindowInv.append {isn : WrappingInt32} {c₀ : TCPConnection} {events : List Event}
    (h : WindowInv isn c₀ events) (e : Event)
    (he : ∀ seg, e = .segmentReceived seg → seg.header.syn = true → seg.header.seqno = isn) :
    WindowInv isn c₀ (events ++ [e]) := by
  have hE := Emits.step h.sender e
  obtain ⟨new, hnew, hst⟩ := hE.out
  have hrun := run_append c₀ events e
  have hlog : stampLog c₀ (events ++ [e]) =
      stampLog c₀ events ++ new.map fun seg => (((c₀.run events).step e).receiver.absAckno, seg) := by
    rw [stampLog_append, hnew, List.drop_left]
  have hbelow : ∀ x ∈ stampLog c₀ events, Below x ((c₀.run events).step e).receiver :=
    fun x hx => (h.below x hx).advance hE.receiver h.stream
  have hisn : ((c₀.run events).step e).receiver.senderIsn = none ∨
      ((c₀.run events).step e).receiver.senderIsn = some isn := by
    rcases step_senderIsn (c₀.run events) e with hs | ⟨seg, rfl, hsyn, hs⟩
    · rw [hs]
      exact h.senderIsn
    · rw [hs, he seg rfl hsyn]
      exact .inr rfl
  refine ⟨?_, hrun ▸ hE.sender, hrun ▸ hE.receiver.inv h.stream, hrun ▸ hisn, ?_, ?_, ?_⟩
  · rw [hlog, hrun, List.map_append, h.out, hnew]
    simp
  · rw [hlog, hrun]
    intro x hx
    rcases List.mem_append.mp hx with hx | hx
    · exact hbelow x hx
    · obtain ⟨seg, hseg, rfl⟩ := List.mem_map.mp hx
      exact (hst seg hseg).below
  · rw [hlog]
    intro x hx hack
    rcases List.mem_append.mp hx with hx | hx
    · exact h.acked x hx hack
    · obtain ⟨seg, hseg, rfl⟩ := List.mem_map.mp hx
      exact (hst seg hseg).ackno_eq hisn hack
  · rw [hlog, List.pairwise_append, List.pairwise_map]
    refine ⟨h.ordered, List.pairwise_of_forall_mem_list fun a ha b hb => (hst a ha).below.windowLe (hst b hb), ?_⟩
    intro x hx y hy
    obtain ⟨seg, hseg, rfl⟩ := List.mem_map.mp hy
    exact (hbelow x hx).windowLe (hst seg hseg)

theorem windowInv (cfg : TCPConfig) (randomIsn isn : WrappingInt32) (events : List Event)
    (hsyn : ∀ seg, Event.segmentReceived seg ∈ events → seg.header.syn = true → seg.header.seqno = isn) :
    WindowInv isn (init cfg randomIsn) events := by
  induction events using List.reverseRecOn with
  | nil => exact windowInv_init cfg randomIsn isn
  | append_singleton events e ih =>
    refine (ih fun seg hseg => hsyn seg (List.mem_append_left _ hseg)).append e ?_
    rintro seg rfl
    exact hsyn seg (List.mem_append_right _ (List.mem_singleton_self _))

/-- **The advertised window never shrinks.** Along every run of a connection whose
received SYNs all carry the peer's ISN `isn`, pair each segment it emits with the
absolute ackno of its receiver when the segment was stamped. Every segment with ACK
acknowledges that number wrapped with `isn`; and from one segment to a later one, that
number and the right edge of the advertised window, the number plus `win`, never go
back, and ACK, once set, stays set. -/
theorem window_never_shrinks (cfg : TCPConfig) (randomIsn isn : WrappingInt32) (events : List Event)
    (hsyn : ∀ seg, Event.segmentReceived seg ∈ events → seg.header.syn = true → seg.header.seqno = isn) :
    let log : List (Nat × TCPSegment) := stampLog (init cfg randomIsn) events
    log.map Prod.snd = ((init cfg randomIsn).run events).segmentsOut ∧
    (∀ x ∈ log, x.2.header.ack = true → x.2.header.ackno = wrap (UInt64.ofNat x.1) isn) ∧
    log.Pairwise (fun x y => x.1 ≤ y.1 ∧ x.1 + x.2.header.win.toNat ≤ y.1 + y.2.header.win.toNat ∧
      (x.2.header.ack = true → y.2.header.ack = true)) := by
  have h := windowInv cfg randomIsn isn events hsyn
  exact ⟨h.out, h.acked, h.ordered⟩

/-- A connection that hears the peer's SYN twice, with the same ISN. -/
theorem window_never_shrinks_resyn :
    let syn : TCPSegment := { header := { syn := true, seqno := ⟨7⟩ } }
    let events : List Event := [.segmentReceived syn, .tick 1000, .segmentReceived syn]
    let log : List (Nat × TCPSegment) := stampLog (init {} ⟨0⟩) events
    (∀ seg, Event.segmentReceived seg ∈ events → seg.header.syn = true → seg.header.seqno = ⟨7⟩) ∧
    log.map Prod.snd = ((init {} ⟨0⟩).run events).segmentsOut ∧
    (∀ x ∈ log, x.2.header.ack = true → x.2.header.ackno = wrap (UInt64.ofNat x.1) ⟨7⟩) ∧
    log.Pairwise (fun x y => x.1 ≤ y.1 ∧ x.1 + x.2.header.win.toNat ≤ y.1 + y.2.header.win.toNat ∧
      (x.2.header.ack = true → y.2.header.ack = true)) := by
  intro syn events log
  have hsyn : ∀ seg, Event.segmentReceived seg ∈ events → seg.header.syn = true → seg.header.seqno = ⟨7⟩ := by
    intro seg hseg _
    simp only [events, List.mem_cons, Event.segmentReceived.injEq, List.not_mem_nil, or_false, reduceCtorEq,
      false_or, or_self] at hseg
    rw [hseg]
  exact ⟨hsyn, window_never_shrinks {} ⟨0⟩ ⟨7⟩ events hsyn⟩

end TCPConnection

end Sponge
