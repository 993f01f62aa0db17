import Sponge.TCPSender

/-!
The loop of `fill_window`.

`passEnd` names the branch a pass of the loop takes and `fillPass_eq` says what each
branch does, so that the lemmas about a pass split on the four branches and never on the
conditions of the source. A pass that does not end the loop either reads at least one
byte of the stream or sends the FIN (`fillPass_progress`), so `bufferSize + 1` passes
are as many as the loop can make: with more fuel the result is the same (`fillLoop_succ`,
`fillWindow_eq_fillLoop`), and the fuel of `fillWindow` computes the `while` loop of
the source. What sending, reading the stream and marking the FIN keep, the whole loop
keeps (`fillWindow_preserves`); the window is one such thing (`fillWindow_frame`).
The loop ends only where the source leaves it: with the FIN sent, no room left in the
window, or no byte to send on an open stream (`fillWindow_fills`); on an open stream
with no byte it does nothing (`fillWindow_of_drained`), and on an ended one it sends the FIN
alone (`fillWindow_of_ended`).
-/

namespace Sponge

namespace TCPSender

variable {s s' : TCPSender} {b b' : TCPSegmentBuilder}

/-- The window the loop measures before a pass. -/
def payloadLenLimit (s : TCPSender) : Nat :=
  min (Word.sub 64 s.receiverWindowRight s.nextSeqno) TCPConfig.maxPayloadSize

/-- The state a pass goes on from: the next `payloadLenLimit` bytes read out of the stream. -/
def popped (s : TCPSender) : TCPSender := { s with stream := s.stream.popOutput s.payloadLenLimit }

/-- The segment a pass sends: those bytes, at `next_seqno()`. -/
def payloadBuilder (s : TCPSender) (b : TCPSegmentBuilder) : TCPSegmentBuilder :=
  (b.withSeqno s.nextSeqnoWrapped).withData (s.stream.peekOutput s.payloadLenLimit)

/-- How a pass ends, as the branches of the loop body decide it. -/
inductive PassEnd
  /-- no room in the window, or the FIN is sent: the loop ends -/
  | shut
  /-- nothing to send yet: `break` -/
  | idle
  /-- the bytes, without the FIN -/
  | data
  /-- the bytes and the FIN -/
  | dataFin
  deriving DecidableEq, Repr

/-- The branch a pass takes. -/
def passEnd (s : TCPSender) : PassEnd :=
  let n := s.payloadLenLimit
  let payload := s.stream.peekOutput n
  let eof := (s.stream.popOutput n).eof
  if 0 < n ∧ s.fined = false then
    if payload = [] ∧ eof = false then .idle
    else if eof = false then .data
    else if payload.length < n ∨ n < Word.sub 64 s.receiverWindowRight s.nextSeqno then .dataFin
    else .data
  else .shut

/-- **Everything a pass does**, by the branch it takes. The branch of the source that goes
on without sending is never taken: a stream not at its end after the read had bytes to
send. -/
theorem fillPass_eq (s : TCPSender) (b : TCPSegmentBuilder) :
    s.fillPass b =
      match s.passEnd with
      | .shut => (s, none)
      | .idle => (s.popped, none)
      | .data => (s.popped.send (s.payloadBuilder b), some (s.payloadBuilder b))
      | .dataFin => ({ s.popped with fined := true }.send (s.payloadBuilder b).withFin,
          some (s.payloadBuilder b).withFin) := by
  unfold fillPass passEnd popped payloadBuilder payloadLenLimit
  dsimp only
  generalize min (Word.sub 64 s.receiverWindowRight s.nextSeqno) TCPConfig.maxPayloadSize = L
  -- reading the stream moves no sequence number
  have hw : ({ s with stream := s.stream.popOutput L } : TCPSender).nextSeqnoWrapped = s.nextSeqnoWrapped :=
    rfl
  simp only [hw]
  by_cases h0 : 0 < L ∧ s.fined = false
  swap
  · simp only [if_neg h0]
  simp only [if_pos h0]
  by_cases h1 : s.stream.peekOutput L = [] ∧ (s.stream.popOutput L).eof = false
  · simp only [if_pos h1]
  simp only [if_neg h1]
  by_cases h3 : (s.stream.popOutput L).eof = true
  · -- at the stream's end: the FIN if the window has room for it beside the bytes
    simp only [h3, Bool.true_eq_false, false_and, ↓reduceIte]
    by_cases h4 : (s.stream.peekOutput L).length < L
    · simp only [h4, true_or, ↓reduceIte]
    · by_cases h5 : L < Word.sub 64 s.receiverWindowRight s.nextSeqno <;> simp [h4, h5]
  · have heof : (s.stream.popOutput L).eof = false := by simpa using h3
    have h2 : (s.stream.popOutput L).eof = false ∧ s.stream.peekOutput L ≠ [] :=
      ⟨heof, fun h => h1 ⟨h, heof⟩⟩
    rw [if_pos h2]
    simp only [heof, ↓reduceIte]

/-! What each branch has checked. -/

theorem passEnd_ne_shut (h : s.passEnd ≠ .shut) : 0 < s.payloadLenLimit ∧ s.fined = false := by
  by_contra h0
  unfold passEnd at h
  exact h (if_neg h0)

theorem peekOutput_of_passEnd_idle (h : s.passEnd = .idle) :
    s.stream.peekOutput s.payloadLenLimit = [] := by
  unfold passEnd at h
  dsimp only at h
  split_ifs at h with h0 h1
  exact h1.1

/-- A pass that sends without the FIN sends bytes: with the stream not at its end there
were some, and at its end they fill the window, which is not empty. -/
theorem peekOutput_of_passEnd_data (h : s.passEnd = .data) :
    s.stream.peekOutput s.payloadLenLimit ≠ [] := by
  unfold passEnd at h
  dsimp only at h
  split_ifs at h with h0 h1 h2 h3
  · exact fun hp => h1 ⟨hp, h2⟩
  · intro hp
    rw [hp] at h3
    exact h3 (Or.inl h0.1)

theorem eof_of_passEnd_dataFin (h : s.passEnd = .dataFin) : s.popped.stream.eof = true := by
  unfold passEnd at h
  dsimp only at h
  split_ifs at h with h0 h1 h2
  simpa [popped] using h2

theorem fillPass_of_not_lt (h : ¬ (0 < s.payloadLenLimit ∧ s.fined = false)) :
    s.fillPass b = (s, none) := by
  unfold fillPass payloadLenLimit at *
  dsimp only
  rw [if_neg h]

theorem fillLoop_of_fined (h : s.fined = true) (n : Nat) : fillLoop n s b = s := by
  cases n with
  | zero => rfl
  | succ n =>
    rw [fillLoop, fillPass_of_not_lt (by simp [h])]

/-- A pass that goes on has read a byte or sent the FIN, and keeps the stream well
formed. -/
theorem fillPass_progress (hs : s.stream.Inv) (h : s.fillPass b = (s', some b')) :
    s'.stream.Inv ∧ (s'.fined = true ∨ s'.stream.bufferSize < s.stream.bufferSize) := by
  rw [fillPass_eq] at h
  have hpop : s.popped.stream.Inv := hs.popOutput _
  cases hk : s.passEnd with
  | shut => simp [hk] at h
  | idle => simp [hk] at h
  | data =>
    -- the bytes sent were taken out of the stream
    simp only [hk, Prod.mk.injEq] at h
    obtain ⟨rfl, -⟩ := h
    have hne := List.length_pos_of_ne_nil (peekOutput_of_passEnd_data hk)
    have hlen := ByteStream.peekOutput_length hs s.payloadLenLimit
    refine ⟨by simpa using hpop, Or.inr ?_⟩
    simp only [send_stream, popped, ByteStream.popOutput_bufferSize]
    omega
  | dataFin =>
    simp only [hk, Prod.mk.injEq] at h
    obtain ⟨rfl, -⟩ := h
    exact ⟨by simpa using hpop, Or.inl (by simp)⟩

/-- **Fuel beyond the buffered bytes changes nothing.** -/
theorem fillLoop_succ (hs : s.stream.Inv) {n : Nat} (h : s.stream.bufferSize < n) :
    fillLoop (n + 1) s b = fillLoop n s b := by
  induction n generalizing s b with
  | zero => omega
  | succ n ih =>
    conv_lhs => rw [fillLoop]
    conv_rhs => rw [fillLoop]
    rcases hp : s.fillPass b with ⟨s', _ | b'⟩
    · rfl
    · obtain ⟨hs', hprog⟩ := fillPass_progress hs hp
      dsimp only
      rcases hprog with hf | hlt
      · rw [fillLoop_of_fined hf, fillLoop_of_fined hf]
      · exact ih hs' (by omega)

theorem fillLoop_eq_of_lt (hs : s.stream.Inv) {n : Nat} (h : s.stream.bufferSize < n) :
    fillLoop n s b = fillLoop (s.stream.bufferSize + 1) s b := by
  induction n with
  | zero => omega
  | succ n ih =>
    rcases Nat.lt_succ_iff_lt_or_eq.mp h with hlt | heq
    · rw [fillLoop_succ hs hlt, ih hlt]
    · rw [heq]

/-- `fillWindow` runs the loop of `fill_window` to its end: with any more fuel the result
is the same. -/
theorem fillWindow_eq_fillLoop (hs : s.stream.Inv) (hc : s.inClosed = false) {n : Nat}
    (h : s.stream.bufferSize < n) : s.fillWindow = fillLoop n s {} := by
  rw [fillWindow, if_neg (by simp [hc]), fillLoop_eq_of_lt hs h]

section Preserves

variable (P : TCPSender → Prop) (hsend : ∀ s b, P s → P (s.send b))
  (hpop : ∀ s n, P s → P { s with stream := s.stream.popOutput n })
  (hfin : ∀ s, P s → P { s with fined := true })
include hsend hpop hfin

/-- What sending, reading the stream and marking the FIN keep, a pass keeps. -/
theorem fillPass_preserves (hs : P s) (b : TCPSegmentBuilder) : P (s.fillPass b).1 := by
  have hs' : P s.popped := hpop s _ hs
  rw [fillPass_eq]
  cases s.passEnd with
  | shut => exact hs
  | idle => exact hs'
  | data => exact hsend _ _ hs'
  | dataFin => exact hsend _ _ (hfin _ hs')

theorem fillLoop_preserves (n : Nat) (hs : P s) (b : TCPSegmentBuilder) : P (fillLoop n s b) := by
  induction n generalizing s b with
  | zero => exact hs
  | succ n ih =>
    have hp := fillPass_preserves P hsend hpop hfin hs b
    rw [fillLoop]
    rcases hq : s.fillPass b with ⟨s', _ | b'⟩
    · rw [hq] at hp
      exact hp
    · rw [hq] at hp
      exact ih hp b'

theorem fillWindow_preserves (hs : P s) : P s.fillWindow := by
  unfold fillWindow
  split
  · exact hsend _ _ hs
  · exact fillLoop_preserves P hsend hpop hfin _ hs _

end Preserves

theorem fillWindow_frame (s : TCPSender) :
    s.fillWindow.isn = s.isn ∧ s.fillWindow.receiverWindowLeft = s.receiverWindowLeft ∧
      s.fillWindow.receiverWindowRight = s.receiverWindowRight :=
  fillWindow_preserves (fun t => t.isn = s.isn ∧ t.receiverWindowLeft = s.receiverWindowLeft ∧
      t.receiverWindowRight = s.receiverWindowRight)
    (fun _ _ h => by simpa using h) (fun _ _ h => h) (fun _ h => h) ⟨rfl, rfl, rfl⟩

/-! ## Where the loop ends -/

theorem eof_of_passEnd_idle (h : s.passEnd = .idle) : s.popped.stream.eof = false := by
  unfold passEnd at h
  dsimp only at h
  split_ifs at h with h0 h1
  simpa [popped] using h1.2

/-- A pass that ends the loop leaves the FIN sent, no room in the window, or no byte to
send on a stream still open. -/
theorem fillPass_stops (hs : s.stream.Inv) (hp : s.fillPass b = (s', none)) :
    s'.fined = true ∨ s'.payloadLenLimit = 0 ∨ (s'.stream.bufferSize = 0 ∧ s'.stream.inputEnded = false) := by
  rw [fillPass_eq] at hp
  cases hk : s.passEnd with
  | shut =>
    simp only [hk, Prod.mk.injEq] at hp
    obtain ⟨rfl, -⟩ := hp
    have h0 : ¬(0 < s.payloadLenLimit ∧ s.fined = false) := fun h0 => by
      unfold passEnd at hk
      rw [if_pos h0] at hk
      split_ifs at hk
    by_cases hf : s.fined = true
    · exact .inl hf
    · have hf' : s.fined = false := by simpa using hf
      exact .inr (.inl (Nat.eq_zero_of_not_pos fun hpos => h0 ⟨hpos, hf'⟩))
  | idle =>
    simp only [hk, Prod.mk.injEq] at hp
    obtain ⟨rfl, -⟩ := hp
    -- nothing was peeked from a non-empty window: the stream holds no byte
    have hlim := (passEnd_ne_shut (s := s) (by rw [hk]; simp)).1
    have hlen := ByteStream.peekOutput_length hs s.payloadLenLimit
    rw [peekOutput_of_passEnd_idle hk, List.length_nil] at hlen
    have hbuf : s.popped.stream.bufferSize = 0 := by
      simp only [popped, ByteStream.popOutput_bufferSize]
      omega
    have heof := eof_of_passEnd_idle hk
    refine .inr (.inr ⟨hbuf, ?_⟩)
    simpa [ByteStream.eof, ByteStream.bufferEmpty, hbuf] using heof
  | data => simp [hk] at hp
  | dataFin => simp [hk] at hp

/-- The loop on fuel beyond the buffered bytes ends at a pass that ends it: fuel never runs
out first. -/
theorem fillLoop_stops (hs : s.stream.Inv) {n : Nat} (h : s.stream.bufferSize < n) (b : TCPSegmentBuilder) :
    (fillLoop n s b).fined = true ∨ (fillLoop n s b).payloadLenLimit = 0 ∨
      ((fillLoop n s b).stream.bufferSize = 0 ∧ (fillLoop n s b).stream.inputEnded = false) := by
  induction n generalizing s b with
  | zero => omega
  | succ n ih =>
    rw [fillLoop]
    rcases hp : s.fillPass b with ⟨s', _ | b'⟩
    · exact fillPass_stops hs hp
    · obtain ⟨hs', hprog⟩ := fillPass_progress hs hp
      dsimp only
      rcases hprog with hf | hlt
      · rw [fillLoop_of_fined hf]
        exact .inl hf
      · exact ih hs' (by omega) b'

/-- **`fill_window` fills the window.** Past the SYN and on a well-formed stream, the loop
of `fill_window` returns only when the FIN is sent, or the room left in the window,
`_receiver_window_right - _next_seqno` as a `uint64_t`, is zero, or the stream holds no
byte and its input is still open: nothing the window could take is left unsent. -/
theorem fillWindow_fills (s : TCPSender) (hs : s.stream.Inv) (hc : s.inClosed = false) :
    s.fillWindow.fined = true ∨ Word.sub 64 s.fillWindow.receiverWindowRight s.fillWindow.nextSeqno = 0 ∨
      (s.fillWindow.stream.bufferSize = 0 ∧ s.fillWindow.stream.inputEnded = false) := by
  rw [fillWindow_eq_fillLoop hs hc (Nat.lt_succ_self _)]
  rcases fillLoop_stops hs (Nat.lt_succ_self _) {} with h | h | h
  · exact .inl h
  · -- the payload limit is the room left, capped at `MAX_PAYLOAD_SIZE`
    refine .inr (.inl ?_)
    unfold payloadLenLimit TCPConfig.maxPayloadSize at h
    omega
  · exact .inr (.inr h)

theorem popped_of_drained (hb : s.stream.bufferSize = 0) : s.popped = s := by
  simp [popped, ByteStream.popOutput_of_bufferSize_zero hb]

theorem peekOutput_of_drained (hs : s.stream.Inv) (hb : s.stream.bufferSize = 0) (n : Nat) :
    s.stream.peekOutput n = [] := by
  have hlen := ByteStream.peekOutput_length hs n
  rwa [hb, Nat.min_zero, List.length_eq_zero_iff] at hlen

/-- Past the SYN, on a well-formed stream holding no byte and still open, `fill_window`
does nothing: its one pass finds no byte to send, or no room. -/
theorem fillWindow_of_drained (hs : s.stream.Inv) (hc : s.inClosed = false)
    (hb : s.stream.bufferSize = 0) (he : s.stream.inputEnded = false) : s.fillWindow = s := by
  rw [fillWindow_eq_fillLoop hs hc (show s.stream.bufferSize < 1 by omega), fillLoop, fillPass_eq]
  cases hk : s.passEnd with
  | shut => rfl
  | idle => exact popped_of_drained hb
  | data => exact absurd (peekOutput_of_drained hs hb _) (peekOutput_of_passEnd_data hk)
  | dataFin =>
    have heof := eof_of_passEnd_dataFin hk
    simp [popped, ByteStream.eof, he] at heof

/-- Once the FIN is sent, `fill_window` does nothing. -/
theorem fillWindow_of_fined (hf : s.fined = true) (hc : s.inClosed = false) : s.fillWindow = s := by
  rw [fillWindow, if_neg (by simp [hc])]
  exact fillLoop_of_fined hf _

/-- Past the SYN, with no byte to send and the stream open or the FIN sent, `fill_window`
does nothing. -/
theorem fillWindow_of_idle (hc : s.inClosed = false) (hs : s.stream.Inv) (hb : s.stream.bufferSize = 0)
    (hi : s.stream.inputEnded = false ∨ s.fined = true) : s.fillWindow = s := by
  rcases hi with he | hf
  · exact fillWindow_of_drained hs hc hb he
  · exact fillWindow_of_fined hf hc

theorem passEnd_of_ended (hs : s.stream.Inv) (hb : s.stream.bufferSize = 0)
    (he : s.stream.inputEnded = true) (hf : s.fined = false)
    (hroom : 0 < Word.sub 64 s.receiverWindowRight s.nextSeqno) : s.passEnd = .dataFin := by
  have hlim : 0 < s.payloadLenLimit := by
    unfold payloadLenLimit TCPConfig.maxPayloadSize
    omega
  have heof : (s.stream.popOutput s.payloadLenLimit).eof = true := by
    rw [ByteStream.popOutput_of_bufferSize_zero hb]
    simp [ByteStream.eof, ByteStream.bufferEmpty, he, hb]
  unfold passEnd
  simp only [peekOutput_of_drained hs hb, heof, hf, hlim, and_self, if_true, List.length_nil,
    Bool.true_eq_false, and_false, if_false, true_or]

/-- With the stream ended and drained and room in the window, `fill_window` sends the FIN
alone, at `next_seqno()`. -/
theorem fillWindow_of_ended (hs : s.stream.Inv) (hc : s.inClosed = false) (hb : s.stream.bufferSize = 0)
    (he : s.stream.inputEnded = true) (hf : s.fined = false)
    (hroom : 0 < Word.sub 64 s.receiverWindowRight s.nextSeqno) :
    s.fillWindow = { s with fined := true }.send (({} : TCPSegmentBuilder).withSeqno s.nextSeqnoWrapped).withFin := by
  rw [fillWindow_eq_fillLoop hs hc (show s.stream.bufferSize < 1 by omega), fillLoop, fillPass_eq,
    passEnd_of_ended hs hb he hf hroom]
  dsimp only
  rw [fillLoop, popped_of_drained hb, payloadBuilder, peekOutput_of_drained hs hb]
  rfl

end TCPSender

end Sponge
