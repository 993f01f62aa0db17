import Sponge.Reassembler.Store

/-!
Runs of the stream reassembler on the substrings of one stream.

A run pushes substrings `S[i, i+k)` of a stream `S` at their true indices, each
starting inside the window `bytes_written() + C` and carrying `eof` only when it ends
the stream, and reads the output between pushes (`Reach`). Beside the reassembler a
`History` records what the run has done. `RunInv` ties the two together: the output
holds the next bytes of `S`, the store holds the pushed bytes past it, and the end of
input is the end of `S`. `Reach.runInv` proves it along every run, one push or read
at a time, and `reassembler_correct` reads off what it says of the reassembler. Both
assume that the capacity and the stream fit together in 64 bits, so that no `size_t`
sum of a push wraps; at capacity `2^64 - 1` one does
(`reassembler_correct_capacity_wraps`).
-/

namespace Sponge

open Intervals

namespace StreamReassembler

/-! ## The steps of `push_substring` -/

section Steps

variable (r : StreamReassembler)

@[simp] theorem recordEof_output (e : Nat) (eof : Bool) : (r.recordEof e eof).output = r.output := by
  unfold recordEof; split <;> rfl
@[simp] theorem recordEof_capacity (e : Nat) (eof : Bool) :
    (r.recordEof e eof).capacity = r.capacity := by
  unfold recordEof; split <;> rfl
@[simp] theorem recordEof_segments (e : Nat) (eof : Bool) :
    (r.recordEof e eof).segments = r.segments := by
  unfold recordEof; split <;> rfl
@[simp] theorem recordEof_unassembledBytes (e : Nat) (eof : Bool) :
    (r.recordEof e eof).unassembledBytes = r.unassembledBytes := by
  unfold recordEof; split <;> rfl
@[simp] theorem recordEof_gotEof (e : Nat) (eof : Bool) :
    (r.recordEof e eof).gotEof = (r.gotEof || eof) := by
  unfold recordEof
  cases hg : r.gotEof <;> cases eof <;> simp [hg]

/-- Once recorded, the end of the stream is `E`, provided both the old record and the
new `eof` say so. -/
theorem recordEof_endIndex {E e : Nat} {eof : Bool} (hr : r.gotEof = true → r.endIndex = E)
    (he : eof = true → e = E) (hg : (r.recordEof e eof).gotEof = true) :
    (r.recordEof e eof).endIndex = E := by
  unfold recordEof at hg ⊢
  split
  · next hc =>
    simp only [Bool.and_eq_true, Bool.not_eq_eq_eq_not, Bool.not_true] at hc
    exact he hc.1
  · next hc => rw [if_neg hc] at hg; exact hr hg

@[simp] theorem closeInput_capacity : r.closeInput.capacity = r.capacity := by
  unfold closeInput; split <;> rfl
@[simp] theorem closeInput_segments : r.closeInput.segments = r.segments := by
  unfold closeInput; split <;> rfl
@[simp] theorem closeInput_unassembledBytes : r.closeInput.unassembledBytes = r.unassembledBytes := by
  unfold closeInput; split <;> rfl
@[simp] theorem closeInput_gotEof : r.closeInput.gotEof = r.gotEof := by
  unfold closeInput; split <;> rfl
@[simp] theorem closeInput_endIndex : r.closeInput.endIndex = r.endIndex := by
  unfold closeInput; split <;> rfl
@[simp] theorem closeInput_bytesWritten :
    r.closeInput.output.bytesWritten = r.output.bytesWritten := by
  unfold closeInput; split <;> rfl
@[simp] theorem closeInput_output_capacity : r.closeInput.output.capacity = r.output.capacity := by
  unfold closeInput; split <;> rfl
@[simp] theorem closeInput_content : r.closeInput.output.content = r.output.content := by
  unfold closeInput; split <;> rfl

theorem closeInput_inputEnded :
    r.closeInput.output.inputEnded = true ↔
      r.output.inputEnded = true ∨ (r.gotEof = true ∧ r.endIndex = r.output.bytesWritten) := by
  unfold closeInput
  split
  · next hc => simp_all
  · next hc => simp_all

theorem Inv.closeInput (ho : r.output.Inv) : r.closeInput.output.Inv := by
  unfold StreamReassembler.closeInput
  split
  · exact ho.endInput
  · exact ho

/-- Inside the window, with no sum wrapping, `push_substring` keeps the part of `data` up to
the window's end: no `size_t` subtraction wraps. -/
theorem pushSubstringLen_of_le {index size : Nat} (hw : index ≤ r.output.bytesWritten + r.capacity)
    (hs : index + size < 2 ^ 64) (hc : r.output.bytesWritten + r.capacity < 2 ^ 64) :
    r.pushSubstringLen index size = min size (r.output.bytesWritten + r.capacity - index) := by
  dsimp only [pushSubstringLen]
  rw [Word.add_of_lt hs, Word.add_of_lt hc]
  split
  · rw [Word.sub_of_le hw]; omega
  · omega

/-- Past the window's end the trim wraps: `expected + _capacity - index` as a `size_t`,
more than any payload. -/
theorem pushSubstringLen_of_lt {index size : Nat} (hw : r.output.bytesWritten + r.capacity < index)
    (hs : index + size < 2 ^ 64) (hc : r.output.bytesWritten + r.capacity < 2 ^ 64) :
    r.pushSubstringLen index size = 2 ^ 64 - (index - (r.output.bytesWritten + r.capacity)) := by
  dsimp only [pushSubstringLen]
  rw [Word.add_of_lt hs, Word.add_of_lt hc, if_pos (by omega), Word.sub_of_lt hw (by omega)]

/-- The segment `push_substring` stores for a substring that starts inside the window,
whatever its bytes: it runs from the later of its start and `bytes_written()` to the
earlier of its end and the window's end. -/
theorem windowSegment_bounds {data : List UInt8} {i : Nat} (hw : i ≤ r.output.bytesWritten + r.capacity)
    (hs : i + data.length < 2 ^ 64) (hc : r.output.bytesWritten + r.capacity < 2 ^ 64) :
    (r.windowSegment data i).startIndex = max i r.output.bytesWritten ∧
      (r.windowSegment data i).endIndex = min (i + data.length) (r.output.bytesWritten + r.capacity) := by
  simp only [windowSegment, pushSubstringLen_of_le r hw hs hc]
  split
  · next hlt =>
    simp only [Segment.ofData_startIndex] at hlt
    simp only [Segment.removePrefix_startIndex, Segment.removePrefix_endIndex, Segment.ofData_startIndex,
      Segment.ofData_endIndex, List.length_take]
    omega
  · next hlt =>
    simp only [Segment.ofData_startIndex] at hlt
    simp only [Segment.ofData_startIndex, Segment.ofData_endIndex, List.length_take]
    omega

/-- For a substring of `S`, that segment holds its bytes of `S`. -/
theorem windowSegment_spec {S : List UInt8} {i k : Nat} (hk : i + k ≤ S.length)
    (hge : r.output.bytesWritten ≤ i + k) (hw : i ≤ r.output.bytesWritten + r.capacity)
    (hs : i + k < 2 ^ 64) (hc : r.output.bytesWritten + r.capacity < 2 ^ 64) :
    let seg := r.windowSegment (S.extract i (i + k)) i
    seg.Wf S ∧ seg.startIndex = max i r.output.bytesWritten ∧
      seg.endIndex = min (i + k) (r.output.bytesWritten + r.capacity) := by
  have hlen : (S.extract i (i + k)).length = k := by rw [length_extract S hk]; omega
  obtain ⟨hstart, hend⟩ := @windowSegment_bounds r (S.extract i (i + k)) i hw (by rw [hlen]; exact hs) hc
  refine ⟨?_, hstart, by rw [hend, hlen]⟩
  set len := min k (r.output.bytesWritten + r.capacity - i) with hlen_def
  have htake : (S.extract i (i + k)).take len = S.extract i (i + len) :=
    take_extract S (by omega)
  have hlen' : (S.extract i (i + len)).length = len := by rw [length_extract S (by omega)]; omega
  have hwf : (Segment.ofData i (S.extract i (i + len))).Wf S :=
    Segment.wf_ofData (by rw [hlen'])
  simp only [windowSegment, hlen, pushSubstringLen_of_le r hw hs hc, ← hlen_def, htake]
  split
  · next hlt =>
    simp only [Segment.ofData_startIndex] at hlt
    refine hwf.removePrefix ?_
    simp only [Segment.size, Segment.ofData_endIndex, Segment.ofData_startIndex, hlen']
    omega
  · exact hwf

end Steps

/-! ## Runs and their history -/

/-- What a run of the reassembler has done so far. -/
structure History where
  /-- the bytes read out of `stream_out()` -/
  popped : List UInt8
  /-- the indices some push carried below its window's end, `bytes_written() + C` then -/
  covered : Finset ℕ
  /-- the indices some push carried -/
  pushed : Finset ℕ
  /-- whether some push carried `eof` -/
  sawEof : Bool

namespace History

def init : History := ⟨[], ∅, ∅, false⟩

/-- A push of the `k` bytes at `i`, with window end `w`. -/
def push (h : History) (i k w : Nat) (eof : Bool) : History :=
  { h with covered := h.covered ∪ Finset.Ico i (min (i + k) w),
           pushed := h.pushed ∪ Finset.Ico i (i + k),
           sawEof := h.sawEof || eof }

/-- A read of `bytes`. -/
def pop (h : History) (bytes : List UInt8) : History := { h with popped := h.popped ++ bytes }

@[simp] theorem push_popped (h : History) (i k w : Nat) (eof : Bool) :
    (h.push i k w eof).popped = h.popped := rfl
@[simp] theorem push_covered (h : History) (i k w : Nat) (eof : Bool) :
    (h.push i k w eof).covered = h.covered ∪ Finset.Ico i (min (i + k) w) := rfl
@[simp] theorem push_pushed (h : History) (i k w : Nat) (eof : Bool) :
    (h.push i k w eof).pushed = h.pushed ∪ Finset.Ico i (i + k) := rfl
@[simp] theorem push_sawEof (h : History) (i k w : Nat) (eof : Bool) :
    (h.push i k w eof).sawEof = (h.sawEof || eof) := rfl
@[simp] theorem pop_popped (h : History) (bytes : List UInt8) :
    (h.pop bytes).popped = h.popped ++ bytes := rfl
@[simp] theorem pop_covered (h : History) (bytes : List UInt8) : (h.pop bytes).covered = h.covered :=
  rfl
@[simp] theorem pop_pushed (h : History) (bytes : List UInt8) : (h.pop bytes).pushed = h.pushed := rfl
@[simp] theorem pop_sawEof (h : History) (bytes : List UInt8) : (h.pop bytes).sawEof = h.sawEof := rfl

end History

/-- The states a run on substrings of `S` with capacity `C` reaches, with their history:
`push_substring(S[i, i+k), i, eof)` inside the window, and `read(len)` (or
`pop_output(len)`) of the output. -/
inductive Reach (S : List UInt8) (C : Nat) : StreamReassembler → History → Prop
  | init : Reach S C (init C) History.init
  | push {r : StreamReassembler} {h : History} (i k : Nat) (eof : Bool) :
      Reach S C r h → i + k ≤ S.length → (eof = true → i + k = S.length) →
      i ≤ r.output.bytesWritten + C →
      Reach S C (r.pushSubstring (S.extract i (i + k)) i eof)
        (h.push i k (r.output.bytesWritten + C) eof)
  | pop {r : StreamReassembler} {h : History} (len : Nat) :
      Reach S C r h → Reach S C (r.popOutput len) (h.pop (r.output.peekOutput len))

/-- The run invariant. -/
structure RunInv (S : List UInt8) (C : Nat) (r : StreamReassembler) (h : History) : Prop where
  capacity : r.capacity = C
  output_capacity : r.output.capacity = C
  output : r.output.Inv
  /-- what was read and what is buffered are the stream up to `bytes_written()` -/
  bytes : h.popped ++ r.output.content = S.take r.output.bytesWritten
  written_le : r.output.bytesWritten ≤ S.length
  store : StoreInv S r.output.bytesWritten r.segments r.unassembledBytes
  /-- the indices pushed inside the window are those written or stored -/
  covered_eq :
    h.covered = Finset.range r.output.bytesWritten ∪ cover Segment.startIndex Segment.endIndex r.segments
  covered_lt : ∀ j ∈ h.covered, j < r.output.bytesWritten + C
  gotEof_eq : r.gotEof = h.sawEof
  endIndex_eq : r.gotEof = true → r.endIndex = S.length
  inputEnded_iff : r.output.inputEnded = true ↔ r.gotEof = true ∧ r.endIndex = r.output.bytesWritten
  /-- with room for the whole stream nothing is cut off by the window -/
  pushed_eq : S.length ≤ C → h.pushed = h.covered
  /-- with room for the whole stream no stored segment waits at `bytes_written()` -/
  drained : S.length ≤ C → ∀ s ∈ r.segments, s.startIndex ≠ r.output.bytesWritten

variable {S : List UInt8} {C : Nat} {r : StreamReassembler} {h : History}

theorem runInv_init (S : List UInt8) (C : Nat) : RunInv S C (init C) History.init where
  capacity := rfl
  output_capacity := rfl
  output := ByteStream.inv_init C
  bytes := rfl
  written_le := Nat.zero_le _
  store := ⟨sorted_nil, by simp [init], by simp [init], rfl⟩
  covered_eq := by simp [History.init, init]
  covered_lt := by simp [History.init]
  gotEof_eq := rfl
  endIndex_eq := by simp [init]
  inputEnded_iff := by simp [init]
  pushed_eq := fun _ => rfl
  drained := by simp [init]

/-- Reading pops the next buffered bytes into the history. -/
theorem RunInv.pop (hi : RunInv S C r h) (len : Nat) :
    RunInv S C (r.popOutput len) (h.pop (r.output.peekOutput len)) where
  capacity := hi.capacity
  output_capacity := hi.output_capacity
  output := hi.output.popOutput len
  bytes := by
    have hl := hi.output.length_content
    simp only [History.pop_popped, popOutput, ByteStream.popOutput_bytesWritten,
      ByteStream.peekOutput_eq hi.output, ByteStream.popOutput_content hi.output, ← hl,
      ← List.drop_eq_drop_min, List.append_assoc, List.take_append_drop]
    exact hi.bytes
  written_le := hi.written_le
  store := hi.store
  covered_eq := hi.covered_eq
  covered_lt := hi.covered_lt
  gotEof_eq := hi.gotEof_eq
  endIndex_eq := hi.endIndex_eq
  inputEnded_iff := hi.inputEnded_iff
  pushed_eq := hi.pushed_eq
  drained := hi.drained

/-- A push of bytes that are all written already, and whose `eof` is known, changes
nothing the invariant speaks of. -/
theorem RunInv.absorb (hi : RunInv S C r h) {i k : Nat} {eof : Bool} (hk : i + k ≤ r.output.bytesWritten)
    (he : eof = true → h.sawEof = true) :
    RunInv S C r (h.push i k (r.output.bytesWritten + C) eof) := by
  have hsub : Finset.Ico i (i + k) ⊆ h.covered := by
    intro j hj
    rw [hi.covered_eq]
    simp only [Finset.mem_Ico] at hj
    exact Finset.mem_union_left _ (Finset.mem_range.mpr (by omega))
  have hsub' : Finset.Ico i (min (i + k) (r.output.bytesWritten + C)) ⊆ h.covered :=
    (Finset.Ico_subset_Ico_right (min_le_left _ _)).trans hsub
  have hcov : (h.push i k (r.output.bytesWritten + C) eof).covered = h.covered := by
    rw [History.push_covered, Finset.union_eq_left.mpr hsub']
  have hsaw : (h.sawEof || eof) = h.sawEof := by cases eof <;> simp_all
  refine ⟨hi.capacity, hi.output_capacity, hi.output, hi.bytes, hi.written_le, hi.store, ?_,
    ?_, ?_, hi.endIndex_eq, hi.inputEnded_iff, ?_, hi.drained⟩
  · rw [hcov]; exact hi.covered_eq
  · rw [hcov]; exact hi.covered_lt
  · rw [History.push_sawEof, hsaw]; exact hi.gotEof_eq
  · intro hC
    rw [hcov, History.push_pushed, hi.pushed_eq hC, Finset.union_eq_left.mpr hsub]

/-- The run invariant before the reassembly loop and the closing of the input have run:
the store may hold a segment at `bytes_written()`, and the output is still open. -/
structure Unsettled (S : List UInt8) (C : Nat) (r : StreamReassembler) (h : History) : Prop where
  capacity : r.capacity = C
  output_capacity : r.output.capacity = C
  output : r.output.Inv
  bytes : h.popped ++ r.output.content = S.take r.output.bytesWritten
  written_le : r.output.bytesWritten ≤ S.length
  store : StoreInv S r.output.bytesWritten r.segments r.unassembledBytes
  covered_eq :
    h.covered = Finset.range r.output.bytesWritten ∪ cover Segment.startIndex Segment.endIndex r.segments
  covered_lt : ∀ j ∈ h.covered, j < r.output.bytesWritten + C
  gotEof_eq : r.gotEof = h.sawEof
  endIndex_eq : r.gotEof = true → r.endIndex = S.length
  pushed_eq : S.length ≤ C → h.pushed = h.covered
  output_open : r.output.inputEnded = false

theorem RunInv.unsettled (hi : RunInv S C r h) (hend : r.output.inputEnded = false) : Unsettled S C r h :=
  ⟨hi.capacity, hi.output_capacity, hi.output, hi.bytes, hi.written_le, hi.store, hi.covered_eq,
    hi.covered_lt, hi.gotEof_eq, hi.endIndex_eq, hi.pushed_eq, hend⟩

/-- **The reassembly loop and the closing of the input restore the run invariant.** -/
theorem Unsettled.settle (hu : Unsettled S C r h) : RunInv S C (closeInput (reassemble r r.segments)) h := by
  obtain ⟨hstore₃, hout₃, hle₃, hcontent₃, hcover₃⟩ := reassemble_inv hu.store hu.output
  set r₃ := reassemble r r.segments with hr₃
  obtain ⟨hcap₃, hgot₃, hend₃, hread₃, hended₃, hocap₃, -⟩ := reassemble_fields r r.segments
  rw [← hr₃] at hcap₃ hgot₃ hend₃ hread₃ hended₃ hocap₃
  -- the bytes written are those of `S`: lengths bound them by its end
  have hbytes : h.popped ++ r₃.output.content = S.take r₃.output.bytesWritten := by
    rw [hcontent₃, ← List.append_assoc, hu.bytes, take_append_extract S hle₃]
  have hwritten : r₃.output.bytesWritten ≤ S.length := by
    have h₁ := congrArg List.length hbytes
    have h₂ := hu.output.length_content
    have h₃ := hout₃.length_content
    have h₅ := congrArg List.length hu.bytes
    have := hu.output.read_le
    have := hu.written_le
    simp only [List.length_append, List.length_take, ByteStream.bufferSize] at h₁ h₂ h₃ h₅
    omega
  refine ⟨by simpa [hcap₃] using hu.capacity, by simpa [hocap₃] using hu.output_capacity,
    Inv.closeInput r₃ hout₃, by simpa using hbytes, by simpa using hwritten, by simpa using hstore₃, ?_, ?_,
    ?_, ?_, ?_, hu.pushed_eq, ?_⟩
  · rw [closeInput_segments, closeInput_bytesWritten, hcover₃, hu.covered_eq]
  · intro j hj
    have := hu.covered_lt j hj
    simp only [closeInput_bytesWritten]
    omega
  · rw [closeInput_gotEof, hgot₃, hu.gotEof_eq]
  · intro hg
    rw [closeInput_gotEof, hgot₃] at hg
    rw [closeInput_endIndex, hend₃]
    exact hu.endIndex_eq hg
  · rw [closeInput_inputEnded, closeInput_gotEof, closeInput_endIndex, closeInput_bytesWritten, hended₃,
      hu.output_open]
    simp
  · intro hC
    rw [closeInput_segments, closeInput_bytesWritten]
    exact reassemble_drains hu.store hu.output (by rw [hu.output_capacity]; exact hC)

/-- **A push inside the window keeps the run invariant.** -/
theorem RunInv.pushSubstring (hi : RunInv S C r h) {i k : Nat} {eof : Bool} (hk : i + k ≤ S.length)
    (he : eof = true → i + k = S.length) (hw : i ≤ r.output.bytesWritten + C) (h64 : C + S.length < 2 ^ 64) :
    RunInv S C (r.pushSubstring (S.extract i (i + k)) i eof)
      (h.push i k (r.output.bytesWritten + C) eof) := by
  have hlen : (S.extract i (i + k)).length = k := by rw [length_extract S hk]; omega
  have hbwS := hi.written_le
  -- the stream and the capacity fit in 64 bits, so no sum of the push wraps
  have hs : i + k < 2 ^ 64 := by omega
  have hc : r.output.bytesWritten + r.capacity < 2 ^ 64 := by rw [hi.capacity]; omega
  unfold StreamReassembler.pushSubstring
  rw [hlen, Word.add_of_lt hs]
  by_cases hend : r.output.inputEnded = true
  · -- an ended output holds the whole stream, so the push brings nothing new
    rw [if_pos hend]
    obtain ⟨hgot, hidx⟩ := hi.inputEnded_iff.mp hend
    have := hi.endIndex_eq hgot
    exact hi.absorb (by omega) fun _ => hi.gotEof_eq ▸ hgot
  rw [if_neg hend]
  by_cases hstale : i + k < r.output.bytesWritten
  · -- a stale push ends before `bytes_written()`, so it cannot carry the end of `S`
    rw [if_pos hstale]
    exact hi.absorb hstale.le fun he' => absurd (he he') (by omega)
  rw [if_neg hstale]
  dsimp only
  -- the accepted push: record the end and store the window's part; the loop does the rest
  set r₁ := r.recordEof (i + k) eof with hr₁
  set seg := r.windowSegment (S.extract i (i + k)) i with hseg
  obtain ⟨hwf, hstart, hsegEnd⟩ := windowSegment_spec r hk (by omega) (hi.capacity ▸ hw) hs hc
  have hstore₁ : StoreInv S r₁.output.bytesWritten r₁.segments r₁.unassembledBytes := by
    simpa [r₁] using hi.store
  obtain ⟨hstore₂, hcover₂⟩ :=
    pushInterval_inv hstore₁ hwf (by rw [hstart, hr₁, recordEof_output]; omega)
  set r₂ := r₁.pushInterval seg with hr₂
  have hr₁o : r₁.output = r.output := recordEof_output r _ _
  have hbw₂ : r₂.output = r.output := by rw [hr₂, pushInterval_output, hr₁o]
  rw [hr₁o, ← hbw₂] at hstore₂
  apply Unsettled.settle
  refine ⟨by simp [r₂, r₁, hi.capacity], by simp [hbw₂, hi.output_capacity], hbw₂ ▸ hi.output,
    by simpa [hbw₂] using hi.bytes, hbw₂ ▸ hbwS, hstore₂, ?_, ?_, ?_, ?_, ?_, by simpa [hbw₂] using hend⟩
  · -- covered: what the store kept is what the push brought inside the window
    rw [hbw₂, hr₂, hcover₂, History.push_covered, hi.covered_eq, hr₁, recordEof_segments, hstart, hsegEnd,
      hi.capacity]
    ext j
    simp only [Finset.mem_union, Finset.mem_range, Finset.mem_Ico]
    by_cases hj : j ∈ cover Segment.startIndex Segment.endIndex r.segments
    · simp only [hj, true_or, or_true]
    · simp only [hj, false_or, or_false, max_le_iff, lt_min_iff]
      constructor <;> intro hx <;> omega
  · intro j hj
    simp only [History.push_covered, Finset.mem_union, Finset.mem_Ico] at hj
    rw [hbw₂]
    rcases hj with hj | hj
    · have := hi.covered_lt j hj; omega
    · omega
  · simp [r₂, r₁, hi.gotEof_eq]
  · intro hg
    have hr₁g : r₁.gotEof = true := by simpa [r₂] using hg
    have hr₂e : r₂.endIndex = r₁.endIndex := by simp [r₂]
    rw [hr₂e]
    exact recordEof_endIndex r hi.endIndex_eq he hr₁g
  · intro hC
    have hmin : min (i + k) (r.output.bytesWritten + C) = i + k := by omega
    rw [History.push_pushed, History.push_covered, hmin, hi.pushed_eq hC]

/-- An empty push without `eof`, at any index, only runs the reassembly loop again. -/
theorem RunInv.pushSubstring_nil (hi : RunInv S C r h) (i : Nat) : RunInv S C (r.pushSubstring [] i false) h := by
  have hsize : (r.windowSegment [] i).size = 0 := by
    unfold windowSegment
    dsimp only
    split <;> simp [Segment.size]
  have hrec (e : Nat) : r.recordEof e false = r := by
    unfold recordEof
    simp
  unfold StreamReassembler.pushSubstring
  simp only [List.length_nil]
  by_cases hend : r.output.inputEnded = true
  · rw [if_pos hend]
    exact hi
  rw [if_neg hend]
  split
  · exact hi
  · rw [hrec, pushInterval, if_pos hsize]
    exact (hi.unsettled (by simpa using hend)).settle

/-- **The run invariant holds along every run.** -/
theorem Reach.runInv (hr : Reach S C r h) (h64 : C + S.length < 2 ^ 64) : RunInv S C r h := by
  induction hr with
  | init => exact runInv_init S C
  | push i k eof _ hk he hw ih => exact ih.pushSubstring hk he hw h64
  | pop len _ ih => exact ih.pop len

/-! ## A stream that grows, and an output that fails -/

theorem wf_append {s : Segment} (hs : s.Wf S) (extra : List UInt8) : s.Wf (S ++ extra) :=
  { hs with data_eq := eq_extract_append hs.data_eq }

/-- The invariant holds of every extension of the stream that has not been ended: what
was pushed, read and stored lies in the part the two share. -/
theorem RunInv.append (hi : RunInv S C r h) (extra : List UInt8) (hend : r.gotEof = true → extra = []) :
    RunInv (S ++ extra) C r h where
  capacity := hi.capacity
  output_capacity := hi.output_capacity
  output := hi.output
  bytes := by rw [List.take_append_of_le_length hi.written_le]; exact hi.bytes
  written_le := by simp only [List.length_append]; have := hi.written_le; omega
  store := ⟨hi.store.sorted, fun s hs => wf_append (hi.store.wf s hs) extra, hi.store.lo_le, hi.store.count⟩
  covered_eq := hi.covered_eq
  covered_lt := hi.covered_lt
  gotEof_eq := hi.gotEof_eq
  endIndex_eq := fun hg => by rw [hend hg, List.append_nil]; exact hi.endIndex_eq hg
  inputEnded_iff := hi.inputEnded_iff
  pushed_eq := fun hC => hi.pushed_eq (by simp only [List.length_append] at hC; omega)
  drained := fun hC => hi.drained (by simp only [List.length_append] at hC; omega)

/-- Failing the output (`set_error()`, as `_reset` does) changes nothing the invariant
reads. -/
theorem RunInv.setError (hi : RunInv S C r h) : RunInv S C { r with output := r.output.setError } h where
  capacity := hi.capacity
  output_capacity := by simpa using hi.output_capacity
  output := hi.output.setError
  bytes := by simpa using hi.bytes
  written_le := by simpa using hi.written_le
  store := by simpa using hi.store
  covered_eq := by simpa using hi.covered_eq
  covered_lt := by simpa using hi.covered_lt
  gotEof_eq := hi.gotEof_eq
  endIndex_eq := hi.endIndex_eq
  inputEnded_iff := by simpa using hi.inputEnded_iff
  pushed_eq := hi.pushed_eq
  drained := by simpa using hi.drained

/-! ## What the invariant says of the reassembler -/

section Consequences

variable (hi : RunInv S C r h)
include hi

theorem RunInv.cover_ge {j : Nat} (hj : j ∈ cover Segment.startIndex Segment.endIndex r.segments) :
    r.output.bytesWritten ≤ j := by
  obtain ⟨s, hs, hsj, -⟩ := mem_cover.mp hj
  exact (hi.store.lo_le s hs).trans hsj

/-- The covered indices at or past `bytes_written()` are exactly those the store holds. -/
theorem RunInv.filter_covered :
    h.covered.filter (fun j => r.output.bytesWritten ≤ j) =
      cover Segment.startIndex Segment.endIndex r.segments := by
  rw [hi.covered_eq, Finset.filter_union, Finset.filter_false_of_mem, Finset.empty_union,
    Finset.filter_true_of_mem fun j hj => hi.cover_ge hj]
  intro j hj
  simpa using Finset.mem_range.mp hj

theorem RunInv.unassembled_eq_card :
    r.unassembledBytes = (h.covered.filter fun j => r.output.bytesWritten ≤ j).card := by
  rw [hi.filter_covered, card_cover hi.store.sorted, hi.store.count]

theorem RunInv.inputEnded_iff_sawEof :
    r.output.inputEnded = true ↔ h.sawEof = true ∧ r.output.bytesWritten = S.length := by
  rw [hi.inputEnded_iff, hi.gotEof_eq]
  constructor
  · rintro ⟨hs, he⟩
    exact ⟨hs, he ▸ hi.endIndex_eq (hi.gotEof_eq ▸ hs)⟩
  · rintro ⟨hs, hb⟩
    exact ⟨hs, (hi.endIndex_eq (hi.gotEof_eq ▸ hs)).trans hb.symm⟩

/-- The store never holds more than the capacity: it lies inside the window. -/
theorem RunInv.unassembled_le : r.unassembledBytes ≤ C := by
  have hsub : h.covered.filter (fun j => r.output.bytesWritten ≤ j) ⊆
      Finset.Ico r.output.bytesWritten (r.output.bytesWritten + C) := by
    intro j hj
    obtain ⟨hj, hle⟩ := Finset.mem_filter.mp hj
    exact Finset.mem_Ico.mpr ⟨hle, hi.covered_lt j hj⟩
  calc r.unassembledBytes
      = (h.covered.filter fun j => r.output.bytesWritten ≤ j).card := hi.unassembled_eq_card
    _ ≤ (Finset.Ico r.output.bytesWritten (r.output.bytesWritten + C)).card := Finset.card_le_card hsub
    _ = C := by rw [Nat.card_Ico]; omega

end Consequences

/-- The bound the capacity does give: each buffer stays within it. -/
theorem buffers_le_capacity (hr : Reach S C r h) (h64 : C + S.length < 2 ^ 64) :
    r.unassembledBytes ≤ C ∧ r.output.bufferSize ≤ C := by
  have hi := hr.runInv h64
  exact ⟨hi.unassembled_le, hi.output_capacity ▸ hi.output.size_le⟩

theorem buffers_le_capacity_twoPushes :
    (((init 3).pushSubstring ([97, 98, 99].extract 1 3) 1 true).pushSubstring
        ([97, 98, 99].extract 0 1) 0 false).unassembledBytes ≤ 3 ∧
      (((init 3).pushSubstring ([97, 98, 99].extract 1 3) 1 true).pushSubstring
        ([97, 98, 99].extract 0 1) 0 false).output.bufferSize ≤ 3 :=
  buffers_le_capacity (show Reach [97, 98, 99] 3 _ _ from
    .push 0 1 false (.push 1 2 true .init (by decide) (fun _ => rfl) (by decide))
      (by decide) (by decide) (Nat.zero_le _)) (by norm_num)

/-- The two buffers together exceed the capacity: with capacity 2, `"ab"` is written
at 0 and, while it is unread, `"cd"` at 2 is still inside the window and is stored. -/
theorem capacity_exceeded :
    2 ≤ ((init 2).pushSubstring [97, 98] 0 false).output.bytesWritten + 2 ∧
      2 < (((init 2).pushSubstring [97, 98] 0 false).pushSubstring [99, 100] 2 false).unassembledBytes +
        (((init 2).pushSubstring [97, 98] 0 false).pushSubstring [99, 100] 2 false).output.bufferSize := by
  decide

end StreamReassembler

end Sponge
