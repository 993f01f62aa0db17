import Sponge.Reassembler.Run

/-!
The shape of the reassembler's store over runs with any bytes.

`Reachable` is every state a reassembler reaches from its constructor by `push_substring`
calls of any bytes, index and `eof` that start inside the window
(`index ≤ bytes_written() + capacity`) and whose `size_t` sums `index + data.size()` and
`bytes_written() + capacity` do not wrap, and by reads. Nothing ties the bytes of two pushes
together, so the store is read by its shape alone (`StoreShape`): along every run
(`Reachable.shapeInv`) the stored segments are nonempty, disjoint and sorted, they lie
between `bytes_written()` and the window's end, and `_unassembled_bytes` is the sum of
their sizes (`store_representation`), which is then at most the capacity
(`unassembled_le_capacity`). Sorted ends are the partition that the `std::lower_bound`
calls of `push_interval` require.
-/

namespace Sponge

namespace StreamReassembler

open Intervals

/-- The states a reassembler reaches by pushes inside the window, of any bytes, and reads. -/
inductive Reachable : StreamReassembler → Prop
  | init (capacity : Nat) : Reachable (init capacity)
  | push {r : StreamReassembler} (data : List UInt8) (index : Nat) (eof : Bool) :
      Reachable r → index ≤ r.output.bytesWritten + r.capacity →
        index + data.length < 2 ^ 64 → r.output.bytesWritten + r.capacity < 2 ^ 64 →
        Reachable (r.pushSubstring data index eof)
  | pop {r : StreamReassembler} (len : Nat) : Reachable r → Reachable (r.popOutput len)

/-- The shape of the store above `bytes_written()`, inside the window. -/
structure ShapeInv (r : StreamReassembler) : Prop where
  shape : StoreShape r.output.bytesWritten r.segments r.unassembledBytes
  le_window : ∀ s ∈ r.segments, s.endIndex ≤ r.output.bytesWritten + r.capacity

variable {r : StreamReassembler}

theorem shapeInv_init (capacity : Nat) : ShapeInv (init capacity) where
  shape := ⟨sorted_nil, by simp [init], by simp [init, total]⟩
  le_window := by simp [init]

theorem ShapeInv.popOutput (hi : ShapeInv r) (len : Nat) : ShapeInv (r.popOutput len) :=
  ⟨hi.shape, hi.le_window⟩

/-- **A push inside the window keeps the shape**, whatever its bytes: the trimmed segment
lies inside the window, `push_interval` puts it in the store, and the reassembly loop only
writes out the front of the store. -/
theorem ShapeInv.pushSubstring (hi : ShapeInv r) (data : List UInt8) (index : Nat) (eof : Bool)
    (hw : index ≤ r.output.bytesWritten + r.capacity) (hs : index + data.length < 2 ^ 64)
    (hc : r.output.bytesWritten + r.capacity < 2 ^ 64) : ShapeInv (r.pushSubstring data index eof) := by
  unfold StreamReassembler.pushSubstring
  rw [Word.add_of_lt hs]
  split
  · exact hi
  split
  · exact hi
  · next hge =>
  obtain ⟨hstart, hend⟩ := windowSegment_bounds r hw hs hc
  -- the record of `eof` changes nothing the shape reads
  set r₀ := r.recordEof (index + data.length) eof with hr₀
  have h₀ : StoreShape r₀.output.bytesWritten r₀.segments r₀.unassembledBytes := by
    simpa [hr₀] using hi.shape
  obtain ⟨h₁, hmem₁⟩ := @pushInterval_shape _ _ (r.windowSegment data index) h₀ (by omega)
    (by simp only [hr₀, recordEof_output]; omega)
  set r₁ := r₀.pushInterval (r.windowSegment data index) with hr₁
  have h₁' : StoreShape r₁.output.bytesWritten r₁.segments r₁.unassembledBytes := by
    rw [hr₁, pushInterval_output]
    exact h₁
  obtain ⟨h₂, hbw₂, hmem₂⟩ := reassemble_shape h₁'
  refine ⟨by simpa using h₂, fun a ha => ?_⟩
  rw [closeInput_segments] at ha
  obtain ⟨b, hb, hab⟩ := hmem₂ a ha
  -- what is stored ends where a segment stored before, or the pushed one, did
  have hb' : b.endIndex ≤ r.output.bytesWritten + r.capacity := by
    rcases hmem₁ b hb with hb | hb
    · exact hi.le_window b (by simpa [hr₀] using hb)
    · omega
  have hbw₁ : r₁.output.bytesWritten = r.output.bytesWritten := by simp [hr₁, hr₀]
  have hcap₁ : r₁.capacity = r.capacity := by simp [hr₁, hr₀]
  simp only [closeInput_bytesWritten, closeInput_capacity, reassemble_capacity]
  omega

/-- **The shape holds along every run.** -/
theorem Reachable.shapeInv (h : Reachable r) : ShapeInv r := by
  induction h with
  | init capacity => exact shapeInv_init capacity
  | push data index eof _ hw hs hc ih => exact ih.pushSubstring data index eof hw hs hc
  | pop len _ ih => exact ih.popOutput len

/-- **The store stays within the capacity**, whatever bytes are pushed: its segments are
disjoint and lie inside the window. -/
theorem unassembled_le_capacity (h : Reachable r) : r.unassembledBytes ≤ r.capacity := by
  have hi := h.shapeInv
  calc r.unassembledBytes
      = total Segment.startIndex Segment.endIndex r.segments := hi.shape.count
    _ ≤ r.output.bytesWritten + r.capacity - r.output.bytesWritten :=
        hi.shape.sorted.total_le fun s hs => ⟨hi.shape.lo_le s hs, hi.le_window s hs⟩
    _ = r.capacity := by omega

/-- `"bcd"` at 1 with capacity 2: only `"b"`, inside the window, is kept. -/
theorem unassembled_le_capacity_trimmed :
    let r : StreamReassembler := (init 2).pushSubstring [98, 99, 100] 1 false
    Reachable r ∧ r.unassembledBytes ≤ r.capacity ∧ r.unassembledBytes = 1 := by
  have h : Reachable ((init 2).pushSubstring [98, 99, 100] 1 false) :=
    .push _ _ _ (.init 2) (by decide) (by decide) (by decide)
  exact ⟨h, unassembled_le_capacity h, by decide⟩

end StreamReassembler

end Sponge
