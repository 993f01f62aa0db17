import Mathlib

/-!
The flow-controlled in-order byte stream of `byte_stream.cc`, kept as the chunk
list of `BufferList` (`util/buffer.cc`).

A `Buffer` is modelled by the bytes its `str()` exposes, and the counters of the
stream are plain naturals: `buffer_size()` is `_bytes_written - _bytes_read`, and
`ByteStream.Inv` says these counters describe the chunks. Every operation keeps
`Inv`, and under it each operation has a one-line specification over the buffered
bytes, `ByteStream.content`.
-/

namespace Sponge

/-- A discontiguous string: the queue of `Buffer`s of a `BufferList`. -/
structure BufferList where
  buffers : List (List UInt8)
  deriving DecidableEq, Repr

namespace BufferList

def size (b : BufferList) : Nat := (b.buffers.map List.length).sum

def concatenate (b : BufferList) : List UInt8 := b.buffers.flatten

def append (b other : BufferList) : BufferList := ⟨b.buffers ++ other.buffers⟩

/-- The loop of `BufferList::remove_prefix`. Running out of buffers while `n > 0`
throws `out_of_range` in the source; `removePrefix_concatenate` shows callers that
stay within `size` never get there. -/
def removePrefixAux (n : Nat) : List (List UInt8) → List (List UInt8)
  | [] => []
  | b :: bs =>
    if n = 0 then b :: bs
    else if n < b.length then b.drop n :: bs
    else removePrefixAux (n - b.length) bs

def removePrefix (b : BufferList) (n : Nat) : BufferList := ⟨removePrefixAux n b.buffers⟩

@[simp] theorem size_eq_length (b : BufferList) : b.size = b.concatenate.length := by
  simp [size, concatenate, List.length_flatten]

@[simp] theorem concatenate_append (b other : BufferList) :
    (b.append other).concatenate = b.concatenate ++ other.concatenate := by
  simp [append, concatenate]

theorem removePrefixAux_flatten (n : Nat) (bs : List (List UInt8))
    (h : n ≤ bs.flatten.length) :
    (removePrefixAux n bs).flatten = bs.flatten.drop n := by
  induction bs generalizing n with
  | nil => simp [removePrefixAux]
  | cons b bs ih =>
    simp only [List.flatten_cons, List.length_append] at h ⊢
    unfold removePrefixAux
    split
    · simp_all
    split
    · rw [List.flatten_cons, List.drop_append_of_le_length (by omega)]
    · have hb : b.length ≤ n := by omega
      rw [ih (n - b.length) (by omega), List.drop_append, List.drop_eq_nil_of_le hb,
        List.nil_append]

@[simp] theorem removePrefix_concatenate (b : BufferList) (n : Nat) (h : n ≤ b.size) :
    (b.removePrefix n).concatenate = b.concatenate.drop n :=
  removePrefixAux_flatten n b.buffers (by simpa [concatenate] using h)

@[simp] theorem removePrefix_zero (b : BufferList) : b.removePrefix 0 = b := by
  obtain ⟨_ | _⟩ := b <;> rfl

end BufferList

/-- `ByteStream` with its private fields. `buffer` is `_buffer`; the counters are
`_bytes_written` and `_bytes_read`. -/
structure ByteStream where
  error : Bool := false
  inputEnded : Bool := false
  capacity : Nat
  bytesWritten : Nat := 0
  bytesRead : Nat := 0
  buffer : BufferList := ⟨[]⟩
  deriving DecidableEq, Repr

namespace ByteStream

/-- `ByteStream(capacity)`. -/
def init (capacity : Nat) : ByteStream := { capacity }

def bufferSize (s : ByteStream) : Nat := s.bytesWritten - s.bytesRead

def bufferEmpty (s : ByteStream) : Bool := s.bufferSize = 0

def eof (s : ByteStream) : Bool := s.inputEnded && s.bufferEmpty

def remainingCapacity (s : ByteStream) : Nat := s.capacity - s.bufferSize

def endInput (s : ByteStream) : ByteStream := { s with inputEnded := true }

def setError (s : ByteStream) : ByteStream := { s with error := true }

/-- `write`: accept as much of `data` as fits, returning the stream and the count. -/
def write (s : ByteStream) (data : List UInt8) : ByteStream × Nat :=
  let wc := min data.length s.remainingCapacity
  ({ s with bytesWritten := s.bytesWritten + wc, buffer := s.buffer.append ⟨[data.take wc]⟩ }, wc)

/-- The chunk loop of `peek_output`; `segment.str(remain)` is the first `remain`
bytes of the chunk. -/
def peekChunks : Nat → List (List UInt8) → List UInt8
  | _, [] => []
  | remain, segment :: rest =>
    if segment.length ≤ remain then
      segment ++ (if remain - segment.length = 0 then [] else peekChunks (remain - segment.length) rest)
    else segment.take remain

def peekOutput (s : ByteStream) (len : Nat) : List UInt8 :=
  peekChunks (min len s.bufferSize) s.buffer.buffers

def popOutput (s : ByteStream) (len : Nat) : ByteStream :=
  let rc := min len s.bufferSize
  { s with bytesRead := s.bytesRead + rc, buffer := s.buffer.removePrefix rc }

/-- `read`: copy and then pop the next `len` bytes. -/
def read (s : ByteStream) (len : Nat) : ByteStream × List UInt8 :=
  (s.popOutput len, s.peekOutput len)

/-- The bytes the stream holds: written, not yet popped. -/
def content (s : ByteStream) : List UInt8 := s.buffer.concatenate

/-- The counters describe the chunks and respect the capacity. -/
structure Inv (s : ByteStream) : Prop where
  read_le : s.bytesRead ≤ s.bytesWritten
  length_content : s.content.length = s.bufferSize
  size_le : s.bufferSize ≤ s.capacity

/-! ## Accessor lemmas -/

@[simp] theorem init_capacity (c : Nat) : (init c).capacity = c := rfl
@[simp] theorem init_bytesWritten (c : Nat) : (init c).bytesWritten = 0 := rfl
@[simp] theorem init_bytesRead (c : Nat) : (init c).bytesRead = 0 := rfl
@[simp] theorem init_inputEnded (c : Nat) : (init c).inputEnded = false := rfl
@[simp] theorem init_error (c : Nat) : (init c).error = false := rfl
@[simp] theorem init_content (c : Nat) : (init c).content = [] := rfl

@[simp] theorem endInput_inputEnded (s : ByteStream) : s.endInput.inputEnded = true := rfl
@[simp] theorem endInput_bytesWritten (s : ByteStream) : s.endInput.bytesWritten = s.bytesWritten := rfl
@[simp] theorem endInput_bytesRead (s : ByteStream) : s.endInput.bytesRead = s.bytesRead := rfl
@[simp] theorem endInput_capacity (s : ByteStream) : s.endInput.capacity = s.capacity := rfl
@[simp] theorem endInput_error (s : ByteStream) : s.endInput.error = s.error := rfl
@[simp] theorem endInput_content (s : ByteStream) : s.endInput.content = s.content := rfl

@[simp] theorem setError_inputEnded (s : ByteStream) : s.setError.inputEnded = s.inputEnded := rfl
@[simp] theorem setError_bytesWritten (s : ByteStream) : s.setError.bytesWritten = s.bytesWritten := rfl
@[simp] theorem setError_bytesRead (s : ByteStream) : s.setError.bytesRead = s.bytesRead := rfl
@[simp] theorem setError_capacity (s : ByteStream) : s.setError.capacity = s.capacity := rfl
@[simp] theorem setError_error (s : ByteStream) : s.setError.error = true := rfl
@[simp] theorem setError_content (s : ByteStream) : s.setError.content = s.content := rfl

@[simp] theorem write_count (s : ByteStream) (data : List UInt8) :
    (s.write data).2 = min data.length s.remainingCapacity := rfl
@[simp] theorem write_bytesWritten (s : ByteStream) (data : List UInt8) :
    (s.write data).1.bytesWritten = s.bytesWritten + min data.length s.remainingCapacity := rfl
@[simp] theorem write_bytesRead (s : ByteStream) (data : List UInt8) :
    (s.write data).1.bytesRead = s.bytesRead := rfl
@[simp] theorem write_inputEnded (s : ByteStream) (data : List UInt8) :
    (s.write data).1.inputEnded = s.inputEnded := rfl
@[simp] theorem write_error (s : ByteStream) (data : List UInt8) :
    (s.write data).1.error = s.error := rfl
@[simp] theorem write_capacity (s : ByteStream) (data : List UInt8) :
    (s.write data).1.capacity = s.capacity := rfl
@[simp] theorem write_content (s : ByteStream) (data : List UInt8) :
    (s.write data).1.content = s.content ++ data.take (min data.length s.remainingCapacity) := by
  simp [write, content, BufferList.concatenate, BufferList.append]

@[simp] theorem popOutput_bytesRead (s : ByteStream) (len : Nat) :
    (s.popOutput len).bytesRead = s.bytesRead + min len s.bufferSize := rfl
@[simp] theorem popOutput_bytesWritten (s : ByteStream) (len : Nat) :
    (s.popOutput len).bytesWritten = s.bytesWritten := rfl
@[simp] theorem popOutput_inputEnded (s : ByteStream) (len : Nat) :
    (s.popOutput len).inputEnded = s.inputEnded := rfl
@[simp] theorem popOutput_error (s : ByteStream) (len : Nat) :
    (s.popOutput len).error = s.error := rfl
@[simp] theorem popOutput_capacity (s : ByteStream) (len : Nat) :
    (s.popOutput len).capacity = s.capacity := rfl

@[simp] theorem popOutput_bufferSize (s : ByteStream) (len : Nat) :
    (s.popOutput len).bufferSize = s.bufferSize - min len s.bufferSize := by
  simp only [bufferSize, popOutput_bytesRead, popOutput_bytesWritten]
  omega

/-- Popping from an empty buffer changes nothing. -/
theorem popOutput_of_bufferSize_zero {s : ByteStream} (hb : s.bufferSize = 0) (len : Nat) :
    s.popOutput len = s := by
  simp [popOutput, hb]

@[simp] theorem read_fst (s : ByteStream) (len : Nat) : (s.read len).1 = s.popOutput len := rfl
@[simp] theorem read_snd (s : ByteStream) (len : Nat) : (s.read len).2 = s.peekOutput len := rfl

theorem eof_iff (s : ByteStream) : s.eof = true ↔ s.inputEnded = true ∧ s.bufferSize = 0 := by
  simp [eof, bufferEmpty]

/-! ## Specifications over the buffered bytes -/

theorem peekChunks_eq (remain : Nat) (bs : List (List UInt8)) (h : remain ≤ bs.flatten.length) :
    peekChunks remain bs = bs.flatten.take remain := by
  induction bs generalizing remain with
  | nil => simp [peekChunks]
  | cons b bs ih =>
    simp only [List.flatten_cons, List.length_append] at h ⊢
    unfold peekChunks
    split
    · rw [List.take_append, List.take_of_length_le (by omega)]
      split
      · simp [*]
      · rw [ih _ (by omega)]
    · rw [List.take_append_of_le_length (by omega)]

section
variable {s : ByteStream} (hs : s.Inv)
include hs

theorem popOutput_content (len : Nat) :
    (s.popOutput len).content = s.content.drop (min len s.bufferSize) := by
  have hl : min len s.bufferSize ≤ s.buffer.size := by
    rw [BufferList.size_eq_length, ← content, hs.length_content]
    omega
  exact BufferList.removePrefix_concatenate _ _ hl

/-- `peek_output(len)` returns the first `min(len, buffer_size())` buffered bytes. -/
theorem peekOutput_eq (len : Nat) : s.peekOutput len = s.content.take len := by
  have hl := hs.length_content
  have hc : s.content = s.buffer.buffers.flatten := rfl
  rw [peekOutput, peekChunks_eq _ _ (by rw [← hc, hl]; omega), ← hc, ← hl]
  exact List.take_eq_take_min.symm

theorem peekOutput_length (len : Nat) : (s.peekOutput len).length = min len s.bufferSize := by
  rw [peekOutput_eq hs, List.length_take, hs.length_content, Nat.min_comm]

theorem Inv.write (data : List UInt8) : (s.write data).1.Inv where
  read_le := by have := hs.read_le; simp; omega
  length_content := by
    have hl := hs.length_content
    have hr := hs.read_le
    simp only [write_content, List.length_append, List.length_take, bufferSize,
      write_bytesWritten, write_bytesRead] at hl ⊢
    omega
  size_le := by
    have := hs.size_le
    simp only [bufferSize, remainingCapacity, write_bytesWritten, write_bytesRead,
      write_capacity] at this ⊢
    omega

theorem Inv.popOutput (len : Nat) : (s.popOutput len).Inv where
  read_le := by have := hs.read_le; simp only [popOutput_bytesRead, popOutput_bytesWritten, bufferSize]; omega
  length_content := by
    have := hs.length_content
    rw [popOutput_content hs, List.length_drop, this]
    simp only [bufferSize, popOutput_bytesRead, popOutput_bytesWritten]
    omega
  size_le := by
    have := hs.size_le
    simp only [bufferSize, popOutput_bytesRead, popOutput_bytesWritten, popOutput_capacity] at this ⊢
    omega

theorem Inv.endInput : s.endInput.Inv :=
  ⟨hs.read_le, hs.length_content, hs.size_le⟩

theorem Inv.setError : s.setError.Inv :=
  ⟨hs.read_le, hs.length_content, hs.size_le⟩

end

theorem inv_init (c : Nat) : (init c).Inv := ⟨Nat.le_refl 0, rfl, Nat.zero_le _⟩

end ByteStream

end Sponge
