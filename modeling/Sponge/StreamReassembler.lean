import Sponge.ByteStream
import Sponge.Lib.Intervals
import Sponge.Lib.Word

/-!
The stream reassembler of `stream_reassembler.cc`.

Stored substrings are `Segment`s kept in a `std::set` ordered by start index; the
set is a list sorted by `startIndex`, `setInsert` is `std::set::insert` (it keeps
the stored element when one with the same start exists, `Intervals.insertKey`)
and `lowerBound` is the `std::lower_bound` of `push_interval` with
`Segment::operator<(size_t)`, which compares end indices. `lowerBound` returns the
first position whose segment does not end below the key: this is what the binary
search returns on a range partitioned by that comparison, the precondition of
`std::lower_bound`.

Indices and lengths are naturals. The `size_t` arithmetic of `push_substring` itself is
64-bit: the sums `index + data.size()` and `bytes_written() + _capacity` are `Word.add 64`
and the capacity trim `expected + _capacity - index` is `Word.sub 64` (`pushSubstringLen`),
so a capacity near `2^64` wraps here as it does in the source. The counters of the output
`ByteStream` and the indices a `Segment` adds up (`_index + data.size()`, the prefix and
suffix trims) stay in `ℕ`: they equal the `size_t` values as long as they stay below `2^64`,
and the theorems over runs assume that the stream and the capacity together fit
(`capacity + |S| < 2^64`), or that each push's sums do.

When the trim exceeds `data.size()` the source builds a `string_view` past the end of
`data`, whose copy into the `Segment` throws `length_error` (or reads past `data`); the model
keeps the bytes of `data` there (`windowSegment`), so it says nothing about such a call,
which inside the window and without wrap-around never happens (`pushSubstringLen_of_le`).
-/

namespace Sponge

/-- `Segment`: the copied substring `data` pushed at `index`, of which the bytes
in `[startIndex, endIndex)` are kept after trimming. -/
structure Segment where
  index : Nat
  data : List UInt8
  startIndex : Nat
  endIndex : Nat
  deriving DecidableEq, Repr

namespace Segment

/-- `Segment(index, data)`. -/
def ofData (index : Nat) (data : List UInt8) : Segment :=
  ⟨index, data, index, index + data.length⟩

def removePrefix (s : Segment) (n : Nat) : Segment := { s with startIndex := s.startIndex + n }

def removeSuffix (s : Segment) (n : Nat) : Segment := { s with endIndex := s.endIndex - n }

/-- `size()`: the length of the `string_view` that `str()` builds. -/
def size (s : Segment) : Nat := s.endIndex - s.startIndex

/-- `str()`: the view of the kept bytes inside the copied data. -/
def str (s : Segment) : List UInt8 := (s.data.drop (s.startIndex - s.index)).take s.size

@[simp] theorem ofData_startIndex (i : Nat) (d : List UInt8) : (ofData i d).startIndex = i := rfl
@[simp] theorem ofData_endIndex (i : Nat) (d : List UInt8) :
    (ofData i d).endIndex = i + d.length := rfl
@[simp] theorem ofData_index (i : Nat) (d : List UInt8) : (ofData i d).index = i := rfl
@[simp] theorem ofData_data (i : Nat) (d : List UInt8) : (ofData i d).data = d := rfl
@[simp] theorem removePrefix_startIndex (s : Segment) (n : Nat) :
    (s.removePrefix n).startIndex = s.startIndex + n := rfl
@[simp] theorem removePrefix_endIndex (s : Segment) (n : Nat) :
    (s.removePrefix n).endIndex = s.endIndex := rfl
@[simp] theorem removePrefix_index (s : Segment) (n : Nat) : (s.removePrefix n).index = s.index := rfl
@[simp] theorem removePrefix_data (s : Segment) (n : Nat) : (s.removePrefix n).data = s.data := rfl
@[simp] theorem removeSuffix_startIndex (s : Segment) (n : Nat) :
    (s.removeSuffix n).startIndex = s.startIndex := rfl
@[simp] theorem removeSuffix_endIndex (s : Segment) (n : Nat) :
    (s.removeSuffix n).endIndex = s.endIndex - n := rfl
@[simp] theorem removeSuffix_index (s : Segment) (n : Nat) : (s.removeSuffix n).index = s.index := rfl
@[simp] theorem removeSuffix_data (s : Segment) (n : Nat) : (s.removeSuffix n).data = s.data := rfl

end Segment

/-- `std::set<Segment>::insert`: segments are ordered by start index, and an
element equivalent to a stored one (same start) is not inserted. -/
def setInsert (segment : Segment) (segments : List Segment) : List Segment :=
  Intervals.insertKey Segment.startIndex segment segments

/-- `std::lower_bound(_segments.begin(), _segments.end(), x)`: the position of the
first segment with `not (end_index() < x)`. -/
def lowerBound (segments : List Segment) (x : Nat) : Nat :=
  segments.findIdx fun s => !decide (s.endIndex < x)

/-- `StreamReassembler` with its private fields. -/
structure StreamReassembler where
  output : ByteStream
  capacity : Nat
  endIndex : Nat := 0
  unassembledBytes : Nat := 0
  gotEof : Bool := false
  segments : List Segment := []
  deriving DecidableEq, Repr

namespace StreamReassembler

/-- `StreamReassembler(capacity)`. -/
def init (capacity : Nat) : StreamReassembler := { output := ByteStream.init capacity, capacity }

def empty (r : StreamReassembler) : Bool := r.unassembledBytes = 0

/-- The first half of `push_interval`: the segment at `lower_bound(start_index)`
that begins at or before `segment` trims its front. `none` is the early return for
a segment lying inside that one; otherwise the trimmed segment and `remove_begin`. -/
def trimFront (segments : List Segment) (segment : Segment) : Option (Segment × Nat) :=
  let it := lowerBound segments segment.startIndex
  match segments[it]? with
  | some s =>
    if s.startIndex ≤ segment.startIndex then
      let removeN := s.endIndex - segment.startIndex
      if removeN > segment.size then none else some (segment.removePrefix removeN, it + 1)
    else some (segment, it)
  | none => some (segment, it)

/-- The second half of `push_interval`: the segment at `lower_bound(end_index)`
that begins at or before the end of `segment` trims its back; `remove_end` is that
position. -/
def trimBack (segments : List Segment) (segment : Segment) : Option (Segment × Nat) :=
  let it := lowerBound segments segment.endIndex
  match segments[it]? with
  | some s =>
    if s.startIndex ≤ segment.endIndex then
      let removeN := segment.endIndex - s.startIndex
      if removeN > segment.size then none else some (segment.removeSuffix removeN, it)
    else some (segment, it)
  | none => some (segment, it)

/-- `push_interval`: store `segment`, trimmed against its neighbours, in place of
the stored segments it covers. -/
def pushInterval (r : StreamReassembler) (segment : Segment) : StreamReassembler :=
  if segment.size = 0 then r else
  match trimFront r.segments segment with
  | none => r
  | some (segment, removeBegin) =>
    match trimBack r.segments segment with
    | none => r
    | some (segment, removeEnd) =>
      let removed := (r.segments.take removeEnd).drop removeBegin
      { r with
        segments := setInsert segment (r.segments.take removeBegin ++ r.segments.drop removeEnd)
        unassembledBytes :=
          removed.foldl (fun u s => u - s.size) r.unassembledBytes + segment.size }

/-- The reassembly loop of `push_substring`: while the first stored segment starts
at `bytes_written()`, write it out; a partial write keeps the rest and stops. -/
def reassemble : StreamReassembler → List Segment → StreamReassembler
  | r, [] => { r with segments := [] }
  | r, s :: rest =>
    if s.startIndex = r.output.bytesWritten then
      let (output, wc) := r.output.write s.str
      if wc = 0 then { r with output, segments := s :: rest }
      else if wc < s.size then
        { r with output, unassembledBytes := r.unassembledBytes - wc,
                 segments := setInsert (s.removePrefix wc) rest }
      else reassemble { r with output, unassembledBytes := r.unassembledBytes - wc } rest
    else { r with segments := s :: rest }

/-- The length `push_substring` keeps of `data` (lines 35-40 of the source):
`expected + _capacity - index` in `size_t` when the substring runs past the window, all
three operations on 64-bit words. -/
def pushSubstringLen (r : StreamReassembler) (index size : Nat) : Nat :=
  let expected := r.output.bytesWritten
  if Word.add 64 index size > Word.add 64 expected r.capacity then
    Word.sub 64 (Word.add 64 expected r.capacity) index
  else size

/-- Lines 30-33 of `push_substring`: the first `eof` records where the stream ends. -/
def recordEof (r : StreamReassembler) (endIndex : Nat) (eof : Bool) : StreamReassembler :=
  if eof && !r.gotEof then { r with gotEof := true, endIndex } else r

/-- Lines 35-45 of `push_substring`: the segment of `data` kept inside the window,
without the bytes already written. When `pushSubstringLen` exceeds `data.size()` the
source builds a view past the end of `data` and its copy throws; the model keeps the bytes
of `data`. -/
def windowSegment (r : StreamReassembler) (data : List UInt8) (index : Nat) : Segment :=
  let expected := r.output.bytesWritten
  let segment := Segment.ofData index (data.take (r.pushSubstringLen index data.length))
  if segment.startIndex < expected then segment.removePrefix (expected - segment.startIndex)
  else segment

/-- Lines 72-74 of `push_substring`: the output ends once the recorded end is written. -/
def closeInput (r : StreamReassembler) : StreamReassembler :=
  if r.gotEof && r.endIndex = r.output.bytesWritten then { r with output := r.output.endInput }
  else r

/-- `push_substring(data, index, eof)`. -/
def pushSubstring (r : StreamReassembler) (data : List UInt8) (index : Nat) (eof : Bool) :
    StreamReassembler :=
  if r.output.inputEnded then r else
  if Word.add 64 index data.length < r.output.bytesWritten then r else
  let r' := (r.recordEof (Word.add 64 index data.length) eof).pushInterval (r.windowSegment data index)
  closeInput (reassemble r' r'.segments)

/-- Reading from `stream_out()`: `pop_output(len)`. -/
def popOutput (r : StreamReassembler) (len : Nat) : StreamReassembler :=
  { r with output := r.output.popOutput len }

end StreamReassembler

end Sponge
