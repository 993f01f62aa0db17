import Sponge.ByteStream

/-!
Runs of a `ByteStream`: any sequence of the calls its owner makes (`write`, `read`,
`pop_output`, `peek_output`, `end_input`) on a new stream.

`runLog` makes the calls and keeps two logs: the bytes each `write` accepted, and the bytes
each `read` returned or `pop_output` dropped. One call moves bytes from the log of what was
accepted, through the buffer, to the log of what was taken (`call_content`), and keeps the
counters describing the chunks (`Inv.call`). Over any run the stream is a bounded FIFO
(`bounded_fifo`): what was taken, then what is buffered, is what was accepted, in order; the
buffer stays within the capacity and its size counts its bytes; `write` and `peek_output`
meet their specifications in every reachable state; and `eof()` holds exactly when
`end_input` was called and nothing is buffered. The one call `peek_output` makes to
`Buffer::str(len)`, for the chunk it stops inside, asks for fewer bytes than the chunk has, so
the assertion `size() <= len` fails on it (`strAsserts_peekStrCall`).
-/

namespace Sponge

namespace ByteStream

/-- A call on the stream. -/
inductive Call
  | write (data : List UInt8)
  | read (len : Nat)
  | popOutput (len : Nat)
  | peekOutput (len : Nat)
  | endInput
  deriving DecidableEq, Repr

/-- The stream after a call; `peek_output` is `const`. -/
def call (s : ByteStream) : Call → ByteStream
  | .write data => (s.write data).1
  | .read len => (s.read len).1
  | .popOutput len => s.popOutput len
  | .peekOutput _ => s
  | .endInput => s.endInput

/-- The bytes a call accepts: the prefix of the data `write` keeps. -/
def accepted (s : ByteStream) : Call → List UInt8
  | .write data => data.take (s.write data).2
  | _ => []

/-- The bytes a call takes out: those `read` returns, or the `min(len, buffer_size())` bytes
`pop_output` drops. -/
def taken (s : ByteStream) : Call → List UInt8
  | .read len => (s.read len).2
  | .popOutput len => s.content.take (min len s.bufferSize)
  | _ => []

/-- The stream after the calls, the bytes they accepted and the bytes they took. -/
def runLog (s : ByteStream) : List Call → ByteStream × List UInt8 × List UInt8
  | [] => (s, [], [])
  | c :: cs =>
    let r := (s.call c).runLog cs
    (r.1, s.accepted c ++ r.2.1, s.taken c ++ r.2.2)

@[simp] theorem call_capacity (s : ByteStream) (c : Call) : (s.call c).capacity = s.capacity := by
  cases c <;> rfl

theorem call_inputEnded (s : ByteStream) (c : Call) :
    (s.call c).inputEnded = (s.inputEnded || decide (c = .endInput)) := by
  cases c <;> simp [call]

theorem Inv.call {s : ByteStream} (hs : s.Inv) (c : Call) : (s.call c).Inv := by
  cases c with
  | write data => exact hs.write data
  | read len => exact hs.popOutput len
  | popOutput len => exact hs.popOutput len
  | peekOutput len => exact hs
  | endInput => exact hs.endInput

/-- One call: what it takes, then the buffer after it, is the buffer before it, then what
it accepts. -/
theorem call_content {s : ByteStream} (hs : s.Inv) (c : Call) :
    s.taken c ++ (s.call c).content = s.content ++ s.accepted c := by
  have hl := hs.length_content
  cases c with
  | write data => simp [taken, call, accepted]
  | read len =>
    -- `read` returns what `pop_output` then drops
    simp only [accepted, List.append_nil]
    rw [taken, call, read_snd, read_fst, peekOutput_eq hs, popOutput_content hs, List.take_eq_take_min, hl,
      List.take_append_drop]
  | popOutput len =>
    simp only [accepted, List.append_nil]
    rw [taken, call, popOutput_content hs, List.take_append_drop]
  | peekOutput len => simp [taken, call, accepted]
  | endInput => simp [taken, call, accepted]

/-! ## Whole runs -/

section Run

variable {s : ByteStream} (hs : s.Inv)
include hs

theorem runLog_inv (calls : List Call) : (s.runLog calls).1.Inv := by
  induction calls generalizing s with
  | nil => exact hs
  | cons c cs ih => exact ih (hs.call c)

/-- Over a run, the bytes taken then those still buffered are the buffer at the start
then the bytes accepted. -/
theorem runLog_content (calls : List Call) :
    s.content ++ (s.runLog calls).2.1 = (s.runLog calls).2.2 ++ (s.runLog calls).1.content := by
  induction calls generalizing s with
  | nil => simp [runLog]
  | cons c cs ih =>
    have hr := ih (hs.call c)
    simp only [runLog]
    calc s.content ++ (s.accepted c ++ ((s.call c).runLog cs).2.1)
        = (s.taken c ++ (s.call c).content) ++ ((s.call c).runLog cs).2.1 := by
          rw [call_content hs c, List.append_assoc]
      _ = s.taken c ++ (((s.call c).runLog cs).2.2 ++ ((s.call c).runLog cs).1.content) := by
          rw [List.append_assoc, hr]
      _ = (s.taken c ++ ((s.call c).runLog cs).2.2) ++ ((s.call c).runLog cs).1.content :=
          (List.append_assoc _ _ _).symm

end Run

theorem runLog_capacity (s : ByteStream) (calls : List Call) : (s.runLog calls).1.capacity = s.capacity := by
  induction calls generalizing s with
  | nil => rfl
  | cons c cs ih => rw [runLog, ih, call_capacity]

/-- Only `end_input` ends the input. -/
theorem runLog_inputEnded (s : ByteStream) (calls : List Call) :
    (s.runLog calls).1.inputEnded = (s.inputEnded || decide (Call.endInput ∈ calls)) := by
  induction calls generalizing s with
  | nil => simp [runLog]
  | cons c cs ih =>
    rw [runLog, ih, call_inputEnded]
    by_cases hc : c = .endInput <;> simp [hc, eq_comm]

/-- **The byte stream is a bounded FIFO.** After any calls on a stream of any capacity, the
bytes taken by `read` and `pop_output`, then those buffered, are the bytes `write` accepted,
in order; the buffer is within the capacity and `buffer_size()` counts its bytes; `write`
accepts the prefix that fits and returns its length, and `peek_output` returns the first
`min(len, buffer_size())` buffered bytes; and `eof()` holds exactly when `end_input` was
called and the buffer is empty. -/
theorem bounded_fifo (capacity : Nat) (calls : List Call) :
    let r := (init capacity).runLog calls
    r.2.2 ++ r.1.content = r.2.1 ∧
      r.1.bufferSize ≤ capacity ∧ r.1.bytesWritten - r.1.bytesRead = r.1.bufferSize ∧
      r.1.content.length = r.1.bufferSize ∧
      (r.1.eof = true ↔ Call.endInput ∈ calls ∧ r.1.bufferSize = 0) ∧
      (∀ data, (r.1.write data).2 = min data.length r.1.remainingCapacity ∧
        (r.1.write data).1.content = r.1.content ++ data.take (min data.length r.1.remainingCapacity)) ∧
      ∀ len, r.1.peekOutput len = r.1.content.take (min len r.1.bufferSize) := by
  intro r
  have hinv : r.1.Inv := runLog_inv (inv_init capacity) calls
  have hcontent := runLog_content (inv_init capacity) calls
  have hcap : r.1.capacity = capacity := runLog_capacity (init capacity) calls
  have hend : r.1.inputEnded = decide (Call.endInput ∈ calls) := by
    rw [runLog_inputEnded, init_inputEnded, Bool.false_or]
  refine ⟨by simpa using hcontent.symm, hcap ▸ hinv.size_le, rfl, hinv.length_content, ?_,
    fun data => ⟨write_count _ _, write_content _ _⟩, fun len => ?_⟩
  · rw [eof_iff, hend, decide_eq_true_iff]
  · rw [peekOutput_eq hinv, List.take_eq_take_min, hinv.length_content]

/-! ## The partial-chunk path of `peek_output`

`peek_output` copies whole chunks while they fit in what is left to copy, and copies the
first `remain` bytes of the chunk it stops inside with `segment.str(remain)`. That call
asserts `size() <= len` (`buffer.hh`, line 41): the opposite of the one case the loop calls it
in. -/

/-- The assertion of `Buffer::str(len)`: `assert(size() <= len)`. -/
def strAsserts (segment : List UInt8) (len : Nat) : Bool := decide (segment.length ≤ len)

/-- The `segment.str(remain)` call of the chunk loop of `peek_output`, if it makes one: the
chunk it stops inside, and the length it asks of it. -/
def peekStrCall : Nat → List (List UInt8) → Option (List UInt8 × Nat)
  | _, [] => none
  | remain, segment :: rest =>
    if segment.length ≤ remain then
      if remain - segment.length = 0 then none else peekStrCall (remain - segment.length) rest
    else some (segment, remain)

/-- Where the loop calls `segment.str(remain)`: on the first chunk it does not take whole,
after the whole chunks `pre`, asking for the bytes still to copy, fewer than the chunk has;
what it returns ends with the first `remain` bytes of that chunk. -/
theorem peekStrCall_spec {remain : Nat} {bs : List (List UInt8)} {segment : List UInt8} {r : Nat}
    (h : peekStrCall remain bs = some (segment, r)) :
    ∃ pre post, bs = pre ++ segment :: post ∧ r = remain - pre.flatten.length ∧ r < segment.length ∧
      peekChunks remain bs = pre.flatten ++ segment.take r := by
  induction bs generalizing remain with
  | nil => cases h
  | cons b bs ih =>
    unfold peekStrCall at h
    unfold peekChunks
    by_cases hb : b.length ≤ remain
    · rw [if_pos hb] at h ⊢
      by_cases h0 : remain - b.length = 0
      · rw [if_pos h0] at h
        cases h
      · -- the chunk is copied whole, and the call is made further on
        rw [if_neg h0] at h ⊢
        obtain ⟨pre, post, rfl, hr, hlt, hpeek⟩ := ih h
        refine ⟨b :: pre, post, rfl, ?_, hlt, ?_⟩
        · rw [List.flatten_cons, List.length_append]
          omega
        · rw [hpeek, List.flatten_cons, List.append_assoc]
    · rw [if_neg hb] at h ⊢
      simp only [Option.some.injEq, Prod.mk.injEq] at h
      obtain ⟨rfl, rfl⟩ := h
      exact ⟨[], bs, rfl, by simp, by omega, by simp⟩

/-- Every `segment.str(remain)` call of `peek_output` fails its assertion. -/
theorem strAsserts_peekStrCall {remain : Nat} {bs : List (List UInt8)} {c : List UInt8 × Nat}
    (h : peekStrCall remain bs = some c) : strAsserts c.1 c.2 = false := by
  obtain ⟨pre, post, -, -, hlt, -⟩ := peekStrCall_spec h
  simpa [strAsserts] using hlt

/-- A one-byte peek of a three-byte write: `peek_output(1)` calls `str(1)` on the chunk
`"abc"`, whose assertion `3 <= 1` fails; without assertions the view is `"a"`. -/
theorem peek_str_assert_fails :
    let s : ByteStream := ((init 3).runLog [.write [97, 98, 99]]).1
    peekStrCall (min 1 s.bufferSize) s.buffer.buffers = some ([97, 98, 99], 1) ∧
      strAsserts [97, 98, 99] 1 = false ∧ s.peekOutput 1 = [97] := by
  decide

end ByteStream

end Sponge
