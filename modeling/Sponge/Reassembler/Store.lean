import Sponge.StreamReassembler

/-!
The segment store of the reassembler, for substrings of a fixed stream `S`.

`StoreInv S lo segments unassembled` is the representation invariant of the
store: the segments are nonempty, disjoint and sorted, each holds its bytes of
`S`, none starts before `lo`, and `unassembled` counts their bytes. Its part that
does not mention `S` is `StoreShape`, which holds whatever bytes were pushed.
Proved here:

* `pushInterval_cases`: what `push_interval` does to a sorted store, from which
  `pushInterval_shape` and `pushInterval_inv` follow: it keeps the shape, and the
  invariant, and adds exactly the points of the new segment to those the store covers;
* `reassemble_shape`, `reassemble_inv`: the reassembly loop keeps the shape above
  the new `bytes_written()`; on segments of `S` it writes the bytes of `S` that
  follow the output, keeps the invariant, and moves every point it takes out of the
  store into the output.
-/

namespace Sponge

open Intervals

namespace Segment

/-- A segment of the stream `S`: its copied data is the substring of `S` at `index`,
and its kept range lies inside that data. -/
structure Wf (S : List UInt8) (s : Segment) : Prop where
  index_le : s.index ≤ s.startIndex
  start_le : s.startIndex ≤ s.endIndex
  end_le : s.endIndex ≤ s.index + s.data.length
  data_eq : s.data = S.extract s.index (s.index + s.data.length)

variable {S : List UInt8} {s : Segment}

theorem Wf.end_le_length (h : s.Wf S) (hne : s.startIndex < s.endIndex) :
    s.endIndex ≤ S.length := by
  have hl := congrArg List.length h.data_eq
  simp only [List.extract_eq_take_drop, List.length_take, List.length_drop] at hl
  have := h.end_le
  have := h.index_le
  omega

/-- The bytes a well-formed segment keeps are those of `S` in its range. -/
theorem Wf.str_eq (h : s.Wf S) : s.str = S.extract s.startIndex s.endIndex := by
  have hd := h.data_eq
  have hi := h.index_le
  have he := h.end_le
  rw [str, hd, List.extract_eq_take_drop, List.extract_eq_take_drop, List.drop_take,
    List.drop_drop, List.take_take, size]
  congr 2
  · omega
  · omega

theorem length_str_le (s : Segment) : s.str.length ≤ s.size := by
  simp only [str, List.length_take]
  exact Nat.min_le_left _ _

theorem Wf.length_str (h : s.Wf S) : s.str.length = s.size := by
  have := h.index_le
  have := h.end_le
  simp only [str, size, List.length_take, List.length_drop]
  omega

/-- Writing a well-formed segment that starts where the output is: `write` takes
`min(size(), remaining_capacity())` of its bytes, the bytes of `S` that follow the output. -/
theorem Wf.write_str (h : s.Wf S) {out : ByteStream} (hbw : s.startIndex = out.bytesWritten) :
    (out.write s.str).2 = min s.size out.remainingCapacity ∧
      (out.write s.str).1.content =
        out.content ++ S.extract out.bytesWritten (out.bytesWritten + (out.write s.str).2) := by
  refine ⟨by rw [ByteStream.write_count, h.length_str], ?_⟩
  rw [ByteStream.write_content, ByteStream.write_count, h.length_str, h.str_eq, ← hbw,
    List.extract_eq_take_drop, List.extract_eq_take_drop, List.take_take]
  congr 2
  simp only [size]
  omega

theorem Wf.removePrefix (h : s.Wf S) {n : Nat} (hn : n ≤ s.size) : (s.removePrefix n).Wf S where
  index_le := by have := h.index_le; simp; omega
  start_le := by have := h.start_le; simp [size] at hn ⊢; omega
  end_le := by simpa using h.end_le
  data_eq := by simpa using h.data_eq

theorem Wf.removeSuffix (h : s.Wf S) {n : Nat} (hn : n ≤ s.size) : (s.removeSuffix n).Wf S where
  index_le := by simpa using h.index_le
  start_le := by have := h.start_le; simp [size] at hn ⊢; omega
  end_le := by have := h.end_le; simp; omega
  data_eq := by simpa using h.data_eq

theorem wf_ofData {index : Nat} {data : List UInt8}
    (h : data = S.extract index (index + data.length)) : (ofData index data).Wf S where
  index_le := Nat.le_refl _
  start_le := by simp
  end_le := by simp
  data_eq := by simpa using h

end Segment

/-- The representation invariant of the segment store. -/
structure StoreInv (S : List UInt8) (lo : Nat) (segments : List Segment) (unassembled : Nat) :
    Prop where
  sorted : Sorted Segment.startIndex Segment.endIndex segments
  wf : ∀ s ∈ segments, s.Wf S
  lo_le : ∀ s ∈ segments, lo ≤ s.startIndex
  count : unassembled = total Segment.startIndex Segment.endIndex segments

/-- The shape of the store, whatever bytes its segments hold: the part of `StoreInv`
that does not mention the stream. -/
structure StoreShape (lo : Nat) (segments : List Segment) (unassembled : Nat) : Prop where
  sorted : Sorted Segment.startIndex Segment.endIndex segments
  lo_le : ∀ s ∈ segments, lo ≤ s.startIndex
  count : unassembled = total Segment.startIndex Segment.endIndex segments

section Shape

variable {S : List UInt8} {lo u : Nat} {segments : List Segment}

theorem StoreInv.shape (h : StoreInv S lo segments u) : StoreShape lo segments u :=
  ⟨h.sorted, h.lo_le, h.count⟩

theorem StoreShape.inv (h : StoreShape lo segments u) (hw : ∀ s ∈ segments, s.Wf S) :
    StoreInv S lo segments u :=
  ⟨h.sorted, hw, h.lo_le, h.count⟩

/-- The store without its first segment, above any point up to that segment's end. -/
theorem StoreShape.tail {lo' : Nat} {s : Segment} {rest : List Segment}
    (hr : StoreShape lo (s :: rest) u) (hlo' : lo' ≤ s.endIndex) : StoreShape lo' rest (u - s.size) := by
  obtain ⟨-, hsr, hafter⟩ := sorted_cons.mp hr.sorted
  refine ⟨hsr, fun a ha => ?_, ?_⟩
  · have := hafter a ha
    omega
  · rw [hr.count, total_cons]
    simp only [Segment.size]
    omega

theorem StoreInv.tail {lo' : Nat} {s : Segment} {rest : List Segment}
    (hr : StoreInv S lo (s :: rest) u) (hlo' : lo' ≤ s.endIndex) : StoreInv S lo' rest (u - s.size) :=
  (hr.shape.tail hlo').inv fun a ha => hr.wf a (List.mem_cons_of_mem s ha)

/-- The first segment less its first `wc` bytes, with `wc` short of its size, stays first:
the store as it is after a partial write at `lo`. -/
theorem StoreShape.removePrefix {s : Segment} {rest : List Segment} {wc : Nat}
    (hr : StoreShape lo (s :: rest) u) (hlo : s.startIndex = lo) (hwc : wc < s.size) :
    StoreShape (lo + wc) (s.removePrefix wc :: rest) (u - wc) := by
  obtain ⟨-, hsr, hafter⟩ := sorted_cons.mp hr.sorted
  simp only [Segment.size] at hwc
  refine ⟨sorted_cons.mpr ⟨by simp; omega, hsr, fun b hb => by simpa using hafter b hb⟩, ?_, ?_⟩
  · intro a ha
    rcases List.mem_cons.mp ha with rfl | ha
    · simp only [Segment.removePrefix_startIndex]
      omega
    · have := hafter a ha
      omega
  · rw [hr.count, total_cons, total_cons]
    simp only [Segment.removePrefix_startIndex, Segment.removePrefix_endIndex]
    omega

end Shape

theorem split_of_getElem? {α : Type*} {l : List α} {k : Nat} {b : α} (h : l[k]? = some b) :
    l = l.take k ++ b :: l.drop (k + 1) := by
  obtain ⟨hk, rfl⟩ := List.getElem?_eq_some_iff.mp h
  rw [← List.drop_eq_getElem_cons hk, List.take_append_drop]

theorem lowerBound_take {segments : List Segment} {x : Nat} {a : Segment}
    (ha : a ∈ segments.take (lowerBound segments x)) : a.endIndex < x :=
  hi_lt_of_mem_take_findIdx ha

theorem le_of_lowerBound_getElem? {segments : List Segment} {x : Nat} {b : Segment}
    (hb : segments[lowerBound segments x]? = some b) : x ≤ b.endIndex :=
  le_hi_of_getElem?_findIdx hb

theorem lowerBound_eq_length {segments : List Segment} {x : Nat}
    (hb : segments[lowerBound segments x]? = none) : lowerBound segments x = segments.length :=
  getElem?_findIdx_eq_none hb

/-! ## Trimming against the neighbours -/

section Trim

variable {segments : List Segment} {segment seg' : Segment} {k : Nat}

/-- The front trim returns early only for a segment inside a stored one. -/
theorem trimFront_eq_none (h : StreamReassembler.trimFront segments segment = none) :
    Finset.Ico segment.startIndex segment.endIndex ⊆
      cover Segment.startIndex Segment.endIndex segments := by
  simp only [StreamReassembler.trimFront] at h
  split at h
  · next b hb =>
    split at h
    · next hle =>
      split at h
      · next hgt =>
        intro j hj
        simp only [Segment.size, Finset.mem_Ico] at hgt hj
        exact mem_cover.mpr ⟨b, List.mem_of_getElem? hb, by omega, by omega⟩
      · cases h
    · cases h
  · cases h

/-- What the front trim leaves: the segments before `remove_begin` end at or before
the trimmed start, those after begin at or after it, and the cut-off front lies in
the former. -/
theorem trimFront_eq_some (hs : Sorted Segment.startIndex Segment.endIndex segments)
    (hse : segment.startIndex ≤ segment.endIndex)
    (h : StreamReassembler.trimFront segments segment = some (seg', k)) :
    seg' = segment.removePrefix (seg'.startIndex - segment.startIndex) ∧
      segment.startIndex ≤ seg'.startIndex ∧ seg'.startIndex ≤ segment.endIndex ∧
      k ≤ segments.length ∧
      (∀ a ∈ segments.take k, a.endIndex ≤ seg'.startIndex) ∧
      (∀ a ∈ segments.drop k, seg'.startIndex ≤ a.startIndex) ∧
      Finset.Ico segment.startIndex seg'.startIndex ⊆
        cover Segment.startIndex Segment.endIndex (segments.take k) ∧
      (segment.startIndex < seg'.startIndex →
        ∃ b ∈ segments, b.startIndex ≤ segment.startIndex ∧ b.endIndex = seg'.startIndex) := by
  simp only [StreamReassembler.trimFront] at h
  split at h
  · next b hb =>
    have hx := le_of_lowerBound_getElem? hb
    obtain ⟨hlt, hbk⟩ := List.getElem?_eq_some_iff.mp hb
    have hsplit := split_of_getElem? hb
    rw [hsplit] at hs
    obtain ⟨-, hb', -⟩ := sorted_append.mp hs
    obtain ⟨hbne, -, hbafter⟩ := sorted_cons.mp hb'
    split at h
    · split at h
      · cases h
      · next hgt =>
        simp only [Option.some.injEq, Prod.mk.injEq] at h
        obtain ⟨rfl, rfl⟩ := h
        simp only [Segment.size, not_lt] at hgt
        rw [List.take_succ_eq_append_getElem hlt, hbk]
        simp only [Segment.removePrefix_startIndex]
        refine ⟨by congr 1; omega, by omega, by omega, hlt, ?_, ?_, ?_,
          fun _ => ⟨b, List.mem_of_getElem? hb, by omega, by omega⟩⟩
        · intro a ha
          rcases List.mem_append.mp ha with ha | ha
          · have := lowerBound_take ha; omega
          · rw [List.mem_singleton] at ha; subst ha; omega
        · intro a ha
          have := hbafter a ha
          omega
        · intro j hj
          simp only [Finset.mem_Ico] at hj
          simp only [cover_append, Finset.mem_union]
          exact Or.inr (mem_cover.mpr ⟨b, by simp, by omega, by omega⟩)
    · next hgt =>
      simp only [Option.some.injEq, Prod.mk.injEq] at h
      obtain ⟨rfl, rfl⟩ := h
      refine ⟨by simp [Segment.removePrefix], le_rfl, hse, hlt.le, ?_, ?_, by simp, by omega⟩
      · intro a ha
        have := lowerBound_take ha
        omega
      · intro a ha
        rw [List.drop_eq_getElem_cons hlt, hbk] at ha
        rcases List.mem_cons.mp ha with rfl | ha
        · omega
        · have := hbafter a ha
          omega
  · next hb =>
    simp only [Option.some.injEq, Prod.mk.injEq] at h
    obtain ⟨rfl, rfl⟩ := h
    refine ⟨by simp [Segment.removePrefix], le_rfl, hse, (lowerBound_eq_length hb).le, ?_, ?_,
      by simp, by omega⟩
    · intro a ha
      have := lowerBound_take ha
      omega
    · intro a ha
      rw [List.drop_eq_nil_of_le (by rw [lowerBound_eq_length hb])] at ha
      simp at ha

/-- The back trim returns early only for a segment inside a stored one. -/
theorem trimBack_eq_none (hse : seg'.startIndex ≤ seg'.endIndex)
    (h : StreamReassembler.trimBack segments seg' = none) :
    Finset.Ico seg'.startIndex seg'.endIndex ⊆
      cover Segment.startIndex Segment.endIndex segments := by
  simp only [StreamReassembler.trimBack] at h
  split at h
  · next c hc =>
    have hx := le_of_lowerBound_getElem? hc
    split at h
    · split at h
      · next hgt =>
        intro j hj
        simp only [Segment.size, Finset.mem_Ico] at hgt hj
        exact mem_cover.mpr ⟨c, List.mem_of_getElem? hc, by omega, by omega⟩
      · cases h
    · cases h
  · cases h

/-- What the back trim leaves: the segments before `remove_end` end at or before the
trimmed end, those from it on begin at or after it, and the cut-off back lies in
the latter. A trim to nothing happens only against a stored segment with the same
start. -/
theorem trimBack_eq_some {seg'' : Segment} (hs : Sorted Segment.startIndex Segment.endIndex segments)
    (hse : seg'.startIndex ≤ seg'.endIndex)
    (h : StreamReassembler.trimBack segments seg' = some (seg'', k)) :
    seg'' = seg'.removeSuffix (seg'.endIndex - seg''.endIndex) ∧
      seg''.startIndex = seg'.startIndex ∧ seg'.startIndex ≤ seg''.endIndex ∧
      seg''.endIndex ≤ seg'.endIndex ∧
      (∀ a ∈ segments.take k, a.endIndex ≤ seg''.endIndex) ∧
      (∀ a ∈ segments.drop k, seg''.endIndex ≤ a.startIndex) ∧
      Finset.Ico seg''.endIndex seg'.endIndex ⊆
        cover Segment.startIndex Segment.endIndex (segments.drop k) ∧
      (seg''.startIndex = seg''.endIndex → seg'.startIndex < seg'.endIndex →
        ∃ c rest, segments.drop k = c :: rest ∧ c.startIndex = seg''.startIndex) := by
  simp only [StreamReassembler.trimBack] at h
  split at h
  · next c hc =>
    have hx := le_of_lowerBound_getElem? hc
    obtain ⟨hlt, hck⟩ := List.getElem?_eq_some_iff.mp hc
    have hsplit := split_of_getElem? hc
    have hdrop : segments.drop (lowerBound segments seg'.endIndex) = c :: segments.drop
        (lowerBound segments seg'.endIndex + 1) := by
      rw [List.drop_eq_getElem_cons hlt, hck]
    rw [hsplit] at hs
    obtain ⟨-, hc', hbefore⟩ := sorted_append.mp hs
    obtain ⟨hcne, -, hcafter⟩ := sorted_cons.mp hc'
    split at h
    · split at h
      · cases h
      · next hle hgt =>
        simp only [Option.some.injEq, Prod.mk.injEq] at h
        obtain ⟨rfl, rfl⟩ := h
        simp only [Segment.size, not_lt] at hgt
        simp only [Segment.removeSuffix_startIndex, Segment.removeSuffix_endIndex, hdrop]
        refine ⟨by congr 1; omega, trivial, by omega, by omega, ?_, ?_, ?_, ?_⟩
        · intro a ha
          have := hbefore a ha c (by simp)
          omega
        · intro a ha
          rcases List.mem_cons.mp ha with rfl | ha
          · omega
          · have := hcafter a ha
            omega
        · intro j hj
          simp only [Finset.mem_Ico] at hj
          exact mem_cover.mpr ⟨c, by simp, by omega, by omega⟩
        · intro _ _
          exact ⟨c, _, rfl, by omega⟩
    · next hgt =>
      simp only [Option.some.injEq, Prod.mk.injEq] at h
      obtain ⟨rfl, rfl⟩ := h
      refine ⟨by simp [Segment.removeSuffix], rfl, hse, le_rfl, ?_, ?_, by simp, ?_⟩
      · intro a ha
        have := lowerBound_take ha
        omega
      · intro a ha
        rw [hdrop] at ha
        rcases List.mem_cons.mp ha with rfl | ha
        · omega
        · have := hcafter a ha
          omega
      · intro heq hne
        omega
  · next hc =>
    simp only [Option.some.injEq, Prod.mk.injEq] at h
    obtain ⟨rfl, rfl⟩ := h
    have hnil : segments.drop (lowerBound segments seg'.endIndex) = [] :=
      List.drop_eq_nil_of_le (by rw [lowerBound_eq_length hc])
    refine ⟨by simp [Segment.removeSuffix], rfl, hse, le_rfl, ?_, by simp [hnil], by simp, ?_⟩
    · intro a ha
      have := lowerBound_take ha
      omega
    · intro heq hne
      omega

/-- A segment trimmed to nothing at the end of a stored segment goes no further:
the back trim returns early against that stored segment. -/
theorem trimBack_eq_none_of_mem (hs : Sorted Segment.startIndex Segment.endIndex segments)
    (hempty : seg'.startIndex = seg'.endIndex) {b : Segment} (hb : b ∈ segments)
    (hbs : b.startIndex < seg'.endIndex) (hbe : seg'.endIndex ≤ b.endIndex) :
    StreamReassembler.trimBack segments seg' = none := by
  simp only [StreamReassembler.trimBack]
  have hmem := List.take_append_drop (lowerBound segments seg'.endIndex) segments
  rw [← hmem] at hb
  rcases List.mem_append.mp hb with hb | hb
  · have := lowerBound_take hb
    omega
  split
  · next c hc =>
    have hx := le_of_lowerBound_getElem? hc
    obtain ⟨hlt, hck⟩ := List.getElem?_eq_some_iff.mp hc
    rw [split_of_getElem? hc] at hs
    obtain ⟨-, hc', -⟩ := sorted_append.mp hs
    obtain ⟨-, -, hcafter⟩ := sorted_cons.mp hc'
    rw [List.drop_eq_getElem_cons hlt, hck] at hb
    have hcs : c.startIndex < seg'.endIndex := by
      rcases List.mem_cons.mp hb with rfl | hb
      · exact hbs
      · have := hcafter b hb
        omega
    rw [if_pos (by omega), if_pos (by simp only [Segment.size]; omega)]
  · next hc =>
    rw [List.drop_eq_nil_of_le (by rw [lowerBound_eq_length hc])] at hb
    simp at hb

end Trim

/-! ## `push_interval` -/

namespace StreamReassembler

theorem pushInterval_eq (r : StreamReassembler) (segment : Segment) :
    ∃ segs u, r.pushInterval segment = { r with segments := segs, unassembledBytes := u } := by
  unfold pushInterval
  split
  · exact ⟨r.segments, r.unassembledBytes, rfl⟩
  split
  · exact ⟨r.segments, r.unassembledBytes, rfl⟩
  split
  · exact ⟨r.segments, r.unassembledBytes, rfl⟩
  · exact ⟨_, _, rfl⟩

@[simp] theorem pushInterval_output (r : StreamReassembler) (segment : Segment) :
    (r.pushInterval segment).output = r.output := by
  obtain ⟨_, _, h⟩ := pushInterval_eq r segment
  rw [h]

@[simp] theorem pushInterval_capacity (r : StreamReassembler) (segment : Segment) :
    (r.pushInterval segment).capacity = r.capacity := by
  obtain ⟨_, _, h⟩ := pushInterval_eq r segment
  rw [h]

@[simp] theorem pushInterval_gotEof (r : StreamReassembler) (segment : Segment) :
    (r.pushInterval segment).gotEof = r.gotEof := by
  obtain ⟨_, _, h⟩ := pushInterval_eq r segment
  rw [h]

@[simp] theorem pushInterval_endIndex (r : StreamReassembler) (segment : Segment) :
    (r.pushInterval segment).endIndex = r.endIndex := by
  obtain ⟨_, _, h⟩ := pushInterval_eq r segment
  rw [h]

theorem foldl_sub_size (M : List Segment) (u : Nat) :
    M.foldl (fun u s => u - s.size) u = u - total Segment.startIndex Segment.endIndex M := by
  induction M generalizing u with
  | nil => simp
  | cons a M ih =>
    rw [List.foldl_cons, ih, total_cons, Nat.sub_sub]
    rfl

/-- Where `std::set::insert` puts the trimmed segment: between the kept neighbours,
or nowhere when it was trimmed to nothing against a segment with the same start. -/
theorem setInsert_splice {L R : List Segment} {seg : Segment}
    (hse : seg.startIndex ≤ seg.endIndex) (hL : ∀ a ∈ L, a.startIndex < seg.startIndex)
    (hR : ∀ b ∈ R, seg.endIndex ≤ b.startIndex)
    (hemp : seg.startIndex = seg.endIndex →
      ∃ c rest, R = c :: rest ∧ c.startIndex = seg.startIndex) :
    setInsert seg (L ++ R) = L ++ (if seg.startIndex < seg.endIndex then seg :: R else R) := by
  rw [setInsert, insertKey_append_of_lt R hL]
  split
  · next hne =>
    cases R with
    | nil => rfl
    | cons c rest => rw [insertKey_cons_of_lt rest (by have := hR c (by simp); omega)]
  · obtain ⟨c, rest, rfl, hc⟩ := hemp (by omega)
    rw [insertKey_cons_of_eq rest hc]

/-- Every segment left by the replacement is the new one or an old one. -/
theorem mem_replace {L M R : List Segment} {seg a : Segment}
    (ha : a ∈ L ++ (if seg.startIndex < seg.endIndex then seg :: R else R)) :
    a = seg ∨ a ∈ L ++ M ++ R := by
  split at ha <;> simp only [List.mem_append, List.mem_cons] at ha ⊢ <;> tauto

/-- Replacing the stored segments `M`, which lie inside `seg`, by `seg` (by nothing, for an
empty `seg`) keeps the shape, with the bytes of `seg` counted in place of those of `M`. -/
theorem StoreShape.replace {lo u : Nat} {L M R : List Segment} {seg : Segment}
    (hr : StoreShape lo (L ++ M ++ R) u) (hlo : lo ≤ seg.startIndex)
    (hL : ∀ a ∈ L, a.endIndex ≤ seg.startIndex) (hR : ∀ b ∈ R, seg.endIndex ≤ b.startIndex)
    (hM : ∀ a ∈ M, seg.startIndex ≤ a.startIndex ∧ a.endIndex ≤ seg.endIndex) :
    StoreShape lo (L ++ (if seg.startIndex < seg.endIndex then seg :: R else R))
      (M.foldl (fun u s => u - s.size) u + seg.size) := by
  have hcount : u = total Segment.startIndex Segment.endIndex L +
      total Segment.startIndex Segment.endIndex M + total Segment.startIndex Segment.endIndex R := by
    rw [hr.count, total_append, total_append]
  refine ⟨?_, fun a ha => ?_, ?_⟩
  · split
    · next hne => exact hr.sorted.splice hne hL hR
    · rw [List.append_assoc] at hr
      exact hr.sorted.sublist ((List.sublist_append_right M R).append_left L)
  · rcases mem_replace ha with rfl | ha
    · exact hlo
    · exact hr.lo_le a ha
  · rw [foldl_sub_size]
    split
    · rw [total_append, total_cons, hcount]
      simp only [Segment.size]
      omega
    · next hempty =>
      -- nothing lies inside an empty segment, so nothing was erased
      have hM0 : M = [] := List.eq_nil_iff_forall_not_mem.mpr fun a ha => by
        have := hM a ha
        have := hr.sorted.nonempty a (by simp [ha])
        omega
      rw [total_append, hcount, hM0]
      simp only [Segment.size, total_nil]
      omega

theorem StoreInv.replace {S : List UInt8} {lo u : Nat} {L M R : List Segment} {seg : Segment}
    (hr : StoreInv S lo (L ++ M ++ R) u) (hw : seg.Wf S) (hlo : lo ≤ seg.startIndex)
    (hL : ∀ a ∈ L, a.endIndex ≤ seg.startIndex) (hR : ∀ b ∈ R, seg.endIndex ≤ b.startIndex)
    (hM : ∀ a ∈ M, seg.startIndex ≤ a.startIndex ∧ a.endIndex ≤ seg.endIndex) :
    StoreInv S lo (L ++ (if seg.startIndex < seg.endIndex then seg :: R else R))
      (M.foldl (fun u s => u - s.size) u + seg.size) := by
  refine (StoreShape.replace hr.shape hlo hL hR hM).inv fun a ha => ?_
  rcases mem_replace ha with rfl | ha
  · exact hw
  · exact hr.wf a ha

/-- The points the store covers after the replacement: those of the kept segments and of `seg`. -/
theorem cover_replace (L R : List Segment) (seg : Segment) :
    cover Segment.startIndex Segment.endIndex (L ++ (if seg.startIndex < seg.endIndex then seg :: R else R)) =
      cover Segment.startIndex Segment.endIndex L ∪
        (Finset.Ico seg.startIndex seg.endIndex ∪ cover Segment.startIndex Segment.endIndex R) := by
  split
  · rw [cover_append, cover_cons]
  · next hempty => rw [cover_append, Finset.Ico_eq_empty hempty, Finset.empty_union]

/-- The trimmed segment `seg''` with the segments kept around it covers what the old store and
the pushed segment did: the cut-off front lies in `L`, the cut-off back in `R`, and the erased
`M` inside `seg''`. -/
theorem cover_trimmed {L M R : List Segment} {segment seg' seg'' : Segment}
    (hM : ∀ a ∈ M, seg''.startIndex ≤ a.startIndex ∧ a.endIndex ≤ seg''.endIndex)
    (hs1 : segment.startIndex ≤ seg'.startIndex) (hs3 : seg''.startIndex = seg'.startIndex)
    (hs5 : seg''.endIndex ≤ seg'.endIndex) (he' : seg'.endIndex = segment.endIndex)
    (hcovL : Finset.Ico segment.startIndex seg'.startIndex ⊆ cover Segment.startIndex Segment.endIndex L)
    (hcovR : Finset.Ico seg''.endIndex seg'.endIndex ⊆ cover Segment.startIndex Segment.endIndex R) :
    cover Segment.startIndex Segment.endIndex L ∪
        (Finset.Ico seg''.startIndex seg''.endIndex ∪ cover Segment.startIndex Segment.endIndex R) =
      cover Segment.startIndex Segment.endIndex (L ++ M ++ R) ∪
        Finset.Ico segment.startIndex segment.endIndex := by
  ext j
  simp only [cover_append, Finset.mem_union, Finset.mem_Ico]
  constructor
  · rintro (hj | ⟨h1, h2⟩ | hj)
    · exact Or.inl (Or.inl (Or.inl hj))
    · exact Or.inr ⟨by omega, by omega⟩
    · exact Or.inl (Or.inr hj)
  · rintro (((hj | hj) | hj) | ⟨h1, h2⟩)
    · exact Or.inl hj
    · obtain ⟨a, ha, ha1, ha2⟩ := mem_cover.mp hj
      have := hM a ha
      exact Or.inr (Or.inl ⟨by omega, by omega⟩)
    · exact Or.inr (Or.inr hj)
    · -- a point of the pushed segment is in its cut-off front, its kept middle or its cut-off back
      by_cases hj1 : j < seg'.startIndex
      · exact Or.inl (hcovL (Finset.mem_Ico.mpr ⟨h1, hj1⟩))
      by_cases hj2 : j < seg''.endIndex
      · exact Or.inr (Or.inl ⟨by omega, hj2⟩)
      · exact Or.inr (Or.inr (hcovR (Finset.mem_Ico.mpr ⟨by omega, by omega⟩)))

/-- What `push_interval` does to a sorted store: nothing, when the pushed segment is empty or
lies inside what is stored; or it puts the segment, trimmed to `seg`, in place of the stored
segments `M` that lie inside it, between the kept `L` and `R`. Either way the store then covers
its old points and those of the pushed segment. -/
theorem pushInterval_cases {r : StreamReassembler} {segment : Segment}
    (hs : Sorted Segment.startIndex Segment.endIndex r.segments)
    (hse : segment.startIndex ≤ segment.endIndex) :
    (r.pushInterval segment = r ∧
      Finset.Ico segment.startIndex segment.endIndex ⊆ cover Segment.startIndex Segment.endIndex r.segments) ∨
    ∃ L M R seg n m, r.segments = L ++ M ++ R ∧ seg = (segment.removePrefix n).removeSuffix m ∧
      n + m ≤ segment.size ∧ (∀ a ∈ L, a.endIndex ≤ seg.startIndex) ∧
      (∀ b ∈ R, seg.endIndex ≤ b.startIndex) ∧
      (∀ a ∈ M, seg.startIndex ≤ a.startIndex ∧ a.endIndex ≤ seg.endIndex) ∧
      r.pushInterval segment = { r with
        segments := L ++ (if seg.startIndex < seg.endIndex then seg :: R else R),
        unassembledBytes := M.foldl (fun u s => u - s.size) r.unassembledBytes + seg.size } ∧
      cover Segment.startIndex Segment.endIndex (L ++ (if seg.startIndex < seg.endIndex then seg :: R else R)) =
        cover Segment.startIndex Segment.endIndex r.segments ∪
          Finset.Ico segment.startIndex segment.endIndex := by
  unfold pushInterval
  split
  · next h0 =>
    simp only [Segment.size] at h0
    refine Or.inl ⟨rfl, ?_⟩
    rw [Finset.Ico_eq_empty (by omega)]
    exact Finset.empty_subset _
  · next h0 =>
  have hne : segment.startIndex < segment.endIndex := by simp only [Segment.size] at h0; omega
  cases hf : trimFront r.segments segment with
  | none => exact Or.inl ⟨rfl, trimFront_eq_none hf⟩
  | some p =>
  obtain ⟨seg', rb⟩ := p
  obtain ⟨hseg', hs1, hs2, hrb, hL, hRb, hcovL, htrim⟩ := trimFront_eq_some hs hse hf
  have he' : seg'.endIndex = segment.endIndex := by rw [hseg']; rfl
  have hse' : seg'.startIndex ≤ seg'.endIndex := by omega
  dsimp only
  cases hb : trimBack r.segments seg' with
  | none =>
    refine Or.inl ⟨rfl, fun j hj => ?_⟩
    have hback := trimBack_eq_none hse' hb
    simp only [Finset.mem_Ico] at hj
    by_cases hj' : j < seg'.startIndex
    · have hjL : j ∈ Finset.Ico segment.startIndex seg'.startIndex := by
        simp only [Finset.mem_Ico]; omega
      rw [← List.take_append_drop rb r.segments, cover_append]
      exact Finset.mem_union_left _ (hcovL hjL)
    · have hjR : j ∈ Finset.Ico seg'.startIndex seg'.endIndex := by
        simp only [Finset.mem_Ico]; omega
      exact hback hjR
  | some q =>
  obtain ⟨seg'', re⟩ := q
  dsimp only
  -- the front-trimmed segment is not empty, or the back trim would have returned early
  have hne' : seg'.startIndex < seg'.endIndex := by
    by_contra hcon
    have hempty : seg'.startIndex = seg'.endIndex := by omega
    obtain ⟨b, hbm, hbs, hbe⟩ := htrim (by omega)
    have hnone := trimBack_eq_none_of_mem hs hempty hbm (by omega) (by omega)
    rw [hb] at hnone
    cases hnone
  obtain ⟨hseg'', hs3, hs4, hs5, hLe, hR, hcovR, hemp⟩ := trimBack_eq_some hs hse' hb
  -- a segment between `remove_end` and `remove_begin` would end before the new one starts
  -- and start after it ends
  have hle : rb ≤ re := by
    by_contra hcon
    have hlt : re < r.segments.length := by omega
    have hx1 : r.segments[re] ∈ r.segments.take rb := List.mem_take_iff_getElem.mpr ⟨re, by omega, rfl⟩
    have hx2 : r.segments[re] ∈ r.segments.drop re := List.mem_drop_iff_getElem.mpr ⟨0, by omega, by simp⟩
    have := hL _ hx1
    have := hR _ hx2
    have := hs.nonempty _ (List.getElem_mem hlt)
    omega
  have htake : r.segments.take rb ++ (r.segments.take re).drop rb = r.segments.take re := by
    conv_rhs => rw [← List.take_append_drop rb (r.segments.take re)]
    rw [List.take_take, Nat.min_eq_left hle]
  have hdec : r.segments = r.segments.take rb ++ (r.segments.take re).drop rb ++ r.segments.drop re := by
    rw [htake, List.take_append_drop]
  set L := r.segments.take rb with hLdef
  set M := (r.segments.take re).drop rb with hMdef
  set R := r.segments.drop re with hRdef
  -- the segments `push_interval` erases lie inside the new one
  have hM : ∀ a ∈ M, seg''.startIndex ≤ a.startIndex ∧ a.endIndex ≤ seg''.endIndex := by
    intro a ha
    have ha1 : a ∈ r.segments.drop rb := by
      rw [hMdef, List.drop_take] at ha
      exact List.mem_of_mem_take ha
    have ha2 : a ∈ r.segments.take re := List.mem_of_mem_drop ha
    exact ⟨by have := hRb a ha1; omega, hLe a ha2⟩
  have hLend : ∀ a ∈ L, a.endIndex ≤ seg''.startIndex := fun a ha => hs3 ▸ hL a ha
  have hLstart : ∀ a ∈ L, a.startIndex < seg''.startIndex := by
    intro a ha
    have := hLend a ha
    have := hs.nonempty a (List.mem_of_mem_take ha)
    omega
  refine Or.inr ⟨L, M, R, seg'', seg'.startIndex - segment.startIndex, seg'.endIndex - seg''.endIndex,
    hdec, ?_, ?_, hLend, hR, hM, ?_, ?_⟩
  · exact hseg''.trans (congrArg (fun x => x.removeSuffix (seg'.endIndex - seg''.endIndex)) hseg')
  · simp only [Segment.size]
    omega
  · rw [setInsert_splice (by omega) hLstart hR (fun h => hemp h hne')]
  · rw [cover_replace, cover_trimmed hM hs1 hs3 hs5 he' hcovL hcovR, ← hdec]

/-- **`push_interval` keeps the store invariant** and adds the points of the pushed
segment to those the store covers. -/
theorem pushInterval_inv {S : List UInt8} {lo : Nat} {r : StreamReassembler} {segment : Segment}
    (hr : StoreInv S lo r.segments r.unassembledBytes) (hw : segment.Wf S)
    (hlo : lo ≤ segment.startIndex) :
    StoreInv S lo (r.pushInterval segment).segments (r.pushInterval segment).unassembledBytes ∧
      cover Segment.startIndex Segment.endIndex (r.pushInterval segment).segments =
        cover Segment.startIndex Segment.endIndex r.segments ∪
          Finset.Ico segment.startIndex segment.endIndex := by
  rcases pushInterval_cases hr.sorted hw.start_le with
    ⟨heq, hsub⟩ | ⟨L, M, R, seg, n, m, hdec, hseg, hnm, hL, hR, hM, heq, hcov⟩
  · rw [heq]
    exact ⟨hr, (Finset.union_eq_left.mpr hsub).symm⟩
  · -- the trimmed segment is a piece of the pushed one, so it holds its bytes of `S`
    simp only [Segment.size] at hnm
    have hw' : seg.Wf S := by
      rw [hseg]
      refine (hw.removePrefix (by simp only [Segment.size]; omega)).removeSuffix ?_
      simp only [Segment.size, Segment.removePrefix_startIndex, Segment.removePrefix_endIndex]
      omega
    have hlo' : lo ≤ seg.startIndex := by
      rw [hseg]
      simp only [Segment.removeSuffix_startIndex, Segment.removePrefix_startIndex]
      omega
    rw [heq]
    exact ⟨StoreInv.replace (hdec ▸ hr) hw' hlo' hL hR hM, hcov⟩

/-- **`push_interval` keeps the shape of the store**, whatever bytes its segments hold;
what it stores ends where a stored segment or the pushed one did. -/
theorem pushInterval_shape {lo : Nat} {r : StreamReassembler} {segment : Segment}
    (hr : StoreShape lo r.segments r.unassembledBytes) (hse : segment.startIndex ≤ segment.endIndex)
    (hlo : lo ≤ segment.startIndex) :
    StoreShape lo (r.pushInterval segment).segments (r.pushInterval segment).unassembledBytes ∧
      ∀ a ∈ (r.pushInterval segment).segments, a ∈ r.segments ∨ a.endIndex ≤ segment.endIndex := by
  rcases pushInterval_cases hr.sorted hse with
    ⟨heq, -⟩ | ⟨L, M, R, seg, n, m, hdec, hseg, hnm, hL, hR, hM, heq, -⟩
  · rw [heq]
    exact ⟨hr, fun a ha => Or.inl ha⟩
  · have hlo' : lo ≤ seg.startIndex := by
      rw [hseg]
      simp only [Segment.removeSuffix_startIndex, Segment.removePrefix_startIndex]
      omega
    rw [heq]
    refine ⟨StoreShape.replace (hdec ▸ hr) hlo' hL hR hM, fun a ha => ?_⟩
    rcases mem_replace ha with rfl | ha
    · right
      rw [hseg]
      simp only [Segment.removeSuffix_endIndex, Segment.removePrefix_endIndex]
      omega
    · exact Or.inl (hdec ▸ ha)

/-! ## The reassembly loop -/

/-- The rest of a partly written first segment goes back to the front of the store. -/
theorem setInsert_removePrefix {s : Segment} {rest : List Segment} {wc : Nat} (hwc : wc < s.size)
    (hafter : ∀ b ∈ rest, s.endIndex ≤ b.startIndex) :
    setInsert (s.removePrefix wc) rest = s.removePrefix wc :: rest := by
  cases rest with
  | nil => rfl
  | cons c rest' =>
    have hc := hafter c (by simp)
    have hlt : (s.removePrefix wc).startIndex < c.startIndex := by
      simp only [Segment.removePrefix_startIndex, Segment.size] at hwc ⊢
      omega
    exact insertKey_cons_of_lt rest' hlt

/-- The reassembly loop changes only the output's written bytes, the store and its
count. -/
theorem reassemble_fields (r : StreamReassembler) (l : List Segment) :
    (reassemble r l).capacity = r.capacity ∧ (reassemble r l).gotEof = r.gotEof ∧
      (reassemble r l).endIndex = r.endIndex ∧
      (reassemble r l).output.bytesRead = r.output.bytesRead ∧
      (reassemble r l).output.inputEnded = r.output.inputEnded ∧
      (reassemble r l).output.capacity = r.output.capacity ∧
      (reassemble r l).output.error = r.output.error := by
  induction l generalizing r with
  | nil => simp [reassemble]
  | cons s rest ih =>
    simp only [reassemble]
    split
    · split
      · simp
      · split
        · simp
        · obtain ⟨h1, h2, h3, h4, h5, h6, h7⟩ := ih { r with
            output := (r.output.write s.str).1,
            unassembledBytes := r.unassembledBytes - (r.output.write s.str).2 }
          simp only [h1, h2, h3, h4, h5, h6, h7, ByteStream.write_bytesRead,
            ByteStream.write_inputEnded, ByteStream.write_capacity, ByteStream.write_error,
            and_self]
    · simp

@[simp] theorem reassemble_capacity (r : StreamReassembler) (l : List Segment) :
    (reassemble r l).capacity = r.capacity := (reassemble_fields r l).1

@[simp] theorem reassemble_gotEof (r : StreamReassembler) (l : List Segment) :
    (reassemble r l).gotEof = r.gotEof := (reassemble_fields r l).2.1

@[simp] theorem reassemble_endIndex (r : StreamReassembler) (l : List Segment) :
    (reassemble r l).endIndex = r.endIndex := (reassemble_fields r l).2.2.1

@[simp] theorem reassemble_bytesRead (r : StreamReassembler) (l : List Segment) :
    (reassemble r l).output.bytesRead = r.output.bytesRead := (reassemble_fields r l).2.2.2.1

@[simp] theorem reassemble_inputEnded (r : StreamReassembler) (l : List Segment) :
    (reassemble r l).output.inputEnded = r.output.inputEnded :=
  (reassemble_fields r l).2.2.2.2.1

@[simp] theorem reassemble_output_capacity (r : StreamReassembler) (l : List Segment) :
    (reassemble r l).output.capacity = r.output.capacity := (reassemble_fields r l).2.2.2.2.2.1

@[simp] theorem reassemble_error (r : StreamReassembler) (l : List Segment) :
    (reassemble r l).output.error = r.output.error := (reassemble_fields r l).2.2.2.2.2.2

/-- **The reassembly loop** writes the bytes of `S` that follow the output, keeps
the store invariant above the new `bytes_written()`, and loses no point: what
leaves the store enters the output. -/
theorem reassemble_inv {S : List UInt8} {r : StreamReassembler} {l : List Segment}
    (hr : StoreInv S r.output.bytesWritten l r.unassembledBytes) (ho : r.output.Inv) :
    let r' := reassemble r l
    StoreInv S r'.output.bytesWritten r'.segments r'.unassembledBytes ∧ r'.output.Inv ∧
      r.output.bytesWritten ≤ r'.output.bytesWritten ∧
      r'.output.content = r.output.content ++ S.extract r.output.bytesWritten r'.output.bytesWritten ∧
      Finset.range r'.output.bytesWritten ∪ cover Segment.startIndex Segment.endIndex r'.segments =
        Finset.range r.output.bytesWritten ∪ cover Segment.startIndex Segment.endIndex l := by
  induction l generalizing r with
  | nil =>
    simp only [reassemble]
    refine ⟨hr, ho, le_rfl, ?_, ?_⟩ <;> simp
  | cons s rest ih =>
    obtain ⟨-, -, hafter⟩ := sorted_cons.mp hr.sorted
    have hws : s.Wf S := hr.wf s List.mem_cons_self
    simp only [reassemble]
    split
    · next hbw =>
      -- `write` appends the first `wc` bytes of the segment, the bytes of `S` that follow
      obtain ⟨hwc, hcont⟩ := hws.write_str hbw
      have hbw' : (r.output.write s.str).1.bytesWritten = r.output.bytesWritten + (r.output.write s.str).2 := by
        rw [ByteStream.write_bytesWritten, ByteStream.write_count]
      set wc := (r.output.write s.str).2 with hwcdef
      set out := (r.output.write s.str).1 with houtdef
      have hwle : wc ≤ s.size := by omega
      have ho' : out.Inv := ho.write _
      split
      · next h0 =>
        dsimp only
        refine ⟨?_, ho', by omega, ?_, ?_⟩
        · rw [hbw', h0, Nat.add_zero]
          exact hr
        · rw [hcont, hbw', h0, Nat.add_zero]
        · rw [hbw', h0, Nat.add_zero]
      · split
        · next h0 hlt =>
          -- a partial write: the rest of the segment stays first in the store
          dsimp only
          have hshape := hr.shape.removePrefix hbw hlt
          rw [← hbw'] at hshape
          rw [setInsert_removePrefix hlt hafter]
          simp only [Segment.size] at hlt
          refine ⟨hshape.inv fun a ha => ?_, ho', by omega, by rw [hcont, hbw'], ?_⟩
          · rcases List.mem_cons.mp ha with rfl | ha
            · exact hws.removePrefix hwle
            · exact hr.wf a (by simp [ha])
          · rw [hbw']
            ext j
            simp only [cover_cons, Finset.mem_union, Finset.mem_range, Finset.mem_Ico,
              Segment.removePrefix_startIndex, Segment.removePrefix_endIndex]
            by_cases hj : j ∈ cover Segment.startIndex Segment.endIndex rest
            · simp only [hj, or_true]
            · simp only [hj, or_false]
              omega
        · next h0 hlt =>
          -- the whole segment is written: go on with the next one
          have hwc' : wc = s.size := by omega
          have hr₁ : StoreInv S out.bytesWritten rest (r.unassembledBytes - wc) := by
            rw [hwc']
            refine hr.tail ?_
            simp only [Segment.size] at hwc'
            omega
          obtain ⟨hi1, hi2, hi3, hi4, hi5⟩ :=
            @ih { r with output := out, unassembledBytes := r.unassembledBytes - wc } hr₁ ho'
          dsimp only at hi1 hi2 hi3 hi4 hi5 ⊢
          refine ⟨hi1, hi2, by omega, ?_, ?_⟩
          · rw [hi4, hcont, List.append_assoc, hbw', extract_append_extract S (by omega) (by omega)]
          · rw [hi5, hbw', hwc']
            ext j
            simp only [cover_cons, Finset.mem_union, Finset.mem_range, Finset.mem_Ico, Segment.size]
            by_cases hj : j ∈ cover Segment.startIndex Segment.endIndex rest
            · simp only [hj, or_true]
            · simp only [hj, or_false]
              omega
    · refine ⟨hr, ho, le_rfl, ?_, ?_⟩ <;> simp

/-- **The reassembly loop keeps the shape of the store** above the new `bytes_written()`,
whatever bytes the segments hold: it writes out only the front of the store, so
`bytes_written()` grows and no segment's end moves. -/
theorem reassemble_shape {r : StreamReassembler} {l : List Segment}
    (hr : StoreShape r.output.bytesWritten l r.unassembledBytes) :
    let r' := reassemble r l
    StoreShape r'.output.bytesWritten r'.segments r'.unassembledBytes ∧
      r.output.bytesWritten ≤ r'.output.bytesWritten ∧
      ∀ a ∈ r'.segments, ∃ b ∈ l, a.endIndex = b.endIndex := by
  induction l generalizing r with
  | nil =>
    simp only [reassemble]
    exact ⟨hr, le_rfl, by simp⟩
  | cons s rest ih =>
    obtain ⟨-, -, hafter⟩ := sorted_cons.mp hr.sorted
    simp only [reassemble]
    split
    · next hbw =>
      have hbw' : (r.output.write s.str).1.bytesWritten =
          r.output.bytesWritten + (r.output.write s.str).2 := by
        rw [ByteStream.write_bytesWritten, ByteStream.write_count]
      set wc := (r.output.write s.str).2 with hwcdef
      set out := (r.output.write s.str).1 with houtdef
      -- `write` takes at most the bytes of the segment, whatever they are
      have hwle : wc ≤ s.size := by
        have := s.length_str_le
        rw [hwcdef, ByteStream.write_count]
        omega
      split
      · next h0 =>
        dsimp only
        refine ⟨?_, by omega, fun a ha => ⟨a, ha, rfl⟩⟩
        rw [hbw', h0, Nat.add_zero]
        exact hr
      · split
        · next h0 hlt =>
          -- a partial write: the rest of the first segment stays first
          dsimp only
          rw [setInsert_removePrefix hlt hafter, hbw']
          refine ⟨hr.removePrefix hbw hlt, by omega, fun a ha => ?_⟩
          rcases List.mem_cons.mp ha with rfl | ha
          · exact ⟨s, List.mem_cons_self, rfl⟩
          · exact ⟨a, List.mem_cons_of_mem s ha, rfl⟩
        · next h0 hlt =>
          -- the whole segment is written: go on with the next one
          have hwc' : wc = s.size := by omega
          have hr₁ : StoreShape out.bytesWritten rest (r.unassembledBytes - wc) := by
            rw [hwc']
            refine hr.tail ?_
            simp only [Segment.size] at hwc'
            omega
          obtain ⟨hi1, hi2, hi3⟩ :=
            @ih { r with output := out, unassembledBytes := r.unassembledBytes - wc } hr₁
          dsimp only at hi1 hi2 hi3 ⊢
          refine ⟨hi1, by omega, fun a ha => ?_⟩
          obtain ⟨b, hb, hab⟩ := hi3 a ha
          exact ⟨b, List.mem_cons_of_mem s hb, hab⟩
    · exact ⟨hr, le_rfl, fun a ha => ⟨a, ha, rfl⟩⟩

/-- With room for the whole stream, the loop drains every segment it can reach: none
is left at the new `bytes_written()`. -/
theorem reassemble_drains {S : List UInt8} {r : StreamReassembler} {l : List Segment}
    (hr : StoreInv S r.output.bytesWritten l r.unassembledBytes) (ho : r.output.Inv)
    (hcap : S.length ≤ r.output.capacity) :
    ∀ s ∈ (reassemble r l).segments, s.startIndex ≠ (reassemble r l).output.bytesWritten := by
  induction l generalizing r with
  | nil => simp [reassemble]
  | cons s rest ih =>
    obtain ⟨hne, -, hafter⟩ := sorted_cons.mp hr.sorted
    have hws : s.Wf S := hr.wf s List.mem_cons_self
    have hsS := hws.end_le_length hne
    simp only [reassemble]
    split
    · next hbw =>
      -- the output has room for the whole segment, so it is written out entirely
      have hroom : s.size ≤ r.output.remainingCapacity := by
        have := ho.read_le
        simp only [ByteStream.remainingCapacity, ByteStream.bufferSize, Segment.size]
        omega
      have hwc : (r.output.write s.str).2 = s.size := by
        rw [(hws.write_str hbw).1, Nat.min_eq_left hroom]
      have hend : (r.output.write s.str).1.bytesWritten = s.endIndex := by
        rw [ByteStream.write_bytesWritten, ← ByteStream.write_count, hwc, ← hbw]
        simp only [Segment.size]
        omega
      have hsize : 0 < s.size := by simp only [Segment.size]; omega
      rw [if_neg (by omega), if_neg (by omega)]
      apply ih _ (ho.write _) (by simpa using hcap)
      show StoreInv S (r.output.write s.str).1.bytesWritten rest (r.unassembledBytes - (r.output.write s.str).2)
      rw [hwc, hend]
      exact hr.tail (Nat.le_refl _)
    · next hbw =>
      dsimp only
      intro a ha
      have hlo := hr.lo_le s (by simp)
      rcases List.mem_cons.mp ha with rfl | ha
      · exact hbw
      · have := hafter a ha
        omega

end StreamReassembler

end Sponge
