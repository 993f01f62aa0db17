import Mathlib

/-!
Lists of half-open intervals of naturals, each element `a` standing for
`[lo a, hi a)`, kept sorted and disjoint.

Proved here: the points such a list covers and how many there are
(`card_cover`), how the list splits at the first interval that does not end
below a point (the `std::lower_bound` of an ordered container, `findIdx_hi`), and
where insertion into a list strictly ordered by a key puts a new element, an
element with an equal key being kept instead (`std::set::insert`, `insertKey`).
-/

namespace Intervals

variable {α : Type*}

section Cover

variable (lo hi : α → ℕ)

/-- The points covered by the intervals of `l`. -/
def cover (l : List α) : Finset ℕ := l.foldr (fun a s => Finset.Ico (lo a) (hi a) ∪ s) ∅

/-- Nonempty intervals, each ending at or before the start of every later one. -/
structure Sorted (l : List α) : Prop where
  pairwise : l.Pairwise fun a b => hi a ≤ lo b
  nonempty : ∀ a ∈ l, lo a < hi a

/-- The total length of the intervals. -/
def total (l : List α) : ℕ := (l.map fun a => hi a - lo a).sum

variable {lo hi}

@[simp] theorem cover_nil : cover lo hi ([] : List α) = ∅ := rfl

@[simp] theorem cover_cons (a : α) (l : List α) :
    cover lo hi (a :: l) = Finset.Ico (lo a) (hi a) ∪ cover lo hi l := rfl

@[simp] theorem cover_append (l m : List α) :
    cover lo hi (l ++ m) = cover lo hi l ∪ cover lo hi m := by
  induction l with
  | nil => simp
  | cons a l ih => simp [ih, Finset.union_assoc]

theorem mem_cover {l : List α} {j : ℕ} : j ∈ cover lo hi l ↔ ∃ a ∈ l, lo a ≤ j ∧ j < hi a := by
  induction l with
  | nil => simp
  | cons a l ih => simp [ih]

@[simp] theorem total_nil : total lo hi ([] : List α) = 0 := rfl

@[simp] theorem total_cons (a : α) (l : List α) :
    total lo hi (a :: l) = (hi a - lo a) + total lo hi l := by simp [total]

@[simp] theorem total_append (l m : List α) :
    total lo hi (l ++ m) = total lo hi l + total lo hi m := by simp [total]

theorem sorted_nil : Sorted lo hi ([] : List α) := ⟨List.Pairwise.nil, by simp⟩

theorem sorted_append {l m : List α} :
    Sorted lo hi (l ++ m) ↔
      Sorted lo hi l ∧ Sorted lo hi m ∧ ∀ a ∈ l, ∀ b ∈ m, hi a ≤ lo b := by
  constructor
  · rintro ⟨hp, hn⟩
    obtain ⟨hl, hm, hlm⟩ := List.pairwise_append.mp hp
    exact ⟨⟨hl, fun a ha => hn a (by simp [ha])⟩, ⟨hm, fun a ha => hn a (by simp [ha])⟩, hlm⟩
  · rintro ⟨⟨hl, hln⟩, ⟨hm, hmn⟩, hlm⟩
    refine ⟨List.pairwise_append.mpr ⟨hl, hm, hlm⟩, fun a ha => ?_⟩
    rcases List.mem_append.mp ha with ha | ha
    · exact hln a ha
    · exact hmn a ha

theorem sorted_cons {a : α} {l : List α} :
    Sorted lo hi (a :: l) ↔ lo a < hi a ∧ Sorted lo hi l ∧ ∀ b ∈ l, hi a ≤ lo b := by
  have h := @sorted_append α lo hi [a] l
  simp only [List.singleton_append] at h
  rw [h]
  constructor
  · rintro ⟨⟨_, ha⟩, hl, hb⟩
    exact ⟨ha a (by simp), hl, hb a (by simp)⟩
  · rintro ⟨ha, hl, hb⟩
    exact ⟨⟨by simp, by simpa using ha⟩, hl, by simpa using hb⟩

theorem Sorted.sublist {l l' : List α} (h : Sorted lo hi l) (hs : l'.Sublist l) :
    Sorted lo hi l' :=
  ⟨h.pairwise.sublist hs, fun a ha => h.nonempty a (hs.subset ha)⟩

/-- Replacing a stretch of a sorted list by one interval that fits between the kept
neighbours leaves it sorted. -/
theorem Sorted.splice {l m r : List α} {x : α} (h : Sorted lo hi (l ++ m ++ r)) (hx : lo x < hi x)
    (hl : ∀ a ∈ l, hi a ≤ lo x) (hr : ∀ b ∈ r, hi x ≤ lo b) : Sorted lo hi (l ++ x :: r) := by
  obtain ⟨hlm, hr', hlmr⟩ := sorted_append.mp h
  obtain ⟨hl', -, -⟩ := sorted_append.mp hlm
  refine sorted_append.mpr ⟨hl', sorted_cons.mpr ⟨hx, hr', hr⟩, ?_⟩
  intro a ha b hb
  rcases List.mem_cons.mp hb with rfl | hb
  · exact hl a ha
  · exact hlmr a (by simp [ha]) b hb

theorem disjoint_cover_of_le {a : α} {l : List α} (h : ∀ b ∈ l, hi a ≤ lo b) :
    Disjoint (Finset.Ico (lo a) (hi a)) (cover lo hi l) := by
  rw [Finset.disjoint_left]
  intro j hj hjl
  obtain ⟨b, hb, hbj, -⟩ := mem_cover.mp hjl
  have := h b hb
  simp only [Finset.mem_Ico] at hj
  omega

/-- The intervals of a sorted list are disjoint: they cover exactly their total length. -/
theorem card_cover {l : List α} (h : Sorted lo hi l) : (cover lo hi l).card = total lo hi l := by
  induction l with
  | nil => rfl
  | cons a l ih =>
    obtain ⟨-, hl, hal⟩ := sorted_cons.mp h
    rw [cover_cons, Finset.card_union_of_disjoint (disjoint_cover_of_le hal), ih hl,
      Nat.card_Ico, total_cons]

/-- Sorted intervals inside `[x, y)` are at most `y - x` long together. -/
theorem Sorted.total_le {l : List α} {x y : ℕ} (h : Sorted lo hi l)
    (hin : ∀ a ∈ l, x ≤ lo a ∧ hi a ≤ y) : total lo hi l ≤ y - x := by
  have hsub : cover lo hi l ⊆ Finset.Ico x y := by
    intro j hj
    obtain ⟨a, ha, h1, h2⟩ := mem_cover.mp hj
    have := hin a ha
    exact Finset.mem_Ico.mpr ⟨by omega, by omega⟩
  calc total lo hi l
      = (cover lo hi l).card := (card_cover h).symm
    _ ≤ (Finset.Ico x y).card := Finset.card_le_card hsub
    _ = y - x := Nat.card_Ico x y

end Cover

/-! ## Slices -/

section Slice

theorem take_append_extract (S : List α) {a b : ℕ} (h : a ≤ b) :
    S.take a ++ S.extract a b = S.take b := by
  rw [List.extract_eq_take_drop, ← List.take_add, Nat.add_sub_cancel' h]

theorem extract_append_extract (S : List α) {a b c : ℕ} (hab : a ≤ b) (hbc : b ≤ c) :
    S.extract a b ++ S.extract b c = S.extract a c := by
  simp only [List.extract_eq_take_drop]
  rw [show c - a = (b - a) + (c - b) by omega, List.take_add, List.drop_drop,
    Nat.add_sub_cancel' hab]

theorem take_extract (S : List α) {a b n : ℕ} (h : n ≤ b - a) :
    (S.extract a b).take n = S.extract a (a + n) := by
  rw [List.extract_eq_take_drop, List.extract_eq_take_drop, List.take_take, Nat.add_sub_cancel_left,
    Nat.min_eq_left h]

theorem extract_append_of_le (S extra : List α) {a b : ℕ} (h : b ≤ S.length) :
    (S ++ extra).extract a b = S.extract a b := by
  simp only [List.extract_eq_take_drop]
  by_cases hab : a ≤ b
  · rw [List.drop_append_of_le_length (by omega), List.take_append_of_le_length (by simp; omega)]
  · simp [Nat.sub_eq_zero_of_le (by omega : b ≤ a)]

@[simp] theorem length_extract (S : List α) {a b : ℕ} (h : b ≤ S.length) :
    (S.extract a b).length = b - a := by
  simp only [List.extract_eq_take_drop, List.length_take, List.length_drop]
  omega

/-- A slice that `S` holds in full is a slice of every extension of `S`. -/
theorem eq_extract_append {S extra data : List α} {i : ℕ} (h : data = S.extract i (i + data.length)) :
    data = (S ++ extra).extract i (i + data.length) := by
  rcases Nat.eq_zero_or_pos data.length with h0 | hpos
  · rw [List.length_eq_zero_iff.mp h0]
    simp
  · -- a nonempty slice of the full length ends inside `S`
    have hl := congrArg List.length h
    simp only [List.extract_eq_take_drop, List.length_take, List.length_drop] at hl
    rw [extract_append_of_le S extra (by omega)]
    exact h

end Slice

/-! ## The first interval that does not end below a point -/

section LowerBound

variable {hi : α → ℕ}

theorem hi_lt_of_mem_take_findIdx {l : List α} {x : ℕ} {a : α}
    (ha : a ∈ l.take (l.findIdx fun a => !decide (hi a < x))) : hi a < x := by
  rw [← List.takeWhile_eq_take_findIdx_not] at ha
  simpa using List.mem_takeWhile_imp ha

theorem le_hi_of_getElem?_findIdx {l : List α} {x : ℕ} {b : α}
    (hb : l[l.findIdx fun a => !decide (hi a < x)]? = some b) : x ≤ hi b := by
  simpa using List.findIdx_of_getElem?_eq_some hb

theorem getElem?_findIdx_eq_none {l : List α} {p : α → Bool} (h : l[l.findIdx p]? = none) :
    l.findIdx p = l.length := by
  have : l.findIdx p ≤ l.length := List.findIdx_le_length
  rw [List.getElem?_eq_none_iff] at h
  omega

end LowerBound

/-! ## Insertion into a list strictly ordered by a key -/

section Insert

variable (key : α → ℕ)

/-- `std::set::insert` on a list strictly ordered by `key`: an element whose key is
already present is not inserted. -/
def insertKey (x : α) : List α → List α
  | [] => [x]
  | a :: l =>
    if key x < key a then x :: a :: l
    else if key a < key x then a :: insertKey x l
    else a :: l

variable {key}

@[simp] theorem insertKey_nil (x : α) : insertKey key x [] = [x] := rfl

theorem insertKey_cons_of_lt {x a : α} (l : List α) (h : key x < key a) :
    insertKey key x (a :: l) = x :: a :: l := by
  simp [insertKey, h]

theorem insertKey_cons_of_eq {x a : α} (l : List α) (h : key a = key x) :
    insertKey key x (a :: l) = a :: l := by
  simp [insertKey, h]

theorem insertKey_append_of_lt {x : α} {l : List α} (m : List α) (h : ∀ a ∈ l, key a < key x) :
    insertKey key x (l ++ m) = l ++ insertKey key x m := by
  induction l with
  | nil => rfl
  | cons a l ih =>
    have ha := h a (by simp)
    simp only [List.cons_append, insertKey, Nat.lt_asymm ha, ha, if_false, if_true]
    rw [ih fun b hb => h b (by simp [hb])]

end Insert

end Intervals
