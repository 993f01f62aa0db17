import Sponge.Lib.Bytes

/-!
Ones'-complement sums of 16-bit words, the arithmetic of the Internet checksum.

`wordSum odd bs` adds the bytes of `bs` as big-endian 16-bit words; with `odd` the first
byte is the low half of a word already begun. `fold n x` adds the carries out of the low
16 bits back in while there are any, for at most `n` rounds: two rounds bring any 32-bit
sum to 16 bits (`fold_two_le`). Folding keeps the sum modulo `2^16 - 1` and is zero only
for zero, so a sum plus the complement of its fold folds to `0xffff`
(`fold_add_complement`): a checksum field filled with the complement makes the sum check.

The sum of RFC 1071, `onesSum`, adds the big-endian words of the bytes (`words`) one at a
time with the carry added back. It and the fold of the plain sum are both the 16-bit form of
that sum (`Represents`: at most `0xffff`, congruent modulo `0xffff`, zero only for zero), which
is unique (`Represents.unique`).
-/

namespace OnesComplement

/-- The sum of `bs` read as big-endian 16-bit words. -/
def wordSum : Bool → List UInt8 → Nat
  | _, [] => 0
  | odd, b :: bs => (if odd then b.toNat else b.toNat * 256) + wordSum (!odd) bs

/-- One end-around carry: the bits above the low 16 added back to them. -/
def carry (x : Nat) : Nat := x / 65536 + x % 65536

/-- Carries folded back while the sum exceeds 16 bits, for at most `n` rounds. -/
def fold : Nat → Nat → Nat
  | 0, x => x
  | n + 1, x => if x > 65535 then fold n (carry x) else x

/-! ## Word sums -/

@[simp] theorem wordSum_nil (odd : Bool) : wordSum odd [] = 0 := rfl

@[simp] theorem wordSum_cons (odd : Bool) (b : UInt8) (bs : List UInt8) :
    wordSum odd (b :: bs) = (if odd then b.toNat else b.toNat * 256) + wordSum (!odd) bs := rfl

/-- The half a word is on after `n` more bytes, starting on the flipped half: one byte
more flips it. -/
theorem half_succ (odd : Bool) (n : Nat) :
    (if n % 2 = 0 then !odd else !!odd) = if (n + 1) % 2 = 0 then odd else !odd := by
  by_cases h : n % 2 = 0
  · rw [if_pos h, if_neg (by omega)]
  · rw [if_neg h, if_pos (by omega), Bool.not_not]

/-- The words of `l₁ ++ l₂`: those of `l₂` start on the half where `l₁` ends. -/
theorem wordSum_append (odd : Bool) (l₁ l₂ : List UInt8) :
    wordSum odd (l₁ ++ l₂) = wordSum odd l₁ + wordSum (if l₁.length % 2 = 0 then odd else !odd) l₂ := by
  induction l₁ generalizing odd with
  | nil => simp
  | cons b bs ih =>
    rw [List.cons_append, wordSum_cons, wordSum_cons, ih, List.length_cons, half_succ, Nat.add_assoc]

@[simp] theorem wordSum_replicate_zero (odd : Bool) (n : Nat) : wordSum odd (List.replicate n 0) = 0 := by
  induction n generalizing odd with
  | zero => rfl
  | succ n ih => simp [List.replicate_succ, ih]

/-- Two big-endian bytes on a word boundary add their value. -/
theorem wordSum_beBytes_two (v : Nat) : wordSum false (Bytes.beBytes 2 v) = v % 65536 := by
  have hb : Bytes.beBytes 2 v = [UInt8.ofNat (v / 256), UInt8.ofNat (v / 1)] := rfl
  simp only [hb, wordSum_cons, wordSum_nil, Bool.not_false, Bool.not_true, UInt8.toNat_ofNat']
  simp
  omega

/-- Each byte adds at most `255 * 256`. -/
theorem wordSum_le (odd : Bool) (bs : List UInt8) : wordSum odd bs ≤ 65280 * bs.length := by
  induction bs generalizing odd with
  | nil => simp
  | cons b bs ih =>
    have hb : b.toNat < 256 := b.toNat_lt
    have := ih (!odd)
    rw [wordSum_cons, List.length_cons]
    split <;> omega

/-- A 16-bit field on a word boundary adds its value to the sum of the rest: the sum with
the field is the sum with the field zero, plus the field. -/
theorem wordSum_field (A R : List UInt8) (hA : A.length % 2 = 0) (v : Nat) :
    wordSum false (A ++ Bytes.beBytes 2 v ++ R) = wordSum false (A ++ Bytes.beBytes 2 0 ++ R) + v % 65536 := by
  simp only [wordSum_append, List.length_append, Bytes.length_beBytes, if_pos hA, wordSum_beBytes_two,
    if_pos (show (A.length + 2) % 2 = 0 by omega)]
  omega

/-! ## Folding the carries -/

theorem carry_mod (x : Nat) : carry x % 65535 = x % 65535 := by
  unfold carry
  omega

theorem carry_pos {x : Nat} (h : 0 < x) : 0 < carry x := by
  unfold carry
  omega

theorem fold_mod (n x : Nat) : fold n x % 65535 = x % 65535 := by
  induction n generalizing x with
  | zero => rfl
  | succ n ih =>
    unfold fold
    split
    · rw [ih, carry_mod]
    · rfl

theorem fold_pos (n : Nat) {x : Nat} (h : 0 < x) : 0 < fold n x := by
  induction n generalizing x with
  | zero => exact h
  | succ n ih =>
    unfold fold
    split
    · exact ih (carry_pos h)
    · exact h

/-- Two rounds fold any 32-bit sum to 16 bits: the first leaves at most `2 * 0xffff`, whose
carry is one. -/
theorem fold_two_le {x : Nat} (h : x < 2 ^ 32) : fold 2 x ≤ 65535 := by
  simp only [fold]
  split_ifs with h₁ h₂
  · -- two carries: the first sum is at most `2 * 0xffff`
    unfold carry at h₂ ⊢
    omega
  · exact Nat.le_of_not_lt h₂
  · exact Nat.le_of_not_lt h₁

/-- **A sum plus the complement of its fold folds to `0xffff`.** Both are congruent modulo
`0xffff` and the second is positive, and the only positive 16-bit value congruent to zero is
`0xffff`. -/
theorem fold_add_complement {x : Nat} (h : x + 65535 < 2 ^ 32) : fold 2 (x + (65535 - fold 2 x)) = 65535 := by
  have hf := fold_two_le (show x < 2 ^ 32 by omega)
  have hm := fold_mod 2 x
  set y := x + (65535 - fold 2 x) with hy
  have hy0 : 0 < y := by
    rcases Nat.eq_zero_or_pos x with rfl | hx
    · simp [fold] at hy
      omega
    · omega
  have hfy := fold_two_le (show y < 2 ^ 32 by omega)
  have hmy := fold_mod 2 y
  have hpos := fold_pos 2 hy0
  -- `y` is a multiple of `0xffff`, and so is its fold
  have hdvd : y % 65535 = 0 := by omega
  omega

/-! ## The RFC 1071 sum -/

/-- The big-endian 16-bit words of `bs`, an odd last byte padded with a zero byte. -/
def words : List UInt8 → List Nat
  | [] => []
  | [b] => [b.toNat * 256]
  | b₁ :: b₂ :: bs => (b₁.toNat * 256 + b₂.toNat) :: words bs

/-- The ones'-complement sum of two 16-bit values: the carry out of bit 16 added back in. -/
def onesAdd (a b : Nat) : Nat := carry (a + b)

/-- The ones'-complement sum of a list of 16-bit values. -/
def onesSum (ws : List Nat) : Nat := ws.foldl onesAdd 0

/-- `v` is the 16-bit ones'-complement form of `x`: at most `0xffff`, congruent to `x` modulo
`0xffff`, and zero only for zero. -/
structure Represents (x v : Nat) : Prop where
  le : v ≤ 65535
  mod_eq : v % 65535 = x % 65535
  eq_zero_iff : v = 0 ↔ x = 0

theorem wordSum_false_eq_sum_words (bs : List UInt8) : wordSum false bs = (words bs).sum := by
  induction bs using words.induct with
  | case1 => rfl
  | case2 b => simp [words]
  | case3 b₁ b₂ bs ih =>
    simp only [wordSum_cons, Bool.not_false, Bool.not_true, if_true, Bool.false_eq_true, if_false, words,
      List.sum_cons, ih]
    omega

theorem le_of_mem_words {bs : List UInt8} {w : Nat} (hw : w ∈ words bs) : w ≤ 65535 := by
  induction bs using words.induct with
  | case1 => simp [words] at hw
  | case2 b =>
    have := b.toNat_lt
    simp only [words, List.mem_singleton] at hw
    omega
  | case3 b₁ b₂ bs ih =>
    have := b₁.toNat_lt
    have := b₂.toNat_lt
    simp only [words, List.mem_cons] at hw
    rcases hw with rfl | hw
    · omega
    · exact ih hw

/-- Two bytes make at most `0xffff`. -/
theorem sum_words_le (bs : List UInt8) : (words bs).sum ≤ 65535 * ((bs.length + 1) / 2) := by
  induction bs using words.induct with
  | case1 => simp [words]
  | case2 b =>
    have := b.toNat_lt
    simp only [words, List.sum_cons, List.sum_nil, List.length_singleton]
    omega
  | case3 b₁ b₂ bs ih =>
    have := b₁.toNat_lt
    have := b₂.toNat_lt
    simp only [words, List.sum_cons, List.length_cons]
    omega

section Represents

variable {x y v w : Nat}

/-- Two 16-bit forms of one sum are equal: the residues modulo `0xffff` below `0xffff` are
distinct, and `0` and `0xffff` are told apart by whether the sum is zero. -/
theorem Represents.unique (hv : Represents x v) (hw : Represents x w) : v = w := by
  have h₁ := hv.le
  have h₂ := hw.le
  have h₃ := hv.mod_eq
  have h₄ := hw.mod_eq
  by_cases hx : x = 0
  · rw [hv.eq_zero_iff.mpr hx, hw.eq_zero_iff.mpr hx]
  · have hv0 : v ≠ 0 := fun h => hx (hv.eq_zero_iff.mp h)
    have hw0 : w ≠ 0 := fun h => hx (hw.eq_zero_iff.mp h)
    omega

/-- The form depends on the sum only through its residue and whether it is zero. -/
theorem Represents.congr (hv : Represents x v) (hm : x % 65535 = y % 65535) (hz : x = 0 ↔ y = 0) :
    Represents y v :=
  ⟨hv.le, hv.mod_eq.trans hm, hv.eq_zero_iff.trans hz⟩

/-- Two rounds of folding give the form of any 32-bit sum. -/
theorem represents_fold (hx : x < 2 ^ 32) : Represents x (fold 2 x) := by
  refine ⟨fold_two_le hx, fold_mod 2 x, ⟨fun h => ?_, fun h => ?_⟩⟩
  · by_contra hne
    exact absurd h (Nat.pos_iff_ne_zero.mp (fold_pos 2 (Nat.pos_of_ne_zero hne)))
  · subst h
    rfl

/-- Adding a 16-bit value with the carry added back keeps the form of the running sum. -/
theorem Represents.onesAdd (hv : Represents x v) (hw : w ≤ 65535) : Represents (x + w) (onesAdd v w) := by
  have h₁ := hv.le
  have h₂ := hv.mod_eq
  have hz := hv.eq_zero_iff
  refine ⟨?_, ?_, ?_⟩
  · unfold OnesComplement.onesAdd carry
    omega
  · rw [OnesComplement.onesAdd, carry_mod]
    omega
  · unfold OnesComplement.onesAdd carry
    constructor
    · intro h
      have : v = 0 := by omega
      omega
    · intro h
      have : x = 0 := by omega
      have : v = 0 := hz.mpr this
      omega

theorem represents_foldl_onesAdd {ws : List Nat} (hws : ∀ w ∈ ws, w ≤ 65535) (hv : Represents x v) :
    Represents (x + ws.sum) (ws.foldl onesAdd v) := by
  induction ws generalizing x v with
  | nil => simpa using hv
  | cons w ws ih =>
    rw [List.foldl_cons, List.sum_cons, ← Nat.add_assoc]
    exact ih (fun w' hw' => hws w' (List.mem_cons_of_mem w hw')) (hv.onesAdd (hws w List.mem_cons_self))

/-- The ones'-complement sum of 16-bit values is the form of their plain sum. -/
theorem represents_onesSum {ws : List Nat} (hws : ∀ w ∈ ws, w ≤ 65535) : Represents ws.sum (onesSum ws) := by
  have h := represents_foldl_onesAdd hws (show Represents 0 0 from ⟨by norm_num, rfl, Iff.rfl⟩)
  rwa [Nat.zero_add] at h

end Represents

end OnesComplement
