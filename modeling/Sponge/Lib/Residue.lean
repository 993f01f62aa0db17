import Mathlib.Data.Nat.Dist

/-!
Nearest points of a residue class.

`Nearest m c x` says that no natural congruent to `x` modulo `m` lies nearer to `c` than
`x`. A point of the class lies nearest when it is within half a period of `c` on either side
(`nearest_of_le_half`, `nearest_of_half_le`), or when it is the least of its class and not
below `c` (`nearest_of_lt`); `nearest_of_near` puts the three together. A point of the class nearer than half a period is the only
nearest one (`Nearest.eq_of_dist_lt`).
-/

namespace Residue

/-- No natural congruent to `x` modulo `m` is nearer to `c`. -/
def Nearest (m c x : ℕ) : Prop := ∀ y, y % m = x % m → Nat.dist x c ≤ Nat.dist y c

variable {m c x : ℕ}

/-- Two different points of a class are a whole period apart. -/
theorem add_le_of_mod_eq {y : ℕ} (h : y % m = x % m) (hyx : y < x) : y + m ≤ x := by
  have hd : m ∣ x - y := Nat.dvd_of_mod_eq_zero (Nat.sub_mod_eq_zero_of_mod_eq h.symm)
  have := Nat.le_of_dvd (by omega) hd
  omega

/-- A point of the class at most half a period above `c` is nearest. -/
theorem nearest_of_le_half (hcx : c ≤ x) (hm : 2 * (x - c) ≤ m) : Nearest m c x := by
  intro y hy
  rw [Nat.dist_eq_sub_of_le_right hcx]
  by_cases hyx : y < x
  · have := add_le_of_mod_eq hy hyx
    unfold Nat.dist
    omega
  · unfold Nat.dist
    omega

/-- A point of the class at most half a period below `c` is nearest. -/
theorem nearest_of_half_le (hxc : x ≤ c) (hm : 2 * (c - x) ≤ m) : Nearest m c x := by
  intro y hy
  rw [Nat.dist_eq_sub_of_le hxc]
  by_cases hxy : x < y
  · have := add_le_of_mod_eq hy.symm hxy
    unfold Nat.dist
    omega
  · unfold Nat.dist
    omega

/-- The least point of its class, when not below `c`, is nearest: every other lies above it. -/
theorem nearest_of_lt (hxm : x < m) (hcx : c ≤ x) : Nearest m c x := by
  intro y hy
  have hxy : x ≤ y := by
    by_contra hyx
    have := add_le_of_mod_eq hy (by omega)
    omega
  unfold Nat.dist
  omega

/-- A point of the class is nearest when it is within half a period of `c`, or the least of
its class and not below `c`. -/
theorem nearest_of_near (h : 2 * Nat.dist x c ≤ m ∨ (c ≤ x ∧ x < m)) : Nearest m c x := by
  rcases h with h | ⟨hcx, hxm⟩
  · by_cases hcx : c ≤ x
    · rw [Nat.dist_eq_sub_of_le_right hcx] at h
      exact nearest_of_le_half hcx h
    · rw [Nat.dist_eq_sub_of_le (by omega)] at h
      exact nearest_of_half_le (by omega) h
  · exact nearest_of_lt hxm hcx

/-- A point of the class nearer than half a period is the nearest one. -/
theorem Nearest.eq_of_dist_lt (h : Nearest m c x) {a : ℕ} (ha : a % m = x % m) (hd : 2 * Nat.dist a c < m) :
    x = a := by
  have hxa := h a ha
  by_contra hne
  rcases Nat.lt_or_gt_of_ne hne with hlt | hlt
  · have := add_le_of_mod_eq ha.symm hlt
    unfold Nat.dist at hxa hd
    omega
  · have := add_le_of_mod_eq ha hlt
    unfold Nat.dist at hxa hd
    omega

end Residue
