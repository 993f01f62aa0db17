import Sponge.WrappingIntegers
import Sponge.Lib.Residue

/-!
What `unwrap` computes, for every checkpoint below `2^64 - 2^32`.

On naturals (`unwrapNat`), `unwrap` starts from the distance `d` from the ISN to `n` modulo
`2^32`, plus `2^32` when that distance is `2^31`: `n - isn` is then `INT32_MIN`, whose
negation is itself, so the `else` branch takes away its sign extension. It moves the offset
into the checkpoint's block of `2^32`, a block up if it is still below the checkpoint, and a
block down if it then lies more than `2^31` above the checkpoint outside the first block
(`toNat_unwrap`). Below that bound nothing overflows 64 bits, and the result wraps to `n`
and is a nearest number that does to the checkpoint (`unwrapNat_nearest`).
-/

namespace Sponge

/-- `unwrap` on naturals, from the distance `d` from the ISN to the wrapped number. -/
def unwrapNat (d checkpoint : ℕ) : ℕ :=
  let offset := d + (if d = 2 ^ 31 then 2 ^ 32 else 0) + checkpoint / 2 ^ 32 * 2 ^ 32
  let offset := if offset < checkpoint then offset + 2 ^ 32 else offset
  if 2 ^ 31 < offset - checkpoint ∧ 2 ^ 32 ≤ offset then offset - 2 ^ 32 else offset

/-- The offset keeps the distance modulo `2^32`. -/
theorem unwrapNat_mod {d : ℕ} (hd : d < 2 ^ 32) (checkpoint : ℕ) : unwrapNat d checkpoint % 2 ^ 32 = d := by
  unfold unwrapNat
  dsimp only
  split_ifs <;> omega

/-- The offset is within half a period of the checkpoint, or the least of its class above it. -/
theorem unwrapNat_nearest {d : ℕ} (hd : d < 2 ^ 32) (checkpoint : ℕ) : Residue.Nearest (2 ^ 32) checkpoint (unwrapNat d checkpoint) := by
  apply Residue.nearest_of_near
  unfold unwrapNat Nat.dist
  dsimp only
  split_ifs <;> omega

/-- The sign extension of an `int32_t` to 64 bits, on naturals. -/
theorem toNat_toUInt64_toInt64_toInt32 (u : UInt32) :
    u.toInt32.toInt64.toUInt64.toNat = if u.toNat < 2 ^ 31 then u.toNat else u.toNat + (2 ^ 64 - 2 ^ 32) := by
  rw [← UInt64.toNat_toBitVec, Int64.toBitVec_toUInt64, Int32.toBitVec_toInt64, UInt32.toBitVec_toInt32,
    BitVec.toNat_signExtend]
  simp [BitVec.msb_eq_decide]
  split_ifs <;> omega

theorem WrappingInt32.zero_le_sub_iff (a b : WrappingInt32) :
    0 ≤ a.sub b ↔ (a.rawValue - b.rawValue).toNat < 2 ^ 31 := by
  rw [WrappingInt32.sub, Int32.le_iff_toInt_le, show (0 : Int32).toInt = 0 from rfl, Int32.toInt,
    UInt32.toBitVec_toInt32, BitVec.toInt_eq_toNat_cond]
  simp only [UInt32.toNat_toBitVec]
  have := (a.rawValue - b.rawValue).toNat_lt
  split_ifs <;> omega

/-- The first offset of `unwrap`: the distance, or `2^32` more for `INT32_MIN`. -/
theorem toNat_unwrap_offset (n isn : WrappingInt32) :
    (if n.sub isn ≥ 0 then (n.sub isn).toInt64.toUInt64
      else ((1 : UInt64) <<< 32) - (isn.sub n).toInt64.toUInt64).toNat =
      (n.rawValue - isn.rawValue).toNat + (if (n.rawValue - isn.rawValue).toNat = 2 ^ 31 then 2 ^ 32 else 0) := by
  have hn := n.rawValue.toNat_lt
  have hi := isn.rawValue.toNat_lt
  have hd := (n.rawValue - isn.rawValue).toNat_lt
  -- the two differences are each other's complements modulo `2^32`
  have hneg : (isn.rawValue - n.rawValue).toNat = (2 ^ 32 - (n.rawValue - isn.rawValue).toNat) % 2 ^ 32 := by
    rw [UInt32.toNat_sub, UInt32.toNat_sub]
    omega
  by_cases h : n.sub isn ≥ 0
  · have hd31 : (n.rawValue - isn.rawValue).toNat < 2 ^ 31 := (WrappingInt32.zero_le_sub_iff n isn).mp h
    rw [if_pos h, WrappingInt32.sub, toNat_toUInt64_toInt64_toInt32, if_pos hd31, if_neg (by omega)]
    rfl
  · have hd31 : ¬ (n.rawValue - isn.rawValue).toNat < 2 ^ 31 := mt (WrappingInt32.zero_le_sub_iff n isn).mpr h
    -- `isn - n` is positive, except for `INT32_MIN`, which stays negative
    have hsign : (isn.sub n).toInt64.toUInt64.toNat =
        if (n.rawValue - isn.rawValue).toNat = 2 ^ 31 then 2 ^ 31 + (2 ^ 64 - 2 ^ 32)
        else 2 ^ 32 - (n.rawValue - isn.rawValue).toNat := by
      rw [WrappingInt32.sub, toNat_toUInt64_toInt64_toInt32, hneg]
      split_ifs <;> omega
    rw [if_neg h, UInt64.toNat_sub, hsign, show ((1 : UInt64) <<< 32).toNat = 2 ^ 32 from rfl]
    split_ifs <;> omega

section Stages

variable {c : UInt64} (hc : c.toNat < 2 ^ 64 - 2 ^ 32)
include hc

/-- The offset moved into the checkpoint's block. -/
theorem toNat_unwrap_block (n isn : WrappingInt32) :
    ((if n.sub isn ≥ 0 then (n.sub isn).toInt64.toUInt64
      else ((1 : UInt64) <<< 32) - (isn.sub n).toInt64.toUInt64) + (c >>> 32) <<< 32).toNat =
      (n.rawValue - isn.rawValue).toNat + (if (n.rawValue - isn.rawValue).toNat = 2 ^ 31 then 2 ^ 32 else 0) +
        c.toNat / 2 ^ 32 * 2 ^ 32 := by
  have hd := (n.rawValue - isn.rawValue).toNat_lt
  have hH : ((c >>> 32) <<< 32).toNat = c.toNat / 2 ^ 32 * 2 ^ 32 := by
    simp only [UInt64.toNat_shiftLeft, UInt64.toNat_shiftRight, Nat.shiftRight_eq_div_pow, Nat.shiftLeft_eq,
      show (32 : UInt64).toNat % 64 = 32 from rfl]
    omega
  -- the block of the checkpoint is at least `2^33` below `2^64`, so the sum does not wrap
  rw [UInt64.toNat_add, toNat_unwrap_offset, hH]
  split_ifs <;> omega

/-- A block up if the offset is still below the checkpoint. -/
theorem toNat_unwrap_up {o : UInt64} {m : ℕ} (ho : o.toNat = m) (hcm : c.toNat < m + 2 ^ 32) :
    (if o < c then o + (1 : UInt64) <<< 32 else o).toNat = if m < c.toNat then m + 2 ^ 32 else m := by
  by_cases h : m < c.toNat
  · rw [if_pos (UInt64.lt_iff_toNat_lt.mpr (ho ▸ h)), if_pos h, UInt64.toNat_add, ho,
      show ((1 : UInt64) <<< 32).toNat = 2 ^ 32 from rfl]
    omega
  · rw [if_neg (mt UInt64.lt_iff_toNat_lt.mp (ho ▸ h)), if_neg h, ho]

omit hc in
/-- A block down if the offset is more than `2^31` above the checkpoint, outside the first block. -/
theorem toNat_unwrap_down {o : UInt64} {m : ℕ} (ho : o.toNat = m) (hcm : c.toNat ≤ m) :
    (if o - c > (1 : UInt64) <<< 31 && o ≥ (1 : UInt64) <<< 32 then o - (1 : UInt64) <<< 32 else o).toNat =
      if 2 ^ 31 < m - c.toNat ∧ 2 ^ 32 ≤ m then m - 2 ^ 32 else m := by
  have h31 : ((1 : UInt64) <<< 31).toNat = 2 ^ 31 := rfl
  have h32 : ((1 : UInt64) <<< 32).toNat = 2 ^ 32 := rfl
  have hco : c ≤ o := by
    rw [UInt64.le_iff_toNat_le, ho]
    exact hcm
  have hcond : (o - c > (1 : UInt64) <<< 31 && o ≥ (1 : UInt64) <<< 32) = true ↔
      2 ^ 31 < m - c.toNat ∧ 2 ^ 32 ≤ m := by
    simp only [Bool.and_eq_true, decide_eq_true_eq, gt_iff_lt, UInt64.lt_iff_toNat_lt, ge_iff_le,
      UInt64.le_iff_toNat_le, UInt64.toNat_sub_of_le _ _ hco, ho, h31, h32]
  by_cases h : 2 ^ 31 < m - c.toNat ∧ 2 ^ 32 ≤ m
  · rw [if_pos (hcond.mpr h), if_pos h, UInt64.toNat_sub_of_le _ _ (UInt64.le_iff_toNat_le.mpr (by rw [ho, h32]; exact h.2)),
      ho, h32]
  · rw [if_neg (mt hcond.mp h), if_neg h, ho]

/-- Below the bound on the checkpoint nothing overflows: `unwrap` is `unwrapNat` on the
distance from the ISN to `n`. -/
theorem toNat_unwrap (n isn : WrappingInt32) :
    (unwrap n isn c).toNat = unwrapNat (n.rawValue - isn.rawValue).toNat c.toNat := by
  have h1 := toNat_unwrap_block hc n isn
  have hcm₁ : c.toNat < (n.rawValue - isn.rawValue).toNat +
      (if (n.rawValue - isn.rawValue).toNat = 2 ^ 31 then 2 ^ 32 else 0) + c.toNat / 2 ^ 32 * 2 ^ 32 + 2 ^ 32 := by
    omega
  have h2 := toNat_unwrap_up hc h1 hcm₁
  unfold unwrap unwrapNat
  dsimp only
  refine toNat_unwrap_down h2 ?_
  split_ifs <;> omega

end Stages

/-- A number wraps to `n` exactly when it is the distance from the ISN to `n` modulo `2^32`. -/
theorem wrap_eq_iff (y : UInt64) (isn n : WrappingInt32) :
    wrap y isn = n ↔ y.toNat % 2 ^ 32 = (n.rawValue - isn.rawValue).toNat := by
  have hn := n.rawValue.toNat_lt
  have hi := isn.rawValue.toNat_lt
  rw [show wrap y isn = n ↔ (wrap y isn).rawValue.toNat = n.rawValue.toNat by
      rw [UInt32.toNat_inj, ← WrappingInt32.mk.injEq],
    wrap_toNat, UInt32.toNat_sub]
  omega

section Checkpoint

variable (n isn : WrappingInt32) {c : UInt64} (hc : c.toNat < 2 ^ 64 - 2 ^ 32)
include hc

theorem wrap_unwrap : wrap (unwrap n isn c) isn = n := by
  rw [wrap_eq_iff, toNat_unwrap hc n isn, unwrapNat_mod (n.rawValue - isn.rawValue).toNat_lt]

theorem unwrap_nearest_of_wrap {y : UInt64} (hy : wrap y isn = n) :
    Nat.dist (unwrap n isn c).toNat c.toNat ≤ Nat.dist y.toNat c.toNat := by
  rw [toNat_unwrap hc n isn]
  refine unwrapNat_nearest (n.rawValue - isn.rawValue).toNat_lt c.toNat y.toNat ?_
  rw [unwrapNat_mod (n.rawValue - isn.rawValue).toNat_lt, ← wrap_eq_iff]
  exact hy

end Checkpoint

/-- Within `2^31` of the checkpoint, `unwrap` takes a wrapped number back. -/
theorem unwrap_wrap_of_dist_lt (a : UInt64) (isn : WrappingInt32) {c : UInt64} (hc : c.toNat < 2 ^ 64 - 2 ^ 32)
    (hac : Nat.dist a.toNat c.toNat < 2 ^ 31) : unwrap (wrap a isn) isn c = a := by
  have hd := ((wrap a isn).rawValue - isn.rawValue).toNat_lt
  have hnear := unwrapNat_nearest hd c.toNat
  rw [← toNat_unwrap hc _ _] at hnear
  apply UInt64.toNat_inj.mp
  refine hnear.eq_of_dist_lt ?_ (by omega)
  rw [toNat_unwrap hc _ _, unwrapNat_mod hd, ← wrap_eq_iff]

/-- **`unwrap` inverts `wrap` to the nearest number.** For a checkpoint below `2^64 - 2^32`,
`unwrap` gives a number that wraps to `n` and is no farther from the checkpoint than any
other that does; so it takes back every number within `2^31` of the checkpoint. -/
theorem unwrap_nearest :
    (∀ (n isn : WrappingInt32) (checkpoint : UInt64), checkpoint.toNat < 2 ^ 64 - 2 ^ 32 →
      wrap (unwrap n isn checkpoint) isn = n ∧
        ∀ y : UInt64, wrap y isn = n →
          Nat.dist (unwrap n isn checkpoint).toNat checkpoint.toNat ≤ Nat.dist y.toNat checkpoint.toNat) ∧
    ∀ (a : UInt64) (isn : WrappingInt32) (c : UInt64), c.toNat < 2 ^ 64 - 2 ^ 32 →
      Nat.dist a.toNat c.toNat < 2 ^ 31 → unwrap (wrap a isn) isn c = a :=
  ⟨fun n isn _ hc => ⟨wrap_unwrap n isn hc, fun _ hy => unwrap_nearest_of_wrap n isn hc hy⟩,
    fun a isn _ hc hac => unwrap_wrap_of_dist_lt a isn hc hac⟩

/-- `n - isn = INT32_MIN` at checkpoint 0, and `a = 2^31` back from checkpoint `2^32`. -/
theorem unwrap_nearest_int32Min :
    ((0 : UInt64).toNat < 2 ^ 64 - 2 ^ 32 ∧
        (wrap (unwrap ⟨0x80000000⟩ ⟨0⟩ 0) ⟨0⟩ = ⟨0x80000000⟩ ∧
          ∀ y : UInt64, wrap y ⟨0⟩ = ⟨0x80000000⟩ →
            Nat.dist (unwrap ⟨0x80000000⟩ ⟨0⟩ 0).toNat (0 : UInt64).toNat ≤ Nat.dist y.toNat (0 : UInt64).toNat)) ∧
      ((0x100000000 : UInt64).toNat < 2 ^ 64 - 2 ^ 32 ∧ Nat.dist (0x80000001 : UInt64).toNat (0x100000000 : UInt64).toNat < 2 ^ 31 ∧
        unwrap (wrap 0x80000001 ⟨0⟩) ⟨0⟩ 0x100000000 = 0x80000001) :=
  ⟨⟨by decide, unwrap_nearest.1 _ _ _ (by decide)⟩,
    ⟨by decide, by decide, unwrap_nearest.2 _ _ _ (by decide) (by decide)⟩⟩

end Sponge
