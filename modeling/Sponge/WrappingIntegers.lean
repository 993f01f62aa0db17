import Mathlib.Tactic.Ring

/-!
The 32-bit sequence numbers of `wrapping_integers.{hh,cc}`.

A `WrappingInt32` is a raw `uint32_t`; `wrap` takes an absolute 64-bit sequence
number to it, and `unwrap` takes it back to the absolute number closest to a
checkpoint. Both are written on the source's own machine types, `UInt32`,
`UInt64` and the `int32_t` of `operator-`, so that every wrap-around of the source
is the model's. `wrap_toNat` is what `wrap` computes on naturals.
-/

namespace Sponge

/-- `WrappingInt32`. -/
structure WrappingInt32 where
  rawValue : UInt32
  deriving DecidableEq, Repr

namespace WrappingInt32

/-- `operator-(WrappingInt32, WrappingInt32)`: the difference of the raw values as an
`int32_t`. -/
def sub (a b : WrappingInt32) : Int32 := (a.rawValue - b.rawValue).toInt32

/-- `operator+(WrappingInt32, uint32_t)`. -/
def add (a : WrappingInt32) (b : UInt32) : WrappingInt32 := ⟨a.rawValue + b⟩

end WrappingInt32

/-- `wrap(n, isn)`: the absolute sequence number `n` relative to `isn`, modulo `2^32`. -/
def wrap (n : UInt64) (isn : WrappingInt32) : WrappingInt32 :=
  let relativeSeqno := n + isn.rawValue.toUInt64
  ⟨(relativeSeqno % ((1 : UInt64) <<< 32)).toUInt32⟩

/-- `unwrap(n, isn, checkpoint)`: the absolute sequence number that wraps to `n`,
chosen near `checkpoint`. The `int32_t` differences are widened to `uint64_t` by
sign extension, as `static_cast<uint64_t>` does. -/
def unwrap (n isn : WrappingInt32) (checkpoint : UInt64) : UInt64 :=
  let one : UInt64 := 1
  let offset : UInt64 :=
    if n.sub isn ≥ 0 then (n.sub isn).toInt64.toUInt64
    else (one <<< 32) - (isn.sub n).toInt64.toUInt64
  let offset := offset + ((checkpoint >>> 32) <<< 32)
  let offset := if offset < checkpoint then offset + (one <<< 32) else offset
  if offset - checkpoint > (one <<< 31) && offset ≥ (one <<< 32) then offset - (one <<< 32)
  else offset

/-- `wrap` on naturals: the sum with the ISN, modulo `2^32`. -/
theorem wrap_toNat (n : UInt64) (isn : WrappingInt32) :
    (wrap n isn).rawValue.toNat = (n.toNat + isn.rawValue.toNat) % 2 ^ 32 := by
  have h32 : ((1 : UInt64) <<< 32).toNat = 2 ^ 32 := by decide
  have hdvd : 2 ^ 32 ∣ 2 ^ 64 := pow_dvd_pow 2 (by decide)
  simp only [wrap, UInt64.toNat_toUInt32, UInt64.toNat_mod, h32, UInt64.toNat_add,
    UInt32.toNat_toUInt64, Nat.mod_mod_of_dvd _ hdvd, Nat.mod_mod]

/-- `wrap` adds the ISN in 32-bit arithmetic. -/
theorem rawValue_wrap (a : Nat) (isn : WrappingInt32) :
    (wrap (UInt64.ofNat a) isn).rawValue = UInt32.ofNat a + isn.rawValue := by
  apply UInt32.toNat_inj.mp
  rw [wrap_toNat, UInt32.toNat_add]
  simp only [UInt32.toNat_ofNat', UInt64.toNat_ofNat']
  omega
/-- A number below `2^31` read as an `int32_t` is itself, and so is its sign extension. -/
theorem toInt_ofNat_toInt32 {a : Nat} (ha : a < 2 ^ 31) : (UInt32.ofNat a).toInt32.toInt = a := by
  rw [Int32.toInt, UInt32.toBitVec_toInt32]
  simp [BitVec.toInt_eq_toNat_cond]
  omega
theorem toUInt64_ofNat_toInt32 {a : Nat} (ha : a < 2 ^ 31) :
    (UInt32.ofNat a).toInt32.toInt64.toUInt64 = UInt64.ofNat a := by
  apply UInt64.toBitVec_inj.mp
  rw [Int64.toBitVec_toUInt64, Int32.toBitVec_toInt64, UInt32.toBitVec_toInt32]
  apply BitVec.eq_of_toNat_eq
  simp [BitVec.signExtend, BitVec.toInt_eq_toNat_cond]
  omega
/-- Within `2^31` of a checkpoint below `2^31`, `unwrap` takes a wrapped number back: the
only case the receiver meets on a stream shorter than `2^31`. -/
theorem unwrap_wrap_of_lt {a c : Nat} (ha : a < 2 ^ 31) (hc : c < 2 ^ 31) (isn : WrappingInt32) :
    unwrap (wrap (UInt64.ofNat a) isn) isn (UInt64.ofNat c) = UInt64.ofNat a := by
  have hsub : (wrap (UInt64.ofNat a) isn).sub isn = (UInt32.ofNat a).toInt32 := by
    rw [WrappingInt32.sub, rawValue_wrap, UInt32.add_sub_cancel]
  have hnn : (UInt32.ofNat a).toInt32 ≥ 0 := by
    rw [ge_iff_le, Int32.le_iff_toInt_le, toInt_ofNat_toInt32 ha]
    simp
  -- the checkpoint lies below `2^32`, so the offset starts at `a` itself
  have hhi : (UInt64.ofNat c >>> 32) <<< 32 = 0 := by
    apply UInt64.toNat_inj.mp
    simp [UInt64.toNat_shiftLeft, UInt64.toNat_shiftRight, Nat.shiftRight_eq_div_pow, Nat.shiftLeft_eq]
    omega
  have h32 : ((1 : UInt64) <<< 32).toNat = 2 ^ 32 := by decide
  have h31 : ((1 : UInt64) <<< 31).toNat = 2 ^ 31 := by decide
  have ha64 : (UInt64.ofNat a).toNat = a := by simp only [UInt64.toNat_ofNat']; omega
  have hc64 : (UInt64.ofNat c).toNat = c := by simp only [UInt64.toNat_ofNat']; omega
  unfold unwrap
  simp only [hsub, if_pos hnn, toUInt64_ofNat_toInt32 ha, hhi, UInt64.add_zero]
  by_cases hac : a < c
  · -- below the checkpoint: `2^32` is added, then taken back
    have hlt : UInt64.ofNat a < UInt64.ofNat c := by rw [UInt64.lt_iff_toNat_lt, ha64, hc64]; exact hac
    have hb : (UInt64.ofNat a + (1 : UInt64) <<< 32).toNat = a + 2 ^ 32 := by
      rw [UInt64.toNat_add, h32, ha64]
      omega
    have hcb : UInt64.ofNat c ≤ UInt64.ofNat a + (1 : UInt64) <<< 32 := by
      rw [UInt64.le_iff_toNat_le, hb, hc64]
      omega
    have h32b : (1 : UInt64) <<< 32 ≤ UInt64.ofNat a + (1 : UInt64) <<< 32 := by
      rw [UInt64.le_iff_toNat_le, hb, h32]
      omega
    rw [if_pos hlt, if_pos]
    · apply UInt64.toNat_inj.mp
      rw [UInt64.toNat_sub_of_le _ _ h32b, hb, h32, ha64]
      omega
    · simp only [Bool.and_eq_true, decide_eq_true_eq, gt_iff_lt, UInt64.lt_iff_toNat_lt, ge_iff_le,
        UInt64.le_iff_toNat_le, UInt64.toNat_sub_of_le _ _ hcb, hb, hc64, h31, h32]
      omega
  · have hlt : ¬ UInt64.ofNat a < UInt64.ofNat c := by rw [UInt64.lt_iff_toNat_lt, ha64, hc64]; exact hac
    rw [if_neg hlt, if_neg]
    simp only [Bool.and_eq_true, decide_eq_true_eq, ge_iff_le, UInt64.le_iff_toNat_le, h32, ha64, not_and,
      not_le]
    intro _
    omega

theorem wrap_zero (isn : WrappingInt32) : wrap (UInt64.ofNat 0) isn = isn := by
  cases isn with
  | mk raw =>
    rw [WrappingInt32.mk.injEq, rawValue_wrap]
    simp

end Sponge
