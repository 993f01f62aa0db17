import Mathlib.Tactic.Ring

/-!
Unsigned words as big-endian byte lists.

`beNat` reads a list of bytes as a number in base 256, most significant byte first;
`beBytes w v` writes the `w` low bytes of `v` the same way, each byte computed on its
own as a shift and a mask would. Reading back what was written gives `v` modulo
`256 ^ w` (`beNat_beBytes`).
-/

namespace Bytes

/-- The number a list of bytes spells, most significant byte first. -/
def beNat (bs : List UInt8) : Nat := bs.foldl (fun acc b => acc * 256 + b.toNat) 0

/-- The `w` low bytes of `v`, most significant first: byte `i` is `v` shifted right by
`8 * (w - 1 - i)` bits. -/
def beBytes (w v : Nat) : List UInt8 := (List.range w).map fun i => UInt8.ofNat (v / 256 ^ (w - 1 - i))

@[simp] theorem beNat_nil : beNat [] = 0 := rfl

theorem beNat_append_singleton (bs : List UInt8) (b : UInt8) :
    beNat (bs ++ [b]) = beNat bs * 256 + b.toNat := by
  simp [beNat, List.foldl_append]

@[simp] theorem length_beBytes (w v : Nat) : (beBytes w v).length = w := by
  simp [beBytes]

theorem beBytes_succ (w v : Nat) : beBytes (w + 1) v = beBytes w (v / 256) ++ [UInt8.ofNat v] := by
  simp only [beBytes, List.range_succ, List.map_append, List.map_singleton, Nat.add_sub_cancel,
    Nat.sub_self, pow_zero, Nat.div_one]
  congr 1
  apply List.map_congr_left
  intro i hi
  rw [List.mem_range] at hi
  -- one more byte below shifts every other byte by one place
  rw [Nat.div_div_eq_div_mul, ← pow_succ']
  congr 3
  omega

/-- **Reading back what was written.** -/
theorem beNat_beBytes (w v : Nat) : beNat (beBytes w v) = v % 256 ^ w := by
  induction w generalizing v with
  | zero => simp [beBytes, Nat.mod_one]
  | succ w ih =>
    have h8 : (2 : ℕ) ^ 8 = 256 := rfl
    rw [beBytes_succ, beNat_append_singleton, ih, UInt8.toNat_ofNat', h8, pow_succ' 256 w,
      @Nat.mod_mul 256 (256 ^ w) v]
    ring

end Bytes
