import Mathlib.Tactic.Ring

/-!
Unsigned machine addition and subtraction on naturals.

`Word.add w a b` is `a + b` on `w`-bit unsigned words, the sum modulo `2^w`; it is the
plain sum while that stays below `2^w` (`add_of_lt`), and sums add up as on naturals
(`add_add`). `Word.sub w a b` is `a - b`
computed on `w`-bit unsigned words: the difference when `b ≤ a`, and otherwise its
wrap-around modulo `2^w`. For operands that fit in `w` bits it is the machine result
(`sub_eq_mod`); it needs no bound when nothing wraps (`sub_of_le`), and a small shortfall
wraps to a large word (`sub_of_lt`).
-/

namespace Word

/-- `a + b` in `w`-bit unsigned arithmetic. -/
def add (w a b : ℕ) : ℕ := (a + b) % 2 ^ w

/-- `a - b` in `w`-bit unsigned arithmetic. -/
def sub (w a b : ℕ) : ℕ := if b ≤ a then a - b else (2 ^ w - (b - a) % 2 ^ w) % 2 ^ w

variable {w a b : ℕ}

theorem add_of_lt (h : a + b < 2 ^ w) : add w a b = a + b := Nat.mod_eq_of_lt h

theorem add_lt : add w a b < 2 ^ w := Nat.mod_lt _ (Nat.two_pow_pos w)

theorem add_add (c : ℕ) : add w (add w a b) c = add w a (b + c) := by
  rw [add, add, add, Nat.mod_add_mod, Nat.add_assoc]

theorem add_zero_of_lt (ha : a < 2 ^ w) : add w a 0 = a := add_of_lt (by omega)

theorem sub_of_le (h : b ≤ a) : sub w a b = a - b := by simp [sub, h]

/-- A difference that goes below zero wraps to `2^w` minus the shortfall. -/
theorem sub_of_lt (h : a < b) (hd : b - a < 2 ^ w) : sub w a b = 2 ^ w - (b - a) := by
  have hpos : 0 < b - a := by omega
  rw [sub, if_neg (by omega), Nat.mod_eq_of_lt hd, Nat.mod_eq_of_lt (by omega)]

/-- On operands that fit in `w` bits, `sub` is the machine subtraction. -/
theorem sub_eq_mod (ha : a < 2 ^ w) (hb : b < 2 ^ w) : sub w a b = (a + 2 ^ w - b) % 2 ^ w := by
  by_cases h : b ≤ a
  · rw [sub_of_le h, show a + 2 ^ w - b = (a - b) + 2 ^ w by omega, Nat.add_mod_right,
      Nat.mod_eq_of_lt (by omega)]
  · rw [sub_of_lt (by omega) (by omega), Nat.mod_eq_of_lt (by omega)]
    omega

end Word
