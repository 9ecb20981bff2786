import Vdsm.Lib.RustBytes
import Mathlib.Algebra.Group.Int.Defs

/-!
# Rust's machine integers

Values are numbers; an operation at a type is the number computed, if the type has it, and `none`, a
panic, if not. A cast by `as` wraps.
-/

namespace Rust

/-- The result of an `i64` operation. -/
def i64 (n : ℤ) : Option ℤ := if -2 ^ 63 ≤ n ∧ n < 2 ^ 63 then some n else none

/-- The result of a `u64` addition or multiplication. -/
def u64 (n : ℕ) : Option ℕ := if n < 2 ^ 64 then some n else none

/-- `as u64` on an `i64`. -/
def asU64 (n : ℤ) : ℕ := (n % 2 ^ 64).toNat

/-- `as u32`. -/
def asU32 (n : ℤ) : ℕ := (n % 2 ^ 32).toNat

/-- `as i64` on a `u64`. -/
def asI64 (n : ℕ) : ℤ := if n < 2 ^ 63 then n else n - 2 ^ 64

/-- An `i64` operation within range gives the number. -/
theorem i64_eq {n : ℤ} (h : -2 ^ 63 ≤ n ∧ n < 2 ^ 63) : i64 n = some n := if_pos h

/-- So does a `u64` operation. -/
theorem u64_eq {n : ℕ} (h : n < 2 ^ 64) : u64 n = some n := if_pos h

/-- A subtraction that does not underflow gives the difference. -/
theorem checkedSub_eq {a b : ℕ} (h : b ≤ a) : checkedSub a b = some (a - b) := if_pos h

/-- A cast to `u32` keeps the numbers that fit. -/
theorem asU32_eq {n : ℤ} (h0 : 0 ≤ n) (h : n < 2 ^ 32) : asU32 n = n.toNat := by
  rw [asU32, Int.emod_eq_of_lt h0 h]

theorem asU64_eq {n : ℤ} (h0 : 0 ≤ n) (h : n < 2 ^ 64) : asU64 n = n.toNat := by
  rw [asU64, Int.emod_eq_of_lt h0 h]

theorem asI64_eq {n : ℕ} (h : n < 2 ^ 63) : asI64 n = n := if_pos h

end Rust
