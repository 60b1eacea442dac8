import Mathlib

/-!
# Unsigned 64-bit arithmetic on `ℕ`

`U64.satAdd` is `u64::saturating_add` and `U64.wrapSucc` the wrapping `+ 1` of a release build. The
arguments range over all of `ℕ`: every `u64` value is among them, and no result below needs the
bound.
-/

namespace U64

/-- `u64::MAX`. -/
def max : ℕ := 2 ^ 64 - 1

/-- `u64::saturating_add`. -/
def satAdd (a b : ℕ) : ℕ := min (a + b) max

/-- `x + 1` modulo `2 ^ 64`. -/
def wrapSucc (a : ℕ) : ℕ := (a + 1) % 2 ^ 64

theorem satAdd_le_satAdd {a a' b b' : ℕ} (ha : a ≤ a') (hb : b ≤ b') :
    satAdd a b ≤ satAdd a' b' := by
  unfold satAdd
  omega

end U64
