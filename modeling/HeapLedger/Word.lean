/-!
# `HeapLedger/Word.lean` — machine words as naturals

Sizes and addresses are natural numbers; a machine word is one below `Word.limit`. Sums are exact,
and the places where a machine would run out of bits say so with a bound test. Counters, whose
arithmetic is meant to wrap, use `UInt64` instead and do not appear here.

The two rounding operations differ in what they ask for. `roundUp` works for every positive step.
`clearLow` clears the bits below `step` with a mask, and rounds down only when `step` is a power of
two (`clearLow_eq`).
-/

set_option autoImplicit false

namespace HeapLedger.Word

/-- A word holds the numbers below this one. -/
def limit : Nat := UInt64.size

def max : Nat := limit - 1

/-- The largest size an object can have: half the address space, less one. -/
def maxObject : Nat := limit / 2 - 1

def bytes : Nat := 8

/-- The sum, unless it leaves the word. -/
def add? (a b : Nat) : Option Nat :=
  if a + b < limit then some (a + b) else none

def addSaturating (a b : Nat) : Nat :=
  min max (a + b)

def mulSaturating (a b : Nat) : Nat :=
  min max (a * b)

/-- Stepping back from an address, around zero if need be. -/
def stepBack (address distance : Nat) : Nat :=
  (address + limit - distance % limit) % limit

/-- The least multiple of `step` that is at least `n`. -/
def roundUp (n step : Nat) : Nat :=
  (n + step - 1) / step * step

/-- `n` with its bits below the power of two `step` cleared. -/
def clearLow (n step : Nat) : Nat :=
  n &&& (limit - step)

/-! ## Laws of rounding -/

theorem le_roundUp (n : Nat) {step : Nat} (h : 0 < step) : n ≤ roundUp n step := by
  have hdiv := Nat.div_add_mod (n + step - 1) step
  have hmod := Nat.mod_lt (n + step - 1) h
  rw [Nat.mul_comm] at hdiv
  unfold roundUp
  omega

theorem roundUp_lt (n : Nat) {step : Nat} (h : 0 < step) : roundUp n step < n + step := by
  have hle := Nat.div_mul_le_self (n + step - 1) step
  unfold roundUp
  omega

theorem dvd_roundUp (n step : Nat) : step ∣ roundUp n step :=
  Nat.dvd_mul_left _ _

/-- No multiple of `step` lies between `n` and `roundUp n step`. -/
theorem roundUp_le {n step m : Nat} (h : step ∣ m) (hn : n ≤ m) : roundUp n step ≤ m := by
  obtain ⟨k, rfl⟩ := h
  rcases Nat.eq_zero_or_pos step with hz | hpos
  · simp [roundUp, hz]
  · unfold roundUp
    rw [Nat.mul_comm step k] at *
    refine Nat.mul_le_mul_right step ?_
    have : n + step - 1 < (k + 1) * step := by rw [Nat.succ_mul]; omega
    exact Nat.le_of_lt_succ ((Nat.div_lt_iff_lt_mul hpos).2 this)

/-- Clearing the bits below a power of two is rounding down to a multiple of it. -/
theorem clearLow_eq {n step : Nat} (hstep : step.isPowerOfTwo) (hn : n < limit)
    (hle : step ≤ limit) : clearLow n step = n / step * step := by
  obtain ⟨k, rfl⟩ := hstep
  have hk : k ≤ 64 := (Nat.pow_le_pow_iff_right Nat.one_lt_two).1 hle
  have hmask : limit - 2 ^ k = (2 ^ (64 - k) - 1) <<< k := by
    rw [Nat.shiftLeft_eq, Nat.sub_mul, ← Nat.pow_add, Nat.sub_add_cancel hk, Nat.one_mul]
    rfl
  unfold clearLow
  rw [hmask]
  apply Nat.eq_of_testBit_eq
  intro i
  rw [Nat.testBit_and, Nat.testBit_shiftLeft, ← Nat.shiftRight_eq_div_pow, ← Nat.shiftLeft_eq,
    Nat.testBit_shiftLeft, Nat.testBit_shiftRight, Nat.testBit_two_pow_sub_one]
  by_cases hik : i ≥ k
  · have hadd : k + (i - k) = i := by omega
    by_cases hi : i < 64
    · have : i - k < 64 - k := by omega
      simp [hik, hadd, this]
    · have hbit : n.testBit i = false := by
        apply Nat.testBit_lt_two_pow
        have hbig : 2 ^ 64 ≤ 2 ^ i := Nat.pow_le_pow_right Nat.two_pos (by omega)
        exact Nat.lt_of_lt_of_le hn hbig
      simp [hik, hadd, hbit]
  · simp [hik]

end HeapLedger.Word
