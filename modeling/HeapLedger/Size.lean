import HeapLedger.Word

/-!
# `HeapLedger/Size.lean` — which sizes may be asked for

A backend is never asked for nothing: a request of zero bytes becomes one of `Size.least`. It is
never asked for half the address space or more either, which leaves room to add a header and an
alignment to every size that passes. `Size.request` is both rules together; `Size.ofArray` is the
byte count of an array, which an element size of zero makes meaningless and therefore an error.

Two kinds of error come out of this. A `SizeError` says which rule a size broke. An `AllocError` is
what a caller of the ledger sees: either the size arithmetic was refused or the backend was
exhausted, and in both cases the number is the caller's own.
-/

set_option autoImplicit false

namespace HeapLedger

namespace Size

/-- What a request of zero bytes is rounded up to. -/
def least : Nat := 8

/-- The first size that is refused. -/
def bound : Nat := Word.max / 2

/-- Half the address space or more. -/
def tooLarge (size : Nat) : Bool :=
  decide (bound ≤ size)

/-- A request of zero bytes becomes one of `least`. -/
def clamp (size : Nat) : Nat :=
  if size = 0 then least else size

end Size

inductive SizeError where
  | excessive (requested : Nat)
  /-- The array has no byte count that fits a word, or its elements have no bytes. -/
  | array (count elem : Nat)
  deriving DecidableEq, Repr

/-- Why an allocation failed, with the size the caller asked for. -/
inductive AllocError where
  | overflow (requested : Nat)
  /-- The backend was asked and had nothing to give. -/
  | exhausted (requested : Nat)
  deriving DecidableEq, Repr

namespace Size

/-- The size a backend may be asked for on behalf of a caller who wants `size` bytes. -/
def request (size : Nat) : Except SizeError Nat :=
  if tooLarge size then .error (.excessive size) else .ok (clamp size)

def ofArray (count elem : Nat) : Except SizeError Nat :=
  if elem = 0 ∨ Word.max / elem < count then .error (.array count elem) else .ok (count * elem)

/-! ## What passes -/

theorem tooLarge_iff (size : Nat) : tooLarge size = true ↔ bound ≤ size := by
  simp [tooLarge]

theorem lt_bound {size : Nat} (h : ¬ tooLarge size = true) : size < bound := by
  rw [tooLarge_iff] at h
  exact Nat.lt_of_not_le h

theorem clamp_pos (size : Nat) : 0 < clamp size := by
  unfold clamp least
  split <;> omega

theorem le_clamp (size : Nat) : size ≤ clamp size := by
  unfold clamp
  split <;> omega

theorem clamp_lt {size : Nat} (h : size < bound) : clamp size < bound := by
  unfold clamp
  split
  · decide
  · exact h

/-- A request is granted exactly below the bound, and then it is the clamped size. -/
theorem request_eq_ok_iff {size n : Nat} :
    request size = .ok n ↔ size < bound ∧ n = clamp size := by
  unfold request
  by_cases h : tooLarge size = true
  · rw [if_pos h]
    rw [tooLarge_iff] at h
    constructor
    · intro hc; cases hc
    · intro hc; omega
  · rw [if_neg h]
    rw [tooLarge_iff] at h
    constructor
    · intro hc; cases hc; exact ⟨by omega, rfl⟩
    · rintro ⟨-, rfl⟩; rfl

/-- An array has a byte count exactly when its elements have bytes and the product fits a word. -/
theorem ofArray_eq_ok_iff {count elem n : Nat} :
    ofArray count elem = .ok n ↔ elem ≠ 0 ∧ count * elem ≤ Word.max ∧ n = count * elem := by
  unfold ofArray
  rcases Nat.eq_zero_or_pos elem with hz | hpos
  · simp [hz]
  · have hle : Word.max / elem < count ↔ ¬ count * elem ≤ Word.max := by
      rw [← Nat.le_div_iff_mul_le hpos]
      omega
    by_cases hc : count * elem ≤ Word.max
    · have hz : elem ≠ 0 := by omega
      rw [if_neg (by simp [hle, hc, hz])]
      constructor
      · intro h; cases h; exact ⟨hz, hc, rfl⟩
      · rintro ⟨-, -, rfl⟩; rfl
    · rw [if_pos (Or.inr (hle.2 hc))]
      simp [hc]

end Size

/-! ## Texts

The words below are read by people and by scripts, so they are fixed to the letter. -/

namespace SizeError

def message : SizeError → String
  | .excessive n =>
      "requested " ++ toString n ++ " bytes, but requests of " ++ toString Size.bound ++
        " bytes or more are refused"
  | .array count elem =>
      toString count ++ " elements of " ++ toString elem ++ " bytes overflows usize"

def description : SizeError → String
  | .excessive _ => "requested too many bytes"
  | .array _ _ => "element count times element size overflowed"

def record : SizeError → String
  | .excessive n => "ExcessiveSizeRequestedError \x7b requested: " ++ toString n ++ " \x7d"
  | .array count elem =>
      "SizeOverflowError \x7b count: " ++ toString count ++ ", elem: " ++ toString elem ++ " \x7d"

/-- What the caller is told. A byte count that does not exist is reported as the largest word. -/
def toAllocError : SizeError → AllocError
  | .excessive n => .overflow n
  | .array _ _ => .overflow Word.max

end SizeError

namespace AllocError

def requested : AllocError → Nat
  | .overflow n => n
  | .exhausted n => n

/-- The same failure of a request of `n` bytes. -/
def withRequested (n : Nat) : AllocError → AllocError
  | .overflow _ => .overflow n
  | .exhausted _ => .exhausted n

/-- The size arithmetic was refused, and the backend never asked. -/
def isOverflow : AllocError → Bool
  | .overflow _ => true
  | .exhausted _ => false

def message : AllocError → String
  | .overflow n =>
      "allocation of " ++ toString n ++ " bytes refused: size arithmetic would overflow"
  | .exhausted n => "allocation of " ++ toString n ++ " bytes failed: backend out of memory"

def description : AllocError → String
  | _ => "allocation failed"

def label : AllocError → String
  | .overflow _ => "Overflow"
  | .exhausted _ => "Exhausted"

def record (e : AllocError) : String :=
  e.label ++ " \x7b requested: " ++ toString e.requested ++ " \x7d"

def recordLines (e : AllocError) : String :=
  e.label ++ " \x7b\n    requested: " ++ toString e.requested ++ ",\n\x7d"

end AllocError

end HeapLedger
