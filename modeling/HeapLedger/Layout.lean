import HeapLedger.Word

/-!
# `HeapLedger/Layout.lean` — a size together with an alignment

Callers that lay out values ask for memory by layout. A layout's alignment is a power of two, and
its size can be rounded up to that alignment without passing the largest object there can be. Both
rules are part of the type: `Layout.of?` is the only way in.
-/

set_option autoImplicit false

namespace HeapLedger

/-- How many bytes a value needs, and what its address must be a multiple of. -/
structure Layout where
  size : Nat
  align : Nat
  isPowerOfTwo_align : align.isPowerOfTwo
  /-- Rounding the size up leaves an object that can exist. -/
  add_align_le : size + align ≤ Word.maxObject + 1
  deriving DecidableEq

namespace Layout

def of? (size align : Nat) : Option Layout :=
  if h : align.isPowerOfTwo ∧ size + align ≤ Word.maxObject + 1 then
    some ⟨size, align, h.1, h.2⟩
  else none

/-- The size rounded up to a multiple of the alignment. -/
def padded (l : Layout) : Nat :=
  Word.roundUp l.size l.align

/-- What to ask for when plain allocations are aligned to `maxAlign`: a multiple of the alignment
and at least one, or nothing when the layout needs more alignment than that. -/
def plainSize (maxAlign : Nat) (l : Layout) : Option Nat :=
  if maxAlign < l.align then none else some (max l.padded l.align)

/-! ## What passes -/

theorem of?_eq_some {size align : Nat} {l : Layout} (h : of? size align = some l) :
    l.size = size ∧ l.align = align := by
  unfold of? at h
  split at h
  · cases h
    exact ⟨rfl, rfl⟩
  · cases h

theorem of?_self (l : Layout) : of? l.size l.align = some l :=
  dif_pos ⟨l.isPowerOfTwo_align, l.add_align_le⟩

theorem align_pos (l : Layout) : 0 < l.align :=
  Nat.pos_of_isPowerOfTwo l.isPowerOfTwo_align

theorem plainSize_eq_none {maxAlign : Nat} {l : Layout} (h : l.plainSize maxAlign = none) :
    maxAlign < l.align := by
  unfold plainSize at h
  split at h
  · assumption
  · cases h

theorem plainSize_eq_some {maxAlign n : Nat} {l : Layout} (h : l.plainSize maxAlign = some n) :
    l.align ≤ maxAlign ∧ n = max l.padded l.align := by
  unfold plainSize at h
  split at h
  · cases h
  · cases h
    exact ⟨by omega, rfl⟩

/-- What is asked for is enough for the layout, and never nothing. -/
theorem le_plainSize {maxAlign n : Nat} {l : Layout} (h : l.plainSize maxAlign = some n) :
    l.size ≤ n ∧ 0 < n := by
  have hpadded : l.size ≤ l.padded := Word.le_roundUp l.size l.align_pos
  have hpos := l.align_pos
  unfold plainSize at h
  split at h
  · cases h
  · cases h
    omega

end Layout

end HeapLedger
