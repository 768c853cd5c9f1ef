/-!
# `HeapLedger/Backend/Blocks.lean` — live blocks by address

What a backend has handed out and not got back: each block's address and the bytes it has. The
newest comes first.
-/

set_option autoImplicit false

namespace HeapLedger

/-- Live blocks, as pairs of address and byte count. -/
structure Blocks where
  entries : List (Nat × Nat) := []
  deriving DecidableEq, Repr

namespace Blocks

def find? (b : Blocks) (address : Nat) : Option Nat :=
  b.entries.lookup address

def insert (b : Blocks) (address bytes : Nat) : Blocks :=
  ⟨(address, bytes) :: b.entries⟩

def erase (b : Blocks) (address : Nat) : Blocks :=
  ⟨b.entries.filter fun e => e.1 ≠ address⟩

theorem find?_insert (b : Blocks) (address bytes other : Nat) :
    (b.insert address bytes).find? other =
      if other = address then some bytes else b.find? other := by
  by_cases h : other = address
  · simp [find?, insert, h]
  · have : (other == address) = false := by simpa using h
    simp [find?, insert, h, List.lookup_cons, this]

theorem find?_erase (b : Blocks) (address other : Nat) :
    (b.erase address).find? other = if other = address then none else b.find? other := by
  obtain ⟨entries⟩ := b
  simp only [find?, erase]
  induction entries with
  | nil => simp
  | cons e rest ih =>
    by_cases he : e.1 = address
    · rw [List.filter_cons_of_neg (by simp [he]), ih, List.lookup_cons]
      by_cases ho : other = address
      · simp [ho]
      · have : (other == e.1) = false := by simpa [he] using ho
        simp [ho, this]
    · rw [List.filter_cons_of_pos (by simp [he]), List.lookup_cons, List.lookup_cons, ih]
      by_cases ho : other = address
      · have : (address == e.1) = false := by simpa using fun h => he h.symm
        simp [ho, this]
      · simp [ho]

end Blocks

end HeapLedger
