import HeapLedger.Fault
import HeapLedger.Memory
import HeapLedger.Size

/-!
# `HeapLedger/Header.lean` — the words in front of a block

A backend that cannot tell how big a block is gets bigger blocks than asked for, and the size goes
in front of what the caller sees:

```
 plain:         [ padding … | align = 0 | size ][ size bytes … ]
                <------------ width ---------->
 over-aligned:  [ padding … | offset | align | size ][ size bytes … ][ slack ]
                <------------ offset --------------->
```

Counting back from the caller's pointer, the first word is the size and the second the alignment,
zero for a plain block. `width` is at least two words and a multiple of the backend's alignment, so
a plain block keeps that alignment. An over-aligned block starts at the first multiple of its
alignment that leaves room for the header and one more word, which records how far in that is.

`Header.read` recovers size and alignment from a pointer alone and refuses what no request can have
written; `Header.start` then finds the backend's own pointer, and `Header.footprint` the bytes that
were taken from it.
-/

set_option autoImplicit false

namespace HeapLedger

/-- What the words in front of a block record. -/
structure Header where
  size : Nat
  /-- The alignment of an over-aligned block, and zero for a plain one. -/
  align : Nat
  deriving DecidableEq, Repr

namespace Header

/-- Bytes in front of a plain block, over a backend of this alignment. -/
def width (maxAlign : Nat) : Nat :=
  if 2 * Word.bytes < maxAlign then maxAlign else 2 * Word.bytes

/-- What to ask the backend for when the caller asks for `size` bytes. -/
def plainSize (width size : Nat) : Option Nat :=
  Word.add? size width

/-- What to ask the backend for when the caller asks for `size` bytes at a multiple of `align`. -/
def alignedSize (width size align : Nat) : Option Nat :=
  (Word.add? size (width + Word.bytes)).bind fun n => Word.add? n align

/-- The bytes taken from the backend for a block with this header. -/
def footprint (width : Nat) (h : Header) : Except Fault Nat := do
  let plain ← Fault.guardSum (Word.add? h.size width)
  if h.align = 0 then pure plain
  else
    let words ← Fault.guardSum (Word.add? plain Word.bytes)
    Fault.guardSum (Word.add? words h.align)

/-- Where the caller's bytes start in an over-aligned block at `start`: at the last multiple of
`align` before room for the header, one word and a whole `align`. -/
def alignedPointer (width start align : Nat) : Except Fault Nat := do
  let fore ← Fault.guardSum (Word.add? start (width + Word.bytes))
  let past ← Fault.guardSum (Word.add? fore align)
  pure (Word.clearLow (past - 1) align)

/-! ## In memory -/

def wordAddress (ptr n : Nat) : Nat :=
  ptr - n * Word.bytes

/-- The header of a plain block, written in front of `ptr`. -/
def writePlain (m : Memory) (ptr size : Nat) : Memory :=
  (m.setWord (wordAddress ptr 1) size).setWord (wordAddress ptr 2) 0

/-- The header of an over-aligned block at `start`, written in front of `ptr`. -/
def writeAligned (m : Memory) (start ptr size align : Nat) : Memory :=
  ((m.setWord (wordAddress ptr 1) size).setWord (wordAddress ptr 2) align).setWord
    (wordAddress ptr 3) (ptr - start)

/-- The header in front of `ptr`. A size that no request can have, and an alignment that is no
power of two, mean that the words were overwritten. -/
def read (m : Memory) (ptr : Nat) : Except Fault Header :=
  let size := m.word (wordAddress ptr 1)
  let align := m.word (wordAddress ptr 2)
  if Size.tooLarge size = true ∨ (align ≠ 0 ∧ ¬ align.isPowerOfTwo) then
    .error (.corruptHeader ptr size)
  else .ok ⟨size, align⟩

/-- The backend's pointer to the block whose caller has `ptr`. -/
def start (width : Nat) (m : Memory) (ptr : Nat) (h : Header) : Nat :=
  Word.stepBack ptr (if h.align = 0 then width else m.word (wordAddress ptr 3))

end Header

end HeapLedger
