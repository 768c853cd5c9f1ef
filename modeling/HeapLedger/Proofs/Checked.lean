import Mathlib.Algebra.GroupWithZero.Nat
import HeapLedger.Host.Pages
import HeapLedger.Layout
import HeapLedger.Proofs.Header

/-!
# `HeapLedger/Proofs/Checked.lean` — arithmetic under checks

Numbers are exact, and most sums say nothing of the word that they have to fit. On a machine that
checks its arithmetic, each of them can stop the program. Below, every computation with sizes and
addresses that is not guarded in its own right is written once more, in the order in which it is
evaluated and with a check at every step. `ChecksPass` says that the checked computations go through
and come to the same, whatever the numbers.

All that this takes is in the types and in the guards around it: a layout can be rounded up, an
array's product is compared before it is made, and a header is narrow (`width_add_lt`).
-/

set_option autoImplicit false

namespace HeapLedger

/-! ## Checked steps -/

namespace Word

/-- The difference, unless it leaves the word. -/
def sub? (a b : Nat) : Option Nat :=
  if b ≤ a then some (a - b) else none

/-- The product, unless it leaves the word. -/
def mul? (a b : Nat) : Option Nat :=
  if a * b < limit then some (a * b) else none

/-- The quotient, unless there is none. -/
def div? (a b : Nat) : Option Nat :=
  if b = 0 then none else some (a / b)

/-- The remainder, unless there is none. -/
def mod? (a b : Nat) : Option Nat :=
  if b = 0 then none else some (a % b)

variable {a b : Nat}

theorem add?_of_lt (h : a + b < limit) : add? a b = some (a + b) :=
  if_pos h

theorem sub?_of_le (h : b ≤ a) : sub? a b = some (a - b) :=
  if_pos h

theorem mul?_of_lt (h : a * b < limit) : mul? a b = some (a * b) :=
  if_pos h

theorem div?_of_ne (h : b ≠ 0) : div? a b = some (a / b) :=
  if_neg h

theorem mod?_of_ne (h : b ≠ 0) : mod? a b = some (a % b) :=
  if_neg h

theorem max_lt_limit : max < limit := by decide

end Word

/-! ## Sizes -/

def Size.ofArrayChecked (count elem : Nat) : Option (Except SizeError Nat) :=
  if elem = 0 then some (.error (.array count elem))
  else do
    let most ← Word.div? Word.max elem
    if most < count then some (.error (.array count elem))
    else
      let bytes ← Word.mul? count elem
      some (.ok bytes)

/-- The quotient is of something, and a product is only made that it allows. -/
theorem Size.ofArrayChecked_eq (count elem : Nat) :
    ofArrayChecked count elem = some (ofArray count elem) := by
  unfold ofArrayChecked ofArray
  by_cases hz : elem = 0
  · rw [if_pos hz, if_pos (.inl hz)]
  rw [if_neg hz, Word.div?_of_ne hz, Option.bind_eq_bind, Option.bind_some]
  by_cases hmost : Word.max / elem < count
  · rw [if_pos hmost, if_pos (.inr hmost)]
  · have hle : count * elem ≤ Word.max :=
      (Nat.le_div_iff_mul_le (Nat.pos_of_ne_zero hz)).1 (Nat.le_of_not_lt hmost)
    have hneg : ¬ (elem = 0 ∨ Word.max / elem < count) := not_or.2 ⟨hz, hmost⟩
    rw [if_neg hmost, Word.mul?_of_lt (Nat.lt_of_le_of_lt hle Word.max_lt_limit), if_neg hneg]
    rfl

/-- The size of a layout is rounded up with a mask. -/
def Layout.plainSizeChecked (maxAlign : Nat) (l : Layout) : Option (Option Nat) :=
  if maxAlign < l.align then some none
  else do
    let low ← Word.sub? l.align 1
    let reach ← Word.add? l.size low
    some (some (max (Word.clearLow reach l.align) l.align))

theorem Layout.plainSizeChecked_eq (maxAlign : Nat) (l : Layout) :
    l.plainSizeChecked maxAlign = some (l.plainSize maxAlign) := by
  have hpos := l.align_pos
  have hfits := l.add_align_le
  have hobject : Word.maxObject + 1 < Word.limit := by decide
  have hreach : l.size + (l.align - 1) = l.size + l.align - 1 := by omega
  have hmask : Word.clearLow (l.size + (l.align - 1)) l.align = l.padded := by
    rw [Word.clearLow_eq l.isPowerOfTwo_align (by omega) (by omega), hreach]
    rfl
  unfold plainSizeChecked plainSize
  split
  · rfl
  · rw [Word.sub?_of_le hpos, Option.bind_eq_bind, Option.bind_some,
      Word.add?_of_lt (by omega), Option.bind_some, hmask]

/-! ## Pages -/

def Host.wholePagesChecked (address len page : Nat) : Option (Option (Nat × Nat)) :=
  if ¬ page.isPowerOfTwo then some none
  else
    let start := Word.roundUp address page
    if Word.limit ≤ start then some none
    else do
      let skipped ← Word.sub? start address
      if len < skipped then some none
      else
        let _ ← Word.sub? page 1
        let bytes := Word.clearLow (len - skipped) page
        some (if bytes = 0 then none else some (start, bytes))

theorem Host.wholePagesChecked_eq (address len page : Nat) :
    wholePagesChecked address len page = some (wholePages address len page) := by
  unfold wholePagesChecked wholePages
  by_cases hpow : page.isPowerOfTwo
  · have hpos := Nat.pos_of_isPowerOfTwo hpow
    have hstart := Word.le_roundUp address hpos
    simp only [hpow, not_true, if_false]
    rw [Word.sub?_of_le hstart, Word.sub?_of_le hpos]
    simp only [Option.bind_eq_bind, Option.bind_some]
    split
    · rfl
    · split
      · rfl
      · rfl
  · simp only [hpow, not_false_iff, if_true]

/-! ## Headers -/

namespace Header

def wordAddressChecked (ptr n : Nat) : Option Nat := do
  let back ← Word.mul? n Word.bytes
  Word.sub? ptr back

theorem wordAddressChecked_eq {ptr n : Nat} (hn : n ≤ 3) (hptr : n * Word.bytes ≤ ptr) :
    wordAddressChecked ptr n = some (wordAddress ptr n) := by
  have hle : n * Word.bytes ≤ 3 * Word.bytes := Nat.mul_le_mul_right _ hn
  have hlt : n * Word.bytes < Word.limit := Nat.lt_of_le_of_lt hle (by decide)
  unfold wordAddressChecked
  rw [Word.mul?_of_lt hlt, Option.bind_eq_bind, Option.bind_some, Word.sub?_of_le hptr]
  rfl

def alignedSizeChecked (width size align : Nat) : Option (Option Nat) := do
  let fore ← Word.add? width Word.bytes
  some ((Word.add? size fore).bind fun n => Word.add? n align)

/-- Where an over-aligned block starts, and how far in that is. -/
def alignedPointerChecked (width start align : Nat) : Option (Nat × Nat) := do
  let fore ← Word.add? width Word.bytes
  let first ← Word.add? start fore
  let past ← Word.add? first align
  let last ← Word.sub? past 1
  let _ ← Word.sub? align 1
  let ptr := Word.clearLow last align
  let offset ← Word.sub? ptr start
  some (ptr, offset)

/-- The backend's pointer, by the offset in front of the caller's. -/
def startChecked (width : Nat) (m : Memory) (ptr : Nat) (h : Header) : Option Nat :=
  if h.align = 0 then Word.sub? ptr width
  else do
    let address ← wordAddressChecked ptr 3
    Word.sub? ptr (m.word address)

variable {w start ptr align : Nat} {m : Memory} {h : Header}

theorem width_add_lt {maxAlign : Nat} (hmax : maxAlign ≤ 2 ^ 32) :
    width maxAlign + Word.bytes < Word.limit := by
  have hle : width maxAlign ≤ 2 ^ 32 := width_le (by decide) hmax
  exact Nat.lt_of_le_of_lt (Nat.add_le_add_right hle _) (by decide)

theorem alignedSizeChecked_eq (hw : w + Word.bytes < Word.limit) (size align : Nat) :
    alignedSizeChecked w size align = some (alignedSize w size align) := by
  unfold alignedSizeChecked
  rw [Word.add?_of_lt hw]
  rfl

theorem guardSum_eq_ok {a b n : Nat} (h : Fault.guardSum (Word.add? a b) = .ok n) :
    a + b < Word.limit ∧ n = a + b := by
  cases hsum : Word.add? a b with
  | none =>
    rw [hsum] at h
    cases h
  | some k =>
    rw [hsum] at h
    cases h
    exact add?_eq_some.1 hsum

/-- A pointer that was found is where the guarded sums allow it to be. -/
theorem alignedPointer_bounds (hpow : align.isPowerOfTwo)
    (hptr : alignedPointer w start align = .ok ptr) :
    start + (w + Word.bytes) + align < Word.limit ∧ start + (w + Word.bytes) ≤ ptr := by
  have hlim : start + (w + Word.bytes) + align < Word.limit := by
    unfold alignedPointer at hptr
    cases hfore : Fault.guardSum (Word.add? start (w + Word.bytes)) with
    | error e =>
      rw [hfore] at hptr
      cases hptr
    | ok fore =>
      obtain ⟨-, rfl⟩ := guardSum_eq_ok hfore
      rw [hfore, ok_bind] at hptr
      cases hpast : Fault.guardSum (Word.add? (start + (w + Word.bytes)) align) with
      | error e =>
        rw [hpast] at hptr
        cases hptr
      | ok past => exact (guardSum_eq_ok hpast).1
  have hsum : start + w + Word.bytes + align < Word.limit := by omega
  obtain ⟨q, hq, -, hlo, -⟩ := alignedPointer_ok hpow hsum
  rw [hptr] at hq
  cases hq
  exact ⟨hlim, by omega⟩

theorem alignedPointerChecked_eq (hpow : align.isPowerOfTwo)
    (hptr : alignedPointer w start align = .ok ptr) :
    alignedPointerChecked w start align = some (ptr, ptr - start) := by
  have hpos := Nat.pos_of_isPowerOfTwo hpow
  obtain ⟨hlim, hlo⟩ := alignedPointer_bounds hpow hptr
  unfold alignedPointer at hptr
  rw [guardSum_add? (by omega), ok_bind, guardSum_add? (by omega), ok_bind] at hptr
  cases hptr
  unfold alignedPointerChecked
  rw [Word.add?_of_lt (by omega)]
  simp only [Option.bind_eq_bind, Option.bind_some]
  rw [Word.add?_of_lt (by omega), Option.bind_some, Word.add?_of_lt (by omega), Option.bind_some,
    Word.sub?_of_le (by omega), Option.bind_some, Word.sub?_of_le hpos, Option.bind_some,
    Word.sub?_of_le (by omega), Option.bind_some]

/-- The header of a live pointer is found without going below zero. -/
theorem Stamped.checked (hs : Stamped w m start ptr h) (hw : 2 * Word.bytes ≤ w) :
    (∀ n ≤ h.words, wordAddressChecked ptr n = some (wordAddress ptr n)) ∧
      startChecked w m ptr h = some start := by
  have hfront := hs.front hw
  have hthree : h.words ≤ 3 := by
    unfold words
    split <;> omega
  have hwords : ∀ n ≤ h.words, wordAddressChecked ptr n = some (wordAddress ptr n) := by
    intro n hn
    have hle : n * Word.bytes ≤ h.words * Word.bytes := Nat.mul_le_mul_right _ hn
    exact wordAddressChecked_eq (Nat.le_trans hn hthree) (by omega)
  refine ⟨hwords, ?_⟩
  unfold startChecked
  by_cases ha : h.align = 0
  · have hptr := hs.plain ha
    rw [if_pos ha, Word.sub?_of_le (by omega), hptr, Nat.add_sub_cancel]
  · have hle := hs.start_le hw
    rw [if_neg ha, hwords 3 (Nat.le_of_eq (if_neg ha).symm), Option.bind_eq_bind, Option.bind_some,
      (hs.far ha).2.1, Word.sub?_of_le (Nat.sub_le _ _), Nat.sub_sub_self hle]

end Header

/-! ## All of it -/

/-- The computations with sizes and addresses go through on a machine that checks every step, and
come to what they are without checks. -/
structure ChecksPass (maxAlign : Nat) : Prop where
  array : ∀ count elem, Size.ofArrayChecked count elem = some (Size.ofArray count elem)
  layout : ∀ l : Layout, l.plainSizeChecked maxAlign = some (l.plainSize maxAlign)
  /-- Whether an address is a multiple of a layout's alignment can be told. -/
  multiple : ∀ address (l : Layout), Word.mod? address l.align = some (address % l.align)
  pages : ∀ address len page,
    Host.wholePagesChecked address len page = some (Host.wholePages address len page)
  size : ∀ size align, Header.alignedSizeChecked (Header.width maxAlign) size align =
    some (Header.alignedSize (Header.width maxAlign) size align)
  /-- The words of a plain header are in front of the pointer, wherever the block is. -/
  plain : ∀ start n, n ≤ 2 →
    Header.wordAddressChecked (start + Header.width maxAlign) n =
      some (Header.wordAddress (start + Header.width maxAlign) n)
  far : ∀ start align ptr, align.isPowerOfTwo →
    Header.alignedPointer (Header.width maxAlign) start align = .ok ptr →
      Header.alignedPointerChecked (Header.width maxAlign) start align =
        some (ptr, ptr - start) ∧
      ∀ n ≤ 3, Header.wordAddressChecked ptr n = some (Header.wordAddress ptr n)

theorem checksPass {maxAlign : Nat} (hmax : maxAlign ≤ 2 ^ 32) : ChecksPass maxAlign where
  array := Size.ofArrayChecked_eq
  layout := Layout.plainSizeChecked_eq maxAlign
  multiple := fun _ l => Word.mod?_of_ne (Nat.ne_of_gt l.align_pos)
  pages := Host.wholePagesChecked_eq
  size := Header.alignedSizeChecked_eq (Header.width_add_lt hmax)
  plain := by
    intro start n hn
    have hw := Header.two_words_le_width maxAlign
    have hle : n * Word.bytes ≤ 2 * Word.bytes := Nat.mul_le_mul_right _ hn
    exact Header.wordAddressChecked_eq (by omega) (by omega)
  far := by
    intro start align ptr hpow hptr
    have hw := Header.two_words_le_width maxAlign
    obtain ⟨-, hlo⟩ := Header.alignedPointer_bounds hpow hptr
    refine ⟨Header.alignedPointerChecked_eq hpow hptr, ?_⟩
    intro n hn
    have hle : n * Word.bytes ≤ 3 * Word.bytes := Nat.mul_le_mul_right _ hn
    exact Header.wordAddressChecked_eq hn (by omega)

end HeapLedger
