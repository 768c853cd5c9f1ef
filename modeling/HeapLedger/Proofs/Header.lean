import HeapLedger.Header
import HeapLedger.Proofs.Survey

/-!
# `HeapLedger/Proofs/Header.lean` — headers that read back

`Header.Stamped w m start ptr h` says that in memory `m` the words in front of `ptr` are those that
a block at `start` with the header `h` gets, plain or over-aligned, and that `ptr` lies in the block
where it should. Writing a header makes it so (`stamped_writePlain`, `stamped_writeAligned`),
reading finds it (`Stamped.read`, `Stamped.start_eq`), and it depends on nothing but the bytes from
`start` up to `ptr` (`Stamped.congr`).

An over-aligned pointer is where a mask puts it. `alignedPointer_ok` says where that is: at the
first multiple of the alignment that leaves room for the header and one word, so that the slack at
the end of the block is never negative.
-/

set_option autoImplicit false

namespace HeapLedger.Header

/-! ## Sizes -/

/-- The bytes taken from the backend for a block with this header, as a plain sum. -/
def cost (w : Nat) (h : Header) : Nat :=
  if h.align = 0 then h.size + w else h.size + w + Word.bytes + h.align

/-- Size and cost together tell the header. -/
theorem eq_of_cost_eq {w : Nat} {h k : Header} (hsize : h.size = k.size)
    (hcost : cost w h = cost w k) : h = k := by
  obtain ⟨size, align⟩ := h
  obtain ⟨size', align'⟩ := k
  obtain rfl : size = size' := hsize
  have halign : align = align' := by
    unfold cost at hcost
    split at hcost <;> split at hcost <;> simp only at * <;> omega
  rw [halign]

theorem add?_eq_some {a b n : Nat} : Word.add? a b = some n ↔ a + b < Word.limit ∧ n = a + b := by
  unfold Word.add?
  split
  · rename_i h
    simp [h, eq_comm]
  · rename_i h
    simp [h]

theorem plainSize_eq_some {w size n : Nat} :
    plainSize w size = some n ↔ size + w < Word.limit ∧ n = size + w :=
  add?_eq_some

theorem alignedSize_eq_some {w size align n : Nat} : alignedSize w size align = some n ↔
    size + w + Word.bytes + align < Word.limit ∧ n = size + w + Word.bytes + align := by
  unfold alignedSize
  rw [Option.bind_eq_some_iff]
  simp only [add?_eq_some]
  constructor
  · intro h
    obtain ⟨k, ⟨hk, rfl⟩, hn, rfl⟩ := h
    omega
  · intro h
    obtain ⟨hlim, rfl⟩ := h
    exact ⟨size + (w + Word.bytes), ⟨by omega, rfl⟩, by omega, by omega⟩

theorem guardSum_add? {a b : Nat} (h : a + b < Word.limit) :
    Fault.guardSum (Word.add? a b) = .ok (a + b) := by
  rw [add?_eq_some.2 ⟨h, rfl⟩]
  rfl

theorem ok_bind {α γ : Type} (a : α) (f : α → Except Fault γ) : (Except.ok a >>= f) = f a := rfl

/-- No sum leaves the word if the whole does not. -/
theorem footprint_eq {w : Nat} {h : Header} (hlim : cost w h < Word.limit) :
    footprint w h = .ok (cost w h) := by
  unfold cost at *
  unfold footprint
  by_cases ha : h.align = 0
  · rw [if_pos ha] at hlim ⊢
    rw [guardSum_add? hlim, ok_bind, if_pos ha]
    rfl
  · rw [if_neg ha] at hlim ⊢
    rw [guardSum_add? (by omega), ok_bind, if_neg ha, guardSum_add? (by omega),
      ok_bind, guardSum_add? hlim]

theorem two_words_le_width (maxAlign : Nat) : 2 * Word.bytes ≤ width maxAlign := by
  unfold width
  split
  · rename_i h
    exact Nat.le_of_lt h
  · exact Nat.le_refl _

theorem width_le {maxAlign n : Nat} (hwords : 2 * Word.bytes ≤ n) (hmax : maxAlign ≤ n) :
    width maxAlign ≤ n := by
  unfold width
  split
  · exact hmax
  · exact hwords

/-! ## Placement -/

/-- Where the caller's bytes start in an over-aligned block: at the first multiple of the alignment
with room in front for a header and one word. -/
theorem alignedPointer_eq {w start align : Nat} (hpow : align.isPowerOfTwo)
    (hlim : start + w + Word.bytes + align < Word.limit) :
    alignedPointer w start align = .ok (Word.roundUp (start + (w + Word.bytes)) align) := by
  have hpos := Nat.pos_of_isPowerOfTwo hpow
  -- Clearing the low bits is dividing and multiplying back, which is what rounding up does.
  have hptr : Word.clearLow (start + (w + Word.bytes) + align - 1) align =
      Word.roundUp (start + (w + Word.bytes)) align :=
    Word.clearLow_eq hpow (by omega) (by omega)
  unfold alignedPointer
  rw [guardSum_add? (by omega), ok_bind, guardSum_add? (by omega), ok_bind, hptr]
  rfl

/-- That is at a multiple of the alignment, and not a whole alignment later than there is room. -/
theorem alignedPointer_ok {w start align : Nat} (hpow : align.isPowerOfTwo)
    (hlim : start + w + Word.bytes + align < Word.limit) :
    ∃ ptr, alignedPointer w start align = .ok ptr ∧ align ∣ ptr ∧
      start + w + Word.bytes ≤ ptr ∧ ptr < start + w + Word.bytes + align := by
  have hpos := Nat.pos_of_isPowerOfTwo hpow
  have hle := Word.le_roundUp (start + (w + Word.bytes)) hpos
  have hlt := Word.roundUp_lt (start + (w + Word.bytes)) hpos
  exact ⟨_, alignedPointer_eq hpow hlim, Word.dvd_roundUp _ align, by omega, by omega⟩

/-! ## Headers in memory -/

/-- In front of `ptr` stand the words of a block at `start` with this header, and `ptr` is where the
caller's bytes start in such a block. -/
structure Stamped (w : Nat) (m : Memory) (start ptr : Nat) (h : Header) : Prop where
  pos : 0 < h.size
  small : h.size < Size.bound
  size : m.word (wordAddress ptr 1) = h.size
  align : m.word (wordAddress ptr 2) = h.align
  plain : h.align = 0 → ptr = start + w
  far : h.align ≠ 0 → h.align.isPowerOfTwo ∧ m.word (wordAddress ptr 3) = ptr - start ∧
    start + w + Word.bytes ≤ ptr ∧ ptr ≤ start + w + Word.bytes + h.align

variable {w start ptr : Nat} {m m' : Memory} {h : Header}

/-- The words that the header takes: two, and a third one in an over-aligned block. -/
def words (h : Header) : Nat :=
  if h.align = 0 then 2 else 3

theorem Stamped.front (hs : Stamped w m start ptr h) (hw : 2 * Word.bytes ≤ w) :
    start + h.words * Word.bytes ≤ ptr := by
  unfold words
  by_cases ha : h.align = 0
  · rw [if_pos ha, hs.plain ha]
    omega
  · rw [if_neg ha]
    have hfar := (hs.far ha).2.2.1
    omega

/-- The caller's bytes end where the block does, or before. -/
theorem Stamped.room (hs : Stamped w m start ptr h) : ptr + h.size ≤ start + cost w h := by
  unfold cost
  by_cases ha : h.align = 0
  · rw [if_pos ha, hs.plain ha]
    omega
  · rw [if_neg ha]
    have hfar := (hs.far ha).2.2.2
    omega

theorem Stamped.start_le (hs : Stamped w m start ptr h) (hw : 2 * Word.bytes ≤ w) : start ≤ ptr :=
  Nat.le_trans (Nat.le_add_right _ _) (hs.front hw)

/-- A header depends on nothing but the bytes in front of the pointer. -/
theorem Stamped.congr (hs : Stamped w m start ptr h) (hw : 2 * Word.bytes ≤ w)
    (hm : Memory.Agree start (ptr - start) m m') : Stamped w m' start ptr h := by
  have hfront := hs.front hw
  -- All words of the header lie between the start of the block and the pointer.
  have hword : ∀ n, 0 < n → n ≤ h.words →
      m'.word (wordAddress ptr n) = m.word (wordAddress ptr n) := by
    intro n hn hle
    have hn8 : n * Word.bytes ≤ h.words * Word.bytes := Nat.mul_le_mul_right _ hle
    have h8n : 1 * Word.bytes ≤ n * Word.bytes := Nat.mul_le_mul_right _ hn
    refine hm.word ?_ ?_ <;> unfold wordAddress <;> omega
  have htwo : 2 ≤ h.words := by
    unfold words
    split <;> omega
  refine ⟨hs.pos, hs.small, ?_, ?_, hs.plain, ?_⟩
  · rw [hword 1 (by omega) (by omega)]
    exact hs.size
  · rw [hword 2 (by omega) htwo]
    exact hs.align
  · intro ha
    have hthree : h.words = 3 := if_neg ha
    rw [hword 3 (by omega) (by omega)]
    exact hs.far ha

theorem Stamped.read (hs : Stamped w m start ptr h) : Header.read m ptr = .ok h := by
  have hsmall : ¬ Size.tooLarge h.size = true := by
    rw [Size.tooLarge_iff]
    exact Nat.not_le_of_lt hs.small
  have hpow : h.align = 0 ∨ h.align.isPowerOfTwo := by
    by_cases ha : h.align = 0
    · exact .inl ha
    · exact .inr (hs.far ha).1
  unfold Header.read
  simp only [hs.size, hs.align]
  rw [if_neg]
  rintro (hlarge | ⟨hne, hnpow⟩)
  · exact hsmall hlarge
  · exact hpow.elim hne hnpow

theorem stepBack_eq {address distance : Nat} (hd : distance ≤ address) (ha : address < Word.limit) :
    Word.stepBack address distance = address - distance := by
  unfold Word.stepBack
  rw [Nat.mod_eq_of_lt (Nat.lt_of_le_of_lt hd ha)]
  have hsum : address + Word.limit - distance = address - distance + Word.limit := by omega
  rw [hsum, Nat.add_mod_right, Nat.mod_eq_of_lt (by omega)]

/-- The backend's pointer is found again. -/
theorem Stamped.start_eq (hs : Stamped w m start ptr h) (hw : 2 * Word.bytes ≤ w)
    (hlim : ptr < Word.limit) : Header.start w m ptr h = start := by
  unfold Header.start
  by_cases ha : h.align = 0
  · have hptr := hs.plain ha
    rw [if_pos ha, stepBack_eq (by omega) hlim]
    omega
  · have hle := hs.start_le hw
    rw [if_neg ha, (hs.far ha).2.1, stepBack_eq (by omega) hlim]
    omega

/-! ## Writing headers -/

/-- A plain header changes nothing but the two words in front of the pointer. -/
theorem changed_writePlain {size a : Nat} (hptr : 2 * Word.bytes ≤ ptr)
    (hne : (writePlain m ptr size).byte a ≠ m.byte a) : ptr - 2 * Word.bytes ≤ a ∧ a < ptr := by
  unfold writePlain at hne
  by_cases hsecond : (m.setWord (wordAddress ptr 1) size).byte a = m.byte a
  · rw [← hsecond] at hne
    have h2 := Memory.changed_setWord hne
    unfold wordAddress at h2
    omega
  · have h1 := Memory.changed_setWord hsecond
    unfold wordAddress at h1
    omega

theorem changed_writeAligned {size align a : Nat} (hptr : 3 * Word.bytes ≤ ptr)
    (hne : (writeAligned m start ptr size align).byte a ≠ m.byte a) :
    ptr - 3 * Word.bytes ≤ a ∧ a < ptr := by
  unfold writeAligned at hne
  by_cases hfirst : (m.setWord (wordAddress ptr 1) size).byte a = m.byte a
  · by_cases hsecond : ((m.setWord (wordAddress ptr 1) size).setWord
        (wordAddress ptr 2) align).byte a = (m.setWord (wordAddress ptr 1) size).byte a
    · rw [← hfirst, ← hsecond] at hne
      have h3 := Memory.changed_setWord hne
      unfold wordAddress at h3
      omega
    · have h2 := Memory.changed_setWord hsecond
      unfold wordAddress at h2
      omega
  · have h1 := Memory.changed_setWord hfirst
    unfold wordAddress at h1
    omega

theorem bound_lt_limit : Size.bound < Word.limit := by decide

theorem stamped_writePlain {size : Nat} (hw : 2 * Word.bytes ≤ w) (hpos : 0 < size)
    (hsmall : size < Size.bound) :
    Stamped w (writePlain m (start + w) size) start (start + w) ⟨size, 0⟩ := by
  have hlim : size < Word.limit := Nat.lt_trans hsmall bound_lt_limit
  refine ⟨hpos, hsmall, ?_, ?_, fun _ => rfl, fun ha => absurd rfl ha⟩
  · unfold writePlain
    rw [Memory.word_setWord_apart, Memory.word_setWord, Nat.mod_eq_of_lt hlim]
    unfold wordAddress
    omega
  · unfold writePlain
    rw [Memory.word_setWord]
    rfl

theorem stamped_writeAligned {size align : Nat} (hw : 2 * Word.bytes ≤ w) (hpos : 0 < size)
    (hsmall : size < Size.bound) (hpow : align.isPowerOfTwo) (halign : align < Word.limit)
    (hptr : ptr < Word.limit) (hlo : start + w + Word.bytes ≤ ptr)
    (hhi : ptr ≤ start + w + Word.bytes + align) :
    Stamped w (writeAligned m start ptr size align) start ptr ⟨size, align⟩ := by
  have hlim : size < Word.limit := Nat.lt_trans hsmall bound_lt_limit
  have hne : align ≠ 0 := Nat.pos_iff_ne_zero.1 (Nat.pos_of_isPowerOfTwo hpow)
  refine ⟨hpos, hsmall, ?_, ?_, fun ha => absurd ha hne, fun _ => ⟨hpow, ?_, hlo, hhi⟩⟩
  · unfold writeAligned
    rw [Memory.word_setWord_apart, Memory.word_setWord_apart, Memory.word_setWord,
      Nat.mod_eq_of_lt hlim] <;> unfold wordAddress <;> omega
  · unfold writeAligned
    rw [Memory.word_setWord_apart, Memory.word_setWord, Nat.mod_eq_of_lt halign]
    unfold wordAddress
    omega
  · unfold writeAligned
    rw [Memory.word_setWord, Nat.mod_eq_of_lt (by omega)]

end HeapLedger.Header
