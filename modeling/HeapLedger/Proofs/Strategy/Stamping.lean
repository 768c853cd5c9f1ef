import HeapLedger.Backend.Arena
import HeapLedger.Proofs.Strategy.Headered

/-!
# `HeapLedger/Proofs/Strategy/Stamping.lean` — a header says what was stamped

A stamp encodes into two or three words what the block at hand is: how many bytes the caller sees,
at which alignment, and how far into the backend's block they start. Later there is nothing but the
caller's pointer, and size, start and cost of the block are decoded from the words in front of it.

`Headered.stamps_decode` is that decoding undoes encoding, for every backend, every address that
the backend may answer with and whatever the block held before. For an over-aligned block it also
says where the pointer is: as early as header and alignment allow, and so early enough for all the
caller's bytes.
-/

set_option autoImplicit false

namespace HeapLedger.Strategy.Headered

variable {β : Type}

/-- In front of the block stands this header, and it leads back to the `total` bytes at `start` that
the block was made from. -/
structure Decodes (b : Backend β) (start total : Nat) (x : Header) (m : Memory) (block : Block) :
    Prop where
  header : Header.read m block.ptr = .ok x
  start : Header.start (width b) m block.ptr x = start
  footprint : Header.footprint (width b) x = .ok total
  usable : block.usable = x.size
  booked : block.footprint = total

/-- In the `total` bytes at `start`, the `size` bytes at `ptr` are the first ones at a multiple of
`align` that leave room for a header of this width and one more word. -/
structure FirstFit (w start total size align ptr : Nat) : Prop where
  aligned : align ∣ ptr
  room : w + Word.bytes ≤ ptr - start
  near : ptr - start ≤ w + Word.bytes + align - 1
  fits : ptr + size ≤ start + total
  first : ∀ q, align ∣ q → start + (w + Word.bytes) ≤ q → ptr ≤ q

variable {b : Backend β} {start ptr : Nat} {x : Header} {m : Memory}

/-- What is stamped can be decoded, as long as the block ends in the address space. -/
theorem decodes_of_stamped (hx : Header.Stamped (width b) m start ptr x)
    (hlim : Header.cost (width b) x < Word.limit)
    (hfits : start + Header.cost (width b) x ≤ Word.limit) :
    Decodes b start (Header.cost (width b) x) x m ⟨ptr, x.size, Header.cost (width b) x⟩ := by
  have hroom := hx.room
  have hpos := hx.pos
  have hptr : ptr < Word.limit := by omega
  exact ⟨hx.read, hx.start_eq (two_words_le_width b) hptr, Header.footprint_eq hlim, rfl, rfl⟩

theorem stamp_decodes {size total : Nat} (h : Heap β) (hpos : 0 < size) (hsmall : size < Size.bound)
    (htotal : Header.plainSize (width b) size = some total) (hfits : start + total ≤ Word.limit) :
    ∃ block m, stamp b start size h = .ok block ⟨m, h.state⟩ ∧
      block.ptr = start + width b ∧ Decodes b start total ⟨size, 0⟩ m block := by
  have hw := two_words_le_width b
  have hcost : Header.cost (width b) ⟨size, 0⟩ = size + width b := if_pos rfl
  obtain ⟨hlim, rfl⟩ := Header.plainSize_eq_some.1 htotal
  refine ⟨_, _, stamp_eq hlim, rfl, ?_⟩
  rw [← hcost] at hlim hfits ⊢
  exact decodes_of_stamped (Header.stamped_writePlain hw hpos hsmall) hlim hfits

theorem firstFit_roundUp (start : Nat) {w total size align : Nat} (hpos : 0 < align)
    (htotal : total = size + w + Word.bytes + align) :
    FirstFit w start total size align (Word.roundUp (start + (w + Word.bytes)) align) := by
  have hle := Word.le_roundUp (start + (w + Word.bytes)) hpos
  have hlt := Word.roundUp_lt (start + (w + Word.bytes)) hpos
  refine ⟨Word.dvd_roundUp _ align, by omega, by omega, by omega, ?_⟩
  intro q hdvd hroom
  exact Word.roundUp_le hdvd hroom

theorem stampAligned_decodes {size align total : Nat} (h : Heap β) (hpos : 0 < size)
    (hsmall : size < Size.bound) (hpow : align.isPowerOfTwo)
    (htotal : Header.alignedSize (width b) size align = some total)
    (hfits : start + total ≤ Word.limit) :
    ∃ block m, stampAligned b start size align h = .ok block ⟨m, h.state⟩ ∧
      FirstFit (width b) start total size align block.ptr ∧
      Decodes b start total ⟨size, align⟩ m block := by
  have hw := two_words_le_width b
  have halign := Nat.pos_of_isPowerOfTwo hpow
  have hcost : Header.cost (width b) ⟨size, align⟩ = size + width b + Word.bytes + align :=
    if_neg (Nat.pos_iff_ne_zero.1 halign)
  obtain ⟨hlim, htotal⟩ := Header.alignedSize_eq_some.1 htotal
  have hle := Word.le_roundUp (start + (width b + Word.bytes)) halign
  have hlt := Word.roundUp_lt (start + (width b + Word.bytes)) halign
  have hfirst := firstFit_roundUp start halign htotal
  rw [← hcost] at hlim htotal
  subst htotal
  -- A caller wants one byte at least, so the sum in the mask falls short of the address space.
  refine ⟨_, _, stampAligned_eq hpow (by omega) hlim, hfirst, ?_⟩
  exact decodes_of_stamped (Header.stamped_writeAligned hw hpos hsmall hpow (by omega) (by omega)
    (by omega) (by omega)) hlim hfits

/-- Decoding a header undoes encoding it, wherever the backend's block is and whatever it holds. -/
theorem stamps_decode (b : Backend β) (h : Heap β) (start size : Nat) (hpos : 1 ≤ size)
    (hsmall : size < Size.bound) :
    (∀ total, Header.plainSize (width b) size = some total → start + total ≤ Word.limit →
      ∃ block m, stamp b start size h = .ok block ⟨m, h.state⟩ ∧
        block.ptr = start + width b ∧ Decodes b start total ⟨size, 0⟩ m block) ∧
    (∀ align total, align.isPowerOfTwo →
      Header.alignedSize (width b) size align = some total → start + total ≤ Word.limit →
      ∃ block m, stampAligned b start size align h = .ok block ⟨m, h.state⟩ ∧
        FirstFit (width b) start total size align block.ptr ∧
        Decodes b start total ⟨size, align⟩ m block) := by
  constructor
  · intro total htotal hfits
    exact stamp_decodes h hpos hsmall htotal hfits
  · intro align total hpow htotal hfits
    exact stampAligned_decodes h hpos hsmall hpow htotal hfits

/-- Over memory full of ones, in the last bytes of the address space. -/
theorem stamps_decode_last_bytes :
    let b := (Arena.full {}).toBackend
    let h : Heap Arena := ⟨.filled 0xFF, {}⟩
    ∃ block m, stampAligned b (Word.limit - 98) 10 64 h = .ok block ⟨m, h.state⟩ ∧
      block.ptr = Word.limit - 64 ∧ Decodes b (Word.limit - 98) 98 ⟨10, 64⟩ m block := by
  have hboth := stamps_decode (Arena.full {}).toBackend ⟨.filled 0xFF, {}⟩ (Word.limit - 98) 10
    (by decide) (by decide)
  obtain ⟨block, m, hrun, hfirst, hdecodes⟩ := hboth.2 64 98 ⟨6, rfl⟩ (by decide) (by decide)
  refine ⟨block, m, hrun, ?_, hdecodes⟩
  have hdvd := hfirst.aligned
  have hroom := hfirst.room
  have hfits := hfirst.fits
  have hlimit : Word.limit = 2 ^ 64 := rfl
  have hwords : width (Arena.full {}).toBackend + Word.bytes = 24 := rfl
  omega

end HeapLedger.Strategy.Headered
