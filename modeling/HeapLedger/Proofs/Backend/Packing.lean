import HeapLedger.Proofs.Backend.Arena

/-!
# `HeapLedger/Proofs/Backend/Packing.lean` — an arena that packs small blocks

A backend names an alignment for blocks of at least that many bytes, and is free to do as it likes
with smaller ones. A packing arena takes that freedom: a block that is too small for the alignment
is put at the next multiple of a word. It keeps the contract of a backend, alignment included
(`packingContract_aligns`), and shows who relies on more than that.
-/

set_option autoImplicit false

namespace HeapLedger.Arena

variable {align : Nat}

/-- How a packing arena places a block of `n` bytes. -/
def packed (align n : Nat) : Config where
  limit := span
  maxAlign := if n < align then Word.bytes else align
  alwaysMove := true

def packing (align : Nat) : SizedBackend Arena where
  label := "Packing"
  maxAlign := align
  alloc := fun n => alloc (packed align n) n
  realloc := fun p n => realloc (packed align n) p n
  free := free
  blockSize := blockSize (packed align align)

theorem honest_packed (halign : 0 < align) (n : Nat) : (packed align n).Honest where
  quantum := Nat.le_refl 1
  maxAlign := by
    show 0 < if n < align then Word.bytes else align
    split
    · decide
    · exact halign
  limit := Nat.le_refl span
  misalign := rfl
  understate := rfl
  huge := rfl

/-- What a packing arena does not do its own way it does as a basic one. -/
def packingContract (halign : 0 < align) : (packing align).Contract Lease.Admits :=
  let plain := basicContract (honest_packed halign align)
  { toSurvey := survey
    alloc := alloc_ends (honest_packed halign _)
    allocZeroed := fun hv hn hlim =>
      survey.zeroed_ends (alloc_ends (honest_packed halign _) hv hn hlim)
    allocAligned := fun hv _ _ _ _ => ends_pure.2 (.refl hv)
    realloc := fun hv hl hn hlim =>
      (realloc_ends (honest_packed halign _) hv (find?_eq hl) hn hlim).imp fun _ _ =>
        Resettled.served
    freeSized := plain.freeSized
    setBackgroundThread := plain.setBackgroundThread
    purge := plain.purge
    blockSize := plain.blockSize }

/-- Blocks of enough bytes are aligned. -/
theorem packingContract_aligns (hpow : align.isPowerOfTwo) (hspan : align ≤ span) :
    (packingContract (Nat.pos_of_isPowerOfTwo hpow)).Aligns := by
  have halign := Nat.pos_of_isPowerOfTwo hpow
  have hlarge : ∀ n, align ≤ n → (packed align n).maxAlign = align := fun n hn =>
    if_neg (Nat.not_lt_of_le hn)
  have halloc : ∀ {h : Heap Arena} {n : Nat}, survey.valid h → align ≤ n → 0 < n →
      n < Word.limit → Returns (alloc (packed align n) n) h fun r _ => ∀ q ∈ r, align ∣ q := by
    intro h n hv hle hn hlim
    have hlands := alloc_lands (honest_packed halign n) hv hn hlim
    rw [hlarge n hle] at hlands
    exact hlands.imp fun _ _ hr => hr.dvd hpow hspan
  refine ⟨halloc, ?_, ?_⟩
  · intro h n hv hle hn hlim
    exact HeapOp.zeroed_keeps (halloc hv hle hn hlim)
  · intro h p l n hv hl hle hn hlim
    have hresettles := realloc_ends (honest_packed halign n) hv (find?_eq hl) hn hlim
    apply hresettles.imp
    intro r h' hr
    have hdvd := hr.dvd (by rw [hlarge n hle]; exact hpow) (by rw [hlarge n hle]; exact hspan) rfl
    rw [hlarge n hle] at hdvd
    exact hdvd

end HeapLedger.Arena
