import HeapLedger.Proofs.Ends
import HeapLedger.Proofs.Survey

/-!
# `HeapLedger/Proofs/Backend/Contract.lean` — what a backend owes

A backend keeps its contract if there is a survey of its heaps that every operation respects: an
answered request brings a block of at least that many bytes at an address where nothing was live, a
refused one changes nothing, a block that is given back goes, and no operation touches any other
block. Nothing is said about where blocks are placed, about what a new block holds, or about what a
resize does to the content of the block that it resizes.

In return a backend may rely on being asked properly: for a positive number of bytes that fits a
word, about blocks that are live, and with sizes that are due. Which size is due when a block is
given back is a parameter. `Lease.Admits` is the most that a backend may rely on, a size between
what was asked for and what there is; a contract under it also holds under any narrower rule
(`Backend.Contract.narrow`).

Five virtues are not part of the contract, and where they are needed they are asked for: that
blocks for a requested alignment have it (`Backend.Contract.Honours`), that blocks of enough bytes
have the backend's own alignment (`Backend.Contract.Aligns`), that a resize keeps content
(`Backend.Contract.Preserves`), that zeroed memory is zero (`Backend.Contract.Zeroes`), and that
memory outside all blocks is left alone (`Backend.Contract.Avoids`).
-/

set_option autoImplicit false

namespace HeapLedger

variable {β : Type}

/-- A size between what was asked for and what there is. -/
def Lease.Admits (l : Lease) (n : Nat) : Prop :=
  l.asked ≤ n ∧ n ≤ l.bytes

/-- A survey of the backend's heaps that all operations respect, where `due` says with which size a
block may be given back. -/
structure Backend.Contract (b : Backend β) (due : Lease → Nat → Prop) extends Survey β where
  alloc : ∀ {h n}, valid h → 0 < n → n < Word.limit →
    Returns (b.alloc n) h (toSurvey.Served none n h)
  allocZeroed : ∀ {h n}, valid h → 0 < n → n < Word.limit →
    Returns (b.allocZeroed n) h (toSurvey.Served none n h)
  allocAligned : ∀ {h n align}, valid h → 0 < n → n < Word.limit → align.isPowerOfTwo →
    b.maxAlign < align → Returns (b.allocAligned n align) h (toSurvey.Served none n h)
  realloc : ∀ {h p l n}, valid h → live h p = some l → 0 < n → n < Word.limit →
    Returns (b.realloc p n) h (toSurvey.Served (some p) n h)
  freeSized : ∀ {h p l n}, valid h → live h p = some l → due l n →
    Returns (b.freeSized p n) h fun _ => toSurvey.Trade (some p) none h
  setBackgroundThread : ∀ {h} enable, valid h →
    Returns (b.setBackgroundThread enable) h fun _ => toSurvey.Trade none none h
  purge : ∀ {h}, valid h → Returns b.purge h fun _ => toSurvey.Trade none none h

/-- A contract whose survey knows the sizes that the backend reports. -/
structure SizedBackend.Contract (b : SizedBackend β) (due : Lease → Nat → Prop) extends
    Backend.Contract b.toBackend due where
  blockSize : ∀ {h p l}, valid h → live h p = some l → b.blockSize p h = .ok l.bytes

/-- Zeroing what plain allocation brings is as good as allocating zeroed memory. -/
theorem Survey.zeroed_ends {v : Survey β} {alloc : Nat → HeapOp β (Option Nat)} {h : Heap β}
    {n : Nat} (halloc : Returns (alloc n) h (v.Served none n h)) :
    Returns (HeapOp.zeroed alloc n) h (v.Served none n h) := by
  unfold HeapOp.zeroed
  rw [Returns, ends_bind]
  refine halloc.imp fun r h₁ hserved => ?_
  cases r with
  | none => exact ends_pure.2 hserved
  | some q =>
    obtain ⟨bytes, t⟩ := hserved
    simp only
    rw [ends_bind, ends_mapMemory, ends_pure]
    have hfits := v.fits t.valid t.live_came
    refine ⟨bytes, t.write fun a ha => ?_⟩
    have hchanged := Memory.changed_fill ha
    simp only at hfits ⊢
    omega

/-- The pointer is that of the plain block. -/
theorem HeapOp.zeroed_keeps {alloc : Nat → HeapOp β (Option Nat)} {P : Nat → Prop} {h : Heap β}
    {n : Nat} (halloc : Returns (alloc n) h fun r _ => ∀ q ∈ r, P q) :
    Returns (HeapOp.zeroed alloc n) h fun r _ => ∀ q ∈ r, P q := by
  unfold HeapOp.zeroed
  rw [Returns, ends_bind]
  apply halloc.imp
  intro r h₁ hr
  cases r with
  | none => exact ends_pure.2 hr
  | some q =>
    simp only
    rw [ends_bind, ends_mapMemory, ends_pure]
    exact hr

namespace Backend.Contract

variable {b : Backend β} {due due' : Lease → Nat → Prop}

/-- Blocks for a requested alignment have it. -/
def Honours (c : b.Contract due) : Prop :=
  ∀ h n align q h', c.valid h → 0 < n → n < Word.limit → align.isPowerOfTwo →
    b.maxAlign < align → b.allocAligned n align h = .ok (some q) h' → q % align = 0

/-- Blocks of at least as many bytes as the backend's alignment have that alignment. -/
structure Aligns (c : b.Contract due) : Prop where
  alloc : ∀ {h n}, c.valid h → b.maxAlign ≤ n → 0 < n → n < Word.limit →
    Returns (b.alloc n) h fun r _ => ∀ q ∈ r, b.maxAlign ∣ q
  allocZeroed : ∀ {h n}, c.valid h → b.maxAlign ≤ n → 0 < n → n < Word.limit →
    Returns (b.allocZeroed n) h fun r _ => ∀ q ∈ r, b.maxAlign ∣ q
  realloc : ∀ {h p l n}, c.valid h → c.live h p = some l → b.maxAlign ≤ n → 0 < n →
    n < Word.limit → Returns (b.realloc p n) h fun r _ => ∀ q ∈ r, b.maxAlign ∣ q

/-- A resize keeps content as far as the block reached and reaches, where `reach` says how far that
was. -/
def Preserves (c : b.Contract due) (reach : Lease → Nat) : Prop :=
  ∀ ⦃h p l n⦄, c.valid h → c.live h p = some l → 0 < n → n < Word.limit →
    Returns (b.realloc p n) h fun r h' =>
      ∀ q ∈ r, Memory.Carried p q (min (reach l) n) h.memory h'.memory

/-- The bytes of zeroed memory are zero, as many as were asked for. -/
def Zeroes (c : b.Contract due) : Prop :=
  ∀ ⦃h n⦄, c.valid h → 0 < n → n < Word.limit →
    Returns (b.allocZeroed n) h fun r h' => ∀ q ∈ r, ∀ i < n, h'.memory.byte (q + i) = 0

/-- Whatever plain memory the backend is asked for in this heap, it misses the `len` bytes at
`start`. -/
def Avoids (c : b.Contract due) (h : Heap β) (start len : Nat) : Prop :=
  ∀ ⦃n r h'⦄, 0 < n → n < Word.limit → b.alloc n h = .ok r h' → c.Misses start len h h'

/-- What keeps a whole block keeps what was asked for. -/
theorem Preserves.asked {c : b.Contract due} (hc : c.Preserves Lease.bytes) :
    c.Preserves Lease.asked := by
  intro h p l n hv hl hn hlim
  have hle := (c.fits hv hl).2.1
  apply (hc hv hl hn hlim).imp
  intro r h' hcarried q hq
  exact (hcarried q hq).narrow (by omega)

theorem Avoids.ends {c : b.Contract due} {h : Heap β} {start len n : Nat}
    (havoids : c.Avoids h start len) (hv : c.valid h) (hn : 0 < n) (hlim : n < Word.limit) :
    Returns (b.alloc n) h fun r h' => c.Served none n h r h' ∧ c.Misses start len h h' :=
  (c.alloc hv hn hlim).also (ends_of_run fun _ _ => havoids hn hlim)

/-- What lies inside a live block is avoided in any case. -/
theorem avoids_of_live (c : b.Contract due) {h : Heap β} {start len p : Nat} {l : Lease}
    (hv : c.valid h) (hl : c.live h p = some l) (hlo : p ≤ start)
    (hhi : start + len ≤ p + l.bytes) : c.Avoids h start len := by
  intro n r h' hn hlim hrun
  have hserved : c.Served none n h r h' := (c.alloc hv hn hlim).of_ok hrun
  cases r with
  | none => exact Survey.Trade.misses hserved hl hlo hhi
  | some q =>
    obtain ⟨bytes, t⟩ := hserved
    exact t.misses hl hlo hhi

/-- The same promises, relied upon less. -/
def narrow (c : b.Contract due) (hdue : ∀ l n, l.asked ≤ l.bytes → due' l n → due l n) :
    b.Contract due' where
  toSurvey := c.toSurvey
  alloc := c.alloc
  allocZeroed := c.allocZeroed
  allocAligned := c.allocAligned
  realloc := c.realloc
  freeSized := fun hv hl hn => c.freeSized hv hl (hdue _ _ (c.fits hv hl).2.1 hn)
  setBackgroundThread := c.setBackgroundThread
  purge := c.purge

end Backend.Contract

/-- The same promises, relied upon less, with the sizes that the backend reports. -/
def SizedBackend.Contract.narrow {b : SizedBackend β} {due due' : Lease → Nat → Prop}
    (c : b.Contract due) (hdue : ∀ l n, l.asked ≤ l.bytes → due' l n → due l n) :
    b.Contract due' where
  toContract := c.toContract.narrow hdue
  blockSize := c.blockSize

end HeapLedger
