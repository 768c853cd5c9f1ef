import HeapLedger.Proofs.Strategy.Adapter

/-!
# `HeapLedger/Proofs/Strategy/Zeros.lean` — zeros that stay zeros

Zeroed memory comes from a backend that sees to it itself, or from the default: a plain block,
filled with zeros as far as was asked. Either will do (`Adapter.Zeroes`). A native strategy hands
the block on as it is. A headered one asks for more zeros than its caller wants and writes a header
over the first of them, so what the caller sees are the zeros after the header.
-/

set_option autoImplicit false

namespace HeapLedger

variable {β : Type}

/-- A block that is filled with zeros holds zeros, whatever it held before. -/
theorem HeapOp.zeroed_zeroes {alloc : Nat → HeapOp β (Option Nat)} {h : Heap β} {n : Nat}
    (halloc : Returns (alloc n) h fun _ _ => True) :
    Returns (HeapOp.zeroed alloc n) h fun r h' => ∀ q ∈ r, ∀ i < n, h'.memory.byte (q + i) = 0 := by
  unfold HeapOp.zeroed
  rw [Returns, ends_bind]
  apply halloc.imp
  intro r h₁ _
  cases r with
  | none => exact ends_pure.2 forall_mem_none
  | some q =>
    simp only
    rw [ends_bind, ends_mapMemory, ends_pure]
    rintro _ ⟨⟩ i hi
    rw [Memory.byte_fill, if_pos ⟨by omega, by omega⟩]

/-- The default is a way to zero memory. -/
theorem Backend.Contract.zeroes_of_default {b : Backend β} {due : Lease → Nat → Prop}
    (c : b.Contract due) (hdefault : b.allocZeroed = HeapOp.zeroed b.alloc) : c.Zeroes := by
  intro h n hv hn hlim
  rw [hdefault]
  apply HeapOp.zeroed_zeroes
  exact (c.alloc hv hn hlim).imp fun _ _ _ => trivial

namespace Strategy

variable {due : Lease → Nat → Prop} {h : Heap β} {n : Nat}

theorem Native.allocZeroed_zeroes {b : SizedBackend β} {c : b.Contract due} (hzeroes : c.Zeroes)
    (hv : c.valid h) (hn : 0 < n) (hlim : n < Word.limit) :
    Returns ((native b).allocZeroed n) h fun r h' =>
      ∀ block ∈ r, ∀ i < n, h'.memory.byte (block.ptr + i) = 0 := by
  show Returns (b.allocZeroed n >>= _) h _
  rw [Returns, ends_bind]
  apply ((c.allocZeroed hv hn hlim).and (hzeroes hv hn hlim)).imp
  intro r h' hr
  obtain ⟨hserved, hzero⟩ := hr
  cases r with
  | none => exact ends_pure.2 forall_mem_none
  | some ptr =>
    obtain ⟨bytes, t⟩ := hserved
    rw [ends_map]
    apply sizedBlock_ends t.valid t.live_came
    rintro _ ⟨⟩
    exact hzero ptr rfl

/-- Zeros behind a header are zeros, as the stamp stays in front of them. -/
theorem Headered.allocZeroed_zeroes {b : Backend β} {c : b.Contract due} (hzeroes : c.Zeroes)
    (hv : c.valid h) (hn : 0 < n) :
    Returns (allocBy b b.allocZeroed n) h fun r h' =>
      ∀ block ∈ r, ∀ i < n, h'.memory.byte (block.ptr + i) = 0 := by
  unfold allocBy
  cases hsize : Header.plainSize (width b) n with
  | none => exact ends_pure.2 forall_mem_none
  | some total =>
    obtain ⟨hlim, rfl⟩ := Header.plainSize_eq_some.1 hsize
    rw [Returns, ends_bind]
    apply (hzeroes hv (by omega) hlim).imp
    intro r h₁ hzero
    cases r with
    | none => exact ends_pure.2 forall_mem_none
    | some raw =>
      rw [ends_map]
      apply (stamp_keeps n hlim).imp
      rintro block h₂ ⟨hptr, hkept⟩ _ ⟨⟩ i hi
      rw [hptr, hkept (raw + width b + i) (by omega) (by omega), Nat.add_assoc]
      exact hzero raw rfl (width b + i) (by omega)

theorem nativeContract_zeroes {b : SizedBackend β} {c : b.Contract due}
    (hwhole : ∀ l, l.asked ≤ l.bytes → due l l.bytes) (hzeroes : c.Zeroes) :
    (nativeContract c hwhole).Zeroes :=
  fun _ _ hv hn hlt =>
    Native.allocZeroed_zeroes hzeroes hv hn (Nat.lt_of_lt_of_le hlt bound_le_limit)

theorem headeredContract_zeroes {b : Backend β} {c : b.Contract due}
    (hexact : ∀ l, l.asked ≤ l.bytes → due l l.asked) (hzeroes : c.Zeroes) :
    (headeredContract c hexact).Zeroes :=
  fun _ _ hv hn _ => Headered.allocZeroed_zeroes hzeroes hv hn

end Strategy

namespace Adapter

/-- The backend zeroes memory itself, or leaves it to the default. -/
def Zeroes : Adapter β → Prop
  | native b c => c.Zeroes ∨ b.allocZeroed = HeapOp.zeroed b.alloc
  | headered b c => c.Zeroes ∨ b.allocZeroed = HeapOp.zeroed b.alloc

theorem contract_zeroes {a : Adapter β} (ha : a.Zeroes) : a.contract.Zeroes := by
  cases a with
  | native b c =>
    have hzeroes : c.Zeroes := ha.elim id c.zeroes_of_default
    exact Strategy.nativeContract_zeroes (fun _ => Lease.admits_bytes) hzeroes
  | headered b c =>
    have hzeroes : c.Zeroes := ha.elim id c.zeroes_of_default
    exact Strategy.headeredContract_zeroes (fun _ => Lease.admits_asked) hzeroes

end Adapter

end HeapLedger
