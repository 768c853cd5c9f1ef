import HeapLedger.Ledger.Layouts
import HeapLedger.Proofs.Ledger.Alloc

/-!
# `HeapLedger/Proofs/Ledger/Layouts.lean` — what memory by layout posts

The layout forms know one failure, the absence of a pointer, and it always means that nothing was
posted. For a resize this is the point: it goes through operations that give a block up for a size
they refuse, and must not get there. `layoutRealloc_ends` says that it does not, since the padded
size has been tested before.
-/

set_option autoImplicit false

namespace HeapLedger.Ledger

variable {β : Type} {s : Strategy β} {k : s.Contract} {hs : Holdings} {l : Ledger β}
  {ptr : Option Nat} {layout : Layout} {size : Nat}

/-- How a request for `size` bytes ends that gives up `gone`, if any. Without a pointer nothing has
happened. -/
def Offered (k : Custody β) (hs : Holdings) (gone : Option Nat) (size : Nat) (l : Ledger β) :
    Option Nat → Ledger β → Prop
  | some q, l' => ∃ e, Posts k hs gone (some (q, e)) l l' ∧ size ≤ e.usable
  | none, l' => Posts k hs none none l l'

theorem Given.offered {k : Custody β} {r : Except AllocError Nat} {l' : Ledger β}
    (h : Given k hs size l r l') : Offered k hs none size l r.toOption l' := by
  cases r with
  | error e => exact h
  | ok q => exact h

theorem pointer?_ends {attempt : LedgerOp β (Except AllocError Nat)}
    {stop : Halt → Ledger β → Prop} (h : Ends attempt l (Given k.toCustody hs size l) stop) :
    Ends (pointer? attempt) l (Offered k.toCustody hs none size l) stop := by
  unfold pointer?
  rw [ends_bind]
  refine h.mono fun r l' hr => ?_
  cases r with
  | ok q => exact ends_pure.2 hr.offered
  | error e => exact ends_pure.2 hr.offered

theorem layoutAlloc_ends (hl : Sound k.toCustody hs l) :
    Ends (layoutAlloc s layout) l (Offered k.toCustody hs none layout.size l) (Astray k l) :=
  pointer?_ends (tryAllocAligned_ends hl)

theorem layoutAllocZeroed_ends (hl : Sound k.toCustody hs l) :
    Ends (layoutAllocZeroed s layout) l (Offered k.toCustody hs none layout.size l)
      (Astray k l) := by
  unfold layoutAllocZeroed
  cases hplain : layout.plainSize s.maxAlign with
  | some n =>
    refine (pointer?_ends (tryAllocZeroed_ends hl)).imp (fun r l' hr => ?_) fun _ _ => False.elim
    cases r with
    | none => exact hr
    | some q =>
      obtain ⟨e, hpost, hn⟩ := hr
      exact ⟨e, hpost, Nat.le_trans (Layout.le_plainSize hplain).1 hn⟩
  | none =>
    simp only
    rw [ends_bind]
    refine (layoutAlloc_ends hl).mono fun r l' hr => ?_
    cases r with
    | none => exact ends_pure.2 hr
    | some q =>
      obtain ⟨e, hpost, hsize⟩ := hr
      simp only
      rw [ends_bind, ends_onHeap, ends_mapMemory, ends_pure]
      refine ⟨e, hpost.write fun a ha => ?_, hsize⟩
      have hchanged := Memory.changed_fill ha
      omega

theorem layoutFree_ends (hl : Sound k.toCustody hs l) (hptr : ∀ p ∈ ptr, (hs p).isSome) :
    Returns (layoutFree s ptr layout) l fun _ => Posts k.toCustody hs ptr none l :=
  free_ends hl hptr

/-- What a move hands out holds what the layout of the old block reached to, as far as the new size
reaches. -/
def Refilled (hs : Holdings) (ptr : Option Nat) (old size : Nat) (l : Ledger β) (r : Option Nat)
    (l' : Ledger β) : Prop :=
  ∀ p ∈ ptr, ∀ d, hs p = some d → old ≤ d.usable →
    ∀ q ∈ r, Memory.Carried p q (min old size) l.heap.memory l'.heap.memory

/-- The new block is had before the old one is given up, so there is nothing to undo. -/
theorem layoutMove_ends (hl : Sound k.toCustody hs l) (hptr : ∀ p ∈ ptr, (hs p).isSome) :
    Ends (layoutMove s ptr layout size) l
      (fun r l' => Offered k.toCustody hs ptr size l r l' ∧ Refilled hs ptr layout.size size l r l')
      (Astray k l) := by
  unfold layoutMove
  rw [ends_bind]
  refine (pointer?_ends (tryAllocAligned_ends hl)).mono fun r l₁ hr => ?_
  cases r with
  | none =>
    refine ends_pure.2 ⟨hr, ?_⟩
    intro p _ d _ _ q hq
    cases hq
  | some q =>
    obtain ⟨e, hpost, hsize⟩ := hr
    have hcopy := hpost.write
      (m := l₁.heap.memory.copy q (ptr.getD 0) (min layout.size size)) fun a ha => by
        have hchanged := Memory.changed_copy ha
        omega
    simp only
    rw [ends_bind, ends_onHeap, ends_mapMemory, ends_bind]
    cases ptr with
    | none =>
      refine ends_pure.2 (ends_pure.2 ⟨⟨e, hcopy, hsize⟩, ?_⟩)
      intro p hp
      cases hp
    | some p =>
      obtain ⟨d, hp⟩ := Option.isSome_iff_exists.1 (hptr p rfl)
      -- The old pointer is out until it is freed, and until then there are both.
      have hnew : ∀ x ∈ some p, (exchange hs none (some (q, e)) x).isSome := by
        intro x hx
        cases hx
        rw [hcopy.deal.old hp]
        rfl
      refine (free_ends hcopy.sound hnew).imp fun _ l₂ hfree => ends_pure.2 ⟨⟨e, ?_, hsize⟩, ?_⟩
      · exact hcopy.move hl hp hfree
      · intro x hx d' hd' hold y hy
        cases hx
        cases hy
        obtain rfl : d = d' := Option.some.inj (hp.symm.trans hd')
        have hlen : min layout.size size ≤ e.usable := Nat.le_trans (Nat.min_le_right _ _) hsize
        have hlen' : min layout.size size ≤ d.usable := Nat.le_trans (Nat.min_le_left _ _) hold
        exact Custody.Deal.carried hl.holds hp hpost.deal hlen' hlen hfree.deal

theorem layoutRealloc_ends (hl : Sound k.toCustody hs l) (hptr : ∀ p ∈ ptr, (hs p).isSome) :
    Ends (layoutRealloc s ptr layout size) l (Offered k.toCustody hs ptr size l)
      (Astray k l) := by
  unfold layoutRealloc
  cases hnew : Layout.of? size layout.align with
  | none => exact ends_pure.2 (Posts.refl hl)
  | some new =>
    obtain ⟨rfl, -⟩ := Layout.of?_eq_some hnew
    cases hplain : new.plainSize s.maxAlign with
    | none =>
      simp only [hplain]
      exact (layoutMove_ends hl hptr).mono fun _ _ => And.left
    | some plain =>
      obtain ⟨hle, hpos⟩ := Layout.le_plainSize hplain
      simp only [hplain]
      by_cases hlarge : Size.tooLarge plain = true
      · rw [if_pos hlarge]
        exact ends_pure.2 (Posts.refl hl)
      rw [if_neg hlarge, ends_bind]
      refine (tryRealloc_ends hl hptr).imp fun r l' hresettled => ?_
      obtain ⟨block, rfl, hblock⟩ := hresettled
      cases block with
      | error e =>
        -- The size was not refused, so it was the backend that did, and nothing was given up.
        have hpost := hblock.1
        rw [if_neg hlarge] at hpost
        exact ends_pure.2 hpost
      | ok block =>
        obtain ⟨came, hcame, hpost, hnone, hsome⟩ := hblock
        cases came with
        -- No pointer comes back only for a size of zero, and padded sizes are never zero.
        | none => exact absurd (hnone rfl) (Nat.ne_of_gt hpos)
        | some c =>
          refine ends_pure.2 ?_
          rw [← hcame]
          exact ⟨c.2, hpost, Nat.le_trans hle (hsome c rfl).2⟩

/-- What the layout reached to is kept wherever the new block lies. -/
theorem layoutRealloc_carries (hk : k.Preserves) (hl : Sound k.toCustody hs l)
    (hptr : ∀ p ∈ ptr, (hs p).isSome) :
    Ends (layoutRealloc s ptr layout size) l (Refilled hs ptr layout.size size l)
      fun _ _ => True := by
  have hnone : ∀ l', Refilled hs ptr layout.size size l none l' := by
    intro l' p _ d _ _ q hq
    cases hq
  unfold layoutRealloc
  cases hnew : Layout.of? size layout.align with
  | none => exact ends_pure.2 (hnone l)
  | some new =>
    obtain ⟨rfl, -⟩ := Layout.of?_eq_some hnew
    cases hplain : new.plainSize s.maxAlign with
    | none =>
      simp only [hplain]
      exact (layoutMove_ends hl hptr).imp (fun _ _ => And.right) fun _ _ _ => trivial
    | some plain =>
      obtain ⟨hle, hpos⟩ := Layout.le_plainSize hplain
      simp only [hplain]
      by_cases hlarge : Size.tooLarge plain = true
      · rw [if_pos hlarge]
        exact ends_pure.2 (hnone l)
      rw [if_neg hlarge, ends_bind]
      unfold tryRealloc
      rw [ends_map]
      cases ptr with
      | none =>
        refine (tryReallocUsable_none_ends hl).imp fun r l' _ => ?_
        cases r with
        | error e => exact ends_pure.2 (hnone l')
        | ok b =>
          apply ends_pure.2
          intro p hp
          cases hp
      | some p =>
        obtain ⟨d, hp⟩ := Option.isSome_iff_exists.1 (hptr p rfl)
        apply (tryReallocUsable_carries hk hl hp (Nat.ne_of_gt hpos) hlarge).imp
        intro r l' hcarried
        cases r with
        | error e => exact ends_pure.2 (hnone l')
        | ok b =>
          apply ends_pure.2
          intro x hx d' hd' hold q hq
          cases hx
          obtain rfl : d = d' := Option.some.inj (hp.symm.trans hd')
          -- The plain size is at least the new size, so more is kept than has to be.
          exact (hcarried b rfl q hq).narrow (by omega)

end HeapLedger.Ledger
