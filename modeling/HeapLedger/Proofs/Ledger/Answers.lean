import HeapLedger.Proofs.Ledger.Layouts

/-!
# `HeapLedger/Proofs/Ledger/Answers.lean` — the ledger passes on what it is answered

Between a call for memory by layout and the answer of the strategy nothing gets lost and nothing is
made up: a pointer that comes back is the pointer of the strategy's block, and without a block there
is none. So whatever is known of the strategy's answer (`P`, of a pointer or its absence) is known
of the call's. The strategy is asked unless a size rule refuses the layout (`Layout.Passes`).
-/

set_option autoImplicit false

namespace HeapLedger

variable {β : Type}

/-- The size rules let a request for this layout through. -/
def Layout.Passes (maxAlign : Nat) (l : Layout) : Prop :=
  Size.tooLarge ((l.plainSize maxAlign).getD l.size) = false

/-- A layout whose plain size is refused does not get through. -/
theorem Layout.not_passes {maxAlign n : Nat} {l : Layout} (hplain : l.plainSize maxAlign = some n)
    (hlarge : Size.tooLarge n = true) : ¬ l.Passes maxAlign := by
  intro hpasses
  unfold Passes at hpasses
  rw [hplain, Option.getD_some, hlarge] at hpasses
  cases hpasses

/-- What a strategy is asked on behalf of a layout, where `plain` is how it is asked for a block of
no more than its own alignment. -/
def Strategy.take (s : Strategy β) (plain : Nat → HeapOp β (Option Block)) (l : Layout) :
    HeapOp β (Option Block) :=
  match l.plainSize s.maxAlign with
  | some size => plain size
  | none => s.allocAligned (Size.clamp l.size) l.align

namespace Ledger

variable {s : Strategy β} {l : Ledger β} {size align : Nat} {ptr : Option Nat}
  {layout new : Layout} {P : Option Nat → Prop}

theorem toOption_map {ε α γ : Type} (f : α → γ) (r : Except ε α) :
    (r.map f).toOption = r.toOption.map f := by
  cases r with
  | error e => rfl
  | ok a => rfl

theorem toOption_mapError {ε ε' α : Type} (f : ε → ε') (r : Except ε α) :
    (r.mapError f).toOption = r.toOption := by
  cases r with
  | error e => rfl
  | ok a => rfl

/-! ## Allocating -/

theorem tryTake_answers {take : Nat → HeapOp β (Option Block)}
    (hblocked : Size.tooLarge size = true → P none)
    (htake : Size.tooLarge size = false →
      Returns (take (Size.clamp size)) l.heap fun r _ => P (r.map Block.ptr)) :
    Returns (tryTake take size) l fun r _ => P (r.toOption.map Prod.fst) := by
  unfold tryTake
  cases hlarge : Size.tooLarge size with
  | true =>
    have hreq : Size.request size = .error (.excessive size) := if_pos hlarge
    rw [hreq]
    exact ends_pure.2 (hblocked hlarge)
  | false =>
    have hreq : Size.request size = .ok (Size.clamp size) :=
      if_neg fun h => Bool.false_ne_true (hlarge.symm.trans h)
    rw [hreq]
    simp only
    rw [Returns, ends_bind, ends_onHeap]
    apply (htake hlarge).imp
    intro r heap hr
    apply settle_keeps
    · rintro rfl
      exact hr
    · rintro x rfl l' _
      exact hr

/-- A size that is not zero is asked for as it is. -/
theorem clamp_of_pos {n : Nat} (hn : 0 < n) : Size.clamp n = n :=
  if_neg (Nat.ne_of_gt hn)

/-- A request that the size rules let through reaches the strategy as it is, and else not at all. -/
theorem tryTake_plain_answers {plain : Nat → HeapOp β (Option Block)} {n : Nat}
    (hplain : layout.plainSize s.maxAlign = some n)
    (hblocked : ¬ layout.Passes s.maxAlign → P none)
    (htake : layout.Passes s.maxAlign →
      Returns (s.take plain layout) l.heap fun r _ => P (r.map Block.ptr)) :
    Returns (tryTake plain n) l fun r _ => P (r.toOption.map Prod.fst) := by
  apply tryTake_answers
  · intro hlarge
    exact hblocked (Layout.not_passes hplain hlarge)
  · unfold Layout.Passes Strategy.take at htake
    simp only [hplain, Option.getD_some] at htake
    rw [clamp_of_pos (Layout.le_plainSize hplain).2]
    exact htake

theorem tryAllocAligned_answers (hlayout : Layout.of? size align = some layout)
    (hblocked : ¬ layout.Passes s.maxAlign → P none)
    (htake : layout.Passes s.maxAlign →
      Returns (s.take s.alloc layout) l.heap fun r _ => P (r.map Block.ptr)) :
    Returns (tryAllocAligned s size align) l fun r _ => P r.toOption := by
  obtain ⟨rfl, rfl⟩ := Layout.of?_eq_some hlayout
  unfold tryAllocAligned
  rw [hlayout]
  cases hplain : layout.plainSize s.maxAlign with
  | some n =>
    simp only [hplain]
    unfold tryAlloc tryAllocUsable
    rw [Returns, ends_map, ends_map]
    apply (tryTake_plain_answers hplain hblocked htake).imp
    intro r l' hr
    rw [toOption_mapError, toOption_map]
    exact hr
  | none =>
    unfold Layout.Passes Strategy.take at *
    simp only [hplain, Option.getD_none] at hblocked htake ⊢
    rw [Returns, ends_map]
    apply (tryTake_answers (P := P) (fun hlarge => hblocked (by simp [hlarge])) htake).imp
    intro r l' hr
    rw [toOption_map]
    exact hr

theorem pointer?_answers {attempt : LedgerOp β (Except AllocError Nat)}
    (h : Returns attempt l fun r _ => P r.toOption) :
    Returns (pointer? attempt) l fun r _ => P r := by
  unfold pointer?
  rw [Returns, ends_bind]
  apply h.imp
  intro r l' hr
  cases r with
  | error e => exact ends_pure.2 hr
  | ok q => exact ends_pure.2 hr

theorem layoutAlloc_answers (hblocked : ¬ layout.Passes s.maxAlign → P none)
    (htake : layout.Passes s.maxAlign →
      Returns (s.take s.alloc layout) l.heap fun r _ => P (r.map Block.ptr)) :
    Returns (layoutAlloc s layout) l fun r _ => P r :=
  pointer?_answers (tryAllocAligned_answers layout.of?_self hblocked htake)

theorem layoutAllocZeroed_answers (hblocked : ¬ layout.Passes s.maxAlign → P none)
    (htake : layout.Passes s.maxAlign →
      Returns (s.take s.allocZeroed layout) l.heap fun r _ => P (r.map Block.ptr)) :
    Returns (layoutAllocZeroed s layout) l fun r _ => P r := by
  unfold layoutAllocZeroed
  cases hplain : layout.plainSize s.maxAlign with
  | some n =>
    apply pointer?_answers
    unfold tryAllocZeroed tryAllocZeroedUsable
    rw [Returns, ends_map]
    apply (tryTake_plain_answers hplain hblocked htake).imp
    intro r l' hr
    rw [toOption_map]
    exact hr
  | none =>
    have hsame : s.take s.allocZeroed layout = s.take s.alloc layout := by
      unfold Strategy.take
      rw [hplain]
    rw [hsame] at htake
    simp only
    rw [Returns, ends_bind]
    apply (layoutAlloc_answers hblocked htake).imp
    intro r l' hr
    cases r with
    | none => exact ends_pure.2 hr
    | some q =>
      simp only
      rw [ends_bind, ends_onHeap, ends_mapMemory]
      exact ends_pure.2 hr

/-! ## Resizing -/

theorem tryReallocUsable_answers {p : Nat} (hzero : size ≠ 0)
    (hsmall : ¬ Size.tooLarge size = true)
    (hresize : Returns (s.realloc p size) l.heap fun r _ => P (r.map fun x => x.block.ptr)) :
    Returns (tryReallocUsable s (some p) size) l fun r _ => P (r.toOption.bind Prod.fst) := by
  rw [Returns, tryReallocUsable_passed hzero hsmall, ends_bind, ends_onHeap]
  apply hresize.imp
  intro r heap hr
  cases r with
  | none => exact ends_pure.2 hr
  | some resized =>
    simp only
    rw [ends_bind]
    apply count_keeps
    intro l₁ _
    rw [ends_bind]
    apply count_keeps
    intro l₂ _
    exact ends_pure.2 hr

/-- A resize to the plain size of a layout asks for a block if there is none to resize, and else for
a resize of that one. -/
theorem tryReallocUsable_plain_answers {n : Nat} (hplain : new.plainSize s.maxAlign = some n)
    (hsmall : ¬ Size.tooLarge n = true) (hblocked : ¬ new.Passes s.maxAlign → P none)
    (htake : new.Passes s.maxAlign → ptr = none →
      Returns (s.take s.alloc new) l.heap fun r _ => P (r.map Block.ptr))
    (hresize : ∀ p, ptr = some p →
      Returns (s.realloc p n) l.heap fun r _ => P (r.map fun x => x.block.ptr)) :
    Returns (tryReallocUsable s ptr n) l fun r _ => P (r.toOption.bind Prod.fst) := by
  cases ptr with
  | none =>
    unfold tryReallocUsable tryAllocUsable
    rw [Returns, ends_map]
    apply (tryTake_plain_answers hplain hblocked fun hpasses => htake hpasses rfl).imp
    intro r l' hr
    cases r with
    | error e => exact hr
    | ok block => exact hr
  | some p =>
    have hpos := (Layout.le_plainSize hplain).2
    exact tryReallocUsable_answers (Nat.ne_of_gt hpos) hsmall (hresize p rfl)

/-- A move hands out the block that it allocates. -/
theorem layoutMove_result (s : Strategy β) (ptr : Option Nat) (layout : Layout) (size : Nat)
    (l : Ledger β) :
    Ends (layoutMove s ptr layout size) l
      (fun r _ => ∃ l', pointer? (tryAllocAligned s size layout.align) l = .ok r l')
      fun _ _ => True := by
  unfold layoutMove
  rw [ends_bind]
  apply (Ends.self _ l).imp
  · intro r l' hrun
    cases r with
    | none => exact ends_pure.2 ⟨l', hrun⟩
    | some q =>
      simp only
      rw [ends_bind, ends_onHeap, ends_mapMemory, ends_bind]
      apply (Ends.self _ _).imp
      · intros
        exact ends_pure.2 ⟨l', hrun⟩
      · intros
        trivial
  · intros
    trivial

/-- A resize by layout asks for a new block if the alignment is beyond the strategy's own, and else
for a resize of the old one. -/
theorem layoutRealloc_answers (hnew : Layout.of? size layout.align = some new)
    (hblocked : ¬ new.Passes s.maxAlign → P none)
    (htake : new.Passes s.maxAlign → ptr = none ∨ new.plainSize s.maxAlign = none →
      Returns (s.take s.alloc new) l.heap fun r _ => P (r.map Block.ptr))
    (hresize : ∀ p n, ptr = some p → new.plainSize s.maxAlign = some n →
      n < Size.bound → Returns (s.realloc p n) l.heap fun r _ => P (r.map fun x => x.block.ptr)) :
    Ends (layoutRealloc s ptr layout size) l (fun r _ => P r) fun _ _ => True := by
  unfold layoutRealloc
  rw [hnew]
  simp only
  cases hplain : new.plainSize s.maxAlign with
  | none =>
    have hanswers := pointer?_answers (tryAllocAligned_answers (l := l) hnew hblocked
      fun hpasses => htake hpasses (.inr hplain))
    apply (layoutMove_result s ptr layout size l).imp
    · intro r _ hrun
      obtain ⟨l', hrun⟩ := hrun
      exact hanswers.of_ok hrun
    · intros
      trivial
  | some n =>
    simp only
    by_cases hlarge : Size.tooLarge n = true
    · rw [if_pos hlarge]
      exact ends_pure.2 (hblocked (Layout.not_passes hplain hlarge))
    rw [if_neg hlarge, ends_bind]
    unfold tryRealloc
    rw [ends_map]
    -- Whichever way it goes, what is answered is the pointer of the strategy's block.
    have hanswers : Returns (tryReallocUsable s ptr n) l fun r _ =>
        P (r.toOption.bind Prod.fst) :=
      tryReallocUsable_plain_answers hplain hlarge hblocked
        (fun hpasses hnone => htake hpasses (.inl hnone))
        fun p hp => hresize p n hp hplain (Size.lt_bound hlarge)
    apply hanswers.imp
    intro r l' hr
    cases r with
    | error e => exact ends_pure.2 hr
    | ok block => exact ends_pure.2 hr

end Ledger

end HeapLedger
