import HeapLedger.Proofs.Ledger.Insistence

/-!
# `HeapLedger/Proofs/Ledger/Demands.lean` — what a call demands of its strategy

A call of a ledger gets to the allocation functions of its strategy at most once, with an order for
a new block or with a block to resize. Which of the two it is, and for how many bytes, can be read
off the call alone (`Action.demand`). On everything else that a strategy does, a call depends no
matter what it demands. So two strategies that are alike in all else and agree on what a call
demands cannot be told apart by the call (`Action.perform_congr`), and where the demand is refused
nothing comes of the call but its refusal (`Action.perform_refused`).
-/

set_option autoImplicit false

namespace HeapLedger

variable {β γ : Type}

/-- The number of bytes that an order is for. -/
def Order.size : Order → Nat
  | plain n | zeroed n | aligned n _ => n

/-- What a call demands of a strategy. -/
inductive Demand where
  | order (o : Order)
  | resize (ptr size : Nat)
  deriving DecidableEq

namespace Demand

/-- The number of bytes that a demand is for. -/
def size : Demand → Nat
  | order o => o.size
  | resize _ n => n

/-- The size rules let the demand through. -/
def Passes (maxAlign : Nat) : Demand → Prop
  | order o => o.Passes maxAlign
  | resize _ n => 0 < n ∧ n < Size.bound

theorem size_of_passes {maxAlign : Nat} {x : Demand} (h : x.Passes maxAlign) :
    0 < x.size ∧ x.size < Size.bound := by
  cases x with
  | order o =>
    cases o with
    | plain n => exact h
    | zeroed n => exact h
    | aligned n align => exact ⟨h.1, h.2.1⟩
  | resize p n => exact h

/-- The demand of a resize, if the size rules let it through. -/
def resized (ptr size : Nat) : Option Demand :=
  if size = 0 ∨ Size.tooLarge size = true then none else some (resize ptr size)

/-- The demand of a block with this layout in place of the one at `ptr`. -/
def ofLayout (maxAlign : Nat) (ptr : Option Nat) (layout : Layout) : Option Demand :=
  match layout.plainSize maxAlign, ptr with
  | some plain, some p => resized p plain
  | _, _ => (Order.ofLayout .plain maxAlign layout).map order

theorem passes_of_order {maxAlign : Nat} {o : Option Order} {x : Demand}
    (ho : ∀ y ∈ o, y.Passes maxAlign) (h : o.map order = some x) : x.Passes maxAlign := by
  obtain ⟨y, hy, rfl⟩ := Option.map_eq_some_iff.1 h
  exact ho y hy

theorem resized_eq_some {p n : Nat} {x : Demand} (h : resized p n = some x) :
    n ≠ 0 ∧ ¬ Size.tooLarge n = true ∧ x = resize p n := by
  obtain ⟨hnot, hx⟩ := Option.ite_none_left_eq_some.1 h
  rw [not_or] at hnot
  exact ⟨hnot.1, hnot.2, (Option.some.inj hx).symm⟩

theorem passes_of_resized {maxAlign p n : Nat} {x : Demand} (h : resized p n = some x) :
    x.Passes maxAlign := by
  obtain ⟨hne, hsmall, rfl⟩ := resized_eq_some h
  exact ⟨Nat.pos_of_ne_zero hne, Size.lt_bound hsmall⟩

/-- Both strategies do the same about the demand. -/
def Agree (s' s : Strategy β) : Demand → Prop
  | order o => o.take s' = o.take s
  | resize p n => s'.realloc p n = s.realloc p n

/-- There is nothing for this demand, and the heap stays as it is. -/
def Refused (s : Strategy β) (h : Heap β) : Demand → Prop
  | order o => o.take s h = .ok none h
  | resize p n => s.realloc p n h = .ok none h

end Demand

/-- Both strategies do the same about everything but demands. -/
structure Strategy.Alike (s' s : Strategy β) : Prop where
  maxAlign : s'.maxAlign = s.maxAlign
  free : s'.free = s.free
  freeWithSize : s'.freeWithSize = s.freeWithSize
  usableSize : s'.usableSize = s.usableSize
  footprint : s'.footprint = s.footprint
  info : s'.info = s.info
  setBackgroundThread : s'.setBackgroundThread = s.setBackgroundThread
  purge : s'.purge = s.purge

theorem Strategy.Alike.plainSize {s' s : Strategy β} (h : s'.Alike s) (layout : Layout) :
    layout.plainSize s'.maxAlign = layout.plainSize s.maxAlign := by
  rw [h.maxAlign]

namespace Action

/-- What a call demands. -/
def demand (maxAlign : Nat) : Action → Option Demand
  | .realloc _ (some p) size | .reallocUsable _ (some p) size => Demand.resized p size
  | .dupString text => (Order.passed .plain (text.length + 1)).map .order
  | .layoutAlloc layout => (Order.ofLayout .plain maxAlign layout).map .order
  | .layoutAllocZeroed layout => (Order.ofLayout .zeroed maxAlign layout).map .order
  | .layoutRealloc ptr layout size =>
      (Layout.of? size layout.align).bind (Demand.ofLayout maxAlign ptr)
  | a => (a.orders maxAlign).map .order

/-- What a call replies whose demand is refused. -/
def refusal : Action → Reply Nat
  | .layoutAlloc _ | .layoutAllocZeroed _ | .layoutRealloc _ _ _ => .pointer none
  | a => .failed (.exhausted a.named)

/-- The size rules let every demand through. -/
theorem passes_of_demand {maxAlign : Nat} {a : Action} {x : Demand}
    (h : a.demand maxAlign = some x) : x.Passes maxAlign := by
  unfold demand at h
  split at h
  · exact Demand.passes_of_resized h
  · exact Demand.passes_of_resized h
  · exact Demand.passes_of_order (fun _ => Order.passes_of_passed Order.passes_plain) h
  · exact Demand.passes_of_order (fun _ => Order.passes_of_ofLayout Order.passes_plain) h
  · exact Demand.passes_of_order (fun _ => Order.passes_of_ofLayout Order.passes_zeroed) h
  · obtain ⟨new, -, hnew⟩ := Option.bind_eq_some_iff.1 h
    unfold Demand.ofLayout at hnew
    split at hnew
    · exact Demand.passes_of_resized hnew
    · exact Demand.passes_of_order (fun _ => Order.passes_of_ofLayout Order.passes_plain) hnew
  · exact Demand.passes_of_order (fun _ => passes_of_order) h

/-- Only the pointer that is passed is demanded to be resized. -/
theorem pointer_of_resize {maxAlign : Nat} {a : Action} {p n : Nat}
    (h : a.demand maxAlign = some (.resize p n)) : a.pointer? = some p := by
  have hresized : ∀ {q m : Nat}, Demand.resized q m = some (.resize p n) → q = p := by
    intro q m hresized
    obtain ⟨-, -, heq⟩ := Demand.resized_eq_some hresized
    cases heq
    rfl
  have horder : ∀ order : Option Order, order.map Demand.order ≠ some (.resize p n) := by
    intro order horder
    obtain ⟨o, -, heq⟩ := Option.map_eq_some_iff.1 horder
    cases heq
  unfold demand at h
  split at h
  · exact congrArg some (hresized h)
  · exact congrArg some (hresized h)
  · exact absurd h (horder _)
  · exact absurd h (horder _)
  · exact absurd h (horder _)
  · obtain ⟨new, -, hnew⟩ := Option.bind_eq_some_iff.1 h
    unfold Demand.ofLayout at hnew
    split at hnew
    · exact congrArg some (hresized hnew)
    · exact absurd hnew (horder _)
  · exact absurd h (horder _)

theorem refusal_attemptsNew {a : Action} (ha : a.attemptsNew = true) :
    a.refusal = .failed (.exhausted a.named) := by
  unfold attemptsNew at ha
  split at ha
  all_goals first
    | rfl
    | cases ha

theorem fails_refusal (a : Action) : a.fails (.ok a.refusal) = true := by
  unfold refusal
  split <;> rfl

/-- A call that demands something gives nothing up when it fails. -/
theorem forfeit_of_demand {maxAlign : Nat} {a : Action} {x : Demand}
    (h : a.demand maxAlign = some x) : a.forfeit = none := by
  have hresized : ∀ ptr size, Size.tooLarge size = true → (∀ p, ptr = some p →
      Demand.resized p size = some x) → ptr = none := by
    intro ptr size hlarge hdemand
    cases ptr with
    | none => rfl
    | some p =>
      have hnone : Demand.resized p size = none := if_pos (.inr hlarge)
      rw [hdemand p rfl] at hnone
      cases hnone
  unfold forfeit
  split
  · rename_i ptr size
    split
    · rename_i hlarge
      exact hresized ptr size hlarge fun p hp => by rw [← h, hp]; rfl
    · rfl
  · rename_i ptr size
    split
    · rename_i hlarge
      exact hresized ptr size hlarge fun p hp => by rw [← h, hp]; rfl
    · rfl
  · rfl

theorem demand_attempt {maxAlign : Nat} {a t : Action} (ha : a.attempt = some t) :
    a.demand maxAlign = t.demand maxAlign := by
  unfold attempt at ha
  split at ha
  all_goals cases ha
  all_goals first
    | rfl
    | rename_i ptr _
      cases ptr <;> rfl

theorem demand_attemptsNew {maxAlign : Nat} {a : Action} (ha : a.attemptsNew = true) :
    a.demand maxAlign = (a.orders maxAlign).map .order := by
  unfold attemptsNew at ha
  split at ha
  all_goals first
    | rfl
    | cases ha

end Action

/-! ## Calls by layout -/

namespace Ledger

variable (s : Strategy β)

/-- The pointer of a block, if there is one. -/
def reached : Except AllocError (Nat × Nat) → Option Nat
  | .ok block => some block.1
  | .error _ => none

/-- The pointer to a resized block, if there is one. -/
def replaced : Except AllocError (Option Nat) → Option Nat
  | .ok ptr => ptr
  | .error _ => none

theorem pointer?_map (op : LedgerOp β (Except AllocError (Nat × Nat))) :
    pointer? (Except.map Prod.fst <$> op) = reached <$> op := by
  unfold pointer?
  rw [bind_map_left, map_eq_pure_bind]
  congr
  funext r
  cases r <;> rfl

theorem layoutAlloc_eq (layout : Layout) :
    layoutAlloc s layout =
      reached <$> tryOrder s (Order.ofLayout .plain s.maxAlign layout) layout.size := by
  unfold layoutAlloc
  rw [tryAllocAligned_eq, pointer?_map, layout.of?_self]
  rfl

variable {layout : Layout} {plain : Nat}

theorem layoutAllocZeroed_plain (hplain : layout.plainSize s.maxAlign = some plain) :
    layoutAllocZeroed s layout =
      reached <$> tryOrder s (Order.ofLayout .zeroed s.maxAlign layout) plain := by
  unfold layoutAllocZeroed Order.ofLayout
  simp only [hplain]
  rw [← tryAllocZeroedUsable_eq]
  exact pointer?_map _

/-- An over-aligned block is filled with zeros once it is there. -/
theorem layoutAllocZeroed_aligned (hplain : layout.plainSize s.maxAlign = none) :
    layoutAllocZeroed s layout = (do
      match ← reached <$> tryOrder s (Order.ofLayout .zeroed s.maxAlign layout) layout.size with
      | none => pure none
      | some ptr =>
          onHeap (HeapOp.mapMemory (·.fill ptr layout.size 0))
          pure (some ptr)) := by
  have halloc : layoutAlloc s layout =
      reached <$> tryOrder s (Order.ofLayout .zeroed s.maxAlign layout) layout.size := by
    rw [layoutAlloc_eq]
    unfold Order.ofLayout
    simp only [hplain]
  unfold layoutAllocZeroed
  simp only [hplain]
  exact congrArg (· >>= _) halloc

/-- A block is moved by an order, a copy and a free. -/
theorem layoutMove_eq (ptr : Option Nat) (size : Nat) :
    layoutMove s ptr layout size = (do
      match ← reached <$> tryOrder s
          ((Layout.of? size layout.align).bind (Order.ofLayout .plain s.maxAlign)) size with
      | none => pure none
      | some new =>
          onHeap (HeapOp.mapMemory (·.copy new (ptr.getD 0) (min layout.size size)))
          free s ptr
          pure (some new)) := by
  have halloc : pointer? (tryAllocAligned s size layout.align) = reached <$> tryOrder s
      ((Layout.of? size layout.align).bind (Order.ofLayout .plain s.maxAlign)) size := by
    rw [tryAllocAligned_eq, pointer?_map]
  unfold layoutMove
  exact congrArg (· >>= _) halloc

section Replacement

variable {new : Layout} {size : Nat} (ptr : Option Nat)
  (hnew : Layout.of? size layout.align = some new)

include hnew

theorem layoutRealloc_aligned (hplain : new.plainSize s.maxAlign = none) :
    layoutRealloc s ptr layout size = layoutMove s ptr layout size := by
  unfold layoutRealloc
  simp only [hnew, hplain]

variable (hplain : new.plainSize s.maxAlign = some plain)

include hplain

theorem layoutRealloc_tooLarge (hlarge : Size.tooLarge plain = true) :
    layoutRealloc s ptr layout size = pure none := by
  unfold layoutRealloc
  simp only [hnew, hplain, if_pos hlarge]

theorem layoutRealloc_plain (hsmall : ¬ Size.tooLarge plain = true) :
    layoutRealloc s ptr layout size = replaced <$> tryRealloc s ptr plain := by
  unfold layoutRealloc
  simp only [hnew, hplain, if_neg hsmall]
  rw [map_eq_pure_bind]
  congr
  funext r
  cases r <;> rfl

end Replacement

/-! ### Calls that demand nothing -/

section Idle

variable {size : Nat} {ptr : Option Nat}

theorem layoutAlloc_idle (h : Order.ofLayout .plain s.maxAlign layout = none) :
    layoutAlloc s layout = pure none := by
  rw [layoutAlloc_eq, h]
  rfl

theorem layoutAllocZeroed_idle (h : Order.ofLayout .zeroed s.maxAlign layout = none) :
    layoutAllocZeroed s layout = pure none := by
  cases hplain : layout.plainSize s.maxAlign with
  | some plain =>
    rw [layoutAllocZeroed_plain s hplain, h]
    rfl
  | none =>
    rw [layoutAllocZeroed_aligned s hplain, h]
    rfl

theorem layoutRealloc_idle
    (h : (Layout.of? size layout.align).bind (Demand.ofLayout s.maxAlign ptr) = none) :
    layoutRealloc s ptr layout size = pure none := by
  cases hnew : Layout.of? size layout.align with
  | none =>
    unfold layoutRealloc
    simp only [hnew]
  | some new =>
    rw [hnew, Option.bind_some] at h
    unfold Demand.ofLayout at h
    cases hplain : new.plainSize s.maxAlign with
    | none =>
      rw [hplain] at h
      have ho : Order.ofLayout .plain s.maxAlign new = none := Option.map_eq_none_iff.1 h
      rw [layoutRealloc_aligned s ptr hnew hplain, layoutMove_eq, hnew, Option.bind_some, ho]
      rfl
    | some plain =>
      rw [hplain] at h
      apply layoutRealloc_tooLarge s ptr hnew hplain
      apply Decidable.byContradiction
      intro hsmall
      have hpos := (Layout.le_plainSize hplain).2
      cases ptr with
      | none =>
        have ho : Order.ofLayout .plain s.maxAlign new = some (.plain (Size.clamp plain)) := by
          unfold Order.ofLayout
          simp only [hplain]
          exact if_neg hsmall
        have hnone := Option.map_eq_none_iff.1 h
        rw [ho] at hnone
        cases hnone
      | some p =>
        have hsome : Demand.resized p plain = some (.resize p plain) :=
          if_neg fun hor => hor.elim (Nat.ne_of_gt hpos) hsmall
        have hnone : Demand.resized p plain = none := h
        rw [hsome] at hnone
        cases hnone

end Idle

/-! ## Strategies that agree -/

section Congr

variable {s' s : Strategy β} (h : s'.Alike s) {order : Option Order} {size : Nat}

theorem tryOrder_congr (ho : ∀ o ∈ order, o.take s' = o.take s) :
    tryOrder s' order size = tryOrder s order size := by
  cases order with
  | none => rfl
  | some o =>
    unfold tryOrder
    simp only [ho o rfl]

include h

theorem free_congr : free s' = free s := by
  funext ptr
  unfold free
  rw [h.free]

theorem usableSize_congr : usableSize s' = usableSize s := by
  funext ptr
  unfold usableSize
  rw [h.usableSize]

/-- A resize frees the block or demands the resize. -/
theorem tryReallocUsable_congr {p : Nat}
    (hx : ∀ x ∈ Demand.resized p size, x.Agree s' s) :
    tryReallocUsable s' (some p) size = tryReallocUsable s (some p) size := by
  unfold tryReallocUsable
  rw [free_congr h]
  by_cases hzero : size = 0
  · simp only [if_pos hzero]
  by_cases hlarge : Size.tooLarge size = true
  · have hreq : Size.request size = .error (.excessive size) := if_pos hlarge
    simp only [hreq]
  have hnot : ¬ (size = 0 ∨ Size.tooLarge size = true) := fun hor => hor.elim hzero hlarge
  have hresize : s'.realloc p size = s.realloc p size := hx _ (if_neg hnot)
  have hreq : Size.request size = .ok size := by
    apply Size.request_eq_ok_iff.2
    exact ⟨Size.lt_bound hlarge, (if_neg hzero).symm⟩
  simp only [hreq, hresize]

theorem layoutRealloc_congr {ptr : Option Nat} {layout : Layout}
    (hx : ∀ x ∈ (Layout.of? size layout.align).bind (Demand.ofLayout s.maxAlign ptr),
      x.Agree s' s) : layoutRealloc s' ptr layout size = layoutRealloc s ptr layout size := by
  cases hnew : Layout.of? size layout.align with
  | none =>
    unfold layoutRealloc
    simp only [hnew]
  | some new =>
    rw [hnew, Option.bind_some] at hx
    unfold Demand.ofLayout at hx
    cases hplain : new.plainSize s.maxAlign with
    | none =>
      have ho : ∀ o ∈ Order.ofLayout .plain s.maxAlign new, o.take s' = o.take s := by
        intro o ho
        apply hx (.order o)
        rw [hplain]
        exact Option.mem_map_of_mem _ ho
      have hplain' := (h.plainSize new).trans hplain
      rw [layoutRealloc_aligned s ptr hnew hplain, layoutRealloc_aligned s' ptr hnew hplain',
        layoutMove_eq, layoutMove_eq, h.maxAlign, hnew, Option.bind_some, tryOrder_congr ho,
        free_congr h]
    | some plain =>
      have hplain' := (h.plainSize new).trans hplain
      by_cases hlarge : Size.tooLarge plain = true
      · rw [layoutRealloc_tooLarge s ptr hnew hplain hlarge,
          layoutRealloc_tooLarge s' ptr hnew hplain' hlarge]
      rw [layoutRealloc_plain s ptr hnew hplain hlarge,
        layoutRealloc_plain s' ptr hnew hplain' hlarge]
      unfold tryRealloc
      rw [hplain] at hx
      cases ptr with
      | none =>
        have ho : ∀ o ∈ Order.passed .plain plain, o.take s' = o.take s := by
          intro o ho
          apply hx (.order o)
          unfold Order.ofLayout
          simp only [hplain]
          exact Option.mem_map_of_mem _ ho
        unfold tryReallocUsable
        rw [tryAllocUsable_eq, tryAllocUsable_eq, tryOrder_congr ho]
      | some p => rw [tryReallocUsable_congr h hx]

theorem adviseUnused_congr (host : Host) : adviseUnused s' host = adviseUnused s host := by
  funext ptr hint
  unfold adviseUnused
  rw [usableSize_congr h]

end Congr

/-! ## Demands that are refused -/

section Refused

variable {s : Strategy β} {o : Order} {l : Ledger β} (size : Nat)

theorem onHeap_refused {op : HeapOp β (Option γ)} (hop : op l.heap = .ok none l.heap) :
    onHeap op l = .ok none l := by
  unfold onHeap
  rw [hop]

theorem tryOrder_refused (ho : o.take s l.heap = .ok none l.heap) :
    tryOrder s (some o) size l = .ok (.error (.exhausted size)) l :=
  run_bind_ok (onHeap_refused ho)

theorem tryReallocUsable_refused {p : Nat} {x : Demand} (hx : Demand.resized p size = some x)
    (hrefused : x.Refused s l.heap) :
    tryReallocUsable s (some p) size l = .ok (.error (.exhausted size)) l := by
  obtain ⟨hne, hsmall, rfl⟩ := Demand.resized_eq_some hx
  rw [tryReallocUsable_passed hne hsmall]
  exact run_bind_ok (onHeap_refused hrefused)

theorem layoutRealloc_refused {ptr : Option Nat} {layout : Layout} {x : Demand}
    (hx : (Layout.of? size layout.align).bind (Demand.ofLayout s.maxAlign ptr) = some x)
    (hrefused : x.Refused s l.heap) : layoutRealloc s ptr layout size l = .ok none l := by
  obtain ⟨new, hnew, hdemand⟩ := Option.bind_eq_some_iff.1 hx
  unfold Demand.ofLayout at hdemand
  cases hplain : new.plainSize s.maxAlign with
  | none =>
    rw [hplain] at hdemand
    obtain ⟨o, ho, rfl⟩ := Option.map_eq_some_iff.1 hdemand
    rw [layoutRealloc_aligned s ptr hnew hplain, layoutMove_eq, hnew, Option.bind_some, ho]
    exact run_bind_ok (run_map_ok reached (tryOrder_refused size hrefused))
  | some plain =>
    rw [hplain] at hdemand
    cases ptr with
    | none =>
      obtain ⟨o, ho, rfl⟩ := Option.map_eq_some_iff.1 hdemand
      unfold Order.ofLayout at ho
      simp only [hplain] at ho
      have hsmall : ¬ Size.tooLarge plain = true := Order.small_of_passed ho
      have hrun : tryReallocUsable s none plain l = .ok (.error (.exhausted plain)) l := by
        unfold tryReallocUsable
        rw [tryAllocUsable_eq, ho]
        exact run_map_ok _ (tryOrder_refused plain hrefused)
      rw [layoutRealloc_plain s none hnew hplain hsmall]
      exact run_map_ok replaced (run_map_ok (Except.map Prod.fst) hrun)
    | some p =>
      obtain ⟨-, hsmall, -⟩ := Demand.resized_eq_some hdemand
      have hrun := tryReallocUsable_refused plain hdemand hrefused
      rw [layoutRealloc_plain s (some p) hnew hplain hsmall]
      exact run_map_ok replaced (run_map_ok (Except.map Prod.fst) hrun)

end Refused

end Ledger

namespace Action

variable {s' s : Strategy β} {a : Action}

open Ledger in
/-- A call by layout cannot tell strategies apart that agree on its demand. -/
theorem perform_congr_layout (h : s'.Alike s) (host : Host)
    (hx : ∀ x ∈ a.demand s.maxAlign, x.Agree s' s) (ha : a.byLayout = true) :
    a.perform s' host = a.perform s host := by
  unfold byLayout at ha
  split at ha
  · rename_i layout
    have ho : ∀ o ∈ Order.ofLayout .plain s.maxAlign layout, o.take s' = o.take s :=
      fun o ho => hx (.order o) (Option.mem_map_of_mem _ ho)
    show Reply.pointer <$> Ledger.layoutAlloc s' layout = Reply.pointer <$> Ledger.layoutAlloc s layout
    rw [layoutAlloc_eq, layoutAlloc_eq, h.maxAlign, tryOrder_congr ho]
  · rename_i layout
    have ho : ∀ o ∈ Order.ofLayout .zeroed s.maxAlign layout, o.take s' = o.take s :=
      fun o ho => hx (.order o) (Option.mem_map_of_mem _ ho)
    show Reply.pointer <$> Ledger.layoutAllocZeroed s' layout =
      Reply.pointer <$> Ledger.layoutAllocZeroed s layout
    cases hplain : layout.plainSize s.maxAlign with
    | some plain =>
      have hplain' := (h.plainSize layout).trans hplain
      rw [layoutAllocZeroed_plain s hplain, layoutAllocZeroed_plain s' hplain', h.maxAlign,
        tryOrder_congr ho]
    | none =>
      have hplain' := (h.plainSize layout).trans hplain
      rw [layoutAllocZeroed_aligned s hplain, layoutAllocZeroed_aligned s' hplain', h.maxAlign,
        tryOrder_congr ho]
  · rename_i ptr layout size
    show Reply.pointer <$> Ledger.layoutRealloc s' ptr layout size = _
    rw [layoutRealloc_congr h hx]
    rfl
  · cases ha

open Ledger in
/-- A call that deals with its failure cannot tell strategies apart that agree on its demand. -/
theorem perform_congr_attempt (h : s'.Alike s) (host : Host) (hattempt : a.attempt = none)
    (hbooked : a.booked = true) (hrecord : a ≠ .record)
    (hx : ∀ x ∈ a.demand s.maxAlign, x.Agree s' s) : a.perform s' host = a.perform s host := by
  cases hlayout : a.byLayout with
  | true => exact perform_congr_layout h host hx hlayout
  | false =>
  cases hnew : a.attemptsNew with
  | true =>
    rw [demand_attemptsNew hnew] at hx
    have ho : ∀ o ∈ a.orders s.maxAlign, o.take s' = o.take s :=
      fun o ho => hx (.order o) (Option.mem_map_of_mem _ ho)
    rw [perform_attemptsNew s' host hnew, perform_attemptsNew s host hnew, h.maxAlign,
      tryOrder_congr ho]
  | false =>
  cases a with
  | realloc mode ptr size =>
    cases mode with
    | orFail => cases hattempt
    | attempt =>
      cases ptr with
      | none => cases hnew
      | some p =>
        show reported Reply.pointer (Except.map Prod.fst <$> tryReallocUsable s' (some p) size) = _
        rw [tryReallocUsable_congr h hx]
        rfl
  | reallocUsable mode ptr size =>
    cases mode with
    | orFail => cases hattempt
    | attempt =>
      cases ptr with
      | none => cases hnew
      | some p =>
        show reported _ (tryReallocUsable s' (some p) size) = _
        rw [tryReallocUsable_congr h hx]
        rfl
  | free ptr =>
    show _ <$> Ledger.free s' ptr = _
    rw [free_congr h]
    rfl
  | layoutFree ptr layout =>
    show _ <$> Ledger.free s' ptr = _
    rw [free_congr h]
    rfl
  | freeWithSize ptr usable =>
    show _ <$> Ledger.freeWithSize s' ptr usable = _ <$> Ledger.freeWithSize s ptr usable
    unfold Ledger.freeWithSize
    rw [h.freeWithSize]
  | usableSize ptr =>
    show _ <$> Ledger.usableSize s' ptr = _
    rw [usableSize_congr h]
    rfl
  | allocationSize ptr =>
    show _ <$> Ledger.allocationSize s' ptr = _ <$> Ledger.allocationSize s ptr
    unfold Ledger.allocationSize
    rw [h.footprint]
  | adviseUnused ptr hint =>
    show _ <$> Ledger.adviseUnused s' host ptr hint = _
    rw [adviseUnused_congr h]
    rfl
  | info =>
    show _ <$> Ledger.info s' = _ <$> Ledger.info s
    unfold Ledger.info
    rw [h.info]
  | setBackgroundThread enable =>
    show _ <$> Ledger.setBackgroundThread s' enable = _ <$> Ledger.setBackgroundThread s enable
    unfold Ledger.setBackgroundThread
    rw [h.setBackgroundThread]
  | purge =>
    show _ <$> Ledger.purge s' = _ <$> Ledger.purge s
    unfold Ledger.purge
    rw [h.purge]
  | record => exact absurd rfl hrecord
  | setHandler | handler => rfl
  | dupString => cases hattempt
  | alloc mode | allocUsable mode | allocZeroed mode | allocZeroedUsable mode
  | allocZeroedArray mode | allocAligned mode =>
    cases mode with
    | attempt => cases hnew
    | orFail => cases hattempt
  | layoutAlloc | layoutAllocZeroed | layoutRealloc => cases hlayout
  | blockAlloc | blockAllocZeroed | blockAllocAligned | blockRealloc | blockFree
  | blockFreeWithSize | blockUsableSize | blockFootprint => cases hbooked

theorem booked_of_attempt {t : Action} (ha : a.attempt = some t) :
    t.booked = true ∧ t ≠ .record := by
  unfold attempt at ha
  split at ha
  all_goals
    cases ha
    try exact ⟨rfl, fun h => nomatch h⟩

/-- No call of the ledger can tell strategies apart that are alike and agree on what it demands,
except by their names. -/
theorem perform_congr (h : s'.Alike s) (host : Host) (hbooked : a.booked = true)
    (hrecord : a ≠ .record) (hx : ∀ x ∈ a.demand s.maxAlign, x.Agree s' s) :
    a.perform s' host = a.perform s host := by
  cases hattempt : a.attempt with
  | none => exact perform_congr_attempt h host hattempt hbooked hrecord hx
  | some t =>
    rw [demand_attempt hattempt] at hx
    have ht := (attemptOf hattempt).attempt
    obtain ⟨hbooked, hrecord⟩ := booked_of_attempt hattempt
    have hsame := perform_congr_attempt h host ht hbooked hrecord hx
    funext l
    rw [perform_insisted s' host l hattempt, perform_insisted s host l hattempt, hsame]

open Ledger in
/-- Nothing comes of a call whose demand is refused. -/
theorem perform_refused (host : Host) {l : Ledger β} (hattempt : a.attempt = none) {x : Demand}
    (hx : a.demand s.maxAlign = some x) (hrefused : x.Refused s l.heap) :
    a.perform s host l = .ok a.refusal l := by
  cases hnew : a.attemptsNew with
  | true =>
    rw [demand_attemptsNew hnew] at hx
    obtain ⟨o, ho, rfl⟩ := Option.map_eq_some_iff.1 hx
    rw [perform_attemptsNew s host hnew, ho, refusal_attemptsNew hnew]
    exact reported_failed (tryOrder_refused a.named hrefused)
  | false =>
  cases a with
  | realloc mode ptr size =>
    cases mode with
    | orFail => cases hattempt
    | attempt =>
      cases ptr with
      | none => cases hnew
      | some p =>
        exact reported_failed (run_map_ok (Except.map Prod.fst)
          (tryReallocUsable_refused size hx hrefused))
  | reallocUsable mode ptr size =>
    cases mode with
    | orFail => cases hattempt
    | attempt =>
      cases ptr with
      | none => cases hnew
      | some p => exact reported_failed (tryReallocUsable_refused size hx hrefused)
  | layoutAlloc layout =>
    obtain ⟨o, ho, rfl⟩ := Option.map_eq_some_iff.1 hx
    show (Reply.pointer <$> Ledger.layoutAlloc s layout) l = _
    rw [layoutAlloc_eq, ho]
    exact run_map_ok Reply.pointer (run_map_ok reached (tryOrder_refused layout.size hrefused))
  | layoutAllocZeroed layout =>
    obtain ⟨o, ho, rfl⟩ := Option.map_eq_some_iff.1 hx
    apply run_map_ok Reply.pointer
    cases hplain : layout.plainSize s.maxAlign with
    | some plain =>
      rw [layoutAllocZeroed_plain s hplain, ho]
      exact run_map_ok reached (tryOrder_refused plain hrefused)
    | none =>
      rw [layoutAllocZeroed_aligned s hplain, ho]
      exact run_bind_ok (run_map_ok reached (tryOrder_refused layout.size hrefused))
  | layoutRealloc ptr layout size =>
    exact run_map_ok Reply.pointer (layoutRealloc_refused size hx hrefused)
  | dupString => cases hattempt
  | alloc mode | allocUsable mode | allocZeroed mode | allocZeroedUsable mode
  | allocZeroedArray mode | allocAligned mode =>
    cases mode with
    | attempt => cases hnew
    | orFail => cases hattempt
  | _ => cases hx

end Action

end HeapLedger
