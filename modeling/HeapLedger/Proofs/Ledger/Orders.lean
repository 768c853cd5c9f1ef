import HeapLedger.Ledger.Action
import HeapLedger.Proofs.Ends
import HeapLedger.Proofs.Strategy.Stack

/-!
# `HeapLedger/Proofs/Ledger/Orders.lean` — attempts at a new block

All attempts at a new block are one operation. The size rules make an order of the request, or they
make none; the strategy carries the order out, or it does not; and whichever it is, a failure tells
the number that the caller gave (`Ledger.tryOrder`). The attempts differ in the order
(`Action.orders`), in the number (`Action.named`), and in what they reply (`Action.answered`).
-/

set_option autoImplicit false

namespace HeapLedger

variable {β α γ : Type}

namespace Order

/-- The order for `size` bytes, if that many may be asked for. -/
def passed (kind : Nat → Order) (size : Nat) : Option Order :=
  if Size.tooLarge size then none else some (kind (Size.clamp size))

/-- The order for an array of zero bytes. -/
def ofArray (count elem : Nat) : Option Order :=
  match Size.ofArray count elem with
  | .error _ => none
  | .ok size => passed zeroed size

/-- The order for a layout. An alignment that is kept anyway is not named. -/
def ofLayout (kind : Nat → Order) (maxAlign : Nat) (layout : Layout) : Option Order :=
  match layout.plainSize maxAlign with
  | some size => passed kind size
  | none => passed (aligned · layout.align) layout.size

/-! ### Orders keep to the size rules -/

variable {maxAlign size : Nat} {kind : Nat → Order} {layout : Layout} {o : Order}

theorem passed_eq_some (h : passed kind size = some o) :
    size < Size.bound ∧ o = kind (Size.clamp size) := by
  unfold passed at h
  split at h
  · cases h
  · rename_i hsmall
    cases h
    exact ⟨Size.lt_bound hsmall, rfl⟩

theorem small_of_passed (h : passed kind size = some o) : ¬ Size.tooLarge size = true := by
  obtain ⟨hsmall, -⟩ := Option.ite_none_left_eq_some.1 h
  exact hsmall

theorem passes_plain (n : Nat) (hpos : 0 < n) (hlt : n < Size.bound) :
    (plain n).Passes maxAlign :=
  ⟨hpos, hlt⟩

theorem passes_zeroed (n : Nat) (hpos : 0 < n) (hlt : n < Size.bound) :
    (zeroed n).Passes maxAlign :=
  ⟨hpos, hlt⟩

theorem passes_of_passed (hkind : ∀ n, 0 < n → n < Size.bound → (kind n).Passes maxAlign)
    (h : passed kind size = some o) : o.Passes maxAlign := by
  obtain ⟨hlt, rfl⟩ := passed_eq_some h
  exact hkind _ (Size.clamp_pos size) (Size.clamp_lt hlt)

theorem passes_of_ofLayout (hkind : ∀ n, 0 < n → n < Size.bound → (kind n).Passes maxAlign)
    (h : ofLayout kind maxAlign layout = some o) : o.Passes maxAlign := by
  unfold ofLayout at h
  cases hplain : layout.plainSize maxAlign with
  | some n =>
    rw [hplain] at h
    exact passes_of_passed hkind h
  | none =>
    rw [hplain] at h
    obtain ⟨hlt, rfl⟩ := passed_eq_some h
    have hclamp : Size.clamp layout.size ≤ layout.size + Size.least := by
      unfold Size.clamp
      split <;> omega
    have hfits := layout.add_align_le
    exact ⟨Size.clamp_pos _, Size.clamp_lt hlt, layout.isPowerOfTwo_align,
      Layout.plainSize_eq_none hplain, by omega⟩

end Order

/-- The number of bytes in an array, or the largest word if there is no such number. -/
def Size.ofArrayNamed (count elem : Nat) : Nat :=
  if elem = 0 ∨ Word.max < count * elem then Word.max else count * elem

namespace Ledger

variable (s : Strategy β)

/-- A block for the order that came of a request of `size` bytes, if one did. -/
def tryOrder (order : Option Order) (size : Nat) : LedgerOp β (Except AllocError (Nat × Nat)) :=
  match order with
  | none => pure (.error (.overflow size))
  | some o => do settle size (← onHeap (o.take s))

theorem tryTake_eq (kind : Nat → Order) (size : Nat) :
    tryTake (fun n => (kind n).take s) size = tryOrder s (Order.passed kind size) size := by
  unfold tryTake Size.request Order.passed
  by_cases hlarge : Size.tooLarge size = true
  · rw [if_pos hlarge, if_pos hlarge]
    rfl
  · rw [if_neg hlarge, if_neg hlarge]
    rfl

theorem tryAllocUsable_eq (size : Nat) :
    tryAllocUsable s size = tryOrder s (Order.passed .plain size) size :=
  tryTake_eq s .plain size

theorem tryAllocZeroedUsable_eq (size : Nat) :
    tryAllocZeroedUsable s size = tryOrder s (Order.passed .zeroed size) size :=
  tryTake_eq s .zeroed size

theorem tryAllocZeroedArray_eq (count elem : Nat) :
    tryAllocZeroedArray s count elem =
      Except.map Prod.fst <$> tryOrder s (Order.ofArray count elem)
        (Size.ofArrayNamed count elem) := by
  unfold tryAllocZeroedArray Order.ofArray
  cases hsize : Size.ofArray count elem with
  | error e =>
    have hnone : elem = 0 ∨ Word.max < count * elem := by
      apply Decidable.byContradiction
      intro hfits
      rw [not_or, Nat.not_lt] at hfits
      rw [Size.ofArray_eq_ok_iff.2 ⟨hfits.1, hfits.2, rfl⟩] at hsize
      cases hsize
    have hnamed : Size.ofArrayNamed count elem = Word.max := if_pos hnone
    unfold Size.ofArray at hsize
    split at hsize
    · cases hsize
      rw [hnamed]
      rfl
    · cases hsize
  | ok size =>
    obtain ⟨hne, hle, rfl⟩ := Size.ofArray_eq_ok_iff.1 hsize
    have hnamed : Size.ofArrayNamed count elem = count * elem :=
      if_neg fun h => h.elim hne (Nat.not_lt_of_le hle)
    rw [hnamed]
    simp only
    rw [← tryAllocZeroedUsable_eq]
    rfl

/-- A failure tells what it is told to tell. -/
theorem tryOrder_withRequested (order : Option Order) (n size : Nat) :
    Except.mapError (AllocError.withRequested size) <$> tryOrder s order n =
      tryOrder s order size := by
  cases order with
  | none => rfl
  | some o =>
    unfold tryOrder
    simp only [map_bind]
    apply congrArg (onHeap (o.take s) >>= ·)
    funext r
    cases r with
    | none => rfl
    | some block =>
      unfold settle
      simp only [map_bind]
      rfl

theorem tryAllocAligned_eq (size align : Nat) :
    tryAllocAligned s size align =
      Except.map Prod.fst <$> tryOrder s
        ((Layout.of? size align).bind (Order.ofLayout .plain s.maxAlign)) size := by
  unfold tryAllocAligned
  cases hlayout : Layout.of? size align with
  | none => rfl
  | some layout =>
    obtain ⟨rfl, rfl⟩ := Layout.of?_eq_some hlayout
    rw [Option.bind_some]
    unfold Order.ofLayout
    cases hplain : layout.plainSize s.maxAlign with
    | some plain =>
      simp only [hplain]
      rw [← tryOrder_withRequested s _ plain, ← tryAllocUsable_eq]
      unfold tryAlloc
      rw [Functor.map_map, Functor.map_map]
      congr
      funext r
      cases r <;> rfl
    | none =>
      simp only [hplain]
      rw [← tryTake_eq]
      rfl

end Ledger

namespace Action

/-- The call attempts a new block and reports failure. -/
def attemptsNew : Action → Bool
  | .alloc .attempt _ | .allocUsable .attempt _ | .allocZeroed .attempt _
  | .allocZeroedUsable .attempt _ | .allocZeroedArray .attempt _ _ | .allocAligned .attempt _ _
  | .realloc .attempt none _ | .reallocUsable .attempt none _ => true
  | _ => false

/-- The order that comes of a call for a new block. -/
def orders (maxAlign : Nat) : Action → Option Order
  | .alloc _ size | .allocUsable _ size | .realloc _ none size | .reallocUsable _ none size =>
      Order.passed .plain size
  | .allocZeroed _ size | .allocZeroedUsable _ size => Order.passed .zeroed size
  | .allocZeroedArray _ count elem => Order.ofArray count elem
  | .allocAligned _ size align => (Layout.of? size align).bind (Order.ofLayout .plain maxAlign)
  | _ => none

/-- Every order that comes of a call is one that the size rules let through. -/
theorem passes_of_order {maxAlign : Nat} {a : Action} {o : Order}
    (h : a.orders maxAlign = some o) : o.Passes maxAlign := by
  unfold orders at h
  split at h
  · exact Order.passes_of_passed Order.passes_plain h
  · exact Order.passes_of_passed Order.passes_plain h
  · exact Order.passes_of_passed Order.passes_plain h
  · exact Order.passes_of_passed Order.passes_plain h
  · exact Order.passes_of_passed Order.passes_zeroed h
  · exact Order.passes_of_passed Order.passes_zeroed h
  · unfold Order.ofArray at h
    split at h
    · cases h
    · exact Order.passes_of_passed Order.passes_zeroed h
  · obtain ⟨layout, -, ho⟩ := Option.bind_eq_some_iff.1 h
    exact Order.passes_of_ofLayout Order.passes_plain ho
  · cases h

/-- The number of bytes that the caller of a new block has named. -/
def named : Action → Nat
  | .alloc _ size | .allocUsable _ size | .realloc _ _ size | .reallocUsable _ _ size
  | .allocZeroed _ size | .allocZeroedUsable _ size | .allocAligned _ size _ => size
  | .allocZeroedArray _ count elem => Size.ofArrayNamed count elem
  | _ => 0

/-- What a call for a new block replies, by the block's pointer and its usable bytes. -/
def answered : Action → Nat × Nat → Reply Nat
  | .allocUsable _ _ | .allocZeroedUsable _ _ | .reallocUsable _ _ _ => sizedReply
  | _ => fun block => pointerReply block.1

section Reported

variable {reply : α → Reply Nat} {op : LedgerOp β (Except AllocError α)} {l l' : Ledger β} {x : α}
  {e : AllocError} {halt : Halt}

theorem reported_ok (hrun : op l = .ok (.ok x) l') : reported reply op l = .ok (reply x) l' :=
  run_bind_ok hrun

theorem reported_failed (hrun : op l = .ok (.error e) l') :
    reported reply op l = .ok (.failed e) l' :=
  run_bind_ok hrun

theorem reported_error (hrun : op l = .error halt l') : reported reply op l = .error halt l' :=
  run_bind_error hrun

end Reported

theorem reported_map {reply : γ → Reply Nat} {f : α → γ}
    {op : LedgerOp β (Except AllocError α)} :
    reported reply (Except.map f <$> op) = reported (fun a => reply (f a)) op := by
  unfold reported
  rw [bind_map_left]
  congr
  funext r
  cases r <;> rfl

open Ledger in
theorem perform_attemptsNew (s : Strategy β) (host : Host) {a : Action}
    (ha : a.attemptsNew = true) :
    a.perform s host = reported a.answered (tryOrder s (a.orders s.maxAlign) a.named) := by
  unfold attemptsNew at ha
  split at ha
  · show reported pointerReply (Except.map Prod.fst <$> tryAllocUsable s _) = _
    rw [reported_map, tryAllocUsable_eq]
    rfl
  · show reported sizedReply (tryAllocUsable s _) = _
    rw [tryAllocUsable_eq]
    rfl
  · show reported pointerReply (Except.map Prod.fst <$> tryAllocZeroedUsable s _) = _
    rw [reported_map, tryAllocZeroedUsable_eq]
    rfl
  · show reported sizedReply (tryAllocZeroedUsable s _) = _
    rw [tryAllocZeroedUsable_eq]
    rfl
  · show reported pointerReply (tryAllocZeroedArray s _ _) = _
    rw [tryAllocZeroedArray_eq, reported_map]
    rfl
  · show reported pointerReply (tryAllocAligned s _ _) = _
    rw [tryAllocAligned_eq, reported_map]
    rfl
  · show reported Reply.pointer (Except.map Prod.fst <$>
      Except.map (fun block => (some block.1, block.2)) <$> tryAllocUsable s _) = _
    rw [reported_map, reported_map, tryAllocUsable_eq]
    rfl
  · show reported (fun r => .sized r.1 r.2)
      (Except.map (fun block => (some block.1, block.2)) <$> tryAllocUsable s _) = _
    rw [reported_map, tryAllocUsable_eq]
    rfl
  · cases ha

end Action

end HeapLedger
