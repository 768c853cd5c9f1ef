import HeapLedger.Ledger.Alloc
import HeapLedger.Proofs.Ledger.Posting

/-!
# `HeapLedger/Proofs/Ledger/Alloc.lean` — what the operations post

One specification for each operation of `HeapLedger/Ledger/Alloc.lean`: from a sound ledger it ends,
and what it has posted by then. A `try` form that reports failure has posted nothing, with one
exception. A resize to a size that is refused has given the block up, and its error is the refusal
of that size.

The forms that may not fail are the `try` forms up to the call of the handler, so they post the
same (`orFail_ends`).
-/

set_option autoImplicit false

namespace HeapLedger.Ledger

variable {β : Type}

/-- How an allocation of `size` bytes ends that also tells how many bytes there are. -/
def Granted (k : Custody β) (hs : Holdings) (size : Nat) (l : Ledger β) :
    Except AllocError (Nat × Nat) → Ledger β → Prop
  | .ok block, l' => ∃ e, Posts k hs none (some (block.1, e)) l l' ∧ block.2 = e.usable ∧
      size ≤ e.usable
  | .error _, l' => Posts k hs none none l l'

/-- How an allocation of `size` bytes ends. -/
def Given (k : Custody β) (hs : Holdings) (size : Nat) (l : Ledger β) :
    Except AllocError Nat → Ledger β → Prop
  | .ok ptr, l' => ∃ e, Posts k hs none (some (ptr, e)) l l' ∧ size ≤ e.usable
  | .error _, l' => Posts k hs none none l l'

/-- How a resize of `ptr` to `size` bytes ends. -/
def Resettled (k : Custody β) (hs : Holdings) (ptr : Option Nat) (size : Nat) (l : Ledger β) :
    Except AllocError (Option Nat × Nat) → Ledger β → Prop
  | .ok block, l' => ∃ came, came.map Prod.fst = block.1 ∧ Posts k hs ptr came l l' ∧
      (came = none → size = 0) ∧ ∀ c ∈ came, block.2 = c.2.usable ∧ size ≤ c.2.usable
  | .error e, l' => Posts k hs (if Size.tooLarge size = true then ptr else none) none l l' ∧
      (ptr.isSome → size ≠ 0 ∧ (Size.tooLarge size = true → e = .overflow size))

section Alloc

variable {s : Strategy β} {k : s.Contract} {hs : Holdings} {l : Ledger β} {size n : Nat}

theorem Granted.given {k : Custody β} {r : Except AllocError (Nat × Nat)} {l' : Ledger β}
    (h : Granted k hs size l r l') : Given k hs size l (r.map Prod.fst) l' := by
  cases r with
  | error e => exact h
  | ok block =>
    obtain ⟨e, hp, -, hsize⟩ := h
    exact ⟨e, hp, hsize⟩

theorem Given.mono {k : Custody β} {r : Except AllocError Nat} {l' : Ledger β}
    (h : Given k hs n l r l') (hn : size ≤ n) : Given k hs size l r l' := by
  cases r with
  | error e => exact h
  | ok ptr =>
    obtain ⟨e, hp, hsize⟩ := h
    exact ⟨e, hp, Nat.le_trans hn hsize⟩

theorem Given.mapError {k : Custody β} {r : Except AllocError Nat} {l' : Ledger β}
    {f : AllocError → AllocError} (h : Given k hs size l r l') :
    Given k hs size l (r.mapError f) l' := by
  cases r with
  | error e => exact h
  | ok ptr => exact h

/-! ## Allocating -/

/-- Counting a block changes nothing about the heap. -/
theorem settle_keeps {block : Option Block} {heap : Heap β}
    {ret : Except AllocError (Nat × Nat) → Ledger β → Prop} {stop : Halt → Ledger β → Prop}
    (hnone : block = none → ret (.error (.exhausted size)) { l with heap := heap })
    (hsome : ∀ x, block = some x → ∀ l', l'.heap = heap → ret (.ok (x.ptr, x.usable)) l') :
    Ends (settle size block) { l with heap := heap } ret stop := by
  unfold settle
  cases block with
  | none => exact ends_pure.2 (hnone rfl)
  | some x =>
    rw [ends_bind]
    apply count_keeps
    intro l' hheap
    exact ends_pure.2 (hsome x rfl l' hheap)

theorem settle_ends {block : Option Block} {heap : Heap β} (hl : Sound k.toCustody hs l)
    (hserved : k.Served none n l.heap block heap) (hsize : size ≤ n) :
    Returns (settle size block) { l with heap := heap } (Granted k.toCustody hs size l) := by
  unfold settle
  cases block with
  | none => exact ends_pure.2 (Posts.of_still hl hserved)
  | some block =>
    obtain ⟨e, deal, husable, hcost, hn⟩ := hserved.deal hl.holds
    rw [Returns, ends_bind]
    refine (charge_ends (l := { l with heap := heap }) hl.tidy block.footprint).mono
      fun _ l' hc => ?_
    rw [hcost] at hc
    exact ends_pure.2 ⟨e, .of_alloc deal hc, husable, Nat.le_trans hsize hn⟩

theorem tryTake_ends {take : Nat → HeapOp β (Option Block)} {stop : Halt → Ledger β → Prop}
    (hl : Sound k.toCustody hs l)
    (htake : ∀ n, 0 < n → n < Size.bound → Ends (take n) l.heap (k.Served none n l.heap)
      fun fault heap => stop (.fault fault) { l with heap := heap }) :
    Ends (tryTake take size) l (Granted k.toCustody hs size l) stop := by
  unfold tryTake
  cases hreq : Size.request size with
  | error e => exact ends_pure.2 (Posts.refl hl)
  | ok request =>
    obtain ⟨hlt, rfl⟩ := Size.request_eq_ok_iff.1 hreq
    rw [ends_bind, ends_onHeap]
    refine (htake _ (Size.clamp_pos size) (Size.clamp_lt hlt)).mono fun block heap hserved => ?_
    exact (settle_ends hl hserved (Size.le_clamp size)).ends

theorem tryAllocUsable_ends (hl : Sound k.toCustody hs l) :
    Returns (tryAllocUsable s size) l (Granted k.toCustody hs size l) :=
  tryTake_ends hl fun _ hpos hlt => k.alloc hl.holds.valid hpos hlt

theorem tryAlloc_ends (hl : Sound k.toCustody hs l) :
    Returns (tryAlloc s size) l (Given k.toCustody hs size l) := by
  unfold tryAlloc
  rw [Returns, ends_map]
  exact (tryAllocUsable_ends hl).imp fun _ _ => Granted.given

theorem tryAllocZeroedUsable_ends (hl : Sound k.toCustody hs l) :
    Returns (tryAllocZeroedUsable s size) l (Granted k.toCustody hs size l) :=
  tryTake_ends hl fun _ hpos hlt => k.allocZeroed hl.holds.valid hpos hlt

theorem tryAllocZeroed_ends (hl : Sound k.toCustody hs l) :
    Returns (tryAllocZeroed s size) l (Given k.toCustody hs size l) := by
  unfold tryAllocZeroed
  rw [Returns, ends_map]
  exact (tryAllocZeroedUsable_ends hl).imp fun _ _ => Granted.given

theorem tryAllocZeroedArray_ends {count elem : Nat} (hl : Sound k.toCustody hs l) :
    Returns (tryAllocZeroedArray s count elem) l (Given k.toCustody hs (count * elem) l) := by
  unfold tryAllocZeroedArray
  cases hsize : Size.ofArray count elem with
  | error e => exact ends_pure.2 (Posts.refl hl)
  | ok size =>
    obtain ⟨-, -, rfl⟩ := Size.ofArray_eq_ok_iff.1 hsize
    exact tryAllocZeroed_ends hl

theorem tryAllocAligned_ends {align : Nat} (hl : Sound k.toCustody hs l) :
    Ends (tryAllocAligned s size align) l (Given k.toCustody hs size l) (Astray k l) := by
  unfold tryAllocAligned
  cases hlayout : Layout.of? size align with
  | none => exact ends_pure.2 (Posts.refl hl)
  | some layout =>
    obtain ⟨rfl, rfl⟩ := Layout.of?_eq_some hlayout
    cases hplain : layout.plainSize s.maxAlign with
    | some plain =>
      -- More may be asked for than the caller wants, and never less.
      simp only [hplain]
      rw [ends_map]
      refine (tryAlloc_ends hl).imp fun _ _ h => ?_
      exact (h.mono (Layout.le_plainSize hplain).1).mapError
    | none =>
      simp only [hplain]
      rw [ends_map]
      refine (tryTake_ends hl fun n hpos hlt => ?_).mono fun _ _ => Granted.given
      refine (k.allocAligned hl.holds.valid hpos hlt layout.isPowerOfTwo_align
        (Layout.plainSize_eq_none hplain)).imp (fun _ _ => id) ?_
      intro fault heap hfault
      obtain ⟨⟨r, rfl⟩, hno, hleak⟩ := hfault
      exact ⟨⟨r, rfl⟩, hno, hleak, rfl, rfl⟩

/-! ## Freeing -/

/-- A free is posted when the strategy has said what the block cost. -/
theorem free_posts {p : Nat} {d : Holding} {heap : Heap β} {stop : Halt → Ledger β → Prop}
    (hl : Sound k.toCustody hs l) (hp : hs p = some d)
    (t : k.Trade (some d.start) none l.heap heap) :
    Ends (credit d.footprint) { l with heap := heap }
      (fun _ => Posts k.toCustody hs (some p) none l) stop := by
  have deal := Custody.Deal.of_free hl.holds hp t
  exact (credit_ends (l := { l with heap := heap }) hl.tidy d.footprint).mono
    fun _ _ hc => .of_free hp deal hc

theorem free_ends {ptr : Option Nat} (hl : Sound k.toCustody hs l)
    (hptr : ∀ p ∈ ptr, (hs p).isSome) :
    Returns (free s ptr) l fun _ => Posts k.toCustody hs ptr none l := by
  cases ptr with
  | none => exact ends_pure.2 (.refl hl)
  | some p =>
    obtain ⟨d, hp⟩ := Option.isSome_iff_exists.1 (hptr p rfl)
    unfold free
    rw [Returns, ends_bind, ends_onHeap]
    refine (k.free hl.holds.valid (hl.holds.stands p d hp)).imp fun cost heap hfreed => ?_
    obtain ⟨hcost, t⟩ := hfreed
    rw [hcost]
    exact free_posts hl hp t

/-- A usable size that is not the block's own is found out before anything happens. -/
theorem freeWithSize_ends {ptr : Option Nat} {usable : Nat} (hl : Sound k.toCustody hs l)
    (hptr : ∀ p ∈ ptr, (hs p).isSome) :
    Ends (freeWithSize s ptr usable) l (fun _ => Posts k.toCustody hs ptr none l) fun e l' =>
      (∃ p d, ptr = some p ∧ hs p = some d ∧ usable ≠ d.usable ∧
        e = .fault (.wrongUsable usable d.usable)) ∧ l' = l := by
  cases ptr with
  | none => exact ends_pure.2 (.refl hl)
  | some p =>
    obtain ⟨d, hp⟩ := Option.isSome_iff_exists.1 (hptr p rfl)
    have hstands := hl.holds.stands p d hp
    unfold freeWithSize
    rw [ends_bind, ends_onHeap]
    by_cases husable : usable = d.usable
    · subst husable
      refine (k.freeWithSize hl.holds.valid hstands).imp fun cost heap hfreed => ?_
      obtain ⟨hcost, t⟩ := hfreed
      rw [hcost]
      exact free_posts hl hp t
    · refine (k.freeWithWrongSize hl.holds.valid hstands husable).imp (fun _ _ => False.elim) ?_
      intro fault heap hfault
      obtain ⟨rfl, rfl⟩ := hfault
      exact ⟨⟨p, d, rfl, hp, husable, rfl⟩, rfl⟩

/-! ## Resizing -/

/-- A resize that went through is taken off and put on again. -/
theorem resize_posts {p : Nat} {d : Holding} {block : Block} {heap : Heap β}
    (stop : Halt → Ledger β → Prop) (hl : Sound k.toCustody hs l) (hp : hs p = some d)
    (hserved : k.Served (some d.start) n l.heap (some block) heap) :
    Ends (do credit d.footprint; charge block.footprint) { l with heap := heap }
      (fun _ l' => ∃ e, Posts k.toCustody hs (some p) (some (block.ptr, e)) l l' ∧
        block.usable = e.usable ∧ n ≤ e.usable) stop := by
  obtain ⟨e, deal, husable, hcost, hn⟩ := hserved.deal_resized hl.holds hp
  rw [ends_bind]
  refine (credit_ends (l := { l with heap := heap }) hl.tidy d.footprint).mono fun _ l₁ hc => ?_
  refine (charge_ends hc.tidy block.footprint).mono fun _ l₂ hc' => ?_
  refine ⟨e, ⟨?_, hc'.tidy, ?_⟩, husable, hn⟩
  · rw [hc'.heap, hc.heap]
    exact deal
  · rw [hc'.used, hc.used, hcost, Option.bind_some, hp]
    rfl

theorem tryReallocUsable_zero {p : Nat} : tryReallocUsable s (some p) 0 = (do
    free s (some p)
    pure (.ok (none, 0))) := rfl

/-- A size that is refused costs the block. -/
theorem tryReallocUsable_tooLarge {p : Nat} (hlarge : Size.tooLarge size = true) :
    tryReallocUsable s (some p) size = (do
      free s (some p)
      pure (.error (.overflow size))) := by
  have hzero : size ≠ 0 := by
    rintro rfl
    exact absurd hlarge (by decide)
  have hreq : Size.request size = .error (.excessive size) := if_pos hlarge
  unfold tryReallocUsable
  simp only [if_neg hzero, hreq]
  rfl

/-- Any other size is up to the strategy. -/
theorem tryReallocUsable_passed {p : Nat} (hzero : size ≠ 0)
    (hsmall : ¬ Size.tooLarge size = true) :
    tryReallocUsable s (some p) size = (do
      match ← onHeap (s.realloc p size) with
      | none => pure (.error (.exhausted size))
      | some resized =>
          credit resized.oldFootprint
          charge resized.block.footprint
          pure (.ok (some resized.block.ptr, resized.block.usable))) := by
  have hreq : Size.request size = .ok size := by
    apply Size.request_eq_ok_iff.2
    exact ⟨Size.lt_bound hsmall, (if_neg hzero).symm⟩
  unfold tryReallocUsable
  rw [hreq]
  exact if_neg hzero

theorem tryReallocUsable_some_ends {p : Nat} {d : Holding} (hl : Sound k.toCustody hs l)
    (hp : hs p = some d) (hzero : size ≠ 0) (hsmall : ¬ Size.tooLarge size = true) :
    Returns (tryReallocUsable s (some p) size) l (Resettled k.toCustody hs (some p) size l) := by
  have hlt := Size.lt_bound hsmall
  rw [Returns, tryReallocUsable_passed hzero hsmall, ends_bind, ends_onHeap]
  refine (k.realloc hl.holds.valid (hl.holds.stands p d hp) (Nat.pos_of_ne_zero hzero)
    hlt).imp fun r heap hresized => ?_
  obtain ⟨hserved, hold⟩ := hresized
  cases r with
  | none =>
    refine ends_pure.2 ⟨?_, fun _ => ⟨hzero, fun hlarge => absurd hlarge hsmall⟩⟩
    rw [if_neg hsmall]
    exact .of_still hl hserved
  | some resized =>
    have hresize := resize_posts (fun _ _ => False) hl hp hserved
    rw [ends_bind] at hresize
    rw [ends_bind, hold resized rfl]
    refine hresize.mono fun _ l₁ h => ?_
    rw [ends_bind]
    refine h.mono fun _ l₂ hposted => ends_pure.2 ?_
    obtain ⟨e, hpost, husable, hsize⟩ := hposted
    refine ⟨some (resized.block.ptr, e), rfl, hpost, ?_, ?_⟩
    · intro hnone
      cases hnone
    · intro c hc
      cases hc
      exact ⟨husable, hsize⟩

/-- What the strategy keeps of a block, the ledger keeps. -/
theorem tryReallocUsable_carries (hk : k.Preserves) {p : Nat} {d : Holding}
    (hl : Sound k.toCustody hs l) (hp : hs p = some d) (hzero : size ≠ 0)
    (hsmall : ¬ Size.tooLarge size = true) :
    Returns (tryReallocUsable s (some p) size) l fun r l' => ∀ b, r = .ok b → ∀ q ∈ b.1,
      Memory.Carried p q (min d.usable size) l.heap.memory l'.heap.memory := by
  have hstands := hl.holds.stands p d hp
  have hpos := Nat.pos_of_ne_zero hzero
  rw [Returns, tryReallocUsable_passed hzero hsmall, ends_bind, ends_onHeap]
  apply (hk hl.holds.valid hstands hpos (Size.lt_bound hsmall)).imp
  intro r heap hcarried
  cases r with
  | none =>
    apply ends_pure.2
    intro b hb
    cases hb
  | some resized =>
    simp only
    rw [ends_bind]
    apply count_keeps
    intro l₁ h₁
    rw [ends_bind]
    apply count_keeps
    intro l₂ h₂
    apply ends_pure.2
    intro b hb q hq
    cases hb
    cases hq
    rw [h₂, h₁]
    exact hcarried resized rfl

theorem tryReallocUsable_none_ends (hl : Sound k.toCustody hs l) :
    Returns (tryReallocUsable s none size) l (Resettled k.toCustody hs none size l) := by
  unfold tryReallocUsable
  simp only
  rw [Returns, ends_map]
  refine (tryAllocUsable_ends hl).imp fun r l' hr => ?_
  cases r with
  | error e =>
    refine ⟨?_, ?_⟩
    · rw [ite_self]
      exact hr
    · intro hnone
      cases hnone
  | ok block =>
    obtain ⟨e, hpost, husable, hsize⟩ := hr
    refine ⟨some (block.1, e), rfl, hpost, ?_, ?_⟩
    · intro hnone
      cases hnone
    · intro c hc
      cases hc
      exact ⟨husable, hsize⟩

theorem tryReallocUsable_ends {ptr : Option Nat} (hl : Sound k.toCustody hs l)
    (hptr : ∀ p ∈ ptr, (hs p).isSome) :
    Returns (tryReallocUsable s ptr size) l (Resettled k.toCustody hs ptr size l) := by
  cases ptr with
  | none => exact tryReallocUsable_none_ends hl
  | some p =>
    obtain ⟨d, hp⟩ := Option.isSome_iff_exists.1 (hptr p rfl)
    -- Two sizes free the block: none, which is what was asked for, and one that is refused.
    by_cases hzero : size = 0
    · subst hzero
      rw [tryReallocUsable_zero, Returns, ends_bind]
      refine (free_ends hl hptr).imp fun _ l' hpost => ends_pure.2 ?_
      refine ⟨none, rfl, hpost, fun _ => rfl, ?_⟩
      intro c hc
      cases hc
    by_cases hlarge : Size.tooLarge size = true
    · rw [tryReallocUsable_tooLarge hlarge, Returns, ends_bind]
      refine (free_ends hl hptr).imp fun _ l' hpost => ends_pure.2 ?_
      refine ⟨?_, fun _ => ⟨hzero, fun _ => rfl⟩⟩
      rw [if_pos hlarge]
      exact hpost
    · exact tryReallocUsable_some_ends hl hp hzero hlarge

theorem tryRealloc_ends {ptr : Option Nat} (hl : Sound k.toCustody hs l)
    (hptr : ∀ p ∈ ptr, (hs p).isSome) :
    Returns (tryRealloc s ptr size) l fun r l' => ∃ block, r = block.map Prod.fst ∧
      Resettled k.toCustody hs ptr size l block l' := by
  unfold tryRealloc
  rw [Returns, ends_map]
  exact (tryReallocUsable_ends hl hptr).imp fun block _ h => ⟨block, rfl, h⟩

/-! ## Forms that may not fail -/

/-- The handler in force is called, and nothing else happens. -/
theorem fail_ends {α : Type} {ret : α → Ledger β → Prop} {stop : Halt → Ledger β → Prop} :
    Ends (fail n) l ret stop ↔ stop (.outOfMemory l.policy.current n)
      { l with log := l.log ++ l.policy.current.events n } := by
  unfold fail handler
  rw [ends_bind, ends_bind, ends_get, ends_pure, ends_bind, ends_emit, ends_throw]

theorem orFail_ends {α : Type} {attempt : LedgerOp β (Except AllocError α)}
    {ret : α → Ledger β → Prop} {stop : Halt → Ledger β → Prop}
    {done : Except AllocError α → Ledger β → Prop} (h : Ends attempt l done stop)
    (hok : ∀ a l', done (.ok a) l' → ret a l')
    (herror : ∀ e l', done (.error e) l' → stop (.outOfMemory l'.policy.current e.requested)
      { l' with log := l'.log ++ l'.policy.current.events e.requested }) :
    Ends (orFail attempt) l ret stop := by
  unfold orFail
  rw [ends_bind]
  refine h.mono fun r l' hr => ?_
  cases r with
  | ok a => exact ends_pure.2 (hok a l' hr)
  | error e => exact fail_ends.2 (herror e l' hr)

end Alloc

end HeapLedger.Ledger
