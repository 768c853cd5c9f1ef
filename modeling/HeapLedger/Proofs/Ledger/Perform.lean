import HeapLedger.Proofs.Host
import HeapLedger.Proofs.Ledger.Outcome

/-!
# `HeapLedger/Proofs/Ledger/Perform.lean` — every call has its outcome

`perform_ends` says of every call with a live pointer, or with none, that it ends in one of the
outcomes of `HeapLedger/Proofs/Ledger/Outcome.lean`. There is one lemma for each kind of call, and
both modes of an allocation come from one attempt.
-/

set_option autoImplicit false

namespace HeapLedger.Action

variable {β : Type} {s : Strategy β} {k : s.Contract} {hs : Holdings} {l l' : Ledger β}
  {host : Host} {a : Action} {mode : Mode} {size : Nat} {ptr : Option Nat}

/-- What `perform` makes of a call is one of the outcomes. -/
abbrev Comes (k : s.Contract) (host : Host) (hs : Holdings) (l : Ledger β) (a : Action) : Prop :=
  Ends (a.perform s host) l (fun r => Outcome k hs l a (.ok r))
    fun e => Outcome k hs l a (.error e)

/-! ## Allocating -/

/-- Both forms of an allocation that tells the usable bytes. -/
theorem granted_comes {op : LedgerOp β (Except AllocError (Nat × Nat))}
    (hspent : a.spent = none) (hforfeit : a.forfeit = none)
    (h : Returns op l (Ledger.Granted k.toCustody hs size l)) :
    Ends (reported sizedReply op) l (fun r => Outcome k hs l a (.ok r))
        (fun e => Outcome k hs l a (.error e)) ∧
      Ends (sizedReply <$> Ledger.orFail op) l (fun r => Outcome k hs l a (.ok r))
        fun e => Outcome k hs l a (.error e) := by
  have hsettles : Ends op l (Settles k hs l a sizedReply) fun e => Outcome k hs l a (.error e) :=
    h.imp fun _ _ => settles_granted hspent hforfeit (fun _ => rfl) fun _ _ husable =>
      Ending.answers_sized rfl fun c hc => by cases hc; exact husable
  rw [ends_map]
  exact ⟨reported_ends hsettles, orFail_ends sizedReply hsettles⟩

/-- Both forms of the same allocation that does not tell. -/
theorem granted_comes_fst {op : LedgerOp β (Except AllocError (Nat × Nat))}
    (hspent : a.spent = none) (hforfeit : a.forfeit = none)
    (h : Returns op l (Ledger.Granted k.toCustody hs size l)) :
    Ends (reported pointerReply (Except.map Prod.fst <$> op)) l
        (fun r => Outcome k hs l a (.ok r)) (fun e => Outcome k hs l a (.error e)) ∧
      Ends (pointerReply <$> Prod.fst <$> Ledger.orFail op) l
        (fun r => Outcome k hs l a (.ok r)) fun e => Outcome k hs l a (.error e) := by
  rw [ends_map, ends_map]
  constructor
  · refine reported_ends ?_
    rw [ends_map]
    exact h.imp fun _ _ hr => settles_given hspent hforfeit hr.given
  · refine orFail_ends (fun b : Nat × Nat => pointerReply b.1) ?_
    exact h.imp fun _ _ => settles_granted hspent hforfeit (fun _ => rfl) fun _ _ _ =>
      Ending.answers_pointer rfl

/-- Both forms of an allocation that may go astray. -/
theorem given_comes {op : LedgerOp β (Except AllocError Nat)}
    (hspent : a.spent = none) (hforfeit : a.forfeit = none)
    (h : Ends op l (Ledger.Given k.toCustody hs size l) (Ledger.Astray k l)) :
    Ends (reported pointerReply op) l (fun r => Outcome k hs l a (.ok r))
        (fun e => Outcome k hs l a (.error e)) ∧
      Ends (pointerReply <$> Ledger.orFail op) l (fun r => Outcome k hs l a (.ok r))
        fun e => Outcome k hs l a (.error e) := by
  have hsettles : Ends op l (Settles k hs l a pointerReply) fun e => Outcome k hs l a (.error e) :=
    h.imp (fun _ _ => settles_given hspent hforfeit) fun _ _ => .astray hforfeit
  rw [ends_map]
  exact ⟨reported_ends hsettles, orFail_ends pointerReply hsettles⟩

theorem alloc_comes (hl : Ledger.Sound k.toCustody hs l) :
    Comes k host hs l (.alloc mode size) := by
  have hspec : Returns (Ledger.tryAllocUsable s size) l (Ledger.Granted k.toCustody hs size l) :=
    Ledger.tryAllocUsable_ends hl
  have h := granted_comes_fst (a := .alloc mode size) rfl rfl hspec
  cases mode with
  | attempt => exact h.1
  | orFail => exact h.2

theorem allocUsable_comes (hl : Ledger.Sound k.toCustody hs l) :
    Comes k host hs l (.allocUsable mode size) := by
  have hspec : Returns (Ledger.tryAllocUsable s size) l (Ledger.Granted k.toCustody hs size l) :=
    Ledger.tryAllocUsable_ends hl
  have h := granted_comes (a := .allocUsable mode size) rfl rfl hspec
  cases mode with
  | attempt => exact h.1
  | orFail => exact h.2

theorem allocZeroed_comes (hl : Ledger.Sound k.toCustody hs l) :
    Comes k host hs l (.allocZeroed mode size) := by
  have hspec : Returns (Ledger.tryAllocZeroedUsable s size) l
      (Ledger.Granted k.toCustody hs size l) :=
    Ledger.tryAllocZeroedUsable_ends hl
  have h := granted_comes_fst (a := .allocZeroed mode size) rfl rfl hspec
  cases mode with
  | attempt => exact h.1
  | orFail => exact h.2

theorem allocZeroedUsable_comes (hl : Ledger.Sound k.toCustody hs l) :
    Comes k host hs l (.allocZeroedUsable mode size) := by
  have hspec : Returns (Ledger.tryAllocZeroedUsable s size) l
      (Ledger.Granted k.toCustody hs size l) :=
    Ledger.tryAllocZeroedUsable_ends hl
  have h := granted_comes (a := .allocZeroedUsable mode size) rfl rfl hspec
  cases mode with
  | attempt => exact h.1
  | orFail => exact h.2

theorem allocZeroedArray_comes {count elem : Nat} (hl : Ledger.Sound k.toCustody hs l) :
    Comes k host hs l (.allocZeroedArray mode count elem) := by
  have hspec : Ends (Ledger.tryAllocZeroedArray s count elem) l
      (Ledger.Given k.toCustody hs (count * elem) l) (Ledger.Astray k l) :=
    (Ledger.tryAllocZeroedArray_ends hl).ends
  have h := given_comes (a := .allocZeroedArray mode count elem) rfl rfl hspec
  cases mode with
  | attempt => exact h.1
  | orFail => exact h.2

theorem allocAligned_comes {align : Nat} (hl : Ledger.Sound k.toCustody hs l) :
    Comes k host hs l (.allocAligned mode size align) := by
  have hspec : Ends (Ledger.tryAllocAligned s size align) l
      (Ledger.Given k.toCustody hs size l) (Ledger.Astray k l) := Ledger.tryAllocAligned_ends hl
  have h := given_comes (a := .allocAligned mode size align) rfl rfl hspec
  cases mode with
  | attempt => exact h.1
  | orFail => exact h.2

/-! ## Resizing and freeing -/

/-- A resize that may not fail, up to what is made of its result. A resize of nothing to nothing is
answered with nothing. -/
theorem reallocUsable_ends (reply : Option Nat × Nat → Reply Nat) (hspent : a.spent = ptr)
    (hforfeit : a.forfeit = if Size.tooLarge size = true then ptr else none)
    (hfails : ∀ b, a.fails (.ok (reply b)) = false)
    (hreply : ∀ b came, came.map Prod.fst = b.1 → (∀ c ∈ came, b.2 = c.2.usable) →
      Ending.Answers (.ok (reply b)) came)
    (h : Returns (Ledger.tryReallocUsable s ptr size) l
      (Ledger.Resettled k.toCustody hs ptr size l)) :
    Ends (Ledger.reallocUsable s ptr size) l (fun b => Outcome k hs l a (.ok (reply b)))
      fun e => Outcome k hs l a (.error e) := by
  unfold Ledger.reallocUsable
  rw [ends_bind]
  refine h.imp fun r l' hr => ?_
  cases r with
  | ok b =>
    obtain ⟨came, hptr, hpost, -, husable⟩ := hr
    rw [← hspent] at hpost
    have hanswers := hreply b came hptr fun c hc => (husable c hc).1
    exact ends_pure.2 (.of_ok came (hfails b) hanswers hpost)
  | error e =>
    obtain ⟨hpost, hsome⟩ := hr
    simp only
    by_cases hzero : size = 0
    · -- Of the resizes to nothing only one can fail, the one that has nothing to free.
      have hnone : ptr = none := by
        cases ptr with
        | none => rfl
        | some p => exact absurd hzero (hsome rfl).1
      subst hnone
      rw [ite_self] at hpost
      rw [if_pos hzero]
      have hreplied := hreply (none, 0) none rfl fun _ hc => nomatch hc
      refine ends_pure.2 (.of_ok none (hfails _) hreplied ?_)
      rw [hspent]
      exact hpost
    · rw [if_neg hzero, Ledger.fail_ends]
      refine .of_failed rfl rfl ?_
      rw [hforfeit]
      exact hpost.congr rfl rfl rfl

theorem realloc_comes (hl : Ledger.Sound k.toCustody hs l) (hptr : ∀ p ∈ ptr, (hs p).isSome) :
    Comes k host hs l (.realloc mode ptr size) := by
  have h : Returns (Ledger.tryReallocUsable s ptr size) l
      (Ledger.Resettled k.toCustody hs ptr size l) := Ledger.tryReallocUsable_ends hl hptr
  cases mode with
  | attempt =>
    refine reported_ends ?_
    unfold Ledger.tryRealloc
    rw [ends_map]
    exact h.imp fun _ _ => settles_resettled Prod.fst Reply.pointer rfl rfl
      (fun b => fails_pointer rfl b.1) fun _ _ hptr _ => Ending.answers_pointer hptr
  | orFail =>
    unfold Comes perform Ledger.realloc
    rw [ends_map, ends_map]
    exact reallocUsable_ends (fun b => .pointer b.1) rfl rfl (fun b => fails_pointer rfl b.1)
      (fun _ _ hptr _ => Ending.answers_pointer hptr) h

theorem reallocUsable_comes (hl : Ledger.Sound k.toCustody hs l)
    (hptr : ∀ p ∈ ptr, (hs p).isSome) : Comes k host hs l (.reallocUsable mode ptr size) := by
  have h : Returns (Ledger.tryReallocUsable s ptr size) l
      (Ledger.Resettled k.toCustody hs ptr size l) := Ledger.tryReallocUsable_ends hl hptr
  cases mode with
  | attempt =>
    refine reported_ends (h.imp fun r l' hr => ?_)
    have hsettles := settles_resettled (a := .reallocUsable .attempt ptr size) id
      (fun b => Reply.sized b.1 b.2) rfl rfl (fun _ => rfl) (fun _ _ => Ending.answers_sized) hr
    rwa [Except.map_id] at hsettles
  | orFail =>
    unfold Comes perform
    rw [ends_map]
    exact reallocUsable_ends (fun b => .sized b.1 b.2) rfl rfl (fun _ => rfl)
      (fun _ _ => Ending.answers_sized) h

theorem dupString_comes {text : List UInt8} (hl : Ledger.Sound k.toCustody hs l) :
    Comes k host hs l (.dupString text) := by
  unfold Comes perform Ledger.dupString Ledger.alloc Ledger.allocUsable
  rw [ends_map, ends_bind, ends_map]
  refine Ledger.orFail_ends (Ledger.tryAllocUsable_ends hl).ends ?_ ?_
  · intro b l' hgranted
    obtain ⟨e, hpost, -, hsize⟩ := hgranted
    rw [ends_bind, ends_onHeap, ends_mapMemory, ends_pure]
    refine .of_ok (some (b.1, e)) rfl (Ending.answers_pointer rfl) (hpost.write fun x hx => ?_)
    have hchanged := Memory.changed_storeString hx
    omega
  · intro e l' hpost
    exact .of_failed rfl rfl (hpost.congr rfl rfl rfl)

theorem free_comes (hl : Ledger.Sound k.toCustody hs l) (hptr : ∀ p ∈ ptr, (hs p).isSome) :
    Comes k host hs l (.free ptr) := by
  unfold Comes perform
  rw [ends_map]
  exact (Ledger.free_ends hl hptr).imp fun _ _ => .of_spent rfl rfl rfl

theorem freeWithSize_comes {usable : Nat} (hl : Ledger.Sound k.toCustody hs l)
    (hptr : ∀ p ∈ ptr, (hs p).isSome) : Comes k host hs l (.freeWithSize ptr usable) := by
  unfold Comes perform
  rw [ends_map]
  refine (Ledger.freeWithSize_ends hl hptr).imp (fun _ _ => .of_spent rfl rfl rfl) ?_
  intro e l' hstop
  obtain ⟨-, rfl⟩ := hstop
  exact .of_failed rfl rfl (.refl hl)

/-! ## Questions, advice and maintenance -/

theorem usableSize_comes {p : Nat} {d : Holding} (hl : Ledger.Sound k.toCustody hs l)
    (hp : hs p = some d) : Comes k host hs l (.usableSize p) := by
  have hlook := k.usableSize hl.holds.valid (hl.holds.stands p d hp)
  unfold Comes perform Ledger.usableSize
  rw [ends_map, ends_onHeap, ends_query hlook]
  exact .of_still rfl rfl rfl (.refl hl)

theorem allocationSize_comes {p : Nat} {d : Holding} (hl : Ledger.Sound k.toCustody hs l)
    (hp : hs p = some d) : Comes k host hs l (.allocationSize p) := by
  have hlook := k.footprint hl.holds.valid (hl.holds.stands p d hp)
  unfold Comes perform Ledger.allocationSize
  rw [ends_map, ends_onHeap, ends_query hlook]
  exact .of_still rfl rfl rfl (.refl hl)

theorem adviseUnused_comes {hint : Nat} (hhost : host.Confined)
    (hl : Ledger.Sound k.toCustody hs l) (hptr : ∀ p ∈ ptr, (hs p).isSome) :
    Comes k host hs l (.adviseUnused ptr hint) := by
  have hstill : Outcome k hs l (.adviseUnused ptr hint) (.ok (.bytes 0)) l :=
    Outcome.of_still rfl rfl rfl (.refl hl)
  unfold Comes perform
  rw [ends_map]
  cases ptr with
  | none => exact ends_pure.2 hstill
  | some p =>
    obtain ⟨d, hp⟩ := Option.isSome_iff_exists.1 (hptr p rfl)
    have hlook := k.usableSize hl.holds.valid (hl.holds.stands p d hp)
    unfold Ledger.adviseUnused Ledger.usableSize
    simp only
    split
    · exact ends_pure.2 hstill
    rw [ends_bind, ends_onHeap, ends_query hlook]
    split
    · exact ends_pure.2 hstill
    rw [ends_bind, ends_get, ends_bind, ends_modify, ends_bind, ends_emit, ends_pure]
    exact .advised rfl hp (hhost p d.usable l.heap.memory) rfl rfl rfl

/-! ## By layout -/

theorem layoutAlloc_comes {layout : Layout} (hl : Ledger.Sound k.toCustody hs l) :
    Comes k host hs l (.layoutAlloc layout) := by
  unfold Comes perform
  rw [ends_map]
  exact (Ledger.layoutAlloc_ends hl).imp (fun _ _ => outcome_offered rfl rfl rfl)
    fun _ _ => .astray rfl

theorem layoutAllocZeroed_comes {layout : Layout} (hl : Ledger.Sound k.toCustody hs l) :
    Comes k host hs l (.layoutAllocZeroed layout) := by
  unfold Comes perform
  rw [ends_map]
  exact (Ledger.layoutAllocZeroed_ends hl).imp (fun _ _ => outcome_offered rfl rfl rfl)
    fun _ _ => .astray rfl

theorem layoutRealloc_comes {layout : Layout} (hl : Ledger.Sound k.toCustody hs l)
    (hptr : ∀ p ∈ ptr, (hs p).isSome) : Comes k host hs l (.layoutRealloc ptr layout size) := by
  unfold Comes perform
  rw [ends_map]
  exact (Ledger.layoutRealloc_ends hl hptr).imp (fun _ _ => outcome_offered rfl rfl rfl)
    fun _ _ => .astray rfl

theorem setBackgroundThread_comes {enable : Bool} (hl : Ledger.Sound k.toCustody hs l) :
    Comes k host hs l (.setBackgroundThread enable) := by
  unfold Comes perform Ledger.setBackgroundThread
  rw [ends_map, ends_onHeap]
  exact (k.setBackgroundThread enable hl.holds.valid).imp fun _ heap t =>
    Outcome.of_still rfl rfl rfl (.of_still hl t)

theorem purge_comes (hl : Ledger.Sound k.toCustody hs l) : Comes k host hs l .purge := by
  unfold Comes perform Ledger.purge
  rw [ends_map, ends_bind, ends_onHeap]
  refine (k.purge hl.holds.valid).imp fun outcome heap t => ?_
  rw [ends_bind, ends_emit, ends_pure]
  exact .of_still rfl rfl rfl ((Ledger.Posts.of_still hl t).congr rfl rfl rfl)

theorem layoutFree_comes {layout : Layout} (hl : Ledger.Sound k.toCustody hs l)
    (hptr : ∀ p ∈ ptr, (hs p).isSome) : Comes k host hs l (.layoutFree ptr layout) := by
  unfold Comes perform
  rw [ends_map]
  exact (Ledger.layoutFree_ends hl hptr).imp fun _ _ => .of_spent rfl rfl rfl

theorem setHandler_comes {handler : OomHandler} (hl : Ledger.Sound k.toCustody hs l) :
    Comes k host hs l (.setHandler handler) := by
  unfold Comes perform Ledger.setHandler
  rw [ends_map, ends_bind, ends_emit, ends_modify]
  exact .of_still rfl rfl rfl ((Ledger.Posts.refl hl).congr rfl rfl rfl)

/-- Every call of the ledger ends in one of the outcomes, if its pointer is live. -/
theorem perform_ends {a : Action} (hhost : host.Confined) (hl : Ledger.Sound k.toCustody hs l)
    (hbooked : a.booked = true) (hptr : ∀ p ∈ a.pointer?, (hs p).isSome) :
    Comes k host hs l a := by
  cases a with
  | alloc mode size => exact alloc_comes hl
  | allocUsable mode size => exact allocUsable_comes hl
  | allocZeroed mode size => exact allocZeroed_comes hl
  | allocZeroedUsable mode size => exact allocZeroedUsable_comes hl
  | allocZeroedArray mode count elem => exact allocZeroedArray_comes hl
  | allocAligned mode size align => exact allocAligned_comes hl
  | realloc mode ptr size => exact realloc_comes hl hptr
  | reallocUsable mode ptr size => exact reallocUsable_comes hl hptr
  | dupString text => exact dupString_comes hl
  | free ptr => exact free_comes hl hptr
  | freeWithSize ptr usable => exact freeWithSize_comes hl hptr
  | usableSize ptr =>
    obtain ⟨d, hp⟩ := Option.isSome_iff_exists.1 (hptr ptr rfl)
    exact usableSize_comes hl hp
  | allocationSize ptr =>
    obtain ⟨d, hp⟩ := Option.isSome_iff_exists.1 (hptr ptr rfl)
    exact allocationSize_comes hl hp
  | adviseUnused ptr hint => exact adviseUnused_comes hhost hl hptr
  | setBackgroundThread enable => exact setBackgroundThread_comes hl
  | purge => exact purge_comes hl
  | setHandler handler => exact setHandler_comes hl
  | info =>
    unfold Comes perform Ledger.info
    rw [ends_map, ends_bind, ends_get, ends_pure]
    exact .of_still rfl rfl rfl (.refl hl)
  | record =>
    unfold Comes perform
    rw [ends_bind, ends_get, ends_pure]
    exact .of_still rfl rfl rfl (.refl hl)
  | handler =>
    unfold Comes perform Ledger.handler
    rw [ends_map, ends_bind, ends_get, ends_pure]
    exact .of_still rfl rfl rfl (.refl hl)
  | layoutAlloc layout => exact layoutAlloc_comes hl
  | layoutAllocZeroed layout => exact layoutAllocZeroed_comes hl
  | layoutRealloc ptr layout size => exact layoutRealloc_comes hl hptr
  | layoutFree ptr layout => exact layoutFree_comes hl hptr
  | blockAlloc | blockAllocZeroed | blockAllocAligned | blockRealloc | blockFree
  | blockFreeWithSize | blockUsableSize | blockFootprint => cases hbooked

end HeapLedger.Action
