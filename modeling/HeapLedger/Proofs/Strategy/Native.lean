import HeapLedger.Proofs.Strategy.Contract

/-!
# `HeapLedger/Proofs/Strategy/Native.lean` — blocks as the backend has them

A native strategy adds nothing to a block: the caller's pointer is the backend's, the whole block
may be used, and the whole block is booked. All that it must get right is to ask for the size of a
block while the block is live.
-/

set_option autoImplicit false

namespace HeapLedger.Strategy

variable {β : Type}

/-- The whole of a block. -/
def Native.holding (p : Nat) (l : Lease) : Holding :=
  ⟨p, l, l.bytes, l.bytes⟩

namespace Native

variable {b : SizedBackend β} {due : Lease → Nat → Prop} {h h' : Heap β} {p n : Nat}

/-- Every pointer stands for the whole of a live block. -/
def custody (c : b.Contract due) : Custody β where
  toSurvey := c.toSurvey
  stands := fun p d h => c.live h p = some d.lease ∧ d = holding p d.lease
  lease := by
    intro p d h hp
    obtain ⟨hl, hd⟩ := hp
    rw [hd]
    exact hl
  inside := by
    intro p d h hv hp
    obtain ⟨hl, hd⟩ := hp
    have hfits := c.fits hv hl
    rw [hd]
    show 0 < d.lease.bytes ∧ p ≤ p ∧ p + d.lease.bytes ≤ p + d.lease.bytes
    omega
  stable := by
    intro p d h h' hp hl _
    obtain ⟨-, hd⟩ := hp
    refine ⟨?_, hd⟩
    rw [hd] at hl
    exact hl

theorem stands_holding {c : b.Contract due} {l : Lease} (hl : c.live h p = some l) :
    (custody c).stands p (holding p l) h := ⟨hl, rfl⟩

theorem sizedBlock_ends {c : b.Contract due} {l : Lease} {ret : Block → Heap β → Prop}
    {stop : Fault → Heap β → Prop} (hv : c.valid h) (hl : c.live h p = some l)
    (hret : ret ⟨p, l.bytes, l.bytes⟩ h) : Ends (sizedBlock b p) h ret stop := by
  unfold sizedBlock
  rw [ends_bind, ends_query (c.blockSize hv hl), ends_pure]
  exact hret

/-- What the backend answers a request with, as a block. -/
theorem served {c : b.Contract due} {gone : Option Nat} {ptr : Nat} {block : Block} {bytes : Nat}
    (t : c.Trade gone (some (ptr, ⟨n, bytes⟩)) h h') (hblock : block = ⟨ptr, bytes, bytes⟩) :
    (custody c).Served gone n h (some block) h' := by
  obtain rfl := hblock
  exact ⟨holding ptr ⟨n, bytes⟩, t, stands_holding t.live_came, rfl, rfl,
    (c.fits t.valid t.live_came).2.1⟩

/-- A request passed on to the backend. -/
theorem take_ends {c : b.Contract due} {take : HeapOp β (Option Nat)}
    (htake : Returns take h (c.Served none n h)) :
    Returns (do
      match ← take with
      | none => pure none
      | some ptr => some <$> sizedBlock b ptr) h ((custody c).Served none n h) := by
  rw [Returns, ends_bind]
  refine htake.imp fun r h' hr => ?_
  cases r with
  | none => exact ends_pure.2 hr
  | some ptr =>
    obtain ⟨bytes, t⟩ := hr
    rw [ends_map]
    exact sizedBlock_ends t.valid t.live_came (served t rfl)

theorem allocAligned_ends {c : b.Contract due} {align : Nat} (hv : c.valid h) (hn : 0 < n)
    (hlim : n < Word.limit) (hpow : align.isPowerOfTwo) (hmax : b.maxAlign < align) :
    Ends ((native b).allocAligned n align) h ((custody c).Served none n h)
      fun e h' => (∃ r, e = .misaligned r) ∧ ¬ c.Honours ∧ (custody c).Leaked h h' := by
  obtain ⟨r, h', hrun, hr⟩ := (c.allocAligned hv hn hlim hpow hmax).exists
  show Ends (do
    match ← b.allocAligned n align with
    | none => pure none
    | some ptr =>
        if ptr % align ≠ 0 then throw (.misaligned (ptr % align))
        else some <$> sizedBlock b ptr) h _ _
  rw [ends_bind]
  refine Ends.intro_ok hrun ?_
  cases r with
  | none => exact ends_pure.2 hr
  | some ptr =>
    obtain ⟨bytes, t⟩ := hr
    by_cases hptr : ptr % align = 0
    · simp only [ne_eq, hptr, not_true, if_false]
      rw [ends_map]
      exact sizedBlock_ends t.valid t.live_came (served t rfl)
    · -- The backend has broken its word, and the block it handed out is nobody's.
      simp only [ne_eq, hptr, not_false_eq_true, if_true, ends_throw]
      refine ⟨⟨_, rfl⟩, fun hc => hptr ?_, ptr, _, t⟩
      exact hc h n align ptr h' hv hn hlim hpow hmax hrun

theorem realloc_eq : (native b).realloc p n = (do
    let old ← HeapOp.query (b.blockSize p)
    match ← b.realloc p n with
    | none => pure none
    | some moved =>
        let block ← sizedBlock b moved
        pure (some ⟨block, old⟩)) := rfl

theorem realloc_ends {c : b.Contract due} {l : Lease} (hv : c.valid h) (hl : c.live h p = some l)
    (hn : 0 < n) (hlim : n < Word.limit) :
    Returns ((native b).realloc p n) h fun r h' =>
      (custody c).Served (some p) n h (r.map Resized.block) h' ∧
        ∀ x ∈ r, x.oldFootprint = l.bytes := by
  rw [Returns, realloc_eq, ends_bind, ends_query (c.blockSize hv hl), ends_bind]
  refine (c.realloc hv hl hn hlim).imp fun r h' hr => ?_
  cases r with
  | none =>
    refine ends_pure.2 ⟨hr, ?_⟩
    intro x hx
    cases hx
  | some moved =>
    obtain ⟨bytes, t⟩ := hr
    rw [ends_bind]
    refine sizedBlock_ends t.valid t.live_came (ends_pure.2 ⟨served t rfl, ?_⟩)
    intro x hx
    cases hx
    rfl

/-- The pointer is the backend's, and so is the content. -/
theorem realloc_carries {c : b.Contract due} (hc : c.Preserves Lease.bytes) {l : Lease}
    (hv : c.valid h) (hl : c.live h p = some l) (hn : 0 < n) (hlim : n < Word.limit) :
    Returns ((native b).realloc p n) h fun r h' =>
      ∀ x ∈ r, Memory.Carried p x.block.ptr (min l.bytes n) h.memory h'.memory := by
  rw [Returns, realloc_eq, ends_bind, ends_query (c.blockSize hv hl), ends_bind]
  apply ((c.realloc hv hl hn hlim).and (hc hv hl hn hlim)).imp
  intro r h' hr
  obtain ⟨hserved, hcarried⟩ := hr
  cases r with
  | none =>
    apply ends_pure.2
    intro x hx
    cases hx
  | some moved =>
    obtain ⟨bytes, t⟩ := hserved
    rw [ends_bind]
    refine sizedBlock_ends t.valid t.live_came (ends_pure.2 ?_)
    intro x hx
    cases hx
    exact hcarried moved rfl

theorem free_ends {c : b.Contract due} (hwhole : ∀ l, l.asked ≤ l.bytes → due l l.bytes)
    {l : Lease} (hv : c.valid h) (hl : c.live h p = some l) :
    Returns ((native b).free p) h fun cost h' => cost = l.bytes ∧ c.Trade (some p) none h h' := by
  show Returns (do
    let size ← HeapOp.query (b.blockSize p)
    b.freeSized p size
    pure size) h _
  rw [Returns, ends_bind, ends_query (c.blockSize hv hl), ends_bind]
  exact (c.freeSized hv hl (hwhole l (c.fits hv hl).2.1)).imp fun _ h' t => ends_pure.2 ⟨rfl, t⟩

theorem freeWithSize_eq (usable : Nat) : (native b).freeWithSize p usable = (do
    let size ← HeapOp.query (b.blockSize p)
    if usable ≠ size then throw (.wrongUsable usable size)
    else
      b.freeSized p usable
      pure usable) := rfl

theorem freeWithSize_ends {c : b.Contract due} (hwhole : ∀ l, l.asked ≤ l.bytes → due l l.bytes)
    {l : Lease} (hv : c.valid h) (hl : c.live h p = some l) :
    Returns ((native b).freeWithSize p l.bytes) h fun cost h' =>
      cost = l.bytes ∧ c.Trade (some p) none h h' := by
  rw [Returns, freeWithSize_eq, ends_bind, ends_query (c.blockSize hv hl), if_neg (by simp),
    ends_bind]
  exact (c.freeSized hv hl (hwhole l (c.fits hv hl).2.1)).imp fun _ h' t => ends_pure.2 ⟨rfl, t⟩

theorem freeWithSize_wrong {c : b.Contract due} {l : Lease} {usable : Nat} (hv : c.valid h)
    (hl : c.live h p = some l) (husable : usable ≠ l.bytes) :
    Ends ((native b).freeWithSize p usable) h (fun _ _ => False)
      fun e h' => e = .wrongUsable usable l.bytes ∧ h' = h := by
  rw [freeWithSize_eq, ends_bind, ends_query (c.blockSize hv hl), if_pos husable, ends_throw]
  exact ⟨rfl, rfl⟩

end Native

theorem bound_le_limit : Size.bound ≤ Word.limit := by decide

/-- A native strategy keeps its contract over every backend that keeps its own and takes whole
blocks back. -/
def nativeContract {b : SizedBackend β} {due : Lease → Nat → Prop} (c : b.Contract due)
    (hwhole : ∀ l, l.asked ≤ l.bytes → due l l.bytes) : (native b).Contract where
  toCustody := Native.custody c
  honours := c.Honours
  usableSize := by
    intro h p d hv hp
    obtain ⟨hl, hd⟩ := hp
    rw [hd]
    exact c.blockSize hv hl
  footprint := by
    intro h p d hv hp
    obtain ⟨hl, hd⟩ := hp
    rw [hd]
    exact c.blockSize hv hl
  alloc := fun hv hn hlt =>
    Native.take_ends (c.alloc hv hn (Nat.lt_of_lt_of_le hlt bound_le_limit))
  allocZeroed := fun hv hn hlt =>
    Native.take_ends (c.allocZeroed hv hn (Nat.lt_of_lt_of_le hlt bound_le_limit))
  allocAligned := fun hv hn hlt hpow hmax =>
    Native.allocAligned_ends hv hn (Nat.lt_of_lt_of_le hlt bound_le_limit) hpow hmax
  realloc := by
    intro h p d n hv hp hn hlt
    obtain ⟨hl, hd⟩ := hp
    rw [hd]
    exact Native.realloc_ends hv hl hn (Nat.lt_of_lt_of_le hlt bound_le_limit)
  free := by
    intro h p d hv hp
    obtain ⟨hl, hd⟩ := hp
    rw [hd]
    exact Native.free_ends hwhole hv hl
  freeWithSize := by
    intro h p d hv hp
    obtain ⟨hl, hd⟩ := hp
    rw [hd]
    exact Native.freeWithSize_ends hwhole hv hl
  freeWithWrongSize := by
    intro h p d usable hv hp husable
    obtain ⟨hl, hd⟩ := hp
    rw [hd] at husable ⊢
    exact Native.freeWithSize_wrong hv hl husable
  setBackgroundThread := c.setBackgroundThread
  purge := c.purge

end HeapLedger.Strategy
