import HeapLedger.Proofs.Ledger.Foresight

/-!
# `HeapLedger/Proofs/Ledger/Content.lean` — what a block holds when it is handed out

Some bytes of a block are known when it is handed out: those that were asked for as zeros, those of
a string that was copied, and those that come along when a block is resized, as far as they were
known before (`Action.content`). `perform_fills` says so of all calls, over every strategy that
keeps content and whose zeros are zero.
-/

set_option autoImplicit false

namespace HeapLedger

variable {β : Type} {s : Strategy β} {k : s.Contract} {hs : Holdings} {l l' : Ledger β}
  {old : Nat → Option UInt8} {a : Action} {host : Host}

/-- These bytes from `p` on are known. -/
def Memory.Knows (m : Memory) (p : Nat) (known : Nat → Option UInt8) : Prop :=
  ∀ i v, known i = some v → m.byte (p + i) = v

/-- Nothing is known of bytes that are not usable, and what is known is so. -/
def Holding.Shows (d : Holding) (p : Nat) (known : Nat → Option UInt8) (m : Memory) : Prop :=
  m.Knows p known ∧ ∀ i, (known i).isSome → i < d.usable

namespace Ledger

theorem tryOrder_zeroes (hk : k.Zeroes) (hv : k.valid l.heap) {n : Nat} (hpos : 0 < n)
    (hlt : n < Size.bound) (size : Nat) :
    Returns (tryOrder s (some (.zeroed n)) size) l fun r l' =>
      ∀ q ∈ reached r, ∀ i < n, l'.heap.memory.byte (q + i) = 0 := by
  show Returns (onHeap (s.allocZeroed n) >>= settle size) l _
  rw [Returns, ends_bind, ends_onHeap]
  apply (hk hv hpos hlt).imp
  intro r heap hzero
  apply settle_keeps
  · intro _
    exact forall_mem_none
  · rintro x rfl l' hheap _ ⟨⟩
    rw [hheap]
    exact hzero x rfl

end Ledger

namespace Action

/-- What the call hands out holds what is said of it. -/
def Fills (maxAlign : Nat) (old : Nat → Option UInt8) (a : Action) (e : Ending) (l' : Ledger β) :
    Prop :=
  ∀ q ∈ e.came, l'.heap.memory.Knows q (a.content maxAlign old)

/-- Of a new block, only zeros that were asked for are known. -/
theorem content_attemptsNew {maxAlign i : Nat} {v : UInt8} (ha : a.attemptsNew = true)
    (hi : a.content maxAlign old i = some v) {o : Order} (ho : a.orders maxAlign = some o) :
    v = 0 ∧ ∃ n, o = .zeroed n ∧ i < n := by
  have hzeros : ∀ {size : Nat}, Order.passed .zeroed size = some o →
      (if i < Size.clamp size then some 0 else none) = some v →
        v = 0 ∧ ∃ n, o = .zeroed n ∧ i < n := by
    intro size ho hi
    obtain ⟨-, rfl⟩ := Order.passed_eq_some ho
    obtain ⟨hlt, hzero⟩ := Option.ite_none_right_eq_some.1 hi
    exact ⟨(Option.some.inj hzero).symm, _, rfl, hlt⟩
  unfold attemptsNew at ha
  split at ha
  · cases hi
  · cases hi
  · exact hzeros ho hi
  · exact hzeros ho hi
  · change Order.ofArray _ _ = some o at ho
    unfold Order.ofArray at ho
    split at ho
    · cases ho
    · rename_i hsize
      obtain ⟨-, -, rfl⟩ := Size.ofArray_eq_ok_iff.1 hsize
      exact hzeros ho hi
  · cases hi
  · cases hi
  · cases hi
  · cases ha

theorem attemptsNew_fills (hk : k.Zeroes) (hv : k.valid l.heap) (ha : a.attemptsNew = true) :
    Ends (a.perform s host) l (fun r l' => a.Fills s.maxAlign old (.ok r) l') fun _ _ => True := by
  rw [perform_attemptsNew s host ha]
  cases ho : a.orders s.maxAlign with
  | none => exact ends_pure.2 forall_mem_none
  | some o =>
    have hpasses := passes_of_order ho
    cases o with
    | plain n | aligned n align =>
      apply ends_of_run
      intro r l' _ q _ i v hi
      obtain ⟨-, n, hzeroed, -⟩ := content_attemptsNew ha hi ho
      cases hzeroed
    | zeroed n =>
      unfold reported
      rw [ends_bind]
      apply (Ledger.tryOrder_zeroes hk hv hpasses.1 hpasses.2 a.named).imp
      intro r l' hzero
      cases r with
      | error e => exact ends_pure.2 forall_mem_none
      | ok block =>
        apply ends_pure.2
        intro q hq i v hi
        obtain rfl : block.1 = q := Option.some.inj ((a.came_answered block).symm.trans hq)
        obtain ⟨rfl, n', hzeroed, hlt⟩ := content_attemptsNew ha hi ho
        cases hzeroed
        exact hzero _ rfl i hlt

/-! ### Content that comes along -/

variable {p q size : Nat} {d : Holding} {ptr : Option Nat} {layout : Layout}

/-- What has been carried along is known where it has been carried. -/
theorem knows_carried {n : Nat} {m m' : Memory} (hold : d.Shows p old m)
    (hcarried : Memory.Carried p q (min d.usable n) m m') :
    m'.Knows q fun i => if i < n then old i else none := by
  intro i v hi
  simp only at hi
  split at hi
  · rename_i hlt
    have husable := hold.2 i (by rw [hi]; rfl)
    rw [hcarried i (by omega)]
    exact hold.1 i v hi
  · cases hi

theorem resize_fills (hk : k.Preserves) (hl : Ledger.Sound k.toCustody hs l) (hp : hs p = some d)
    (hold : d.Shows p old l.heap.memory) (reply : Option Nat × Nat → Reply Nat)
    (hcame : ∀ r, Ending.came (.ok (reply r)) = r.1) :
    Ends (reported reply (Ledger.tryReallocUsable s (some p) size)) l
      (fun r l' => ∀ q ∈ Ending.came (.ok r), l'.heap.memory.Knows q
        fun i => if i < size then old i else none) fun _ _ => True := by
  unfold reported
  rw [ends_bind]
  by_cases hzero : size = 0
  · subst hzero
    rw [Ledger.tryReallocUsable_zero, ends_bind]
    apply ends_of_run
    intro _ l' _
    refine ends_pure.2 (ends_pure.2 fun q hq => ?_)
    rw [hcame] at hq
    cases hq
  by_cases hlarge : Size.tooLarge size = true
  · rw [Ledger.tryReallocUsable_tooLarge hlarge, ends_bind]
    apply ends_of_run
    intro _ l' _
    exact ends_pure.2 (ends_pure.2 forall_mem_none)
  · apply (Ledger.tryReallocUsable_carries hk hl hp hzero hlarge).imp
    intro r l' hcarried
    cases r with
    | error e => exact ends_pure.2 forall_mem_none
    | ok r =>
      apply ends_pure.2
      intro q hq
      rw [hcame] at hq
      exact knows_carried hold (hcarried r rfl q hq)

theorem layoutRealloc_fills (hk : k.Preserves) (hl : Ledger.Sound k.toCustody hs l)
    (hp : hs p = some d) (hold : d.Shows p old l.heap.memory) (hlayout : layout.size ≤ d.usable) :
    Ends (Ledger.layoutRealloc s (some p) layout size) l
      (fun r l' => ∀ q ∈ r, l'.heap.memory.Knows q
        fun i => if i < layout.kept s.maxAlign size then old i else none) fun _ _ => True := by
  have hptr : ∀ x ∈ some p, (hs x).isSome := by
    rintro _ ⟨⟩
    rw [hp]
    rfl
  cases hnew : Layout.of? size layout.align with
  | none =>
    unfold Ledger.layoutRealloc
    simp only [hnew]
    exact ends_pure.2 forall_mem_none
  | some new =>
    cases hplain : new.plainSize s.maxAlign with
    | none =>
      have hkept : layout.kept s.maxAlign size = min layout.size size := by
        unfold Layout.kept
        rw [hnew, Option.bind_some, hplain]
      rw [Ledger.layoutRealloc_aligned s (some p) hnew hplain, hkept]
      apply (Ledger.layoutMove_ends hl hptr).imp ?_ fun _ _ _ => trivial
      intro r l' hr q hq
      have hcarried := hr.2 p rfl d hp hlayout q hq
      exact knows_carried hold (hcarried.narrow (by omega))
    | some plain =>
      have hpos := (Layout.le_plainSize hplain).2
      have hkept : layout.kept s.maxAlign size = plain := by
        unfold Layout.kept
        rw [hnew, Option.bind_some, hplain]
      rw [hkept]
      by_cases hlarge : Size.tooLarge plain = true
      · rw [Ledger.layoutRealloc_tooLarge s (some p) hnew hplain hlarge]
        exact ends_pure.2 forall_mem_none
      · rw [Ledger.layoutRealloc_plain s (some p) hnew hplain hlarge, ends_map]
        unfold Ledger.tryRealloc
        rw [ends_map]
        apply (Ledger.tryReallocUsable_carries hk hl hp (Nat.ne_of_gt hpos) hlarge).imp
        intro r l' hcarried q hq
        cases r with
        | error e => cases hq
        | ok r => exact knows_carried hold (hcarried r rfl q hq)

/-! ### Content that is put there -/

theorem layoutAllocZeroed_fills (hk : k.Zeroes) (hv : k.valid l.heap) :
    Ends (Ledger.layoutAllocZeroed s layout) l
      (fun r l' => ∀ q ∈ r, ∀ i < layout.size, l'.heap.memory.byte (q + i) = 0)
      fun _ _ => True := by
  cases hplain : layout.plainSize s.maxAlign with
  | none =>
    rw [Ledger.layoutAllocZeroed_aligned s hplain, ends_bind]
    apply ends_of_run
    intro r l₁ _
    cases r with
    | none => exact ends_pure.2 forall_mem_none
    | some q =>
      simp only
      rw [ends_bind, ends_onHeap, ends_mapMemory, ends_pure]
      rintro _ ⟨⟩ i hi
      show (l₁.heap.memory.fill q layout.size 0).byte (q + i) = 0
      rw [Memory.byte_fill, if_pos ⟨by omega, by omega⟩]
  | some plain =>
    have hle := (Layout.le_plainSize hplain).1
    have horder : Order.ofLayout .zeroed s.maxAlign layout = Order.passed .zeroed plain := by
      unfold Order.ofLayout
      rw [hplain]
    rw [Ledger.layoutAllocZeroed_plain s hplain, horder, ends_map]
    cases ho : Order.passed .zeroed plain with
    | none => exact ends_pure.2 forall_mem_none
    | some o =>
      obtain ⟨hlt, rfl⟩ := Order.passed_eq_some ho
      have hclamp := Size.le_clamp plain
      apply (Ledger.tryOrder_zeroes hk hv (Size.clamp_pos plain) (Size.clamp_lt hlt) plain).imp
      intro r l' hzero q hq i hi
      exact hzero q hq i (by omega)

/-! ### All calls -/

/-- What is known of the block that a call passes. A layout that is passed with it is one that fits. -/
def Shown (k : s.Contract) (hs : Holdings) (old : Nat → Option UInt8) (a : Action) (l : Ledger β) :
    Prop :=
  Ledger.Sound k.toCustody hs l ∧ ∀ p ∈ a.pointer?, ∃ d, hs p = some d ∧
    d.Shows p old l.heap.memory ∧
    ∀ layout size, a = .layoutRealloc (some p) layout size → layout.size ≤ d.usable

theorem attempt_fills (hk : k.Preserves) (hz : k.Zeroes) (hshown : Shown k hs old a l)
    (hattempt : a.attempt = none) :
    Ends (a.perform s host) l (fun r l' => a.Fills s.maxAlign old (.ok r) l') fun _ _ => True := by
  obtain ⟨hl, hpointer⟩ := hshown
  have hv := hl.holds.valid
  cases hnew : a.attemptsNew with
  | true => exact attemptsNew_fills hz hv hnew
  | false =>
  cases a with
  | realloc mode ptr size =>
    cases mode with
    | orFail => cases hattempt
    | attempt =>
      cases ptr with
      | none => cases hnew
      | some p =>
        obtain ⟨d, hp, hold, -⟩ := hpointer p rfl
        show Ends (reported Reply.pointer (Except.map Prod.fst <$>
          Ledger.tryReallocUsable s (some p) size)) l _ _
        rw [reported_map]
        exact resize_fills hk hl hp hold (fun r => .pointer r.1) fun _ => rfl
  | reallocUsable mode ptr size =>
    cases mode with
    | orFail => cases hattempt
    | attempt =>
      cases ptr with
      | none => cases hnew
      | some p =>
        obtain ⟨d, hp, hold, -⟩ := hpointer p rfl
        exact resize_fills hk hl hp hold (fun r => .sized r.1 r.2) fun _ => rfl
  | layoutAllocZeroed layout =>
    show Ends (Reply.pointer <$> Ledger.layoutAllocZeroed s layout) l _ _
    rw [ends_map]
    apply (layoutAllocZeroed_fills hz hv).mono
    intro r l' hzero q hq i v hi
    obtain ⟨hlt, hv⟩ := Option.ite_none_right_eq_some.1 hi
    cases hv
    exact hzero q hq i hlt
  | layoutRealloc ptr layout size =>
    cases ptr with
    | none =>
      apply ends_of_run
      intro r l' _ q _ i v hi
      cases hi
    | some p =>
      obtain ⟨d, hp, hold, hlayout⟩ := hpointer p rfl
      show Ends (Reply.pointer <$> Ledger.layoutRealloc s (some p) layout size) l _ _
      rw [ends_map]
      exact layoutRealloc_fills hk hl hp hold (hlayout layout size rfl)
  | dupString => cases hattempt
  | allocZeroed mode | allocZeroedUsable mode | allocZeroedArray mode =>
    cases mode with
    | attempt => cases hnew
    | orFail => cases hattempt
  | _ =>
    apply ends_of_run
    intro r l' _ q _ i v hi
    cases hi

/-- Only for a string something is written to what an attempt has got. -/
theorem fills_alike {t : Action} {maxAlign : Nat} (ha : a.attempt = some t)
    (hstring : ∀ text, a ≠ .dupString text) :
    (∀ r m, a.fill r m = m) ∧ a.content maxAlign old = t.content maxAlign old := by
  cases a with
  | dupString text => exact absurd rfl (hstring text)
  | alloc mode | allocUsable mode | allocZeroed mode | allocZeroedUsable mode
  | allocZeroedArray mode | allocAligned mode =>
    cases mode with
    | attempt => cases ha
    | orFail =>
      cases ha
      exact ⟨fun _ _ => rfl, rfl⟩
  | realloc mode ptr size | reallocUsable mode ptr size =>
    cases mode with
    | attempt => cases ha
    | orFail =>
      cases ha
      refine ⟨fun _ _ => rfl, ?_⟩
      cases ptr <;> rfl
  | _ => cases ha

/-- An allocation replies a pointer or the failure. -/
theorem alloc_replies (size : Nat) (l : Ledger β) :
    Ends ((Action.alloc .attempt size).perform s host) l
      (fun r _ => match r with
        | .pointer _ | .failed _ => True
        | _ => False) fun _ _ => True := by
  show Ends (reported pointerReply (Ledger.tryAlloc s size)) l _ _
  unfold reported
  rw [ends_bind]
  apply ends_of_run
  intro r l' _
  cases r <;> exact ends_pure.2 trivial

/-- A string is written to what an attempt has got, and everything else is left as it is. -/
theorem insisted_fills {t : Action} {maxAlign : Nat} {handler : OomHandler}
    (ha : a.attempt = some t) {result : EStateM.Result Halt (Ledger β) (Reply Nat)}
    (hresult : t.perform s host l = result)
    (h : t.Fills maxAlign old (settled result).1 (settled result).2) :
    a.Fills maxAlign old (settled (a.insisted handler result)).1
      (settled (a.insisted handler result)).2 := by
  cases result with
  | error e l' => exact forall_mem_none
  | ok r l' =>
    by_cases hr : ∃ e, r = .failed e
    · obtain ⟨e, rfl⟩ := hr
      cases hexcuse : a.excuse with
      | some reply =>
        rw [insisted_excused hexcuse]
        intro q hq
        have hnone := (excuse_came hexcuse).symm.trans hq
        cases hnone
      | none =>
        rw [insisted_failed hexcuse]
        exact forall_mem_none
    rw [insisted_ok fun e he => hr ⟨e, he⟩]
    by_cases hstring : ∃ text, a = .dupString text
    · obtain ⟨text, rfl⟩ := hstring
      cases ha
      intro q hq i v hi
      change (text ++ [0])[i]? = some v at hi
      obtain ⟨hlt, hget⟩ := List.getElem?_eq_some_iff.1 hi
      cases r with
      | pointer ptr =>
        cases hq
        show (l'.heap.memory.store q (text ++ [0]).toArray).byte (q + i) = v
        rw [Memory.byte_store, List.size_toArray, if_pos ⟨by omega, by omega⟩,
          Nat.add_sub_cancel_left]
        simp [hi]
      | failed e => exact absurd ⟨e, rfl⟩ hr
      | _ => exact absurd ((alloc_replies _ _).of_ok hresult) id
    · obtain ⟨hfill, hcontent⟩ := fills_alike ha fun text h => hstring ⟨text, h⟩
      intro q hq
      rw [hcontent]
      show Memory.Knows (a.fill r l'.heap.memory) q _
      rw [hfill]
      exact h q hq

/-- Nothing is said of bytes beyond those that were demanded. -/
theorem content_lt {maxAlign i : Nat} {v : UInt8} {y : Demand} (hy : a.demand maxAlign = some y)
    (hi : a.content maxAlign old i = some v) : i < y.size := by
  have hblock : ∀ {t : Action}, t.attemptsNew = true → t.demand maxAlign = some y →
      t.content maxAlign old i = some v → i < y.size := by
    intro t ht hy hi
    rw [demand_attemptsNew ht] at hy
    obtain ⟨o, ho, rfl⟩ := Option.map_eq_some_iff.1 hy
    obtain ⟨-, n, rfl, hlt⟩ := content_attemptsNew ht hi ho
    exact hlt
  cases a with
  -- These are for as many bytes as when they are attempted.
  | allocZeroed mode size => exact hblock (t := .allocZeroed .attempt size) rfl hy hi
  | allocZeroedUsable mode size => exact hblock (t := .allocZeroedUsable .attempt size) rfl hy hi
  | allocZeroedArray mode count elem =>
    exact hblock (t := .allocZeroedArray .attempt count elem) rfl hy hi
  | layoutAllocZeroed layout =>
    obtain ⟨hlt, -⟩ := Option.ite_none_right_eq_some.1 hi
    obtain ⟨o, ho, rfl⟩ := Option.map_eq_some_iff.1 hy
    exact Nat.lt_of_lt_of_le hlt (Order.le_size_of_ofLayout (fun _ => rfl) ho)
  | dupString text =>
    obtain ⟨hlt, -⟩ := List.getElem?_eq_some_iff.1 hi
    obtain ⟨o, ho, rfl⟩ := Option.map_eq_some_iff.1 hy
    rw [List.length_append] at hlt
    exact Nat.lt_of_lt_of_le hlt (Order.le_size_of_passed (fun _ => rfl) ho)
  | realloc mode ptr size | reallocUsable mode ptr size =>
    cases ptr with
    | none => cases hi
    | some p =>
      obtain ⟨hlt, -⟩ := Option.ite_none_right_eq_some.1 hi
      obtain ⟨-, -, rfl⟩ := Demand.resized_eq_some hy
      exact hlt
  | layoutRealloc ptr layout size =>
    cases ptr with
    | none => cases hi
    | some p =>
      obtain ⟨new, hnew, hdemand⟩ := Option.bind_eq_some_iff.1 hy
      obtain ⟨hlt, -⟩ := Option.ite_none_right_eq_some.1 hi
      unfold Layout.kept at hlt
      unfold Demand.ofLayout at hdemand
      rw [hnew, Option.bind_some] at hlt
      cases hplain : new.plainSize maxAlign with
      | some plain =>
        rw [hplain] at hdemand hlt
        obtain ⟨-, -, rfl⟩ := Demand.resized_eq_some hdemand
        exact hlt
      | none =>
        rw [hplain] at hdemand hlt
        obtain ⟨o, ho, rfl⟩ := Option.map_eq_some_iff.1 hdemand
        have hsize : new.size ≤ o.size := Order.le_size_of_ofLayout (fun _ => rfl) ho
        rw [(Layout.of?_eq_some hnew).1] at hsize
        exact Nat.lt_of_lt_of_le hlt (Nat.le_trans (Nat.min_le_right _ _) hsize)
  | _ => cases hi

/-- What a call hands out holds what is said of it. -/
theorem perform_fills (hk : k.Preserves) (hz : k.Zeroes) (hshown : Shown k hs old a l) :
    a.Fills s.maxAlign old (settled (a.perform s host l)).1 (settled (a.perform s host l)).2 := by
  have hsettled : ∀ {t : Action}, Shown k hs old t l → t.attempt = none →
      t.Fills s.maxAlign old (settled (t.perform s host l)).1 (settled (t.perform s host l)).2 := by
    intro t hshown ht
    have hends : Ends (t.perform s host) l (fun r l' => t.Fills s.maxAlign old (.ok r) l')
        fun _ _ => True := attempt_fills hk hz hshown ht
    cases hrun : t.perform s host l with
    | ok r l' => exact hends.of_ok hrun
    | error e l' => exact forall_mem_none
  cases hattempt : a.attempt with
  | none => exact hsettled hshown hattempt
  | some t =>
    have hshown' : Shown k hs old t l := by
      refine ⟨hshown.1, fun p hp => ?_⟩
      rw [pointer_attempt hattempt] at hp
      obtain ⟨d, hd, hold, -⟩ := hshown.2 p hp
      refine ⟨d, hd, hold, ?_⟩
      rintro layout size rfl
      unfold attempt at hattempt
      split at hattempt
      all_goals cases hattempt
    rw [perform_insisted s host l hattempt]
    exact insisted_fills hattempt rfl (hsettled hshown' (attemptOf hattempt).attempt)

end Action

end HeapLedger
