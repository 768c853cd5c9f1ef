import HeapLedger.Proofs.Arrival
import HeapLedger.Proofs.Ledger.Content
import HeapLedger.Proofs.Strategy.Zeros

/-!
# `HeapLedger/Proofs/Zeroing.lean` — zeroed means zeroed

Zeroed memory is asked for by size, by number of elements and by layout, and it comes zeroed by the
backend, or behind a header that is written after the zeros, or plain and filled afterwards because
its alignment went another way. The caller cannot tell which it was. As many bytes as were asked for
read zero, and nobody else's block has been touched in getting there (`Desk.zeroed_is_zero`).

For each call it is one lemma that whatever it hands out is clear (`Ledger.Cleared`). The forms that
report failure and those that do not share it.
-/

set_option autoImplicit false

namespace HeapLedger

variable {β : Type}

namespace Ledger

/-- The pointer `q` is handed out, and the first `n` bytes there are usable and zero. -/
def Cleared (k : Custody β) (hs : Holdings) (n : Nat) (l : Ledger β) (q : Nat) (l' : Ledger β) :
    Prop :=
  ∃ e, Posts k hs none (some (q, e)) l l' ∧ n ≤ e.usable ∧
    ∀ i < n, l'.heap.memory.byte (q + i) = 0

variable {s : Strategy β} {k : s.Contract} {hs : Holdings} {l l' : Ledger β} {n q : Nat}

theorem Cleared.mono {k : Custody β} {m : Nat} (h : Cleared k hs n l q l') (hm : m ≤ n) :
    Cleared k hs m l q l' := by
  obtain ⟨e, hpost, hn, hzero⟩ := h
  exact ⟨e, hpost, Nat.le_trans hm hn, fun i hi => hzero i (Nat.lt_of_lt_of_le hi hm)⟩

section Calls

variable (hk : k.Zeroes) (hl : Sound k.toCustody hs l)

include hk hl

/-- A request for no bytes is one for some, so there is always a byte that is zero. -/
theorem tryAllocZeroedUsable_clears (size : Nat) :
    Returns (tryAllocZeroedUsable s size) l fun r l' =>
      ∀ block, r = .ok block → Cleared k.toCustody hs (max size 1) l block.1 l' := by
  have hgranted : Returns (tryAllocZeroedUsable s size) l (Granted k.toCustody hs size l) :=
    tryAllocZeroedUsable_ends hl
  rw [tryAllocZeroedUsable_eq] at hgranted ⊢
  cases ho : Order.passed .zeroed size with
  | none =>
    apply ends_pure.2
    intro block hblock
    cases hblock
  | some o =>
    rw [ho] at hgranted
    obtain ⟨hlt, rfl⟩ := Order.passed_eq_some ho
    have hclamp : max size 1 ≤ Size.clamp size :=
      Nat.max_le.2 ⟨Size.le_clamp size, Size.clamp_pos size⟩
    have hzeroes := tryOrder_zeroes hk hl.holds.valid (Size.clamp_pos size) (Size.clamp_lt hlt) size
    apply (hgranted.and hzeroes).imp
    intro r l' hr block hblock
    subst hblock
    obtain ⟨⟨e, hpost, -, hsize⟩, hzero⟩ := hr
    have hpos := (hpost.deal.holds.inside (p := block.1) exchange_came).1
    refine ⟨e, hpost, Nat.max_le.2 ⟨hsize, hpos⟩, ?_⟩
    intro i hi
    exact hzero block.1 rfl i (Nat.lt_of_lt_of_le hi hclamp)

theorem tryAllocZeroed_clears (size : Nat) :
    Returns (tryAllocZeroed s size) l fun r l' =>
      ∀ q, r = .ok q → Cleared k.toCustody hs (max size 1) l q l' := by
  unfold tryAllocZeroed
  rw [Returns, ends_map]
  apply (tryAllocZeroedUsable_clears hk hl size).imp
  intro r l' hclears q hq
  cases r with
  | error e => cases hq
  | ok block =>
    cases hq
    exact hclears block rfl

/-- The bytes of an array are counted without bound, and refused if they are too many to count. -/
theorem tryAllocZeroedArray_clears (count elem : Nat) :
    Returns (tryAllocZeroedArray s count elem) l fun r l' =>
      ∀ q, r = .ok q → elem ≠ 0 ∧ Cleared k.toCustody hs (count * elem) l q l' := by
  unfold tryAllocZeroedArray
  cases hsize : Size.ofArray count elem with
  | error e =>
    apply ends_pure.2
    intro q hq
    cases hq
  | ok size =>
    obtain ⟨helem, -, rfl⟩ := Size.ofArray_eq_ok_iff.1 hsize
    apply (tryAllocZeroed_clears hk hl (count * elem)).imp
    intro r l' hclears q hq
    exact ⟨helem, (hclears q hq).mono (Nat.le_max_left _ _)⟩

theorem layoutAllocZeroed_clears (layout : Layout) :
    Ends (layoutAllocZeroed s layout) l
      (fun r l' => ∀ q ∈ r, Cleared k.toCustody hs layout.size l q l') fun _ _ => True := by
  have hoffered : Ends (layoutAllocZeroed s layout) l
      (Offered k.toCustody hs none layout.size l) (Astray k l) := layoutAllocZeroed_ends hl
  have hfills : Ends (layoutAllocZeroed s layout) l
      (fun r l' => ∀ q ∈ r, ∀ i < layout.size, l'.heap.memory.byte (q + i) = 0)
      fun _ _ => True := Action.layoutAllocZeroed_fills hk hl.holds.valid
  apply (Ends.and hoffered hfills).imp
  · intro r l' hr q hq
    obtain ⟨hposts, hzero⟩ := hr
    cases hq
    obtain ⟨e, hpost, hsize⟩ := hposts
    exact ⟨e, hpost, hsize, hzero q rfl⟩
  · intro _ _ _
    trivial

end Calls

end Ledger

namespace Action

/-! ## Forms of a call

Whichever form a call has, it hands out what the attempt does, and otherwise nothing. -/

section Hands

variable {α : Type} {attempt : LedgerOp β (Except AllocError α)} {reply : α → Reply Nat}
  (ptr : α → Nat) {P : Nat → Ledger β → Prop} {l : Ledger β}
  (hreply : ∀ x, Ending.came (.ok (reply x)) = some (ptr x))
  (h : Returns attempt l fun r l' => ∀ x, r = .ok x → P (ptr x) l')

include hreply h

theorem attempt_hands :
    Ends (reported reply attempt) l (fun r l' => ∀ q ∈ Ending.came (.ok r), P q l')
      fun _ _ => True := by
  unfold reported
  rw [ends_bind]
  apply h.imp
  intro r l' hr
  cases r with
  | error e => exact ends_pure.2 forall_mem_none
  | ok x =>
    apply ends_pure.2
    intro q hq
    obtain rfl : ptr x = q := Option.some.inj ((hreply x).symm.trans hq)
    exact hr x rfl

theorem orFail_hands :
    Ends (reply <$> Ledger.orFail attempt) l (fun r l' => ∀ q ∈ Ending.came (.ok r), P q l')
      fun _ _ => True := by
  rw [ends_map]
  apply Ledger.orFail_ends (Returns.ends h)
  · intro x l' hr q hq
    obtain rfl : ptr x = q := Option.some.inj ((hreply x).symm.trans hq)
    exact hr x rfl
  · intro _ _ _
    trivial

end Hands

section Forms

variable {s : Strategy β} {k : s.Contract} {hs : Holdings} {l : Ledger β} {host : Host} {mode : Mode}
  {size : Nat} (hk : k.Zeroes) (hl : Ledger.Sound k.toCustody hs l)

include hk hl

theorem allocZeroed_clears :
    Ends ((allocZeroed mode size).perform s host) l
      (fun r l' => ∀ q ∈ Ending.came (.ok r), Ledger.Cleared k.toCustody hs (max size 1) l q l')
      fun _ _ => True := by
  have hclears := Ledger.tryAllocZeroed_clears hk hl size
  cases mode with
  | attempt => exact attempt_hands id (fun _ => rfl) hclears
  | orFail =>
    show Ends (pointerReply <$> Ledger.allocZeroed s size) l _ _
    rw [allocZeroed_eq]
    exact orFail_hands id (fun _ => rfl) hclears

theorem allocZeroedUsable_clears :
    Ends ((allocZeroedUsable mode size).perform s host) l
      (fun r l' => ∀ q ∈ Ending.came (.ok r), Ledger.Cleared k.toCustody hs (max size 1) l q l')
      fun _ _ => True := by
  have hclears := Ledger.tryAllocZeroedUsable_clears hk hl size
  cases mode with
  | attempt => exact attempt_hands Prod.fst (fun _ => rfl) hclears
  | orFail => exact orFail_hands Prod.fst (fun _ => rfl) hclears

theorem allocZeroedArray_clears {count elem : Nat} :
    Ends ((allocZeroedArray mode count elem).perform s host) l
      (fun r l' => ∀ q ∈ Ending.came (.ok r),
        elem ≠ 0 ∧ Ledger.Cleared k.toCustody hs (count * elem) l q l') fun _ _ => True := by
  have hclears := Ledger.tryAllocZeroedArray_clears hk hl count elem
  cases mode with
  | attempt => exact attempt_hands id (fun _ => rfl) hclears
  | orFail => exact orFail_hands id (fun _ => rfl) hclears

end Forms

end Action

namespace Desk

/-- From one desk to the next the pointer `q` comes, with `n` usable bytes that are zero, and
nothing else is different: neither for those who hold other pointers nor in any other block of the
backend, headers included. -/
structure Zeroed (a : Adapter β) (q n : Nat) (d d' : Desk β) : Prop where
  fresh : q ∉ d.live
  live : d'.live = insert q d.live
  enough : ∃ usable, Ledger.usableSize a.strategy q d'.ledger = .ok usable d'.ledger ∧ n ≤ usable
  zero : ∀ i < n, d'.ledger.heap.memory.byte (q + i) = 0
  same : ∀ p ∈ d.live, SameFor a.strategy p d d'
  blocks : ∀ x l, a.survey.live d.ledger.heap x = some l →
    a.survey.live d'.ledger.heap x = some l ∧
      Memory.Agree x l.bytes d.ledger.heap.memory d'.ledger.heap.memory

section Coming

variable {a : Adapter β} {hs : Holdings} {d : Desk β} {q n : Nat}

theorem zeroed_of_cleared {l : Ledger β} (hk : Keeps a.contract.toCustody hs d)
    (h : Ledger.Cleared a.contract.toCustody hs n d.ledger q l) :
    Zeroed a q n d ⟨l, insert q d.live⟩ := by
  obtain ⟨e, hpost, hn, hzero⟩ := h
  have hjoined := joined_of_posts hk hpost
  refine ⟨hjoined.fresh, hjoined.live, ⟨e.usable, hjoined.usableSize, hn⟩, hzero, hjoined.same, ?_⟩
  intro x l hx
  obtain ⟨hlive, hsame, -⟩ := hjoined.blocks x l hx
  exact ⟨hlive, hsame⟩

end Coming

/-- After every lawful run, a pointer that any call for zeroed memory hands out is one to zeros: at
least one byte and as many as were asked for, or all bytes of the array or of the layout. No other
block has changed. -/
theorem zeroed_is_zero (a : Adapter β) (hzeroes : a.Zeroes) {host : Host} (hhost : host.Confined)
    {heap : Heap β} (hheap : a.survey.valid heap) (slots : Nat) {ms : List Move}
    (hms : Lawful a.strategy host (opening heap slots) ms) (c : Action) (q : Nat)
    (hq : (run a.strategy host (opening heap slots) ms).handed a.strategy host (.call c) = some q) :
    let d := run a.strategy host (opening heap slots) ms
    let d' := d.after a.strategy host (.call c)
    (∀ mode size, c = .allocZeroed mode size ∨ c = .allocZeroedUsable mode size →
      Zeroed a q (max size 1) d d') ∧
    (∀ mode count elem, c = .allocZeroedArray mode count elem →
      elem ≠ 0 ∧ Zeroed a q (count * elem) d d') ∧
    ∀ layout, c = .layoutAllocZeroed layout → Zeroed a q layout.size d d' := by
  obtain ⟨hs, hk, -⟩ := keeps_run a hhost hheap slots hms
  have hclears := Adapter.contract_zeroes hzeroes
  have hl := hk.sound
  refine ⟨?_, ?_, ?_⟩
  · rintro mode size (rfl | rfl)
    · rw [after_of_handed rfl rfl hq]
      exact zeroed_of_cleared hk (handed_of_returns (Action.allocZeroed_clears hclears hl) hq)
    · rw [after_of_handed rfl rfl hq]
      exact zeroed_of_cleared hk (handed_of_returns (Action.allocZeroedUsable_clears hclears hl) hq)
  · rintro mode count elem rfl
    rw [after_of_handed rfl rfl hq]
    obtain ⟨helem, hcleared⟩ := handed_of_returns (Action.allocZeroedArray_clears hclears hl) hq
    exact ⟨helem, zeroed_of_cleared hk hcleared⟩
  · rintro layout rfl
    rw [after_of_handed rfl rfl hq]
    refine zeroed_of_cleared hk (handed_of_returns ?_ hq)
    unfold Action.perform
    rw [ends_map]
    exact Ledger.layoutAllocZeroed_clears hclears hl layout

/-- An over-aligned layout, in memory that holds something else beforehand. -/
theorem zeroed_is_zero_arena :
    let a := Adapter.arenaHeadered Arena.honest_default
    let d := run a.strategy .unsupported (opening arenaHeap 4) (arenaVisit (Arena.base + 16))
    let c := Action.layoutAllocZeroed ⟨10, 64, ⟨6, rfl⟩, by decide⟩
    ∃ q, d.ledger.heap.memory.byte q ≠ 0 ∧
      Zeroed a q 10 d (d.after a.strategy .unsupported (.call c)) := by
  intro a d c
  have hzeroes : a.Zeroes := .inl (Arena.fullContract_zeroes Arena.honest_default rfl)
  have hhanded : d.handed a.strategy .unsupported (.call c) = some (Arena.base + 192) := by
    decide +kernel
  have hzeroed := zeroed_is_zero a hzeroes Host.confined_unsupported arenaHeap_valid 4
    lawful_arenaVisit c _ hhanded
  refine ⟨Arena.base + 192, ?_, hzeroed.2.2 _ rfl⟩
  decide +kernel

end Desk

end HeapLedger
