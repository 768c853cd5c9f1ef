import HeapLedger.Proofs.Backend.Contract
import HeapLedger.Proofs.Custody

/-!
# `HeapLedger/Proofs/Strategy/Contract.lean` — what a strategy owes

A ledger relies on two promises of its strategy. Every pointer that was handed out and not given
back keeps its usable size and its footprint, and resizing or freeing it reports that very
footprint; and each operation makes one trade with the backend and leaves all other blocks alone.
`Strategy.Contract` is both, over a `Custody` that says what the strategy's pointers stand for.

A request reaches a strategy after the size rules have been applied to it, so sizes are positive and
below `Size.bound` here, and an alignment is a power of two that the strategy does not keep anyway.

One thing may go wrong in the middle: a backend that is asked for an alignment may answer with a
block that does not have it. The strategy then stops, and nobody holds the block. A contract says of
itself whether that can happen (`honours`).
-/

set_option autoImplicit false

namespace HeapLedger

variable {β : Type}

namespace Custody

/-- A block came that nobody holds. -/
def Leaked (k : Custody β) (h h' : Heap β) : Prop :=
  ∃ q l, k.Trade none (some (q, l)) h h'

/-- An answer to a request for `n` bytes that replaces the backend's block at `gone`, if any. A
refusal changes nothing. -/
def Served (k : Custody β) (gone : Option Nat) (n : Nat) (h : Heap β) :
    Option Block → Heap β → Prop
  | none, h' => k.Trade none none h h'
  | some block, h' => ∃ d : Holding, k.Trade gone (some (d.start, d.lease)) h h' ∧
      k.stands block.ptr d h' ∧ block.usable = d.usable ∧ block.footprint = d.footprint ∧
      n ≤ d.usable

end Custody

/-- A custody that all operations of the strategy respect. -/
structure Strategy.Contract (s : Strategy β) extends Custody β where
  /-- No backend answers a request for an alignment with a block that does not have it. -/
  honours : Prop
  usableSize : ∀ {h p d}, valid h → stands p d h → s.usableSize p h = .ok d.usable
  footprint : ∀ {h p d}, valid h → stands p d h → s.footprint p h = .ok d.footprint
  alloc : ∀ {h n}, valid h → 0 < n → n < Size.bound →
    Returns (s.alloc n) h (toCustody.Served none n h)
  allocZeroed : ∀ {h n}, valid h → 0 < n → n < Size.bound →
    Returns (s.allocZeroed n) h (toCustody.Served none n h)
  allocAligned : ∀ {h n align}, valid h → 0 < n → n < Size.bound → align.isPowerOfTwo →
    s.maxAlign < align → Ends (s.allocAligned n align) h (toCustody.Served none n h)
      fun e h' => (∃ r, e = .misaligned r) ∧ ¬ honours ∧ toCustody.Leaked h h'
  realloc : ∀ {h p d n}, valid h → stands p d h → 0 < n → n < Size.bound →
    Returns (s.realloc p n) h fun r h' =>
      toCustody.Served (some d.start) n h (r.map Resized.block) h' ∧
        ∀ x ∈ r, x.oldFootprint = d.footprint
  free : ∀ {h p d}, valid h → stands p d h →
    Returns (s.free p) h fun cost h' => cost = d.footprint ∧ toSurvey.Trade (some d.start) none h h'
  freeWithSize : ∀ {h p d}, valid h → stands p d h →
    Returns (s.freeWithSize p d.usable) h fun cost h' =>
      cost = d.footprint ∧ toSurvey.Trade (some d.start) none h h'
  freeWithWrongSize : ∀ {h p d usable}, valid h → stands p d h → usable ≠ d.usable →
    Ends (s.freeWithSize p usable) h (fun _ _ => False)
      fun e h' => e = .wrongUsable usable d.usable ∧ h' = h
  setBackgroundThread : ∀ {h} enable, valid h →
    Returns (s.setBackgroundThread enable) h fun _ => toSurvey.Trade none none h
  purge : ∀ {h}, valid h → Returns s.purge h fun _ => toSurvey.Trade none none h

/-- A resize keeps the usable bytes of the block that it resizes, as many as there were and as many
as are asked for. -/
def Strategy.Contract.Preserves {s : Strategy β} (k : s.Contract) : Prop :=
  ∀ ⦃h p d n⦄, k.valid h → k.stands p d h → 0 < n → n < Size.bound →
    Returns (s.realloc p n) h fun r h' =>
      ∀ x ∈ r, Memory.Carried p x.block.ptr (min d.usable n) h.memory h'.memory

/-- The bytes of a zeroed block are zero, as many as were asked for. -/
def Strategy.Contract.Zeroes {s : Strategy β} (k : s.Contract) : Prop :=
  ∀ ⦃h n⦄, k.valid h → 0 < n → n < Size.bound →
    Returns (s.allocZeroed n) h fun r h' =>
      ∀ block ∈ r, ∀ i < n, h'.memory.byte (block.ptr + i) = 0

namespace Custody

variable {k : Custody β} {hs : Holdings} {h h' : Heap β} {p : Nat} {d : Holding}

/-- A block that nobody holds is nobody's concern. -/
theorem Holds.of_leaked (hh : k.Holds hs h) (hleak : k.Leaked h h') : k.Holds hs h' := by
  obtain ⟨q, l, t⟩ := hleak
  refine ⟨t.valid, ?_, hh.distinct⟩
  intro p d hp
  exact stands_of_trade (hh.stands p d hp) hh.valid t (by simp)

/-- An answered request without a pointer given up, as a deal. -/
theorem Served.deal {n : Nat} {block : Block} (hh : k.Holds hs h)
    (hserved : k.Served none n h (some block) h') :
    ∃ e, k.Deal hs none (some (block.ptr, e)) h h' ∧ block.usable = e.usable ∧
      block.footprint = e.footprint ∧ n ≤ e.usable := by
  obtain ⟨e, t, hstands, husable, hcost, hn⟩ := hserved
  refine ⟨e, .of_trade hh t ?_, husable, hcost, hn⟩
  intro q e' hcame
  cases hcame
  exact hstands

theorem Served.deal_resized {n : Nat} {block : Block} (hh : k.Holds hs h) (hp : hs p = some d)
    (hserved : k.Served (some d.start) n h (some block) h') :
    ∃ e, k.Deal hs (some p) (some (block.ptr, e)) h h' ∧ block.usable = e.usable ∧
      block.footprint = e.footprint ∧ n ≤ e.usable := by
  obtain ⟨e, t, hstands, husable, hcost, hn⟩ := hserved
  refine ⟨e, .of_trade hh ?_ ?_, husable, hcost, hn⟩
  · rw [Option.bind_some, Holdings.start?, hp]
    exact t
  · intro q e' hcame
    cases hcame
    exact hstands

theorem Deal.of_free (hh : k.Holds hs h) (hp : hs p = some d)
    (t : k.Trade (some d.start) none h h') : k.Deal hs (some p) none h h' := by
  refine .of_trade hh ?_ fun _ _ hcame => nomatch hcame
  rw [Option.bind_some, Holdings.start?, hp]
  exact t

theorem Deal.of_still (hh : k.Holds hs h) (t : k.Trade none none h h') :
    k.Deal hs none none h h' :=
  .of_trade hh t fun _ _ hcame => nomatch hcame

end Custody

end HeapLedger
