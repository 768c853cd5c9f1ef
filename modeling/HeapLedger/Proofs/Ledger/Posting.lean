import HeapLedger.Proofs.Counter
import HeapLedger.Proofs.Strategy.Contract

/-!
# `HeapLedger/Proofs/Ledger/Posting.lean` — deals that are booked

A ledger does not only make deals, it counts them. `Ledger.Posts` is a deal together with its
entries: what was booked for the pointer that goes is taken off `usedMemory`, and what is booked for
the pointer that comes is put on. Every operation of the ledger is one posting or comes to one
(`Posts.write`, `Posts.move`), and a refused one is the posting of nothing.

`Ledger.Sound` is what postings keep. `Ledger.Astray` is the one way for a posting to be left half
done: the backend handed out a block without the alignment it was asked for, which the strategy does
not pass on and the ledger does not count.
-/

set_option autoImplicit false

namespace HeapLedger.Ledger

variable {β : Type}

/-- What is counted for a holding, if there is one. -/
def booked (d : Option Holding) : UInt64 :=
  UInt64.ofNat ((d.map Holding.footprint).getD 0)

@[simp] theorem booked_none : booked none = 0 := rfl

@[simp] theorem booked_some (d : Holding) : booked (some d) = UInt64.ofNat d.footprint := rfl

/-- All pointers stand for their holdings, and only threads that exist have counted anything. -/
structure Sound (k : Custody β) (hs : Holdings) (l : Ledger β) : Prop where
  holds : k.Holds hs l.heap
  tidy : l.counter.Tidy l.threads.size

/-- From `l` to `l'` the pointer `gone` is given up, if any, and `came` is handed out, if any, and
both are counted. -/
structure Posts (k : Custody β) (hs : Holdings) (gone : Option Nat) (came : Option (Nat × Holding))
    (l l' : Ledger β) : Prop where
  deal : k.Deal hs gone came l.heap l'.heap
  tidy : l'.counter.Tidy l'.threads.size
  used : l'.usedMemory = l.usedMemory - booked (gone.bind hs) + booked (came.map Prod.snd)

/-- The operation stopped at a block that does not have its alignment, and nothing was counted. -/
structure Astray {s : Strategy β} (k : s.Contract) (l : Ledger β) (e : Halt) (l' : Ledger β) :
    Prop where
  halt : ∃ r, e = .fault (.misaligned r)
  honours : ¬ k.honours
  leaked : k.Leaked l.heap l'.heap
  counter : l'.counter = l.counter
  threads : l'.threads = l.threads

section Posting

variable {k : Custody β} {hs : Holdings} {gone : Option Nat} {came : Option (Nat × Holding)}
  {l l' l'' : Ledger β} {p q : Nat} {d e : Holding}

theorem Posts.sound (hp : Posts k hs gone came l l') : Sound k (exchange hs gone came) l' :=
  ⟨hp.deal.holds, hp.tidy⟩

theorem Posts.of_still {heap : Heap β} (hl : Sound k hs l)
    (t : k.Trade none none l.heap heap) : Posts k hs none none l { l with heap := heap } where
  deal := .of_still hl.holds t
  tidy := hl.tidy
  used := by
    rw [Option.bind_none, Option.map_none, booked_none, UInt64.sub_zero, UInt64.add_zero]
    rfl

theorem Posts.refl (hl : Sound k hs l) : Posts k hs none none l l :=
  .of_still hl (.refl hl.holds.valid)

/-- What is logged and who is called next is nothing to the books. -/
theorem Posts.congr (hp : Posts k hs gone came l l') (hheap : l''.heap = l'.heap)
    (hcounter : l''.counter = l'.counter) (hthreads : l''.threads = l'.threads) :
    Posts k hs gone came l l'' := by
  refine ⟨?_, ?_, ?_⟩
  · rw [hheap]
    exact hp.deal
  · rw [hcounter, hthreads]
    exact hp.tidy
  · rw [usedMemory, hcounter, hthreads]
    exact hp.used

/-- The new block is written to after it was posted. -/
theorem Posts.write (hp : Posts k hs gone (some (q, e)) l l') {m : Memory}
    (hm : ∀ a, m.byte a ≠ l'.heap.memory.byte a → q ≤ a ∧ a < q + e.usable) :
    Posts k hs gone (some (q, e)) l { l' with heap := ⟨m, l'.heap.state⟩ } :=
  ⟨hp.deal.write hm, hp.tidy, hp.used⟩

/-- One pointer is handed out and then another is given up. -/
theorem Posts.move (hl : Sound k hs l) (hd : hs p = some d)
    (hp : Posts k hs none (some (q, e)) l l')
    (hp' : Posts k (exchange hs none (some (q, e))) (some p) none l' l'') :
    Posts k hs (some p) (some (q, e)) l l'' := by
  have hold : exchange hs none (some (q, e)) p = some d := hp.deal.old hd
  refine ⟨hp.deal.move hl.holds hd hp'.deal, hp'.tidy, ?_⟩
  -- On and then off is off and then on, as words wrap.
  rw [hp'.used, hp.used, Option.bind_some, Option.bind_some, hold, hd]
  simp only [Option.bind_none, Option.map_some, Option.map_none, booked_none, UInt64.sub_zero,
    UInt64.add_zero]
  rw [UInt64.sub_eq_add_neg, UInt64.sub_eq_add_neg, UInt64.add_assoc, UInt64.add_assoc,
    UInt64.add_comm (booked (some e))]

theorem Posts.of_free {heap : Heap β} (hd : hs p = some d)
    (deal : k.Deal hs (some p) none l.heap heap)
    (hc : Counted { l with heap := heap } l' (l.usedMemory - UInt64.ofNat d.footprint)) :
    Posts k hs (some p) none l l' := by
  refine ⟨?_, hc.tidy, ?_⟩
  · rw [hc.heap]
    exact deal
  · rw [hc.used, Option.bind_some, hd, Option.map_none, booked_none, UInt64.add_zero, booked_some]

theorem Posts.of_alloc {heap : Heap β} (deal : k.Deal hs none (some (q, e)) l.heap heap)
    (hc : Counted { l with heap := heap } l' (l.usedMemory + UInt64.ofNat e.footprint)) :
    Posts k hs none (some (q, e)) l l' := by
  refine ⟨?_, hc.tidy, ?_⟩
  · rw [hc.heap]
    exact deal
  · rw [hc.used, Option.bind_none, booked_none, UInt64.sub_zero, Option.map_some, booked_some]

/-- A block that nobody holds is not in the books. -/
theorem Astray.sound {s : Strategy β} {k : s.Contract} {halt : Halt}
    (hl : Sound k.toCustody hs l) (ha : Astray k l halt l') : Sound k.toCustody hs l' := by
  refine ⟨hl.holds.of_leaked ha.leaked, ?_⟩
  rw [ha.counter, ha.threads]
  exact hl.tidy

theorem Astray.used {s : Strategy β} {k : s.Contract} {halt : Halt} (ha : Astray k l halt l') :
    l'.usedMemory = l.usedMemory := by
  unfold usedMemory
  rw [ha.counter, ha.threads]

/-- Where alignments are honoured nothing goes astray. -/
theorem returns_of_honours {s : Strategy β} {k : s.Contract} {α : Type} {op : LedgerOp β α}
    {ret : α → Ledger β → Prop} (hk : k.honours) (h : Ends op l ret (Astray k l)) :
    Returns op l ret :=
  h.imp (fun _ _ => id) fun _ _ hastray => hastray.honours hk

end Posting

end HeapLedger.Ledger
