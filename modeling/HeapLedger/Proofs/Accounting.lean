import HeapLedger.Proofs.Desk
import HeapLedger.Proofs.Strategy.Adapter

/-!
# `HeapLedger/Proofs/Accounting.lean` — the count never drifts

The one promise of a ledger: after every lawful run, `usedMemory` is the sum of what the pointers
that are out are said to cost, modulo the word. Which thread took a block and which one gave it back
makes no difference, nor does what callers write to their blocks. When nothing is out any more the
count is where it started.

Nothing is asked of the backend beyond its contract. In particular it may break its word about an
alignment, in which case the block is lost to everybody, the count included.
-/

set_option autoImplicit false

namespace HeapLedger

variable {β : Type} {s : Strategy β} {k : s.Contract} {hs : Holdings} {d : Desk β} {p : Nat}

namespace Ledger

theorem usableSize_eq {l : Ledger β} {n : Nat} (h : s.usableSize p l.heap = .ok n) :
    usableSize s p l = .ok n l := by
  unfold usableSize onHeap
  rw [run_query h]

theorem allocationSize_eq {l : Ledger β} {n : Nat} (h : s.footprint p l.heap = .ok n) :
    allocationSize s p l = .ok n l := by
  unfold allocationSize onHeap
  rw [run_query h]

end Ledger

namespace Desk

theorem Keeps.answers (hk : Keeps k.toCustody hs d) (hp : p ∈ d.live) :
    ∃ e, hs p = some e ∧ Ledger.usableSize s p d.ledger = .ok e.usable d.ledger ∧
      Ledger.allocationSize s p d.ledger = .ok e.footprint d.ledger := by
  obtain ⟨e, he⟩ := hk.holding hp
  have hvalid := hk.sound.holds.valid
  have hstands := hk.sound.holds.stands p e he
  exact ⟨e, he, Ledger.usableSize_eq (k.usableSize hvalid hstands),
    Ledger.allocationSize_eq (k.footprint hvalid hstands)⟩

theorem Keeps.sum (hk : Keeps k.toCustody hs d) :
    ∃ size : Nat → Nat,
      (∀ p ∈ d.live, Ledger.allocationSize s p d.ledger = .ok (size p) d.ledger) ∧
        d.ledger.usedMemory = UInt64.ofNat (∑ p ∈ d.live, size p) := by
  refine ⟨hs.cost, fun p hp => ?_, hk.used⟩
  obtain ⟨e, he, -, hsize⟩ := hk.answers hp
  rw [hsize, Holdings.cost, he]
  rfl

/-- Lawful runs from an opening keep the invariant. -/
theorem keeps_run (a : Adapter β) {host : Host} (hhost : host.Confined) {heap : Heap β}
    (hheap : a.survey.valid heap) (slots : Nat) {ms : List Move}
    (hms : Lawful a.strategy host (opening heap slots) ms) :
    ∃ hs, Keeps a.contract.toCustody hs (run a.strategy host (opening heap slots) ms) ∧
      (a.contract.honours → a.contract.Tight (fun _ => none) heap →
        a.contract.Tight hs (run a.strategy host (opening heap slots) ms).ledger.heap) := by
  have hvalid : a.contract.valid heap := by
    rw [a.contract_survey]
    exact hheap
  obtain ⟨hs, hrun⟩ := (keeps_opening (k := a.contract.toCustody) hvalid slots).run hhost hms
  exact ⟨hs, hrun.keeps, hrun.tight⟩

/-- After every lawful run the count is the sum of the allocation sizes of all pointers that are
out, and back at its start when none is. -/
theorem usedMemory_eq_sum (a : Adapter β) {host : Host} (hhost : host.Confined) {heap : Heap β}
    (hheap : a.survey.valid heap) (slots : Nat) {ms : List Move}
    (hms : Lawful a.strategy host (opening heap slots) ms) :
    let d := run a.strategy host (opening heap slots) ms
    (∃ size : Nat → Nat,
      (∀ p ∈ d.live, Ledger.allocationSize a.strategy p d.ledger = .ok (size p) d.ledger) ∧
        d.ledger.usedMemory = UInt64.ofNat (∑ p ∈ d.live, size p)) ∧
      (d.live = ∅ → d.ledger.usedMemory = (opening heap slots).ledger.usedMemory) := by
  obtain ⟨hs, hk, -⟩ := keeps_run a hhost hheap slots hms
  obtain ⟨size, hsize, hused⟩ := hk.sum
  refine ⟨⟨size, hsize, hused⟩, fun hnone => ?_⟩
  rw [hused, hnone, Finset.sum_empty]
  rfl

/-- A heap of an arena that nothing was asked of yet. -/
def arenaHeap : Heap Arena :=
  ⟨Arena.freshMemory, .new {}⟩

theorem arenaHeap_valid : (Arena.fullContract Arena.honest_default).valid arenaHeap :=
  Arena.orderly_new {}

/-- One thread takes a block, another takes one at a multiple of 64 and frees the first. -/
def arenaVisit (first : Nat) : List Move :=
  [.call (.alloc .attempt 5), .switch 1, .call (.allocAligned .orFail 10 64),
    .call (.free (some first))]

theorem lawful_arenaVisit :
    Lawful (.headered (Arena.full {}).toBackend) .unsupported (opening arenaHeap 4)
      (arenaVisit (Arena.base + 16)) := by
  refine ⟨⟨rfl, ?_⟩, trivial, ⟨rfl, ?_⟩, ⟨rfl, ?_⟩, trivial⟩
  · decide
  · decide
  · decide +kernel

theorem usedMemory_eq_sum_arena :
    let s := Strategy.headered (Arena.full {}).toBackend
    let d := run s .unsupported (opening arenaHeap 4) (arenaVisit (Arena.base + 16))
    d.live = {Arena.base + 64} ∧ d.ledger.usedMemory = 98 ∧ ∃ size : Nat → Nat,
      (∀ p ∈ d.live, Ledger.allocationSize s p d.ledger = .ok (size p) d.ledger) ∧
        d.ledger.usedMemory = UInt64.ofNat (∑ p ∈ d.live, size p) := by
  have hsum := usedMemory_eq_sum (Adapter.arenaHeadered Arena.honest_default)
    Host.confined_unsupported arenaHeap_valid 4 lawful_arenaVisit
  refine ⟨?_, ?_, hsum.1⟩
  · decide +kernel
  · decide +kernel

end Desk

end HeapLedger
