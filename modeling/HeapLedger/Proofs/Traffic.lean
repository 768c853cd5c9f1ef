import Mathlib.Data.Set.Function
import HeapLedger.Proofs.Accounting
import HeapLedger.Proofs.Ledger.Follows

/-!
# `HeapLedger/Proofs/Traffic.lean` — what the backend gets to see

Two levels of pointers are in play: those that callers hold, and those that the backend handed out
for the blocks behind them. After every lawful run they are in one-to-one correspondence
(`Desk.bijOn_raw`), so no block is lost and none is freed twice, failures in the middle of a resize
included.

What the backend is asked on the way shows when the same run is made over the watched backend. That
run is the same in all else (`Desk.unwatched_run`), and knows every request that was made and the
heap that the request found. All of them were proper: for a positive number of bytes that fits a
word, about live blocks, and giving blocks back with a size between what was asked for and what
there is. For a headered strategy that size is what was asked for, to the byte.

A native strategy stops at a block that does not have the alignment it was asked for, and with that
loses the block. So here backends are expected to honour alignments where they are asked to.
-/

set_option autoImplicit false

namespace HeapLedger

variable {β : Type}

namespace Desk

/-! ## The same run, watched -/

section Watching

/-- A desk over a watched backend that was not asked for anything yet. -/
def openingWatched (heap : Heap β) (slots : Nat) : Desk (Watched β) :=
  opening ⟨heap.memory, heap.state, []⟩ slots

/-- The desk without the requests that its backend has written down. -/
def unwatched (d : Desk (Watched β)) : Desk β :=
  ⟨d.ledger.unwatched, d.live⟩

variable {s' : Strategy (Watched β)} {s : Strategy β} (hs : s'.Imitates s) (host : Host)

include hs

theorem unwatched_answer (d : Desk (Watched β)) (a : Action) :
    d.unwatched.answer s host a =
      ((d.answer s' host a).1, (d.answer s' host a).2.unwatched) := by
  have hfollows := Action.follows_perform hs host a
  unfold answer
  cases hrun : a.perform s' host d.ledger with
  | ok r l =>
    have hplain : a.perform s host d.unwatched.ledger = _ := hfollows.of_ok hrun
    rw [hplain]
  | error e l =>
    have hplain : a.perform s host d.unwatched.ledger = _ := hfollows.of_error hrun
    rw [hplain]

theorem unwatched_after (d : Desk (Watched β)) (m : Move) :
    (d.after s' host m).unwatched = d.unwatched.after s host m := by
  cases m with
  | call a =>
    have hanswer := unwatched_answer hs host d a
    unfold after turn given handed
    simp only [hanswer]
    rfl
  | write memory => rfl
  | switch thread => rfl
  | claim thread => rfl
  | retire thread => rfl

theorem unwatched_run (d : Desk (Watched β)) (ms : List Move) :
    (run s' host d ms).unwatched = run s host d.unwatched ms := by
  induction ms generalizing d with
  | nil => rfl
  | cons m ms ih =>
    unfold run
    rw [ih, unwatched_after hs]

theorem allows_unwatched (d : Desk (Watched β)) (m : Move) :
    d.unwatched.Allows s m ↔ d.Allows s' m := by
  cases m with
  | call a => exact Iff.rfl
  | write memory =>
    unfold Allows
    simp only [hs.usableSize]
    exact Iff.rfl
  | switch thread => exact Iff.rfl
  | claim thread => exact Iff.rfl
  | retire thread => exact Iff.rfl

theorem lawful_unwatched (d : Desk (Watched β)) (ms : List Move) :
    Lawful s host d.unwatched ms ↔ Lawful s' host d ms := by
  induction ms generalizing d with
  | nil => exact Iff.rfl
  | cons m ms ih =>
    unfold Lawful
    rw [allows_unwatched hs, ← unwatched_after hs, ih]

end Watching

/-! ## Requests and pointers -/

variable {a : Adapter β} {hs : Holdings} {d : Desk β} {host : Host}

/-- Callers' pointers and the backend's, one for one. -/
theorem bijOn_raw (hk : Keeps a.contract.toCustody hs d) (ht : a.contract.Tight hs d.ledger.heap) :
    Set.BijOn (a.raw d.ledger.heap) d.live {q | (a.survey.live d.ledger.heap q).isSome} := by
  have hstart : ∀ p e, hs p = some e → a.raw d.ledger.heap p = e.start := fun p e he =>
    a.raw_of_stands hk.sound.holds.valid (hk.sound.holds.stands p e he)
  rw [← a.contract_survey]
  refine ⟨?_, ?_, ?_⟩
  · intro p hp
    obtain ⟨e, he⟩ := hk.holding hp
    show (a.contract.live _ _).isSome
    rw [hstart p e he, hk.sound.holds.live he]
    rfl
  · intro p hp q hq hpq
    obtain ⟨e, he⟩ := hk.holding hp
    obtain ⟨f, hf⟩ := hk.holding hq
    rw [hstart p e he, hstart q f hf] at hpq
    exact hk.sound.holds.distinct p q e f he hf hpq
  · intro q hq
    obtain ⟨l, hl⟩ := Option.isSome_iff_exists.1 hq
    obtain ⟨p, e, he, hq⟩ := ht q l hl
    refine ⟨p, ?_, ?_⟩
    · show p ∈ d.live
      rw [hk.live, he]
      rfl
    · rw [hstart p e he, hq]

/-- What a pointer costs is the size with which its block would be given back. -/
theorem terms_allocationSize (hk : Keeps a.contract.toCustody hs d) {p : Nat} (hp : p ∈ d.live) :
    ∃ n l, Ledger.allocationSize a.strategy p d.ledger = .ok n d.ledger ∧
      a.survey.live d.ledger.heap (a.raw d.ledger.heap p) = some l ∧ a.terms l n := by
  obtain ⟨e, he, -, hsize⟩ := hk.answers hp
  have hvalid := hk.sound.holds.valid
  have hstands := hk.sound.holds.stands p e he
  refine ⟨e.footprint, e.lease, hsize, ?_, a.terms_of_stands hvalid hstands⟩
  rw [a.raw_of_stands hvalid hstands, ← a.contract_survey]
  exact hk.sound.holds.live he

/-- Over a watched backend all requests of a lawful run are proper. -/
theorem proper_requests (a : Adapter β) (hhost : host.Confined) {heap : Heap β}
    (hheap : a.survey.valid heap) (slots : Nat) {ms : List Move}
    (hms : Lawful a.watched host (openingWatched heap slots) ms) :
    ∀ x ∈ (run a.watched host (openingWatched heap slots) ms).ledger.heap.state.seen,
      x.Proper a.backend a.survey a.terms := by
  have hvalid : a.watchedContract.valid ⟨heap.memory, heap.state, []⟩ := by
    rw [a.watchedContract_survey]
    exact ⟨hheap, fun x hx => nomatch hx⟩
  have hopen : Keeps a.watchedContract.toCustody (fun _ => none) (openingWatched heap slots) :=
    keeps_opening hvalid slots
  -- That all requests were proper is part of what makes a watched heap valid.
  obtain ⟨hs, hrun⟩ := hopen.run hhost hms
  have hlast := hrun.keeps.sound.holds.valid
  rw [a.watchedContract_survey] at hlast
  exact hlast.2

/-- After every lawful run callers' pointers and live blocks correspond one for one, and every block
costs what it would be given back with. The requests that were made on the way, as they show in the
same run over the watched backend, were all proper. -/
theorem backend_sees_proper_requests (a : Adapter β) (ha : a.Honours) {host : Host}
    (hhost : host.Confined) {heap : Heap β} (hheap : a.survey.valid heap)
    (hnone : ∀ q, a.survey.live heap q = none) (slots : Nat) {ms : List Move}
    (hms : Lawful a.strategy host (opening heap slots) ms) :
    let d := run a.strategy host (opening heap slots) ms
    let w := run a.watched host (openingWatched heap slots) ms
    Set.BijOn (a.raw d.ledger.heap) d.live {q | (a.survey.live d.ledger.heap q).isSome} ∧
      (∀ p ∈ d.live, ∃ n l, Ledger.allocationSize a.strategy p d.ledger = .ok n d.ledger ∧
        a.survey.live d.ledger.heap (a.raw d.ledger.heap p) = some l ∧ a.terms l n) ∧
      w.unwatched = d ∧ ∀ x ∈ w.ledger.heap.state.seen, x.Proper a.backend a.survey a.terms := by
  have htight : a.contract.Tight (fun _ => none) heap := by
    intro q l hq
    rw [a.contract_survey, hnone q] at hq
    cases hq
  obtain ⟨hs, hk, hkept⟩ := keeps_run a hhost hheap slots hms
  refine ⟨?_, fun p hp => terms_allocationSize hk hp, ?_, ?_⟩
  · exact bijOn_raw hk (hkept (a.contract_honours.2 ha) htight)
  · exact unwatched_run a.watched_imitates host (openingWatched heap slots) ms
  · exact proper_requests a hhost hheap slots
      ((lawful_unwatched a.watched_imitates host (openingWatched heap slots) ms).1 hms)

theorem backend_sees_proper_requests_arena :
    let a := Adapter.arenaNative Arena.honest_default
    let d := run a.strategy .unsupported (opening arenaHeap 4) (arenaVisit Arena.base)
    d.live = {Arena.base + 64} ∧
      Set.BijOn (a.raw d.ledger.heap) d.live {q | (a.survey.live d.ledger.heap q).isSome} := by
  have hms : Lawful (Adapter.arenaNative Arena.honest_default).strategy .unsupported
      (opening arenaHeap 4) (arenaVisit Arena.base) := by
    refine ⟨⟨rfl, ?_⟩, trivial, ⟨rfl, ?_⟩, ⟨rfl, ?_⟩, trivial⟩
    · decide
    · decide
    · decide +kernel
  have hproper := backend_sees_proper_requests (Adapter.arenaNative Arena.honest_default)
    (Adapter.arenaNative_honours Arena.honest_default) Host.confined_unsupported arenaHeap_valid
    (fun _ => rfl) 4 hms
  refine ⟨?_, hproper.1⟩
  decide +kernel

end Desk

end HeapLedger
