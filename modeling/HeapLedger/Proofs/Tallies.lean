import Mathlib.Logic.Function.Basic
import Mathlib.Algebra.GroupWithZero.Nat
import HeapLedger.Counter.Run
import HeapLedger.Proofs.Counter

/-!
# `HeapLedger/Proofs/Tallies.lean` — many counters, many threads

Threads do not have an index in each counter but one for all of them, which they claim with the
first update of any. So counters that know nothing of each other share a registry, and the number of
slots that one counter adds up is raised by threads that never touched it. `Tallies` are counters of
any number and any width over one registry; a run is any interleaving of whole updates, with threads
that end in between.

No update is lost (`Tallies.total_eq_net`). The invariant behind it is `Tallies.Tidy`. Indices name
their threads and stay (`Registry.index?_inj`, `Tallies.index?_run`), and whoever has updated
anything has one (`Tallies.exists_index?_opening`).

Indices are numbers here and do not run out. In a word they would after as many threads as a word
can count.
-/

set_option autoImplicit false

namespace HeapLedger

/-! ## Indices -/

namespace Registry

variable {r : Registry} {thread other i : Nat}

/-- An index is the place of its thread. -/
theorem claimed_of_index? (h : r.index? thread = some i) : r.claimed[i]? = some thread := by
  unfold index? at h
  split at h
  · cases h
  · rw [List.idxOf?] at h
    obtain ⟨hi, hthread, -⟩ := List.findIdx?_eq_some_iff_getElem.1 h
    rw [List.getElem?_eq_getElem hi, eq_of_beq hthread]

theorem index?_inj (h : r.index? thread = some i) (h' : r.index? other = some i) :
    other = thread :=
  Option.some.inj ((claimed_of_index? h').symm.trans (claimed_of_index? h))

/-- Who has an index has claimed one and is not ending. -/
theorem exists_index? : (∃ i, r.index? thread = some i) ↔
    thread ∈ r.claimed ∧ thread ∉ r.ending := by
  rw [← Option.isSome_iff_exists]
  unfold index?
  split
  · rename_i hending
    simp [hending]
  · rename_i hending
    simp [hending, List.isSome_idxOf?]

theorem mem_claimed_claim (h : thread ∉ r.ending) :
    thread ∈ (r.claim other).claimed ↔ thread = other ∨ thread ∈ r.claimed := by
  unfold claim
  split
  · rename_i hclaimed
    refine ⟨.inr, fun hthread => ?_⟩
    rcases hthread with rfl | hmem
    · exact hclaimed.resolve_left h
    · exact hmem
  · simp [or_comm]

theorem ending_claim (r : Registry) (thread : Nat) : (r.claim thread).ending = r.ending := by
  unfold claim
  split
  · rfl
  · rfl

/-- Nobody's claim moves the index of another thread. -/
theorem index?_claim (h : r.index? thread = some i) (other : Nat) :
    (r.claim other).index? thread = some i := by
  unfold claim
  split
  · exact h
  · unfold index? at *
    split at h
    · cases h
    · rename_i hending
      rw [if_neg hending, List.idxOf?, List.findIdx?_append]
      rw [List.idxOf?] at h
      rw [h]
      rfl

theorem index?_retire (h : r.index? thread = some i) (hne : other ≠ thread) :
    (r.retire other).index? thread = some i := by
  unfold index? retire at *
  split at h
  · cases h
  · rename_i hending
    rw [if_neg (by simpa [hne.symm] using hending)]
    exact h

end Registry

/-! ## The slots of threads that do not exist -/

namespace Counter

variable {c : Counter} {r : Nat}

/-- The slots of threads that do not exist add nothing. -/
theorem Tidy.total_add_eq (h : c.Tidy r) (k : Nat) : c.total (r + k) = c.total r := by
  induction k with
  | zero => rfl
  | succ k ih =>
    have hk : c.Tidy (r + k) := h.mono (Nat.le_add_right r k)
    rw [← Nat.add_assoc, hk.total_succ, ih]

/-- The total is the sum of everything there is. -/
theorem Tidy.total_eq_sum (h : c.Tidy r) : c.total r = c.slots.foldl (· + ·) c.overflow := by
  have hall : c.slots.length ≤ r + c.slots.length := Nat.le_add_left _ _
  rw [← h.total_add_eq c.slots.length, total, List.take_of_length_le hall]

@[simp] theorem length_slots_add (c : Counter) (index : Option Nat) (bytes : UInt64) :
    (c.add index bytes).slots.length = c.slots.length := by
  unfold add update
  cases index with
  | none => rfl
  | some i =>
    simp only
    split
    · exact List.length_modify _ _ _
    · rfl

end Counter

/-! ## Counters that share a registry -/

/-- Counters and the threads that update them. -/
structure Tallies where
  threads : Registry
  counters : Nat → Counter

namespace Tallies

/-- What a thread does. -/
inductive Step where
  | add (thread counter : Nat) (bytes : UInt64)
  | sub (thread counter : Nat) (bytes : UInt64)
  /-- The thread is ending, and has no index from here on. -/
  | retire (thread : Nat)

def opening (slots : Nat → Nat) : Tallies :=
  ⟨{}, fun i => .zero (slots i)⟩

def total (t : Tallies) (i : Nat) : UInt64 :=
  (t.counters i).total t.threads.size

/-- The share of a thread in counter `i`, changed by `change`. The thread claims an index if it has
none yet, and whatever it claims counts for all counters. -/
def touch (t : Tallies) (thread i : Nat) (change : Counter → Option Nat → Counter) : Tallies :=
  let r := Counter.Run.update { counter := t.counters i, threads := t.threads, caller := thread }
    change
  ⟨r.threads, Function.update t.counters i r.counter⟩

def after (t : Tallies) : Step → Tallies
  | .add thread i bytes => t.touch thread i fun c index => c.add index bytes
  | .sub thread i bytes => t.touch thread i fun c index => c.sub index bytes
  | .retire thread => { t with threads := t.threads.retire thread }

def run (t : Tallies) (steps : List Step) : Tallies :=
  steps.foldl after t

/-- The bytes that a step adds to counter `i`. -/
def Step.added (i : Nat) : Step → Nat
  | .add _ j bytes => if j = i then bytes.toNat else 0
  | _ => 0

def Step.subtracted (i : Nat) : Step → Nat
  | .sub _ j bytes => if j = i then bytes.toNat else 0
  | _ => 0

/-- The thread whose share a step changes. -/
def Step.toucher? : Step → Option Nat
  | .add thread _ _ | .sub thread _ _ => some thread
  | .retire _ => none

/-- Every counter has the slots it started with, and those of threads that do not exist hold
zero. -/
structure Tidy (slots : Nat → Nat) (t : Tallies) : Prop where
  width : ∀ i, (t.counters i).slots.length = slots i
  zero : ∀ i, (t.counters i).Tidy t.threads.size

variable {slots : Nat → Nat} {t : Tallies} {s : Step} {ss : List Step} {thread i j : Nat}

theorem total_opening (slots : Nat → Nat) (i : Nat) : (opening slots).total i = 0 := rfl

theorem tidy_opening (slots : Nat → Nat) : (opening slots).Tidy slots where
  width := fun i => by simp [opening, Counter.zero]
  zero := fun i => Counter.tidy_zero (slots i) _

theorem after_add (t : Tallies) (thread i : Nat) (bytes : UInt64) :
    t.after (.add thread i bytes) =
      ⟨t.threads.claim thread, Function.update t.counters i
        ((t.counters i).add ((t.threads.claim thread).index? thread) bytes)⟩ := rfl

/-- Words wrap, so there is no need to subtract. -/
theorem after_sub (t : Tallies) (thread i : Nat) (bytes : UInt64) :
    t.after (.sub thread i bytes) = t.after (.add thread i (-bytes)) := by
  rw [after_add, ← Counter.sub_eq_add]
  rfl

theorem index?_claim_lt (r : Registry) (thread : Nat) :
    ∀ j ∈ (r.claim thread).index? thread, j < (r.claim thread).size :=
  fun _ hj => Registry.index?_lt hj

theorem Tidy.add (h : t.Tidy slots) (thread i : Nat) (bytes : UInt64) :
    (t.after (.add thread i bytes)).Tidy slots := by
  rw [after_add]
  refine ⟨fun j => ?_, fun j => ?_⟩
  · by_cases hj : j = i
    · subst hj
      simp [h.width]
    · simp [hj, h.width]
  · have hclaim := (h.zero j).claim thread
    by_cases hj : j = i
    · subst hj
      simpa using hclaim.add (index?_claim_lt t.threads thread) bytes
    · simpa [hj] using hclaim

theorem Tidy.total_add (h : t.Tidy slots) (thread i j : Nat) (bytes : UInt64) :
    (t.after (.add thread j bytes)).total i = t.total i + if j = i then bytes else 0 := by
  rw [after_add]
  unfold total
  by_cases hj : j = i
  · subst hj
    simp [Counter.total_add (index?_claim_lt t.threads thread), (h.zero j).total_claim]
  · simp [hj, Ne.symm hj, (h.zero i).total_claim]

/-- One step keeps the slots in order. -/
theorem Tidy.after (h : t.Tidy slots) (s : Step) : (t.after s).Tidy slots := by
  cases s with
  | add thread i bytes => exact h.add thread i bytes
  | sub thread i bytes =>
    rw [after_sub]
    exact h.add thread i (-bytes)
  | retire thread => exact ⟨h.width, h.zero⟩

/-- One step moves each total by what it adds to that counter and subtracts from it. -/
theorem Tidy.total_after (h : t.Tidy slots) (s : Step) (i : Nat) :
    (t.after s).total i =
      t.total i + UInt64.ofNat (s.added i) - UInt64.ofNat (s.subtracted i) := by
  cases s with
  | add thread j bytes =>
    rw [h.total_add]
    by_cases hj : j = i <;> simp [Step.added, Step.subtracted, hj]
  | sub thread j bytes =>
    rw [after_sub, h.total_add]
    by_cases hj : j = i <;> simp [Step.added, Step.subtracted, hj, UInt64.sub_eq_add_neg]
  | retire thread =>
    show t.total i = t.total i + UInt64.ofNat 0 - UInt64.ofNat 0
    simp

theorem Tidy.run (h : t.Tidy slots) (ss : List Step) : (t.run ss).Tidy slots := by
  induction ss generalizing t with
  | nil => exact h
  | cons s ss ih => exact ih (h.after s)

theorem Tidy.total_run (h : t.Tidy slots) (ss : List Step) (i : Nat) :
    (t.run ss).total i = t.total i + UInt64.ofNat (ss.map (Step.added i)).sum -
      UInt64.ofNat (ss.map (Step.subtracted i)).sum := by
  induction ss generalizing t with
  | nil => simp [Tallies.run]
  | cons s ss ih =>
    have hrun : t.run (s :: ss) = (t.after s).run ss := rfl
    simp only [hrun, ih (h.after s), h.total_after, List.map_cons, List.sum_cons,
      UInt64.ofNat_add]
    grind

/-- A step moves no index but that of a thread that ends. -/
theorem index?_after (h : t.threads.index? thread = some i) {s : Step}
    (hs : s ≠ .retire thread) : (t.after s).threads.index? thread = some i := by
  cases s with
  | add other j bytes => exact Registry.index?_claim h other
  | sub other j bytes => exact Registry.index?_claim h other
  | retire other => exact Registry.index?_retire h fun hother => hs (hother ▸ rfl)

theorem index?_run (h : t.threads.index? thread = some i) {ss : List Step}
    (hss : .retire thread ∉ ss) : (t.run ss).threads.index? thread = some i := by
  induction ss generalizing t with
  | nil => exact h
  | cons s ss ih =>
    obtain ⟨hs, hss⟩ := List.ne_and_not_mem_of_not_mem_cons hss
    exact ih (index?_after h hs.symm) hss

/-! ## Who has an index -/

/-- A thread is ending once it has ended. -/
theorem mem_ending_after : thread ∈ (t.after s).threads.ending ↔
    s = .retire thread ∨ thread ∈ t.threads.ending := by
  cases s with
  | add other j bytes => simp [after_add, Registry.ending_claim]
  | sub other j bytes => simp [after_sub, after_add, Registry.ending_claim]
  | retire other =>
    show thread ∈ other :: t.threads.ending ↔ _
    simp [eq_comm]

/-- A thread that is not ending has claimed an index once it has changed its share of anything. -/
theorem mem_claimed_after (h : thread ∉ t.threads.ending) :
    thread ∈ (t.after s).threads.claimed ↔
      s.toucher? = some thread ∨ thread ∈ t.threads.claimed := by
  cases s with
  | add other j bytes =>
    rw [after_add, Registry.mem_claimed_claim h]
    simp [Step.toucher?, eq_comm]
  | sub other j bytes =>
    rw [after_sub, after_add, Registry.mem_claimed_claim h]
    simp [Step.toucher?, eq_comm]
  | retire other =>
    show thread ∈ t.threads.claimed ↔ _
    simp [Step.toucher?]

theorem mem_ending_run : thread ∈ (t.run ss).threads.ending ↔
    .retire thread ∈ ss ∨ thread ∈ t.threads.ending := by
  induction ss generalizing t with
  | nil => simp [Tallies.run]
  | cons s ss ih =>
    have hrun : t.run (s :: ss) = (t.after s).run ss := rfl
    rw [hrun, ih, mem_ending_after, List.mem_cons, eq_comm, or_assoc, or_left_comm]

theorem mem_claimed_run (h : thread ∉ t.threads.ending) (hss : .retire thread ∉ ss) :
    thread ∈ (t.run ss).threads.claimed ↔
      (∃ s ∈ ss, s.toucher? = some thread) ∨ thread ∈ t.threads.claimed := by
  induction ss generalizing t with
  | nil => simp [Tallies.run]
  | cons s ss ih =>
    obtain ⟨hs, hss⟩ := List.ne_and_not_mem_of_not_mem_cons hss
    have hrun : t.run (s :: ss) = (t.after s).run ss := rfl
    have hafter : thread ∉ (t.after s).threads.ending := by
      rw [mem_ending_after]
      exact not_or.2 ⟨hs.symm, h⟩
    rw [hrun, ih hafter hss, mem_claimed_after h]
    simp only [List.mem_cons, exists_eq_or_imp, or_assoc, or_left_comm]

/-- From the opening on, a thread has an index just when it has changed its share of something and
has not ended. -/
theorem exists_index?_opening (slots : Nat → Nat) (ss : List Step) (thread : Nat) :
    (∃ i, ((opening slots).run ss).threads.index? thread = some i) ↔
      (∃ s ∈ ss, s.toucher? = some thread) ∧ .retire thread ∉ ss := by
  have hnobody : thread ∉ (opening slots).threads.ending := fun hmem => nomatch hmem
  rw [Registry.exists_index?, mem_ending_run]
  by_cases hss : .retire thread ∈ ss
  · simp [hss]
  · rw [mem_claimed_run hnobody hss]
    simp [hss, opening]

/-- No update is lost: after any interleaving the total of a counter is what was added to it less
what was subtracted from it, modulo the word. The slots that are not summed are all zero. A thread
has an index just when it has changed its share of something and has not ended, and every index is
below the count of threads, names one thread, and is kept until that thread ends. -/
theorem total_eq_net (slots : Nat → Nat) (ss : List Step) :
    let t := (opening slots).run ss
    (∀ i, t.total i = UInt64.ofNat (ss.map (Step.added i)).sum -
      UInt64.ofNat (ss.map (Step.subtracted i)).sum) ∧
    (∀ i, let c := t.counters i
      c.slots.length = slots i ∧
      (∀ j v, t.threads.size ≤ j → c.slots[j]? = some v → v = 0) ∧
      t.total i = (c.slots.take (min t.threads.size (slots i))).foldl (· + ·) c.overflow ∧
      t.total i = c.slots.foldl (· + ·) c.overflow) ∧
    (∀ thread, (∃ i, t.threads.index? thread = some i) ↔
      (∃ s ∈ ss, s.toucher? = some thread) ∧ .retire thread ∉ ss) ∧
    ∀ thread i, t.threads.index? thread = some i →
      i < t.threads.size ∧ (∀ other, t.threads.index? other = some i → other = thread) ∧
        ∀ ss', .retire thread ∉ ss' → (t.run ss').threads.index? thread = some i := by
  have htidy := (tidy_opening slots).run ss
  refine ⟨fun i => ?_, fun i => ?_, exists_index?_opening slots ss, fun thread i hi => ?_⟩
  · rw [(tidy_opening slots).total_run ss i, total_opening, UInt64.zero_add]
  · refine ⟨htidy.width i, htidy.zero i, ?_, (htidy.zero i).total_eq_sum⟩
    rw [← htidy.width i, ← List.take_eq_take_min]
    rfl
  · exact ⟨Registry.index?_lt hi, fun other => Registry.index?_inj hi,
      fun ss' => index?_run hi⟩

/-- Two threads, one slot in the first counter and none in the second, and an end in between. -/
theorem total_eq_net_two_threads :
    let ss := [.add 7 0 4096, .sub 9 0 4096, .add 9 1 5, .retire 9, .add 9 1 1]
    let t := (opening fun i => 1 - i).run ss
    t.total 0 = 0 ∧ t.total 1 = 6 ∧ t.threads.size = 2 ∧
      t.threads.index? 7 = some 0 ∧ t.threads.index? 9 = none ∧
      ∀ other, t.threads.index? other = some 0 → other = 7 := by
  have hnet := total_eq_net (fun i => 1 - i)
    [.add 7 0 4096, .sub 9 0 4096, .add 9 1 5, .retire 9, .add 9 1 1]
  obtain ⟨htotal, -, hindexed, hindex⟩ := hnet
  have hfirst : ((opening fun i => 1 - i).run
      [.add 7 0 4096, .sub 9 0 4096, .add 9 1 5, .retire 9, .add 9 1 1]).threads.index? 7 =
        some 0 := by decide
  refine ⟨?_, ?_, rfl, hfirst, ?_, ?_⟩
  · exact (htotal 0).trans (by decide)
  · exact (htotal 1).trans (by decide)
  · apply Option.eq_none_iff_forall_ne_some.2
    intro i hi
    exact ((hindexed 9).1 ⟨i, hi⟩).2 (by simp)
  · exact (hindex 7 0 hfirst).2.1

end Tallies

end HeapLedger
