import HeapLedger.Counter
import HeapLedger.Ledger
import HeapLedger.Proofs.Ends

/-!
# `HeapLedger/Proofs/Counter.lean` — the total of a sharded counter

`Counter.total` adds up the slots of the threads that exist. That this is all there is to add is an
invariant, `Counter.Tidy`: a slot whose thread does not exist yet holds zero. It is what lets a
thread come into existence without moving the total (`Tidy.total_succ`), and with it a change by any
thread moves the total by exactly the change (`Tidy.total_add`, `Tidy.total_sub`), wherever the
change lands.

The last section reads this off for ledgers: counting bytes moves `usedMemory` by that many, modulo
the word, whichever thread runs.
-/

set_option autoImplicit false

namespace HeapLedger

namespace Counter

/-- The slots of threads that do not exist hold zero. -/
def Tidy (c : Counter) (registered : Nat) : Prop :=
  ∀ i v, registered ≤ i → c.slots[i]? = some v → v = 0

theorem tidy_zero (slots registered : Nat) : (zero slots).Tidy registered := by
  intro i v _ hv
  rw [zero, List.getElem?_replicate] at hv
  split at hv
  · exact (Option.some.inj hv).symm
  · cases hv

theorem Tidy.mono {c : Counter} {r r' : Nat} (h : c.Tidy r) (hr : r ≤ r') : c.Tidy r' :=
  fun i v hi hv => h i v (Nat.le_trans hr hi) hv

/-! ## The sum of a prefix -/

-- Words wrap, so sums of them can be regrouped freely.
theorem foldl_add (l : List UInt64) (a b : UInt64) :
    l.foldl (· + ·) (a + b) = l.foldl (· + ·) a + b := by
  induction l generalizing a with
  | nil => rfl
  | cons v rest ih =>
    simp only [List.foldl_cons]
    rw [UInt64.add_assoc, UInt64.add_comm b v, ← UInt64.add_assoc, ih]

/-- A change inside the prefix moves the sum by the change. -/
theorem foldl_take_modify {l : List UInt64} {i r : Nat} (hi : i < l.length) (hr : i < r)
    (a d : UInt64) :
    ((l.modify i (· + d)).take r).foldl (· + ·) a = (l.take r).foldl (· + ·) a + d := by
  induction l generalizing i r a with
  | nil => exact absurd hi (Nat.not_lt_zero i)
  | cons v rest ih =>
    obtain ⟨r, rfl⟩ : ∃ k, r = k + 1 := ⟨r - 1, by omega⟩
    cases i with
    | zero =>
      simp only [List.modify_zero_cons, List.take_succ_cons, List.foldl_cons]
      rw [← UInt64.add_assoc, foldl_add]
    | succ i =>
      simp only [List.modify_succ_cons, List.take_succ_cons, List.foldl_cons]
      exact ih (Nat.lt_of_succ_lt_succ hi) (Nat.lt_of_succ_lt_succ hr) (a + v)

/-- The thread that comes next brings nothing into the total. -/
theorem Tidy.total_succ {c : Counter} {r : Nat} (h : c.Tidy r) : c.total (r + 1) = c.total r := by
  unfold total
  rw [List.take_add_one, List.foldl_append]
  cases hv : c.slots[r]? with
  | none => rfl
  | some v =>
    rw [h r v (Nat.le_refl r) hv]
    exact UInt64.add_zero _

/-! ## Adding and subtracting -/

theorem sub_eq_add (c : Counter) (index : Option Nat) (bytes : UInt64) :
    c.sub index bytes = c.add index (-bytes) := by
  unfold sub add
  congr 1
  funext v
  exact UInt64.sub_eq_add_neg v bytes

theorem total_add {c : Counter} {r : Nat} {index : Option Nat} (hindex : ∀ i ∈ index, i < r)
    (bytes : UInt64) : (c.add index bytes).total r = c.total r + bytes := by
  cases index with
  | none => exact foldl_add _ _ _
  | some i =>
    unfold add update total
    by_cases hi : i < c.slots.length
    · simp only [if_pos hi]
      exact foldl_take_modify hi (hindex i rfl) _ _
    · simp only [if_neg hi]
      exact foldl_add _ _ _

theorem total_sub {c : Counter} {r : Nat} {index : Option Nat} (hindex : ∀ i ∈ index, i < r)
    (bytes : UInt64) : (c.sub index bytes).total r = c.total r - bytes := by
  rw [sub_eq_add, total_add hindex, UInt64.sub_eq_add_neg]

/-- Only the slots of threads that exist are ever written. -/
theorem Tidy.add {c : Counter} {r : Nat} (h : c.Tidy r) {index : Option Nat}
    (hindex : ∀ i ∈ index, i < r) (bytes : UInt64) : (c.add index bytes).Tidy r := by
  cases index with
  | none => exact h
  | some i =>
    unfold Counter.add update
    by_cases hi : i < c.slots.length
    · intro j v hj hv
      -- The slot that was written belongs to a thread that exists, the one asked about does not.
      have hij : i ≠ j := Nat.ne_of_lt (Nat.lt_of_lt_of_le (hindex i rfl) hj)
      simp only [if_pos hi, List.getElem?_modify, if_neg hij, id_map'] at hv
      exact h j v hj hv
    · simp only [if_neg hi]
      exact h

theorem Tidy.sub {c : Counter} {r : Nat} (h : c.Tidy r) {index : Option Nat}
    (hindex : ∀ i ∈ index, i < r) (bytes : UInt64) : (c.sub index bytes).Tidy r := by
  rw [sub_eq_add]
  exact h.add hindex _

end Counter

/-! ## Claims -/

namespace Registry

theorem index?_lt {r : Registry} {thread i : Nat} (h : r.index? thread = some i) : i < r.size := by
  unfold index? at h
  split at h
  · cases h
  · rw [List.idxOf?] at h
    exact (List.findIdx?_eq_some_iff_getElem.1 h).1

/-- A claim makes at most one more thread. -/
theorem size_claim (r : Registry) (thread : Nat) :
    (r.claim thread).size = r.size ∨ (r.claim thread).size = r.size + 1 := by
  unfold claim
  split
  · exact .inl rfl
  · exact .inr (by simp [size])

end Registry

theorem Counter.Tidy.claim {c : Counter} {r : Registry} (h : c.Tidy r.size) (thread : Nat) :
    c.Tidy (r.claim thread).size := by
  refine h.mono ?_
  rcases r.size_claim thread with hs | hs
  · exact Nat.le_of_eq hs.symm
  · omega

theorem Counter.Tidy.total_claim {c : Counter} {r : Registry} (h : c.Tidy r.size) (thread : Nat) :
    c.total (r.claim thread).size = c.total r.size := by
  rcases r.size_claim thread with hs | hs
  · rw [hs]
  · rw [hs, h.total_succ]

/-! ## Counting bytes in a ledger -/

namespace Ledger

variable {β : Type}

/-- Counting changes no more than the counter and the threads. -/
theorem count_eq (change : Counter → Option Nat → Counter) (l : Ledger β) :
    count change l = .ok ()
      { l with
        threads := l.threads.claim l.caller
        counter := change l.counter ((l.threads.claim l.caller).index? l.caller) } := rfl

/-- What counting does to a ledger: the total moves as told and everything else stays. -/
structure Counted (l l' : Ledger β) (total : UInt64) : Prop where
  heap : l'.heap = l.heap
  tidy : l'.counter.Tidy l'.threads.size
  used : l'.usedMemory = total

variable {l : Ledger β} {stop : Halt → Ledger β → Prop}

theorem charge_ends (h : l.counter.Tidy l.threads.size) (bytes : Nat) :
    Ends (charge bytes) l
      (fun _ l' => Counted l l' (l.usedMemory + UInt64.ofNat bytes)) stop := by
  have hindex : ∀ i ∈ (l.threads.claim l.caller).index? l.caller,
      i < (l.threads.claim l.caller).size := fun i hi => Registry.index?_lt hi
  unfold Ends charge
  rw [count_eq]
  refine ⟨rfl, (h.claim l.caller).add hindex _, ?_⟩
  show Counter.total (Counter.add _ _ _) _ = _
  rw [Counter.total_add hindex, h.total_claim]
  rfl

theorem credit_ends (h : l.counter.Tidy l.threads.size) (bytes : Nat) :
    Ends (credit bytes) l
      (fun _ l' => Counted l l' (l.usedMemory - UInt64.ofNat bytes)) stop := by
  have hindex : ∀ i ∈ (l.threads.claim l.caller).index? l.caller,
      i < (l.threads.claim l.caller).size := fun i hi => Registry.index?_lt hi
  unfold Ends credit
  rw [count_eq]
  refine ⟨rfl, (h.claim l.caller).sub hindex _, ?_⟩
  show Counter.total (Counter.sub _ _ _) _ = _
  rw [Counter.total_sub hindex, h.total_claim]
  rfl

/-- Counting leaves the heap alone. -/
theorem count_keeps {change : Counter → Option Nat → Counter} {ret : Unit → Ledger β → Prop}
    (hret : ∀ l', l'.heap = l.heap → ret () l') : Ends (count change) l ret stop :=
  .intro_ok (count_eq change l) (hret _ rfl)

end Ledger

end HeapLedger
