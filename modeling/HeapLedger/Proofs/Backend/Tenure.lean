import HeapLedger.Proofs.Backend.Arena

/-!
# `HeapLedger/Proofs/Backend/Tenure.lean` — blocks that are there, whatever is in them

A backend respects tenure if its live blocks do not meet, hold what was asked for, and are at least
as big as it says they are. It may refuse, place, round and move as it likes, say that a block is
smaller than it is, hand out zeroed memory that is not zero, and lose what a block holds. That much
is presupposed of a backend of which the rest is to be found out.

Step by step it is the contract without what that says about content (`Survey.Turn` for
`Survey.Trade`). Two things come on top: blocks can be given back without their size, and the size
that is reported need not be exact.

`Survey.Borrowed` follows one block from the request that brings it to the one that gives it back.
-/

set_option autoImplicit false

namespace HeapLedger

variable {β : Type}

section Exchange

variable {α : Type} {f : Nat → Option α} {p q : Nat} {a b : α}

/-- An entry that comes and goes again leaves nothing behind. -/
theorem exchange_restored (hp : f p = none) :
    exchange (exchange f none (some (p, a))) (some p) none = f := by
  funext x
  by_cases hx : p = x
  · subst hx
    rw [exchange_gone, hp]
  · simp [exchange, hx]

/-- Nor does one for which another comes. -/
theorem exchange_superseded (hp : f p = none) :
    exchange (exchange f none (some (p, a))) (some p) (some (q, b)) =
      exchange f none (some (q, b)) := by
  funext x
  by_cases hx : p = x
  · subst hx
    simp [exchange, hp]
  · simp [exchange, hx]

end Exchange

namespace Survey

/-- From `h` to `h'` the block at `gone` goes, if any, and the block `came` comes, if any. No other
block comes or goes. -/
structure Turn (v : Survey β) (gone : Option Nat) (came : Option (Nat × Lease))
    (h h' : Heap β) : Prop where
  valid : v.valid h'
  live : v.live h' = exchange (v.live h) gone came
  fresh : ∀ q l, came = some (q, l) → gone ≠ some q → v.live h q = none

/-- An answer to a request for `n` bytes that replaces the block at `gone`, if any. A refusal
changes no block. -/
def Turned (v : Survey β) (gone : Option Nat) (n : Nat) (h : Heap β) :
    Option Nat → Heap β → Prop
  | none, h' => v.Turn none none h h'
  | some q, h' => ∃ bytes, v.Turn gone (some (q, ⟨n, bytes⟩)) h h'

variable {v : Survey β} {gone : Option Nat} {came : Option (Nat × Lease)} {h h' : Heap β}

theorem Trade.turn (t : v.Trade gone came h h') : v.Turn gone came h h' :=
  ⟨t.valid, t.live, t.fresh⟩

theorem Served.turned {n : Nat} {r : Option Nat} (hserved : v.Served gone n h r h') :
    v.Turned gone n h r h' := by
  cases r with
  | none => exact Trade.turn hserved
  | some q =>
    obtain ⟨bytes, t⟩ := hserved
    exact ⟨bytes, t.turn⟩

/-! ## A block on loan -/

/-- The blocks of a heap are some others and one at `p`. -/
structure Borrowed (v : Survey β) (others : Nat → Option Lease) (p : Nat) (l : Lease)
    (h : Heap β) : Prop where
  valid : v.valid h
  apart : others p = none
  live : v.live h = exchange others none (some (p, l))

variable {others : Nat → Option Lease} {p q : Nat} {l k : Lease}

theorem Turn.borrowed (t : v.Turn none (some (q, l)) h h') : v.Borrowed (v.live h) q l h' where
  valid := t.valid
  apart := t.fresh q l rfl (by simp)
  live := t.live

namespace Borrowed

theorem live_self (hb : v.Borrowed others p l h) : v.live h p = some l := by
  rw [hb.live, exchange_came]

theorem live_other (hb : v.Borrowed others p l h) (hq : q ≠ p) : v.live h q = others q := by
  rw [hb.live, exchange_of_ne (by simp) (by simpa using hq.symm)]

/-- The block may be written to. -/
theorem write (hb : v.Borrowed others p l h) {m : Memory}
    (hm : ∀ a, m.byte a ≠ h.memory.byte a → p ≤ a ∧ a < p + l.bytes) :
    v.Borrowed others p l ⟨m, h.state⟩ := by
  obtain ⟨hvalid, hlive⟩ := v.write hb.valid fun a ha => ⟨p, l, hb.live_self, hm a ha⟩
  exact ⟨hvalid, hb.apart, hlive.trans hb.live⟩

/-- The block may be exchanged for another. -/
theorem moved (hb : v.Borrowed others p l h) (t : v.Turn (some p) (some (q, k)) h h') :
    v.Borrowed others q k h' where
  valid := t.valid
  apart := by
    by_cases hq : q = p
    · rw [hq]
      exact hb.apart
    · rw [← hb.live_other hq]
      exact t.fresh q k rfl (by simpa using fun h => hq h.symm)
  live := by
    rw [t.live, hb.live]
    exact exchange_superseded hb.apart

/-- When the block is given back, the others are left. -/
theorem returned (hb : v.Borrowed others p l h) (t : v.Turn (some p) none h h') :
    v.live h' = others := by
  rw [t.live, hb.live]
  exact exchange_restored hb.apart

end Borrowed

/-- What comes for a request is a block on loan. -/
theorem Turned.borrowed {n : Nat} {r : Option Nat} (ht : v.Turned none n h r h') :
    ∀ q ∈ r, ∃ l : Lease, l.asked = n ∧ v.Borrowed (v.live h) q l h' := by
  rintro q ⟨⟩
  obtain ⟨bytes, t⟩ := ht
  exact ⟨⟨n, bytes⟩, rfl, t.borrowed⟩

theorem Turned.moved {n : Nat} {r : Option Nat} (hb : v.Borrowed others p l h)
    (ht : v.Turned (some p) n h r h') :
    ∀ q ∈ r, ∃ k : Lease, k.asked = n ∧ v.Borrowed others q k h' := by
  rintro q ⟨⟩
  obtain ⟨bytes, t⟩ := ht
  exact ⟨⟨n, bytes⟩, rfl, hb.moved t⟩

end Survey

/-- A survey of the backend's heaps in which blocks come and go as they are asked to. -/
structure Backend.Tenure (b : Backend β) extends Survey β where
  alloc : ∀ {h n}, valid h → 0 < n → n < Word.limit →
    Returns (b.alloc n) h (toSurvey.Turned none n h)
  allocZeroed : ∀ {h n}, valid h → 0 < n → n < Word.limit →
    Returns (b.allocZeroed n) h (toSurvey.Turned none n h)
  realloc : ∀ {h p l n}, valid h → live h p = some l → 0 < n → n < Word.limit →
    Returns (b.realloc p n) h (toSurvey.Turned (some p) n h)
  free : ∀ {h p l}, valid h → live h p = some l →
    Returns (b.free p) h fun _ => toSurvey.Turn (some p) none h

/-- The same for a backend that reports sizes, which may be smaller than they are. -/
structure SizedBackend.Tenure (b : SizedBackend β) extends Backend.Tenure b.toBackend where
  freeSized : ∀ {h p l n}, valid h → live h p = some l → l.Admits n →
    Returns (b.freeSized p n) h fun _ => toSurvey.Turn (some p) none h
  blockSize : ∀ {h p l}, valid h → live h p = some l →
    ∃ usable, b.blockSize p h = .ok usable ∧ usable ≤ l.bytes

/-- A contract is more than tenure, but for giving back without a size. -/
def SizedBackend.Contract.tenure {b : SizedBackend β} (c : b.Contract Lease.Admits)
    (hfree : ∀ {h p l}, c.valid h → c.live h p = some l →
      Returns (b.free p) h fun _ => c.Trade (some p) none h) : b.Tenure where
  toSurvey := c.toSurvey
  alloc := fun hv hn hlim => (c.alloc hv hn hlim).imp fun _ _ => Survey.Served.turned
  allocZeroed := fun hv hn hlim => (c.allocZeroed hv hn hlim).imp fun _ _ => Survey.Served.turned
  realloc := fun hv hl hn hlim => (c.realloc hv hl hn hlim).imp fun _ _ => Survey.Served.turned
  free := fun hv hl => (hfree hv hl).imp fun _ _ => Survey.Trade.turn
  freeSized := fun hv hl hn => (c.freeSized hv hl hn).imp fun _ _ => Survey.Trade.turn
  blockSize := fun hv hl => ⟨_, c.blockSize hv hl, Nat.le_refl _⟩

/-- An arena respects tenure, though it may hand out dirty memory and lose what it moves. -/
def Arena.tenure {c : Arena.Config} (hc : c.Honest) : (Arena.full c).Tenure :=
  (Arena.fullContract hc).tenure fun hv hl => Arena.free_ends hv (Arena.find?_eq hl)

end HeapLedger
