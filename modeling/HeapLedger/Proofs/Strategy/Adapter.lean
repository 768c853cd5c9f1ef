import HeapLedger.Proofs.Backend.Arena
import HeapLedger.Proofs.Follows
import HeapLedger.Proofs.Strategy.Headered
import HeapLedger.Proofs.Strategy.Native

/-!
# `HeapLedger/Proofs/Strategy/Adapter.lean` — the strategies there are

An `Adapter` is one of the two strategies over a backend that keeps its contract, and what is proved
about adapters is proved about every ledger there can be. The backend may rely on no more than
`Lease.Admits` when it is given a block back. What the strategies really tell it is narrower
(`Adapter.terms`): the whole block, or exactly what was asked for.

`Adapter.watched` is the same strategy over the watched backend. It does what the strategy does
(`Adapter.watched_imitates`), and its contract holds under the narrower terms, so the requests that
are written down keep to them.
-/

set_option autoImplicit false

namespace HeapLedger

namespace Lease

/-- The size of the whole block. -/
def Whole (l : Lease) (n : Nat) : Prop :=
  l.Admits n ∧ n = l.bytes

/-- The size that was asked for last. -/
def Exactly (l : Lease) (n : Nat) : Prop :=
  l.Admits n ∧ n = l.asked

theorem Whole.admits {l : Lease} {n : Nat} (h : l.Whole n) : l.Admits n :=
  h.1

theorem Exactly.admits {l : Lease} {n : Nat} (h : l.Exactly n) : l.Admits n :=
  h.1

theorem admits_bytes {l : Lease} (hl : l.asked ≤ l.bytes) : l.Admits l.bytes :=
  ⟨hl, Nat.le_refl _⟩

theorem admits_asked {l : Lease} (hl : l.asked ≤ l.bytes) : l.Admits l.asked :=
  ⟨Nat.le_refl _, hl⟩

end Lease

/-- A strategy over a backend that keeps its contract. -/
inductive Adapter (β : Type) where
  /-- Blocks as the backend has them. -/
  | native (b : SizedBackend β) (c : b.Contract Lease.Admits)
  /-- Blocks behind headers. -/
  | headered (b : Backend β) (c : b.Contract Lease.Admits)

namespace Adapter

variable {β : Type}

def strategy : Adapter β → Strategy β
  | native b _ => .native b
  | headered b _ => .headered b

def backend : Adapter β → Backend β
  | native b _ => b.toBackend
  | headered b _ => b

def survey : Adapter β → Survey β
  | native _ c => c.toSurvey
  | headered _ c => c.toSurvey

/-- Where an alignment is requested of the backend, it has to be honoured. -/
def Honours : Adapter β → Prop
  | native _ c => c.Honours
  | headered _ _ => True

/-- The size with which a block is given back. -/
def terms : Adapter β → Lease → Nat → Prop
  | native _ _ => Lease.Whole
  | headered _ _ => Lease.Exactly

/-- The backend's pointer behind a caller's. -/
def raw (a : Adapter β) (h : Heap β) (p : Nat) : Nat :=
  match a with
  | native _ _ => p
  | headered b _ =>
      match Header.read h.memory p with
      | .ok x => Header.start (Strategy.Headered.width b) h.memory p x
      | .error _ => p

def contract : (a : Adapter β) → a.strategy.Contract
  | native _ c => Strategy.nativeContract c fun _ => Lease.admits_bytes
  | headered _ c => Strategy.headeredContract c fun _ => Lease.admits_asked

theorem contract_survey (a : Adapter β) : a.contract.toSurvey = a.survey := by
  cases a with
  | native b c => rfl
  | headered b c => rfl

theorem contract_honours (a : Adapter β) : a.contract.honours ↔ a.Honours := by
  cases a with
  | native b c => exact Iff.rfl
  | headered b c => exact Iff.rfl

/-- The backend keeps content when it resizes a block: all the bytes that it says the block has, or
at least those that were asked for if it says nothing. -/
def Preserves : Adapter β → Prop
  | native _ c => c.Preserves Lease.bytes
  | headered _ c => c.Preserves Lease.asked

theorem contract_preserves {a : Adapter β} (ha : a.Preserves) : a.contract.Preserves := by
  intro h p d n hv hp hn hlt
  cases a with
  | native b c =>
    obtain ⟨hl, hd⟩ := hp
    rw [hd]
    exact Strategy.Native.realloc_carries ha hv hl hn
      (Nat.lt_of_lt_of_le hlt Strategy.bound_le_limit)
  | headered b c =>
    exact Strategy.Headered.realloc_carries (fun _ => Lease.admits_asked) ha hv hp hn hlt

/-- The pointer behind a caller's is where the block of its holding starts. -/
theorem raw_of_stands (a : Adapter β) {h : Heap β} {p : Nat} {d : Holding}
    (hv : a.contract.valid h) (hp : a.contract.stands p d h) : a.raw h p = d.start := by
  cases a with
  | native b c =>
    obtain ⟨-, hd⟩ := hp
    rw [hd]
    rfl
  | headered b c =>
    obtain ⟨x, hx⟩ := Strategy.Headered.found hv hp
    unfold raw
    simp only [hx.read]
    exact hx.start

/-- What is booked for a pointer is the size with which its block would be given back. -/
theorem terms_of_stands (a : Adapter β) {h : Heap β} {p : Nat} {d : Holding}
    (hv : a.contract.valid h) (hp : a.contract.stands p d h) : a.terms d.lease d.footprint := by
  cases a with
  | native b c =>
    obtain ⟨hl, hd⟩ := hp
    have hfits := c.fits hv hl
    rw [hd]
    exact ⟨Lease.admits_bytes hfits.2.1, rfl⟩
  | headered b c =>
    obtain ⟨x, hx⟩ := Strategy.Headered.found hv hp
    have hfits := c.fits hv hx.live
    rw [← hx.asked]
    exact ⟨Lease.admits_asked hfits.2.1, rfl⟩

/-! ## Over a watched backend -/

/-- The strategy over the watched backend. -/
def watched : Adapter β → Strategy (Watched β)
  | native b _ => .native b.watched
  | headered b _ => .headered b.watched

/-- Nobody but the backend notices. -/
theorem watched_imitates (a : Adapter β) : a.watched.Imitates a.strategy := by
  cases a with
  | native b c => exact Strategy.imitates_native b
  | headered b c => exact Strategy.imitates_headered b

/-- The strategy over the watched backend keeps its contract, under its own terms. -/
def watchedContract : (a : Adapter β) → a.watched.Contract
  | native _ c =>
      Strategy.nativeContract (c.narrow fun _ _ _ => Lease.Whole.admits).watched fun _ hl =>
        ⟨Lease.admits_bytes hl, rfl⟩
  | headered _ c =>
      Strategy.headeredContract (c.narrow fun _ _ _ => Lease.Exactly.admits).watched fun _ hl =>
        ⟨Lease.admits_asked hl, rfl⟩

theorem watchedContract_survey (a : Adapter β) :
    a.watchedContract.toSurvey = a.survey.watched a.backend a.terms := by
  cases a with
  | native b c => rfl
  | headered b c => rfl

/-! ## Over an arena -/

section Arena

variable {c : Arena.Config} (hc : c.Honest)

/-- An arena's own blocks. -/
def arenaNative : Adapter Arena :=
  .native (Arena.full c) (Arena.fullContract hc)

/-- Blocks behind headers, in an arena. -/
def arenaHeadered : Adapter Arena :=
  .headered (Arena.full c).toBackend (Arena.fullContract hc).toContract

theorem arenaNative_honours : (arenaNative hc).Honours :=
  Arena.fullContract_honours hc

theorem arenaHeadered_preserves (hcopies : c.lossy = false) : (arenaHeadered hc).Preserves :=
  Backend.Contract.Preserves.asked (Arena.fullContract_preserves hc hcopies)

end Arena

end Adapter

end HeapLedger
