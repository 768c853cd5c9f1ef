import Mathlib.Data.Set.Lattice
import Mathlib.Order.CompletePartialOrder
import Mathlib.Order.Interval.Set.Basic
import HeapLedger.Proofs.Accounting

/-!
# `HeapLedger/Proofs/Isolation.lean` — headers that nobody can reach

Headers lie in memory between blocks that callers write to, and all that keeps them is where they
are. A `Place` is what the header of a pointer leads to: the backend's pointer, and the lease of its
block. For every pointer that is out, header and usable bytes lie in its own block, and the usable
bytes meet neither those of any other pointer nor the header of any pointer at all.

So headers survive. Whatever is called and written in the meantime, a pointer that is not given up
is found at the place where it was when it was handed out: the same sizes, and the same pointer to
give back to the backend.
-/

set_option autoImplicit false

namespace HeapLedger

variable {β : Type} {b : Backend β} {c : b.Contract Lease.Admits} {host : Host}

/-- What the header of a pointer leads to. -/
structure Place where
  header : Header
  raw : Nat
  lease : Lease

namespace Place

/-- The bytes that the holder of `p` may use. -/
def usable (x : Place) (p : Nat) : Set Nat :=
  Set.Ico p (p + x.header.size)

/-- The words of the header in front of `p`: two, or three in an over-aligned block. -/
def words (x : Place) (p : Nat) : Set Nat :=
  Set.Ico (p - x.header.words * Word.bytes) p

/-- The bytes of the backend's block. -/
def block (x : Place) : Set Nat :=
  Set.Ico x.raw (x.raw + x.lease.bytes)

/-- The block goes back to the backend, by the backend's pointer and with the bytes that the backend
was asked for. -/
def release (b : Backend β) (x : Place) : HeapOp β Nat := do
  b.freeSized x.raw x.lease.asked
  pure x.lease.asked

end Place

namespace Desk

/-- At this desk the header of `p` leads to this place. -/
structure Placed (c : b.Contract Lease.Admits) (d : Desk β) (p : Nat) (x : Place) : Prop where
  read : Header.read d.ledger.heap.memory p = .ok x.header
  start : Header.start (Strategy.Headered.width b) d.ledger.heap.memory p x.header = x.raw
  live : c.live d.ledger.heap x.raw = some x.lease
  usableSize : Ledger.usableSize (Strategy.headered b) p d.ledger = .ok x.header.size d.ledger
  allocationSize :
    Ledger.allocationSize (Strategy.headered b) p d.ledger = .ok x.lease.asked d.ledger
  usable_subset : x.usable p ⊆ x.block
  words_subset : x.words p ⊆ x.block
  free : ∀ h, Memory.Agree x.raw (p - x.raw) d.ledger.heap.memory h.memory →
    (Strategy.headered b).free p h = x.release b h ∧
      (Strategy.headered b).freeWithSize p x.header.size h = x.release b h
  realloc : x.header.align = 0 → ∀ n, (Strategy.headered b).realloc p n d.ledger.heap =
    Strategy.Headered.resizePlain b x.raw n x.lease.asked d.ledger.heap

/-- The contract of the headered strategy over `b`. -/
abbrev headed (c : b.Contract Lease.Admits) : (Strategy.headered b).Contract :=
  (Adapter.headered b c).contract

variable {hs : Holdings} {d : Desk β} {p q : Nat} {x y : Place} {e : Holding}

theorem placed_of_holding (hk : Keeps (headed c).toCustody hs d) (he : hs p = some e) :
    ∃ header, e.usable = header.size ∧
      e.footprint = Header.cost (Strategy.Headered.width b) header ∧
      Placed c d p ⟨header, e.start, e.lease⟩ := by
  have hvalid := hk.sound.holds.valid
  have hstands := hk.sound.holds.stands p e he
  obtain ⟨header, hf⟩ := Strategy.Headered.found hvalid hstands
  obtain ⟨hpos, hlo, hhi⟩ := hk.sound.holds.inside he
  have hfront := hf.stamped.front (Strategy.Headered.two_words_le_width b)
  have husable : e.usable = header.size := hf.usable
  have hw := Strategy.Headered.two_words_le_width b
  have hfits := c.fits hvalid hf.live
  have hcost : e.lease.asked = Header.cost (Strategy.Headered.width b) header :=
    hf.asked.trans hf.booked
  refine ⟨header, husable, hf.booked, hf.read, hf.start, hf.live, ?_, ?_, ?_, ?_, ?_, ?_⟩
  · rw [← husable]
    exact Ledger.usableSize_eq ((headed c).usableSize hvalid hstands)
  · show _ = EStateM.Result.ok e.lease.asked _
    rw [hf.asked]
    exact Ledger.allocationSize_eq ((headed c).footprint hvalid hstands)
  · intro z hz
    simp only [Place.usable, Place.block, Set.mem_Ico] at hz ⊢
    omega
  · intro z hz
    simp only [Place.words, Place.block, Set.mem_Ico] at hz ⊢
    omega
  · intro h hagree
    have hstamped := hf.stamped.congr hw hagree
    have hrelease := Strategy.Headered.release_eq hstamped (by omega) hf.fits
    rw [← hcost] at hrelease
    exact ⟨(Strategy.Headered.free_eq hstamped).trans hrelease,
      (Strategy.Headered.freeWithSize_eq hstamped).trans hrelease⟩
  · intro hplain n
    have hresize := Strategy.Headered.realloc_eq (n := n) hf.stamped (by omega) hf.fits hplain
    rw [← hcost] at hresize
    exact hresize

/-- A pointer is in one place. -/
theorem Placed.unique (hx : Placed c d p x) (hy : Placed c d p y) : x = y := by
  obtain ⟨header, raw, lease⟩ := x
  obtain ⟨header', raw', lease'⟩ := y
  obtain rfl : header = header' := Except.ok.inj (hx.read.symm.trans hy.read)
  obtain rfl : raw = raw' := hx.start.symm.trans hy.start
  obtain rfl : lease = lease' := Option.some.inj (hx.live.symm.trans hy.live)
  rfl

/-- Other pointers are in other blocks. -/
theorem Placed.blocks_disjoint (hk : Keeps (headed c).toCustody hs d) (hp : p ∈ d.live)
    (hq : q ∈ d.live) (hpq : p ≠ q) (hx : Placed c d p x) (hy : Placed c d q y) :
    Disjoint x.block y.block := by
  obtain ⟨e, he⟩ := hk.holding hp
  obtain ⟨f, hf⟩ := hk.holding hq
  obtain ⟨header, -, -, hx'⟩ := placed_of_holding hk he
  obtain ⟨header', -, -, hy'⟩ := placed_of_holding hk hf
  obtain rfl := hx.unique hx'
  obtain rfl := hy.unique hy'
  have hapart := hk.sound.holds.apart he hf hpq
  rw [Set.disjoint_left]
  intro z hz hz'
  simp only [Place.block, Set.mem_Ico] at hz hz'
  omega

theorem usable_words_disjoint (x : Place) (p : Nat) : Disjoint (x.usable p) (x.words p) := by
  rw [Set.disjoint_left]
  intro z hz hz'
  simp only [Place.usable, Place.words, Set.mem_Ico] at hz hz'
  omega

/-- A place outlasts all moves that spare the pointer. -/
theorem Placed.run (hk : Keeps (headed c).toCustody hs d) (hhost : host.Confined)
    (hp : p ∈ d.live) (hx : Placed c d p x) {ms : List Move}
    (hms : Lawful (.headered b) host d ms) (hspared : Spares (.headered b) host p d ms) :
    p ∈ (run (.headered b) host d ms).live ∧ Placed c (run (.headered b) host d ms) p x := by
  obtain ⟨e, he⟩ := hk.holding hp
  obtain ⟨header, husable, hcost, hx'⟩ := placed_of_holding hk he
  obtain rfl := hx.unique hx'
  obtain ⟨hs', hrun⟩ := hk.run hhost hms
  -- The same holding stands behind `p` at the end, and there is only one header for it.
  have he' : hs' p = some e := (hrun.same p hp hspared).trans he
  obtain ⟨header', husable', hcost', hx''⟩ := placed_of_holding hrun.keeps he'
  obtain rfl : header = header' :=
    Header.eq_of_cost_eq (husable.symm.trans husable') (hcost.symm.trans hcost')
  refine ⟨?_, hx''⟩
  rw [hrun.keeps.live, he']
  rfl

/-- A pointer that a call hands out is placed at once: the bytes told are those of its header, and
the block behind it is one that the backend has come up with since, or the one that was given up. -/
theorem placed_of_handed (hk : Keeps (headed c).toCustody hs d) (hhost : host.Confined) {a : Action}
    (ha : d.Allows (.headered b) (.call a)) (hp : d.handed (.headered b) host (.call a) = some p) :
    ∃ hs' x, Keeps (headed c).toCustody hs' (d.after (.headered b) host (.call a)) ∧
      p ∈ (d.after (.headered b) host (.call a)).live ∧
      Placed c (d.after (.headered b) host (.call a)) p x ∧
      (∀ usable ∈ (d.answer (.headered b) host a).1.told, usable = x.header.size) ∧
      (c.live d.ledger.heap x.raw = none ∨
        ∃ g y, d.given (.headered b) host (.call a) = some g ∧ Placed c d g y ∧ y.raw = x.raw) := by
  obtain ⟨e, hpost, htold, hk'⟩ := hk.handed hhost ha hp
  obtain ⟨header, husable, -, hx⟩ := placed_of_holding hk' exchange_came
  refine ⟨_, ⟨header, e.start, e.lease⟩, hk', ?_, hx, fun u hu => (htold u hu).trans husable, ?_⟩
  · rw [hk'.live, exchange_came]
    rfl
  -- Either the block is the one that was given up, resized in place, or it was not there before.
  by_cases hgone : (d.given (.headered b) host (.call a)).bind hs.start? = some e.start
  · obtain ⟨g, hg, hstart⟩ := Option.bind_eq_some_iff.1 hgone
    obtain ⟨f, hf, hraw⟩ := Option.map_eq_some_iff.1 hstart
    obtain ⟨header', -, -, hy⟩ := placed_of_holding hk hf
    exact .inr ⟨g, _, hg, hy, hraw⟩
  · exact .inl (hpost.deal.trade.fresh e.start e.lease rfl hgone)

/-- Headers are isolated at every desk that lawful moves lead to. Pointers are found in their own
blocks, apart from each other and from all headers; they stay where they are until they are given
up; and where they are is where the call put them that handed them out. -/
theorem headers_isolated (c : b.Contract Lease.Admits) (hhost : host.Confined) {heap : Heap β}
    (hheap : c.valid heap) (slots : Nat) {ms : List Move}
    (hms : Lawful (.headered b) host (opening heap slots) ms) :
    let s := Strategy.headered b
    let d := run s host (opening heap slots) ms
    (∀ p ∈ d.live, ∃ x, Placed c d p x ∧ ∀ ms', Lawful s host d ms' → Spares s host p d ms' →
      Placed c (run s host d ms') p x) ∧
    (∀ p ∈ d.live, ∀ q ∈ d.live, ∀ x y, Placed c d p x → Placed c d q y →
      (p ≠ q → Disjoint (x.usable p) (y.usable q)) ∧ Disjoint (x.usable p) (y.words q)) ∧
    ∀ a, d.Allows s (.call a) → ∀ p, d.handed s host (.call a) = some p →
      let d' := d.after s host (.call a)
      ∃ x, (∀ usable ∈ (d.answer s host a).1.told, usable = x.header.size) ∧
        (c.live d.ledger.heap x.raw = none ∨
          ∃ g y, d.given s host (.call a) = some g ∧ Placed c d g y ∧ y.raw = x.raw) ∧
        Placed c d' p x ∧ ∀ ms', Lawful s host d' ms' → Spares s host p d' ms' →
          Placed c (run s host d' ms') p x := by
  obtain ⟨hs, hk, -⟩ := keeps_run (.headered b c) hhost hheap slots hms
  refine ⟨?_, ?_, ?_⟩
  · intro p hp
    obtain ⟨e, he⟩ := hk.holding hp
    obtain ⟨header, -, -, hx⟩ := placed_of_holding hk he
    exact ⟨_, hx, fun ms' hms' hspared => (hx.run hk hhost hp hms' hspared).2⟩
  · intro p hp q hq x y hx hy
    by_cases hpq : p = q
    · subst hpq
      obtain rfl := hx.unique hy
      exact ⟨fun hne => absurd rfl hne, usable_words_disjoint x p⟩
    · have hblocks := hx.blocks_disjoint hk hp hq hpq hy
      exact ⟨fun _ => hblocks.mono hx.usable_subset hy.usable_subset,
        hblocks.mono hx.usable_subset hy.words_subset⟩
  · intro a ha p hp
    obtain ⟨hs', x, hk', hlive, hx, htold, hraw⟩ := placed_of_handed hk hhost ha hp
    exact ⟨x, htold, hraw, hx, fun ms' hms' hspared => (hx.run hk' hhost hlive hms' hspared).2⟩

theorem headers_isolated_arena :
    let c := (Arena.fullContract Arena.honest_default).toContract
    let s := Strategy.headered (Arena.full {}).toBackend
    let d := run s .unsupported (opening arenaHeap 4) (arenaVisit (Arena.base + 16))
    ∃ x, Placed c d (Arena.base + 64) x ∧
      ∀ ms', Lawful s .unsupported d ms' → Spares s .unsupported (Arena.base + 64) d ms' →
        Placed c (run s .unsupported d ms') (Arena.base + 64) x := by
  have hisolated := headers_isolated (Arena.fullContract Arena.honest_default).toContract
    Host.confined_unsupported arenaHeap_valid 4 lawful_arenaVisit
  apply hisolated.1
  decide +kernel

end Desk

end HeapLedger
