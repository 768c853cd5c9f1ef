import HeapLedger.Proofs.Strategy.Adapter
import HeapLedger.Proofs.Strategy.Sightings

/-!
# `HeapLedger/Proofs/Strategy/Plain.lean` — plain blocks

A plain block is the backend's block, or what follows a header in it. Making one is no concern of
memory that the backend leaves alone, as the header is written inside the new block
(`Adapter.alloc_misses`). Behind a header there are as many bytes as were asked for, and they cost
the header more (`Adapter.alloc_sizes`).
-/

set_option autoImplicit false

namespace HeapLedger

variable {β : Type}

namespace Adapter

/-- The backend misses the `len` bytes at `start` when it is asked for plain memory. -/
def Avoids : Adapter β → Heap β → Nat → Nat → Prop
  | native _ c => c.Avoids
  | headered _ c => c.Avoids

section Alloc

variable {h : Heap β} {start len n : Nat}

theorem avoids_of_live (a : Adapter β) {p : Nat} {l : Lease} (hv : a.survey.valid h)
    (hl : a.survey.live h p = some l) (hlo : p ≤ start) (hhi : start + len ≤ p + l.bytes) :
    a.Avoids h start len := by
  cases a with
  | native b c => exact c.avoids_of_live hv hl hlo hhi
  | headered b c => exact c.avoids_of_live hv hl hlo hhi

theorem native_alloc_misses {b : SizedBackend β} {c : b.Contract Lease.Admits} (hv : c.valid h)
    (havoids : c.Avoids h start len) (hn : 0 < n) (hlim : n < Word.limit) :
    Returns ((Strategy.native b).alloc n) h fun _ => c.Misses start len h := by
  show Returns (b.alloc n >>= _) h _
  rw [Returns, ends_bind]
  apply (havoids.ends hv hn hlim).imp
  intro r h₁ hr
  obtain ⟨hserved, hmiss⟩ := hr
  cases r with
  | none => exact ends_pure.2 hmiss
  | some ptr =>
    obtain ⟨bytes, t⟩ := hserved
    rw [ends_map]
    exact Strategy.Native.sizedBlock_ends t.valid t.live_came hmiss

theorem headered_alloc_misses {b : Backend β} {c : b.Contract Lease.Admits} (hv : c.valid h)
    (havoids : c.Avoids h start len) (hn : 0 < n) :
    Returns ((Strategy.headered b).alloc n) h fun _ => c.Misses start len h := by
  have hw := Strategy.Headered.two_words_le_width b
  show Returns (Strategy.Headered.allocBy b b.alloc n) h _
  unfold Strategy.Headered.allocBy
  cases hsize : Header.plainSize (Strategy.Headered.width b) n with
  | none => exact ends_pure.2 (.refl _ _ _ _)
  | some total =>
    obtain ⟨hlim, rfl⟩ := Header.plainSize_eq_some.1 hsize
    rw [Returns, ends_bind]
    apply (havoids.ends hv (by omega) hlim).imp
    intro r h₁ hr
    obtain ⟨hserved, hmiss⟩ := hr
    cases r with
    | none => exact ends_pure.2 hmiss
    | some raw =>
      obtain ⟨bytes, t⟩ := hserved
      have hfits := c.fits t.valid t.live_came
      -- The header takes up the first bytes of the block, which is longer by the caller's bytes.
      have hfront : ∀ x, (Header.writePlain h₁.memory (raw + Strategy.Headered.width b) n).byte x ≠
          h₁.memory.byte x → raw ≤ x ∧ x < raw + bytes := by
        intro x hx
        have hchanged := Header.changed_writePlain (by omega) hx
        simp only at hfits
        omega
      have hlive := (c.write t.valid fun x hx => ⟨raw, _, t.live_came, hfront x hx⟩).2
      rw [ends_map]
      apply Ends.intro_ok (Strategy.Headered.stamp_eq hlim)
      exact hmiss.write (t.fresh raw _ rfl (by simp)) t.live_came hlive hfront

/-- What the backend misses is missed when a plain block is made of what it brings. -/
theorem alloc_misses (a : Adapter β) (hv : a.survey.valid h) (havoids : a.Avoids h start len)
    (hn : 0 < n) (hlt : n < Size.bound) :
    Returns (a.strategy.alloc n) h fun _ => a.survey.Misses start len h := by
  cases a with
  | native b c =>
    exact native_alloc_misses hv havoids hn (Nat.lt_of_lt_of_le hlt Strategy.bound_le_limit)
  | headered b c => exact headered_alloc_misses hv havoids hn

/-- Behind a header there are as many bytes as were asked for, and the header is paid for too. -/
theorem alloc_sizes {b : Backend β} {c : b.Contract Lease.Admits} (hv : c.valid h) (hn : 0 < n)
    (hlt : n < Size.bound) :
    Returns ((Strategy.headered b).alloc n) h fun r h' => ∀ block ∈ r,
      (Strategy.headered b).usableSize block.ptr h' = .ok n ∧
        (Strategy.headered b).footprint block.ptr h' = .ok (n + Strategy.Headered.width b) := by
  let k := (headered b c).contract
  have hserved : Returns ((Strategy.headered b).alloc n) h (k.Served none n h) := k.alloc hv hn hlt
  apply (hserved.also (Strategy.Headered.allocBy_yields b.alloc)).imp
  intro r h' hr block hblock
  obtain ⟨hserved, hbears⟩ := hr
  cases hblock
  obtain ⟨d, t, hstands, husable, hbooked, -⟩ := hserved
  obtain ⟨hsize, hcost⟩ := hbears block rfl
  have hvalid : k.valid h' := t.valid
  have husableSize := k.usableSize hvalid hstands
  have hfootprint := k.footprint hvalid hstands
  rw [← husable, hsize] at husableSize
  rw [← hbooked, hcost] at hfootprint
  exact ⟨husableSize, hfootprint⟩

end Alloc

end Adapter

end HeapLedger
