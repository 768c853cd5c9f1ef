import HeapLedger.Proofs.Strategy.Contract

/-!
# `HeapLedger/Proofs/Strategy/Pointers.lean` — what all pointers have in common

If every pointer that a strategy hands out has some property (`Strategy.Contract.HandsOut`), then so
has every pointer that is out in any reachable state. No run has to be followed for this:
`Strategy.Contract.among` is the same contract under a custody that knows the property, and all that
is proved about contracts holds of it.
-/

set_option autoImplicit false

namespace HeapLedger

variable {β : Type} {good : Nat → Prop}

/-- The same custody, of pointers with a property. -/
def Custody.among (k : Custody β) (good : Nat → Prop) : Custody β where
  toSurvey := k.toSurvey
  stands := fun p d h => k.stands p d h ∧ good p
  lease := fun hp => k.lease hp.1
  inside := fun hv hp => k.inside hv hp.1
  stable := fun hp hl hm => ⟨k.stable hp.1 hl hm, hp.2⟩

theorem Custody.Served.among {k : Custody β} {gone : Option Nat} {n : Nat} {h h' : Heap β}
    {r : Option Block} (hserved : k.Served gone n h r h') (hgood : ∀ block ∈ r, good block.ptr) :
    (k.among good).Served gone n h r h' := by
  cases r with
  | none => exact hserved
  | some block =>
    obtain ⟨d, t, hstands, hd⟩ := hserved
    exact ⟨d, t, ⟨hstands, hgood block rfl⟩, hd⟩

namespace Strategy.Contract

variable {s : Strategy β}

/-- Every pointer that the strategy hands out has the property. -/
structure HandsOut (k : s.Contract) (good : Nat → Prop) : Prop where
  alloc : ∀ {h n}, k.valid h → 0 < n → n < Size.bound →
    Returns (s.alloc n) h fun r _ => ∀ block ∈ r, good block.ptr
  allocZeroed : ∀ {h n}, k.valid h → 0 < n → n < Size.bound →
    Returns (s.allocZeroed n) h fun r _ => ∀ block ∈ r, good block.ptr
  allocAligned : ∀ {h n align}, k.valid h → 0 < n → n < Size.bound → align.isPowerOfTwo →
    s.maxAlign < align →
    Ends (s.allocAligned n align) h (fun r _ => ∀ block ∈ r, good block.ptr) fun _ _ => True
  realloc : ∀ {h p d n}, k.valid h → k.stands p d h → 0 < n → n < Size.bound →
    Returns (s.realloc p n) h fun r _ => ∀ x ∈ r, good x.block.ptr

/-- The same contract, of pointers with the property. -/
def among (k : s.Contract) (hgood : k.HandsOut good) : s.Contract where
  toCustody := k.toCustody.among good
  honours := k.honours
  usableSize := fun hv hp => k.usableSize hv hp.1
  footprint := fun hv hp => k.footprint hv hp.1
  alloc := fun hv hn hlt =>
    ((k.alloc hv hn hlt).and (hgood.alloc hv hn hlt)).imp fun _ _ hr => hr.1.among hr.2
  allocZeroed := fun hv hn hlt =>
    ((k.allocZeroed hv hn hlt).and (hgood.allocZeroed hv hn hlt)).imp
      fun _ _ hr => hr.1.among hr.2
  allocAligned := fun hv hn hlt hpow hmax =>
    (Ends.and (k.allocAligned hv hn hlt hpow hmax) (hgood.allocAligned hv hn hlt hpow hmax)).imp
      (fun _ _ hr => hr.1.among hr.2) fun _ _ => And.left
  realloc := by
    intro h p d n hv hp hn hlt
    apply ((k.realloc hv hp.1 hn hlt).and (hgood.realloc hv hp.1 hn hlt)).imp
    intro r h' hr
    obtain ⟨⟨hserved, hold⟩, hblock⟩ := hr
    refine ⟨hserved.among ?_, hold⟩
    intro block hmem
    obtain ⟨x, hx, rfl⟩ := Option.map_eq_some_iff.1 hmem
    exact hblock x hx
  free := fun hv hp => k.free hv hp.1
  freeWithSize := fun hv hp => k.freeWithSize hv hp.1
  freeWithWrongSize := fun hv hp => k.freeWithWrongSize hv hp.1
  setBackgroundThread := k.setBackgroundThread
  purge := k.purge

end Strategy.Contract

end HeapLedger
