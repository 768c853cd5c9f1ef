import HeapLedger.Proofs.Strategy.Adapter

/-!
# `HeapLedger/Proofs/Strategy/Traces.lean` — how a live block is treated

What becomes of a block when its pointer is freed or resized depends on three things: where the
backend's block starts, how many bytes of it may be used, and what it costs. `Adapter.Traced` says
that a pointer has these three in a heap and that it is freed and resized by them alone. Every live
pointer does (`Adapter.traced`), with or without a header in front of it; and two heaps in which it
has the same three treat it in the same way, whatever else they hold.
-/

set_option autoImplicit false

namespace HeapLedger

variable {β : Type}

/-- The backend takes the block at `start` back, as one of `size` bytes. -/
def Backend.giveBack (b : Backend β) (start size : Nat) : HeapOp β Nat := do
  b.freeSized start size
  pure size

namespace Strategy

variable {due : Lease → Nat → Prop} {h : Heap β} {p n : Nat} {d : Holding}

namespace Native

variable {b : SizedBackend β} {c : b.Contract due}

/-- The block at `start`, resized by the backend, where it had `old` bytes. -/
def resize (b : SizedBackend β) (start n old : Nat) : HeapOp β (Option Resized) := do
  match ← b.realloc start n with
  | none => pure none
  | some moved =>
      let block ← sizedBlock b moved
      pure (some ⟨block, old⟩)

/-- The size of a block that is live is at hand. -/
theorem size_run (hv : c.valid h) (hp : (custody c).stands p d h) :
    HeapOp.query (b.blockSize p) h = .ok d.footprint h := by
  obtain ⟨hl, hd⟩ := hp
  rw [run_query (c.blockSize hv hl), hd]
  rfl

theorem free_traced (hv : c.valid h) (hp : (custody c).stands p d h) :
    (native b).free p h = b.giveBack d.start d.footprint h := by
  have hstart : p = d.start := by rw [hp.2]; rfl
  rw [← hstart]
  exact run_bind_ok (size_run hv hp)

theorem freeWithSize_traced (hv : c.valid h) (hp : (custody c).stands p d h) :
    (native b).freeWithSize p d.usable h = b.giveBack d.start d.footprint h := by
  have hstart : p = d.start := by rw [hp.2]; rfl
  have husable : d.usable = d.footprint := by rw [hp.2]; rfl
  rw [freeWithSize_eq, run_bind_ok (size_run hv hp), if_neg (not_not_intro husable), husable,
    ← hstart]
  rfl

theorem realloc_traced (hv : c.valid h) (hp : (custody c).stands p d h) :
    (native b).realloc p n h = resize b d.start n d.footprint h := by
  have hstart : p = d.start := by rw [hp.2]; rfl
  rw [realloc_eq, run_bind_ok (size_run hv hp), ← hstart]
  rfl

end Native

namespace Headered

variable {b : Backend β} {c : b.Contract due}

/-- A block that costs its usable bytes and one header is plain and goes by where it starts. Any
other is over-aligned and goes by where its caller's bytes start. -/
def resize (b : Backend β) (p start usable n old : Nat) : HeapOp β (Option Resized) :=
  if old = usable + width b then resizePlain b start n old else resizeFar b p usable n old

theorem release_found {x : Header} (hf : Found b c.toSurvey p d h x) :
    release b p x h = b.giveBack d.start d.footprint h := by
  rw [release_run hf.cost, hf.start]
  rfl

theorem free_traced (hv : c.valid h) (hp : (custody c).stands p d h) :
    (headered b).free p h = b.giveBack d.start d.footprint h := by
  obtain ⟨x, hf⟩ := found hv hp
  exact (free_eq hf.stamped).trans (release_found hf)

theorem freeWithSize_traced (hv : c.valid h) (hp : (custody c).stands p d h) :
    (headered b).freeWithSize p d.usable h = b.giveBack d.start d.footprint h := by
  obtain ⟨x, hf⟩ := found hv hp
  rw [hf.usable, freeWithSize_eq hf.stamped]
  exact release_found hf

/-- Size and cost of a block tell whether it is over-aligned. -/
theorem booked_eq_iff {x : Header} (hf : Found b c.toSurvey p d h x) :
    d.footprint = d.usable + width b ↔ x.align = 0 := by
  rw [hf.booked, hf.usable]
  unfold Header.cost
  split <;> omega

theorem realloc_traced (hv : c.valid h) (hp : (custody c).stands p d h) :
    (headered b).realloc p n h = resize b p d.start d.usable n d.footprint h := by
  obtain ⟨x, hf⟩ := found hv hp
  show realloc b p n h = _
  unfold resize
  rw [realloc_run hf.read hf.cost]
  by_cases hplain : x.align = 0
  · rw [if_neg (not_not_intro hplain), if_pos ((booked_eq_iff hf).2 hplain), hf.start]
  · rw [if_pos hplain, if_neg (mt (booked_eq_iff hf).1 hplain), hf.usable]

end Headered

end Strategy

namespace Adapter

/-- The block at `start` that costs `old` bytes, of which `usable` may be used at `p`, resized. -/
def resize (a : Adapter β) (p start usable n old : Nat) : HeapOp β (Option Resized) :=
  match a with
  | native b _ => Strategy.Native.resize b start n old
  | headered b _ => Strategy.Headered.resize b p start usable n old

/-- The block behind `p` starts at `start`, costs `size` bytes and has `usable` ones, and it is
freed and resized as such a block. -/
structure Traced (a : Adapter β) (p start usable size : Nat) (h : Heap β) : Prop where
  raw_eq : a.raw h p = start
  usableSize_eq : a.strategy.usableSize p h = .ok usable
  footprint_eq : a.strategy.footprint p h = .ok size
  free_eq : a.strategy.free p h = a.backend.giveBack start size h
  freeWithSize_eq : a.strategy.freeWithSize p usable h = a.backend.giveBack start size h
  realloc_eq : ∀ n, a.strategy.realloc p n h = a.resize p start usable n size h

theorem traced (a : Adapter β) {h : Heap β} {p : Nat} {d : Holding} (hv : a.contract.valid h)
    (hp : a.contract.stands p d h) : a.Traced p d.start d.usable d.footprint h := by
  have husable := a.contract.usableSize hv hp
  have hsize := a.contract.footprint hv hp
  have hstart := a.raw_of_stands hv hp
  cases a with
  | native b c =>
    exact ⟨hstart, husable, hsize, Strategy.Native.free_traced hv hp,
      Strategy.Native.freeWithSize_traced hv hp, fun n => Strategy.Native.realloc_traced hv hp⟩
  | headered b c =>
    exact ⟨hstart, husable, hsize, Strategy.Headered.free_traced hv hp,
      Strategy.Headered.freeWithSize_traced hv hp, fun n => Strategy.Headered.realloc_traced hv hp⟩

/-! ## Over a watched backend -/

/-- The same adapter, over the watched backend. -/
def onWatched : Adapter β → Adapter (Watched β)
  | native b c => .native b.watched c.watched
  | headered b c => .headered b.watched c.watched

variable (a : Adapter β)

theorem strategy_onWatched : a.onWatched.strategy = a.watched := by
  cases a <;> rfl

theorem backend_onWatched : a.onWatched.backend = a.backend.watched := by
  cases a <;> rfl

theorem survey_onWatched :
    a.onWatched.survey = a.survey.watched a.backend Lease.Admits := by
  cases a <;> rfl

theorem raw_onWatched (h : Heap (Watched β)) (p : Nat) :
    a.onWatched.raw h p = a.raw h.unwatched p := by
  cases a with
  | native b c => rfl
  | headered b c =>
    simp only [onWatched, raw, Heap.unwatched, Strategy.Headered.width_watched]

end Adapter

end HeapLedger
