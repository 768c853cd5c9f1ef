import HeapLedger.Proofs.Backend.Packing
import HeapLedger.Proofs.Strategy.Native
import HeapLedger.Proofs.Strategy.Stack

/-!
# `HeapLedger/Proofs/Strategy/SmallBlocks.lean` — who aligns small blocks

A strategy says of every pointer what it is a multiple of, however small the block. A backend says
so of blocks with at least that many bytes. A headered strategy makes up for the difference, as a
header alone has enough bytes. A native one does not: it hands on the backend's pointer
(`Native.pointer_eq`), so its small blocks are aligned just when those of its backend happen to be
(`native_aligns_iff`). Over a backend that packs small blocks they are not.
-/

set_option autoImplicit false

namespace HeapLedger

variable {β : Type}

/-- The bytes that a plain request is for, one for a block of no alignment in particular. -/
def Request.plain? : Request → Option Nat
  | .alloc n | .allocZeroed n | .realloc _ n => some n
  | _ => none

/-- Where the block is with which a strategy answers a plain request. -/
def Strategy.pointer (s : Strategy β) : Request → HeapOp β (Option Nat)
  | .alloc n => Option.map Block.ptr <$> s.alloc n
  | .allocZeroed n => Option.map Block.ptr <$> s.allocZeroed n
  | .realloc p n => Option.map (fun x => x.block.ptr) <$> s.realloc p n
  | _ => pure none

/-- Plain requests for so many bytes are answered with multiples of the backend's alignment, if they
are proper. -/
def Backend.Contract.Lands {b : Backend β} {due : Lease → Nat → Prop} (c : b.Contract due)
    (answer : Request → HeapOp β (Option Nat)) (sizes : Nat → Prop) : Prop :=
  ∀ request n h, c.valid h → request.plain? = some n → request.Proper b c.toSurvey due h →
    sizes n → Returns (answer request) h fun r _ => ∀ q ∈ r, b.maxAlign ∣ q

/-- What a backend owes are aligned blocks of enough bytes. -/
theorem Backend.Contract.Aligns.lands {b : Backend β} {due : Lease → Nat → Prop}
    {c : b.Contract due} (hc : c.Aligns) :
    c.Lands (Request.ask b) (b.maxAlign ≤ ·) := by
  intro request n h hv hplain hproper hle
  cases request with
  | alloc m =>
    cases hplain
    exact hc.alloc hv hle hproper.1 hproper.2
  | allocZeroed m =>
    cases hplain
    exact hc.allocZeroed hv hle hproper.1 hproper.2
  | realloc p m =>
    cases hplain
    obtain ⟨⟨l, hl⟩, hn, hlim⟩ := hproper
    exact hc.realloc hv hl hle hn hlim
  | _ => cases hplain

namespace Strategy.Native

variable {b : SizedBackend β} {due : Lease → Nat → Prop} {c : b.Contract due}
  {gone : Option Nat} {n : Nat} {h h' : Heap β} {r : Option Nat}

/-- A new block can be asked for its size, and that changes nothing. -/
theorem sizedBlock_run {ptr : Nat} (hserved : c.Served gone n h (some ptr) h') :
    ∃ bytes, sizedBlock b ptr h' = .ok ⟨ptr, bytes, bytes⟩ h' := by
  obtain ⟨bytes, t⟩ := hserved
  exact ⟨bytes, run_bind_ok (run_query (c.blockSize t.valid t.live_came))⟩

/-- The pointer that a new block is asked for is the pointer that the block has. -/
theorem take_run {take : HeapOp β (Option Nat)} (htake : take h = .ok r h')
    (hserved : c.Served gone n h r h') :
    (Option.map Block.ptr <$> Stack.fulfil take (sizedBlock b)) h = .ok r h' := by
  cases r with
  | none =>
    have hfulfil : Stack.fulfil take (sizedBlock b) h = .ok none h' := run_bind_ok htake
    exact run_map_ok (Option.map Block.ptr) hfulfil
  | some ptr =>
    obtain ⟨bytes, hblock⟩ := sizedBlock_run hserved
    have hfulfil : Stack.fulfil take (sizedBlock b) h = .ok (some ⟨ptr, bytes, bytes⟩) h' :=
      (run_bind_ok htake).trans (run_map_ok some hblock)
    exact run_map_ok (Option.map Block.ptr) hfulfil

/-- The same for a block that is resized, which is asked for its size before as well. -/
theorem realloc_run {p : Nat} {l : Lease} (hv : c.valid h) (hl : c.live h p = some l)
    (hrealloc : b.realloc p n h = .ok r h') (hserved : c.Served gone n h r h') :
    (Option.map (fun x => x.block.ptr) <$> (native b).realloc p n) h = .ok r h' := by
  have hold : HeapOp.query (b.blockSize p) h = .ok l.bytes h := run_query (c.blockSize hv hl)
  cases r with
  | none =>
    have hnone : (native b).realloc p n h = .ok none h' :=
      (run_bind_ok hold).trans (run_bind_ok hrealloc)
    exact run_map_ok _ hnone
  | some moved =>
    obtain ⟨bytes, hblock⟩ := sizedBlock_run hserved
    have hsome : (native b).realloc p n h = .ok (some ⟨⟨moved, bytes, bytes⟩, l.bytes⟩) h' :=
      (run_bind_ok hold).trans ((run_bind_ok hrealloc).trans (run_bind_ok hblock))
    exact run_map_ok _ hsome

/-- The backend's pointer is the caller's. -/
theorem pointer_eq {request : Request} (hv : c.valid h) (hplain : request.plain? = some n)
    (hproper : request.Proper b.toBackend c.toSurvey due h) :
    (native b).pointer request h = request.ask b.toBackend h := by
  cases request with
  | alloc m =>
    obtain ⟨r, h', hrun, hserved⟩ := (c.alloc hv hproper.1 hproper.2).exists
    exact (take_run hrun hserved).trans hrun.symm
  | allocZeroed m =>
    obtain ⟨r, h', hrun, hserved⟩ := (c.allocZeroed hv hproper.1 hproper.2).exists
    exact (take_run hrun hserved).trans hrun.symm
  | realloc p m =>
    obtain ⟨⟨l, hl⟩, hn, hlim⟩ := hproper
    obtain ⟨r, h', hrun, hserved⟩ := (c.realloc hv hl hn hlim).exists
    exact (realloc_run hv hl hrun hserved).trans hrun.symm
  | _ => cases hplain

/-- So it lands where the backend's does. -/
theorem lands_iff {sizes : Nat → Prop} :
    c.Lands (native b).pointer sizes ↔ c.Lands (Request.ask b.toBackend) sizes := by
  constructor
  · intro hlands request n h hv hplain hproper hn
    have hreturns := hlands request n h hv hplain hproper hn
    rwa [Returns, ends_of_run_eq (pointer_eq hv hplain hproper)] at hreturns
  · intro hlands request n h hv hplain hproper hn
    rw [Returns, ends_of_run_eq (pointer_eq hv hplain hproper)]
    exact hlands request n h hv hplain hproper hn

end Strategy.Native

open Strategy

/-- Over a backend that owes its alignment to blocks with at least that many bytes, a native
strategy keeps it for these. It keeps it for blocks of any size just when the backend does more than
it owes and aligns the smaller ones. -/
theorem native_aligns_iff {b : SizedBackend β} {due : Lease → Nat → Prop} (c : b.Contract due)
    (hc : c.Aligns) :
    c.Lands (native b).pointer (b.maxAlign ≤ ·) ∧
      (c.Lands (native b).pointer (fun _ => True) ↔
        c.Lands (Request.ask b.toBackend) (· < b.maxAlign)) := by
  refine ⟨Native.lands_iff.2 hc.lands, ?_⟩
  rw [Native.lands_iff]
  constructor
  · intro hall request n h hv hplain hproper _
    exact hall request n h hv hplain hproper trivial
  · intro hsmall request n h hv hplain hproper _
    rcases Nat.lt_or_ge n b.maxAlign with hlt | hge
    · exact hsmall request n h hv hplain hproper hlt
    · exact hc.lands request n h hv hplain hproper hge

/-- A packing arena owes no more than a backend does, and does no more. -/
theorem native_aligns_iff_packing :
    ∃ c : (Arena.packing 16).Contract Lease.Admits, c.Aligns ∧
      c.Lands (native (Arena.packing 16)).pointer (16 ≤ ·) ∧
      ¬ c.Lands (native (Arena.packing 16)).pointer (fun _ => True) := by
  have hpow : (16 : Nat).isPowerOfTwo := ⟨4, rfl⟩
  have haligns := Arena.packingContract_aligns hpow (by decide)
  obtain ⟨hlarge, hall⟩ := native_aligns_iff _ haligns
  refine ⟨_, haligns, hlarge, ?_⟩
  rw [hall]
  intro hsmall
  -- Eight bytes behind eight bytes.
  have hruns : Returns ((Arena.packing 16).alloc 8)
      ⟨Arena.freshMemory, Arena.new { start := 8 }⟩ fun r _ => r = some (Arena.base + 8) :=
    Ends.intro_ok rfl rfl
  have height : 0 < 8 ∧ 8 < Word.limit := by decide
  have hlands := hsmall (.alloc 8) 8 ⟨Arena.freshMemory, Arena.new { start := 8 }⟩
    (Arena.orderly_new _) rfl height (by decide)
  obtain ⟨r, h', -, rfl, hdvd⟩ := (hruns.and hlands).exists
  exact absurd (hdvd _ rfl) (by decide)

/-- A backend that refuses every block of at least its alignment owes no alignment. What it grants
is handed on as it is. -/
theorem native_misplaces_small_block :
    let b := (Arena.basic { misalign := 8 }).capped 15
    b.maxAlign = 16 ∧
      (∀ (request : Request) (n : Nat), request.plain? = some n → 16 ≤ n →
        request.ask b.toBackend = pure none) ∧
      Returns ((native b).alloc 8) ⟨Arena.freshMemory, Arena.new {}⟩ fun r _ =>
        r = some ⟨Arena.base + 8, 8, 8⟩ ∧ ¬ 16 ∣ Arena.base + 8 := by
  refine ⟨rfl, ?_, ?_⟩
  · intro request n hplain hn
    have hcap : 15 < n := hn
    cases request with
    | alloc m =>
      cases hplain
      exact if_pos hcap
    | allocZeroed m =>
      cases hplain
      exact if_pos hcap
    | realloc p m =>
      cases hplain
      exact if_pos hcap
    | _ => cases hplain
  · refine Ends.intro_ok rfl ?_
    decide

end HeapLedger
