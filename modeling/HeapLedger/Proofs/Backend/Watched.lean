import HeapLedger.Proofs.Backend.Contract

/-!
# `HeapLedger/Proofs/Backend/Watched.lean` — a backend that writes down what it is asked

`Backend.watched` is the same backend with a memory for calls: every request is written down, with
the heap that it found, and then answered as ever. How long a block is and what there is to report
are questions and not requests: they leave no trace in a heap, and none here.

If a backend keeps its contract, so does the watched one, and under a survey that knows more: in a
valid heap every call that was written down was proper (`Sighting.Proper`) in the heap it found.
-/

set_option autoImplicit false

namespace HeapLedger

/-- What a backend can be asked. -/
inductive Request where
  | alloc (size : Nat)
  | allocZeroed (size : Nat)
  | allocAligned (size align : Nat)
  | realloc (ptr size : Nat)
  | free (ptr : Nat)
  | freeSized (ptr size : Nat)
  | setBackgroundThread (enable : Bool)
  | purge
  deriving DecidableEq, Repr

/-- A request, and the heap that it found. -/
structure Sighting (β : Type) where
  heap : Heap β
  request : Request

/-- A backend's state and the requests so far, newest first. -/
structure Watched (β : Type) where
  state : β
  seen : List (Sighting β)

variable {β : Type}

/-- The heap without the requests. -/
def Heap.unwatched (h : Heap (Watched β)) : Heap β :=
  ⟨h.memory, h.state.state⟩

/-- The heap with one more request written down. -/
def Heap.sight (h : Heap (Watched β)) (request : Request) : List (Sighting β) :=
  ⟨h.unwatched, request⟩ :: h.state.seen

/-- The operation, written down as a request. -/
def HeapOp.watch {α : Type} (request : Request) (op : HeapOp β α) : HeapOp (Watched β) α := fun h =>
  match op h.unwatched with
  | .ok a h' => .ok a ⟨h'.memory, h'.state, h.sight request⟩
  | .error e h' => .error e ⟨h'.memory, h'.state, h.sight request⟩

/-- The same backend, with all requests written down. -/
def Backend.watched (b : Backend β) : Backend (Watched β) where
  label := b.label
  maxAlign := b.maxAlign
  alloc := fun size => (b.alloc size).watch (.alloc size)
  realloc := fun ptr size => (b.realloc ptr size).watch (.realloc ptr size)
  free := fun ptr => (b.free ptr).watch (.free ptr)
  allocZeroed := fun size => (b.allocZeroed size).watch (.allocZeroed size)
  allocAligned := fun size align => (b.allocAligned size align).watch (.allocAligned size align)
  freeSized := fun ptr size => (b.freeSized ptr size).watch (.freeSized ptr size)
  info := fun w => b.info w.state
  setBackgroundThread := fun enable =>
    (b.setBackgroundThread enable).watch (.setBackgroundThread enable)
  purge := b.purge.watch .purge

def SizedBackend.watched (b : SizedBackend β) : SizedBackend (Watched β) :=
  { b.toBackend.watched with blockSize := fun ptr h => b.blockSize ptr h.unwatched }

/-! ## Proper requests -/

/-- What a backend may be asked in a heap: for some bytes and not more than a word can count, for
alignments beyond its own, about blocks that are live there, and to take them back with a size that
is due. Nobody asks it to take back a block of any size. -/
def Request.Proper (b : Backend β) (v : Survey β) (due : Lease → Nat → Prop) (h : Heap β) :
    Request → Prop
  | .alloc n | .allocZeroed n => 0 < n ∧ n < Word.limit
  | .allocAligned n align =>
      0 < n ∧ n < Word.limit ∧ align.isPowerOfTwo ∧ b.maxAlign < align
  | .realloc p n => (∃ l, v.live h p = some l) ∧ 0 < n ∧ n < Word.limit
  | .free _ => False
  | .freeSized p n => ∃ l, v.live h p = some l ∧ due l n
  | .setBackgroundThread _ | .purge => True

def Sighting.Proper (b : Backend β) (v : Survey β) (due : Lease → Nat → Prop) (s : Sighting β) :
    Prop :=
  s.request.Proper b v due s.heap

/-- The survey of a backend's heaps, for heaps with requests that were all proper. -/
def Survey.watched (v : Survey β) (b : Backend β) (due : Lease → Nat → Prop) :
    Survey (Watched β) where
  valid := fun h => v.valid h.unwatched ∧ ∀ s ∈ h.state.seen, s.Proper b v due
  live := fun h => v.live h.unwatched
  fits := fun hv => v.fits hv.1
  apart := fun hv => v.apart hv.1
  write := fun hv hm => ⟨⟨(v.write hv.1 hm).1, hv.2⟩, (v.write hv.1 hm).2⟩

section Keeping

variable {b : Backend β} {v : Survey β} {due : Lease → Nat → Prop} {h : Heap (Watched β)}
  {request : Request}

/-- A proper request that made a trade, written down. -/
theorem Survey.Trade.watched {gone : Option Nat} {came : Option (Nat × Lease)} {h' : Heap β}
    (hv : (v.watched b due).valid h) (hreq : request.Proper b v due h.unwatched)
    (t : v.Trade gone came h.unwatched h') :
    (v.watched b due).Trade gone came h ⟨h'.memory, h'.state, h.sight request⟩ where
  valid := by
    refine ⟨t.valid, ?_⟩
    intro s hs
    rcases List.mem_cons.1 hs with rfl | hs
    · exact hreq
    · exact hv.2 s hs
  live := t.live
  fresh := t.fresh
  kept := t.kept

theorem Survey.Served.watched {gone : Option Nat} {n : Nat} {r : Option Nat} {h' : Heap β}
    (hv : (v.watched b due).valid h) (hreq : request.Proper b v due h.unwatched)
    (hserved : v.Served gone n h.unwatched r h') :
    (v.watched b due).Served gone n h r ⟨h'.memory, h'.state, h.sight request⟩ := by
  cases r with
  | none => exact Survey.Trade.watched hv hreq hserved
  | some q =>
    obtain ⟨bytes, t⟩ := hserved
    exact ⟨bytes, t.watched hv hreq⟩

/-- A watched operation ends as it does unwatched, and has been written down. -/
theorem ends_watch {α : Type} {op : HeapOp β α} {ret : α → Heap (Watched β) → Prop}
    {stop : Fault → Heap (Watched β) → Prop} :
    Ends (op.watch request) h ret stop ↔
      Ends op h.unwatched (fun a h' => ret a ⟨h'.memory, h'.state, h.sight request⟩)
        fun e h' => stop e ⟨h'.memory, h'.state, h.sight request⟩ := by
  unfold Ends HeapOp.watch
  cases op h.unwatched <;> rfl

theorem returns_watch {α : Type} {op : HeapOp β α} {ret : α → Heap β → Prop}
    {ret' : α → Heap (Watched β) → Prop} (hop : Returns op h.unwatched ret)
    (hret : ∀ a h', ret a h' → ret' a ⟨h'.memory, h'.state, h.sight request⟩) :
    Returns (op.watch request) h ret' :=
  ends_watch.2 (hop.imp hret)

/-- Watching a backend does not make it break its contract, and it never sees an improper
request. -/
def Backend.Contract.watched {b : Backend β} (c : b.Contract due) : b.watched.Contract due where
  toSurvey := c.toSurvey.watched b due
  alloc := fun hv hn hlim =>
    returns_watch (c.alloc hv.1 hn hlim) fun _ _ hs => hs.watched hv ⟨hn, hlim⟩
  allocZeroed := fun hv hn hlim =>
    returns_watch (c.allocZeroed hv.1 hn hlim) fun _ _ hs => hs.watched hv ⟨hn, hlim⟩
  allocAligned := fun hv hn hlim hpow hmax =>
    returns_watch (c.allocAligned hv.1 hn hlim hpow hmax) fun _ _ hs =>
      hs.watched hv ⟨hn, hlim, hpow, hmax⟩
  realloc := fun hv hl hn hlim =>
    returns_watch (c.realloc hv.1 hl hn hlim) fun _ _ hs => hs.watched hv ⟨⟨_, hl⟩, hn, hlim⟩
  freeSized := fun hv hl hdue =>
    returns_watch (c.freeSized hv.1 hl hdue) fun _ _ t => t.watched hv ⟨_, hl, hdue⟩
  setBackgroundThread := fun enable hv =>
    returns_watch (c.setBackgroundThread enable hv.1) fun _ _ t => t.watched hv trivial
  purge := fun hv => returns_watch (c.purge hv.1) fun _ _ t => t.watched hv trivial

def SizedBackend.Contract.watched {b : SizedBackend β} (c : b.Contract due) :
    b.watched.Contract due where
  toContract := c.toContract.watched
  blockSize := fun hv hl => c.blockSize hv.1 hl

end Keeping

end HeapLedger
