import HeapLedger.Proofs.Backend.Watched
import HeapLedger.Strategy.Headered

/-!
# `HeapLedger/Proofs/Follows.lean` — operations that differ in what they remember

`Follows f op' op` says that `op'` does what `op` does and remembers more: seen through `f`, which
forgets the rest, the two end alike from all states. It goes through all ways to put operations
together, so an operation over a watched backend follows the same operation over the backend itself
as soon as its parts do. Here this is taken up to strategies.
-/

set_option autoImplicit false

namespace HeapLedger

variable {ε σ σ' α γ : Type}

/-- Seen through `f`, the first operation ends as the second does. -/
def Follows (f : σ' → σ) (op' : EStateM ε σ' α) (op : EStateM ε σ α) : Prop :=
  ∀ s, match op' s with
    | .ok a s' => op (f s) = .ok a (f s')
    | .error e s' => op (f s) = .error e (f s')

namespace Follows

variable {f : σ' → σ}

theorem of_ok {op' : EStateM ε σ' α} {op : EStateM ε σ α} {s s' : σ'} {a : α}
    (h : Follows f op' op) (hop : op' s = .ok a s') : op (f s) = .ok a (f s') := by
  have hs := h s
  rwa [hop] at hs

theorem of_error {op' : EStateM ε σ' α} {op : EStateM ε σ α} {s s' : σ'} {e : ε}
    (h : Follows f op' op) (hop : op' s = .error e s') : op (f s) = .error e (f s') := by
  have hs := h s
  rwa [hop] at hs

theorem pure (a : α) : Follows f (pure a : EStateM ε σ' α) (pure a) := fun _ => rfl

theorem throw (e : ε) : Follows f (throw e : EStateM ε σ' α) (throw e) := fun _ => rfl

theorem bind {x' : EStateM ε σ' γ} {x : EStateM ε σ γ} {g' : γ → EStateM ε σ' α}
    {g : γ → EStateM ε σ α} (hx : Follows f x' x) (hg : ∀ c, Follows f (g' c) (g c)) :
    Follows f (x' >>= g') (x >>= g) := by
  intro s
  have hxs := hx s
  show match EStateM.bind x' g' s with
    | .ok a s' => EStateM.bind x g (f s) = .ok a (f s')
    | .error e s' => EStateM.bind x g (f s) = .error e (f s')
  unfold EStateM.bind
  cases hrun : x' s with
  | ok c s' =>
    rw [hrun] at hxs
    rw [hxs]
    exact hg c s'
  | error e s' =>
    rw [hrun] at hxs
    rw [hxs]

theorem map {x' : EStateM ε σ' γ} {x : EStateM ε σ γ} (g : γ → α) (hx : Follows f x' x) :
    Follows f (g <$> x') (g <$> x) := by
  intro s
  have hxs := hx s
  show match EStateM.map g x' s with
    | .ok a s' => EStateM.map g x (f s) = .ok a (f s')
    | .error e s' => EStateM.map g x (f s) = .error e (f s')
  unfold EStateM.map
  cases hrun : x' s with
  | ok c s' =>
    rw [hrun] at hxs
    rw [hxs]
  | error e s' =>
    rw [hrun] at hxs
    rw [hxs]

/-- What follows may look at the state, as long as it sees the same. -/
theorem get {g' : σ' → EStateM ε σ' α} {g : σ → EStateM ε σ α}
    (hg : ∀ s, Follows f (g' s) (g (f s))) :
    Follows f (MonadState.get >>= g') (MonadState.get >>= g) :=
  fun s => hg s s

theorem modify {g' : σ' → σ'} {g : σ → σ} (hg : ∀ s, f (g' s) = g (f s)) :
    Follows f (modify g' : EStateM ε σ' PUnit) (modify g) := by
  intro s
  show EStateM.Result.ok PUnit.unit (g (f s)) = .ok PUnit.unit (f (g' s))
  rw [hg]

end Follows

/-! ## Operations on a watched heap -/

section Heap

variable {β : Type}

theorem follows_watch (request : Request) (op : HeapOp β α) :
    Follows Heap.unwatched (op.watch request) op := by
  intro h
  unfold HeapOp.watch
  cases hop : op h.unwatched with
  | ok a h' => rfl
  | error e h' => rfl

theorem follows_ofExcept (r : Except Fault α) :
    Follows Heap.unwatched (HeapOp.ofExcept r : HeapOp (Watched β) α) (HeapOp.ofExcept r) := by
  cases r with
  | ok a => exact .pure a
  | error e => exact .throw e

theorem follows_query {look' : Heap (Watched β) → Except Fault α} {look : Heap β → Except Fault α}
    (h : ∀ heap, look' heap = look heap.unwatched) :
    Follows Heap.unwatched (HeapOp.query look') (HeapOp.query look) := by
  refine .get fun heap => ?_
  rw [h]
  exact follows_ofExcept _

theorem follows_mapMemory (change : Memory → Memory) :
    Follows Heap.unwatched (HeapOp.mapMemory change : HeapOp (Watched β) Unit)
      (HeapOp.mapMemory change) :=
  .modify fun _ => rfl

end Heap

-- As with `Ends`, unification is kept from running operations.
attribute [irreducible] Follows

/-! ## Strategies over a watched backend -/

namespace Strategy

variable {β : Type}

/-- Every operation of the first strategy follows the one of the second. -/
structure Imitates (s' : Strategy (Watched β)) (s : Strategy β) : Prop where
  label : s'.label = s.label
  maxAlign : s'.maxAlign = s.maxAlign
  alloc : ∀ n, Follows Heap.unwatched (s'.alloc n) (s.alloc n)
  allocZeroed : ∀ n, Follows Heap.unwatched (s'.allocZeroed n) (s.allocZeroed n)
  allocAligned : ∀ n align,
    Follows Heap.unwatched (s'.allocAligned n align) (s.allocAligned n align)
  realloc : ∀ p n, Follows Heap.unwatched (s'.realloc p n) (s.realloc p n)
  free : ∀ p, Follows Heap.unwatched (s'.free p) (s.free p)
  freeWithSize : ∀ p n,
    Follows Heap.unwatched (s'.freeWithSize p n) (s.freeWithSize p n)
  usableSize : ∀ p h, s'.usableSize p h = s.usableSize p h.unwatched
  footprint : ∀ p h, s'.footprint p h = s.footprint p h.unwatched
  info : ∀ w, s'.info w = s.info w.state
  setBackgroundThread : ∀ enable, Follows Heap.unwatched
    (s'.setBackgroundThread enable) (s.setBackgroundThread enable)
  purge : Follows Heap.unwatched s'.purge s.purge

theorem follows_sizedBlock (b : SizedBackend β) (ptr : Nat) :
    Follows Heap.unwatched (sizedBlock b.watched ptr) (sizedBlock b ptr) :=
  (follows_query fun _ => rfl).bind fun _ => .pure _

theorem imitates_native (b : SizedBackend β) : (native b.watched).Imitates (native b) where
  label := rfl
  maxAlign := rfl
  alloc := fun n => (follows_watch _ _).bind fun r => by
    cases r with
    | none => exact .pure none
    | some p => exact (follows_sizedBlock b p).map some
  allocZeroed := fun n => (follows_watch _ _).bind fun r => by
    cases r with
    | none => exact .pure none
    | some p => exact (follows_sizedBlock b p).map some
  allocAligned := fun n align => (follows_watch _ _).bind fun r => by
    cases r with
    | none => exact .pure none
    | some p =>
      by_cases hp : p % align = 0
      · simp only [ne_eq, hp, not_true, if_false]
        exact (follows_sizedBlock b p).map some
      · simp only [ne_eq, hp, not_false_eq_true, if_true]
        exact .throw _
  realloc := fun p n => (follows_query fun _ => rfl).bind fun old =>
    (follows_watch _ _).bind fun r => by
      cases r with
      | none => exact .pure none
      | some moved => exact (follows_sizedBlock b moved).bind fun _ => .pure _
  free := fun p => (follows_query fun _ => rfl).bind fun size =>
    (follows_watch _ _).bind fun _ => .pure size
  freeWithSize := fun p usable => (follows_query fun _ => rfl).bind fun size => by
    by_cases husable : usable = size
    · simp only [ne_eq, husable, not_true, if_false]
      exact (follows_watch _ _).bind fun _ => .pure size
    · simp only [ne_eq, husable, not_false_eq_true, if_true]
      exact .throw _
  usableSize := fun _ _ => rfl
  footprint := fun _ _ => rfl
  info := fun _ => rfl
  setBackgroundThread := fun _ => follows_watch _ _
  purge := follows_watch _ _

namespace Headered

variable (b : Backend β)

theorem maxAlign_watched : b.watched.maxAlign = b.maxAlign :=
  rfl

theorem width_watched : width b.watched = width b :=
  rfl

theorem follows_stamp (start size : Nat) :
    Follows Heap.unwatched (stamp b.watched start size) (stamp b start size) :=
  (follows_mapMemory _).bind fun _ => (follows_ofExcept _).bind fun _ => .pure _

theorem follows_stampAligned (start size align : Nat) :
    Follows Heap.unwatched (stampAligned b.watched start size align)
      (stampAligned b start size align) :=
  (follows_ofExcept _).bind fun _ => (follows_mapMemory _).bind fun _ =>
    (follows_ofExcept _).bind fun _ => .pure _

theorem follows_header (ptr : Nat) :
    Follows Heap.unwatched (header ptr : HeapOp (Watched β) Header) (header ptr) :=
  follows_query fun _ => rfl

theorem follows_allocBy {take' : Nat → HeapOp (Watched β) (Option Nat)}
    {take : Nat → HeapOp β (Option Nat)}
    (htake : ∀ n, Follows Heap.unwatched (take' n) (take n)) (size : Nat) :
    Follows Heap.unwatched (allocBy b.watched take' size) (allocBy b take size) := by
  unfold allocBy
  rw [width_watched]
  cases Header.plainSize (width b) size with
  | none => exact .pure none
  | some total =>
    refine (htake total).bind fun r => ?_
    cases r with
    | none => exact .pure none
    | some start => exact (follows_stamp b start size).map some

theorem follows_allocAligned (size align : Nat) :
    Follows Heap.unwatched (allocAligned b.watched size align) (allocAligned b size align) := by
  unfold allocAligned
  by_cases hpow : align.isPowerOfTwo
  · simp only [hpow, not_true, if_false, maxAlign_watched, width_watched]
    by_cases hmax : align ≤ b.maxAlign
    · simp only [hmax, if_true]
      exact follows_allocBy b (fun _ => follows_watch _ _) size
    simp only [hmax, if_false]
    cases Header.alignedSize (width b) size align with
    | none => exact .pure none
    | some total =>
      refine (follows_watch _ _).bind fun r => ?_
      cases r with
      | none => exact .pure none
      | some start => exact (follows_stampAligned b start size align).map some
  · simp only [hpow, not_false_eq_true, if_true]
    exact .pure none

theorem follows_release (ptr : Nat) (h : Header) :
    Follows Heap.unwatched (release b.watched ptr h) (release b ptr h) :=
  (follows_ofExcept _).bind fun cost => .get fun _ =>
    (follows_watch _ _).bind fun _ => .pure cost

theorem follows_free (ptr : Nat) : Follows Heap.unwatched (free b.watched ptr) (free b ptr) :=
  (follows_header ptr).bind fun h => follows_release b ptr h

theorem follows_realloc (ptr size : Nat) :
    Follows Heap.unwatched (realloc b.watched ptr size) (realloc b ptr size) := by
  refine (follows_header ptr).bind fun h => (follows_ofExcept _).bind fun old => ?_
  by_cases halign : h.align = 0
  · simp only [ne_eq, halign, not_true, if_false, width_watched]
    cases Header.plainSize (width b) size with
    | none => exact .pure none
    | some total =>
      refine .get fun _ => (follows_watch _ _).bind fun r => ?_
      cases r with
      | none => exact .pure none
      | some moved => exact (follows_stamp b moved size).bind fun _ => .pure _
  · simp only [ne_eq, halign, not_false_eq_true, if_true]
    refine (follows_allocBy b (fun _ => follows_watch _ _) size).bind fun r => ?_
    cases r with
    | none => exact .pure none
    | some block =>
      exact (follows_mapMemory _).bind fun _ => (follows_free b ptr).bind fun _ => .pure _

end Headered

theorem imitates_headered (b : Backend β) : (headered b.watched).Imitates (headered b) where
  label := rfl
  maxAlign := rfl
  alloc := Headered.follows_allocBy b fun _ => follows_watch _ _
  allocZeroed := Headered.follows_allocBy b fun _ => follows_watch _ _
  allocAligned := Headered.follows_allocAligned b
  realloc := Headered.follows_realloc b
  free := Headered.follows_free b
  freeWithSize := fun ptr usable => (Headered.follows_header ptr).bind fun h => by
    by_cases husable : usable = h.size
    · simp only [ne_eq, husable, not_true, if_false]
      exact Headered.follows_release b ptr h
    · simp only [ne_eq, husable, not_false_eq_true, if_true]
      exact .throw _
  usableSize := fun _ _ => rfl
  footprint := fun _ _ => rfl
  info := fun _ => rfl
  setBackgroundThread := fun _ => follows_watch _ _
  purge := follows_watch _ _

end Strategy

end HeapLedger
