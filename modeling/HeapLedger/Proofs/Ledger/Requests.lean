import HeapLedger.Proofs.Ends
import HeapLedger.Proofs.Ledger.Follows
import HeapLedger.Proofs.Ledger.Orders
import HeapLedger.Proofs.Strategy.Alignment

/-!
# `HeapLedger/Proofs/Ledger/Requests.lean` — what a call asks of the backend

`Stack.asks` are the requests that one call makes of the backend, read off the same call over the
watched backend. An order makes one, and whether it is carried out is up to the backend alone: what
the strategy does with the pointer leaves the backend's state as it is (`Quiet`) and refuses nothing.
-/

set_option autoImplicit false

namespace HeapLedger

variable {β α γ : Type}

/-- The backend does not notice. -/
def Quiet (op : HeapOp β α) : Prop :=
  ∀ h, Ends op h (fun _ h' => h'.state = h.state) fun _ h' => h'.state = h.state

namespace Quiet

theorem pure (a : α) : Quiet (pure a : HeapOp β α) := fun _ => ends_pure.2 rfl

theorem throw (e : Fault) : Quiet (throw e : HeapOp β α) := fun _ => ends_throw.2 rfl

theorem bind {x : HeapOp β γ} {f : γ → HeapOp β α} (hx : Quiet x) (hf : ∀ c, Quiet (f c)) :
    Quiet (x >>= f) := by
  intro h
  rw [ends_bind]
  apply (hx h).imp
  · intro c h' hc
    rw [← hc]
    exact hf c h'
  · intro e h' hstop
    exact hstop

theorem ofExcept (r : Except Fault α) : Quiet (HeapOp.ofExcept r : HeapOp β α) := by
  cases r with
  | ok a => exact .pure a
  | error e => exact .throw e

theorem query (look : Heap β → Except Fault α) : Quiet (HeapOp.query look) := by
  intro h
  unfold HeapOp.query
  rw [ends_bind]
  exact ends_get.2 (ofExcept (look h) h)

theorem mapMemory (change : Memory → Memory) : Quiet (HeapOp.mapMemory change : HeapOp β Unit) :=
  fun _ => ends_mapMemory.2 rfl

end Quiet

namespace Stack

theorem quiet_sizedBlock (b : SizedBackend β) (p : Nat) : Quiet (Strategy.sizedBlock b p) :=
  (Quiet.query _).bind fun _ => .pure _

theorem quiet_finish (u : Stack β) (o : Order) (p : Nat) : Quiet (u.finish o p) := by
  cases u with
  | native b =>
    cases o with
    | plain n => exact quiet_sizedBlock b p
    | zeroed n => exact quiet_sizedBlock b p
    | aligned n align =>
      show Quiet (if p % align ≠ 0 then throw (.misaligned (p % align))
        else Strategy.sizedBlock b p)
      split
      · exact .throw _
      · exact quiet_sizedBlock b p
  | headered b =>
    have hstamp : ∀ n, Quiet (Strategy.Headered.stamp b p n) := fun n =>
      (Quiet.mapMemory _).bind fun _ => (Quiet.ofExcept _).bind fun _ => .pure _
    cases o with
    | plain n => exact hstamp n
    | zeroed n => exact hstamp n
    | aligned n align =>
      exact (Quiet.ofExcept _).bind fun _ => (Quiet.mapMemory _).bind fun _ =>
        (Quiet.ofExcept _).bind fun _ => .pure _

end Stack

/-! ## Requests of one call -/

/-- The ledger over the watched backend, when nothing is written down yet. -/
def Ledger.watched (l : Ledger β) : Ledger (Watched β) where
  heap := ⟨l.heap.memory, l.heap.state, []⟩
  counter := l.counter
  threads := l.threads
  caller := l.caller
  policy := l.policy
  log := l.log

/-- The requests that a call makes of the backend, in order. -/
def Stack.asks (u : Stack β) (host : Host) (a : Action) (l : Ledger β) : List Request :=
  match a.perform u.watched.strategy host l.watched with
  | .ok _ l' | .error _ l' => (l'.heap.state.seen.map Sighting.request).reverse

/-- What the backend gets to see of a call: its requests, in order, and the heaps that they found. -/
def Stack.sightings (u : Stack β) (host : Host) (a : Action) (l : Ledger β) : List (Sighting β) :=
  match a.perform u.watched.strategy host l.watched with
  | .ok _ l' | .error _ l' => l'.heap.state.seen.reverse

theorem Stack.asks_eq_sightings (u : Stack β) (host : Host) (a : Action) (l : Ledger β) :
    u.asks host a l = (u.sightings host a l).map Sighting.request := by
  unfold asks sightings
  cases a.perform u.watched.strategy host l.watched <;> exact List.map_reverse.symm

/-- However the call ends, what was written down by then are its requests. -/
theorem Stack.asks_of_ends {u : Stack β} {host : Host} {a : Action} {l : Ledger β}
    {requests : List Request}
    (h : Ends (a.perform u.watched.strategy host) l.watched
      (fun _ l' => (l'.heap.state.seen.map Sighting.request).reverse = requests)
      fun _ l' => (l'.heap.state.seen.map Sighting.request).reverse = requests) :
    u.asks host a l = requests := by
  unfold asks
  cases hrun : a.perform u.watched.strategy host l.watched with
  | ok r l' => exact h.of_ok hrun
  | error e l' => exact h.of_error hrun

namespace Ledger

variable (u : Stack β) (hmax : u.backend.maxAlign ≤ 2 ^ 32) {o : Order}
  (ho : o.Passes u.backend.maxAlign) (size : Nat)

include hmax ho

/-- There is no block just when the backend refuses, and then the ledger says so. -/
theorem tryOrder_ends (l : Ledger β) :
    Ends (tryOrder u.strategy (some o) size) l
      (fun r _ => (r = .error (.exhausted size) ∧
          ((u.request o).ask u.backend).Refuses l.heap) ∨
        (∃ block, r = .ok block) ∧ ¬ ((u.request o).ask u.backend).Refuses l.heap)
      fun _ _ => ¬ ((u.request o).ask u.backend).Refuses l.heap := by
  show Ends (onHeap (o.take u.strategy) >>= settle size) l _ _
  rw [ends_bind, ends_onHeap, u.take_eq hmax ho]
  unfold Stack.fulfil
  rw [ends_bind]
  apply (Ends.self ((u.request o).ask u.backend) l.heap).imp
  · intro r h' hask
    cases r with
    | none => exact ends_pure.2 (ends_pure.2 (.inl ⟨rfl, h', hask⟩))
    | some p =>
      have hgranted : ¬ ((u.request o).ask u.backend).Refuses l.heap := by
        rintro ⟨h₂, hrefused⟩
        rw [hask] at hrefused
        cases hrefused
      rw [ends_map]
      apply (u.quiet_finish o p h').imp
      · intro block h₂ _
        unfold settle charge count
        simp only
        rw [ends_bind, ends_modify, ends_pure]
        exact .inr ⟨⟨_, rfl⟩, hgranted⟩
      · intros
        exact hgranted
  · intro fault h' hask
    rintro ⟨h₂, hrefused⟩
    rw [hask] at hrefused
    cases hrefused

/-- For an order the backend is asked once. -/
theorem tryOrder_asks (l : Ledger (Watched β)) :
    Ends (tryOrder u.watched.strategy (some o) size) l
      (fun _ l' => l'.heap.state.seen = l.heap.sight (u.request o))
      fun _ l' => l'.heap.state.seen = l.heap.sight (u.request o) := by
  have ho' : o.Passes u.watched.backend.maxAlign := by
    rw [u.maxAlign_watched]
    exact ho
  have hmax' : u.watched.backend.maxAlign ≤ 2 ^ 32 := by
    rw [u.maxAlign_watched]
    exact hmax
  have hwatch : Ends (((u.request o).ask u.backend).watch (u.request o)) l.heap
      (fun _ h' => h'.state.seen = l.heap.sight (u.request o))
      fun _ h' => h'.state.seen = l.heap.sight (u.request o) := by
    rw [ends_watch]
    apply (Ends.self _ _).imp
    · intros
      rfl
    · intros
      rfl
  show Ends (onHeap (o.take u.watched.strategy) >>= settle size) l _ _
  rw [ends_bind, ends_onHeap, u.watched.take_eq hmax' ho', u.request_watched, u.ask_watched]
  unfold Stack.fulfil
  rw [ends_bind]
  apply hwatch.imp
  · intro r h' hseen
    cases r with
    | none => exact ends_pure.2 (ends_pure.2 hseen)
    | some p =>
      rw [ends_map]
      apply (u.watched.quiet_finish o p h').imp
      · intro block h₂ hquiet
        unfold settle charge count
        simp only
        rw [ends_bind, ends_modify, ends_pure]
        exact (congrArg Watched.seen hquiet).trans hseen
      · intro fault h₂ hquiet
        exact (congrArg Watched.seen hquiet).trans hseen
  · intro fault h' hseen
    exact hseen

end Ledger

end HeapLedger
