import HeapLedger.Ledger

/-!
# `HeapLedger/Proofs/Ends.lean` — how an operation ends

`Ends op s ret stop` runs `op` from `s` and says of the one ending it has what `ret` (it returned)
or `stop` (it stopped in the middle) ask. It is a total statement: an operation that stops does not
satisfy `Returns`, whatever it is asked to return.

Every law below is an equivalence that takes an operation apart, so a specification is proved by
rewriting with the laws down to the operations that have a specification of their own, and going on
from there with `Ends.imp`.
-/

set_option autoImplicit false

namespace HeapLedger

variable {ε σ α γ : Type}

/-- Whatever is said of a result, it is true where there is none. -/
theorem forall_mem_none {P : α → Prop} : ∀ a ∈ (none : Option α), P a := by
  rintro a ⟨⟩

/-- From `s`, the operation returns as `ret` says or stops as `stop` says. -/
def Ends (op : EStateM ε σ α) (s : σ) (ret : α → σ → Prop) (stop : ε → σ → Prop) : Prop :=
  match op s with
  | .ok a s' => ret a s'
  | .error e s' => stop e s'

/-- From `s`, the operation returns, and as `ret` says. -/
abbrev Returns (op : EStateM ε σ α) (s : σ) (ret : α → σ → Prop) : Prop :=
  Ends op s ret fun _ _ => False

theorem Ends.imp {op : EStateM ε σ α} {s : σ} {ret ret' : α → σ → Prop}
    {stop stop' : ε → σ → Prop} (h : Ends op s ret stop) (hret : ∀ a s', ret a s' → ret' a s')
    (hstop : ∀ e s', stop e s' → stop' e s') : Ends op s ret' stop' := by
  unfold Ends at *
  cases hop : op s with
  | ok a s' => rw [hop] at h; exact hret a s' h
  | error e s' => rw [hop] at h; exact hstop e s' h

theorem Ends.mono {op : EStateM ε σ α} {s : σ} {ret ret' : α → σ → Prop} {stop : ε → σ → Prop}
    (h : Ends op s ret stop) (hret : ∀ a s', ret a s' → ret' a s') : Ends op s ret' stop :=
  h.imp hret fun _ _ => id

theorem Returns.imp {op : EStateM ε σ α} {s : σ} {ret ret' : α → σ → Prop}
    {stop : ε → σ → Prop} (h : Returns op s ret) (hret : ∀ a s', ret a s' → ret' a s') :
    Ends op s ret' stop :=
  Ends.imp h hret fun _ _ => False.elim

theorem Returns.ends {op : EStateM ε σ α} {s : σ} {ret : α → σ → Prop} {stop : ε → σ → Prop}
    (h : Returns op s ret) : Ends op s ret stop :=
  h.imp fun _ _ => id

theorem Ends.of_ok {op : EStateM ε σ α} {s s' : σ} {a : α} {ret : α → σ → Prop}
    {stop : ε → σ → Prop} (h : Ends op s ret stop) (hop : op s = .ok a s') : ret a s' := by
  unfold Ends at h
  rwa [hop] at h

theorem Ends.of_error {op : EStateM ε σ α} {s s' : σ} {e : ε} {ret : α → σ → Prop}
    {stop : ε → σ → Prop} (h : Ends op s ret stop) (hop : op s = .error e s') : stop e s' := by
  unfold Ends at h
  rwa [hop] at h

theorem Ends.intro_ok {op : EStateM ε σ α} {s s' : σ} {a : α} {ret : α → σ → Prop}
    {stop : ε → σ → Prop} (hop : op s = .ok a s') (h : ret a s') : Ends op s ret stop := by
  unfold Ends
  rwa [hop]

/-- An operation ends as it does. -/
theorem Ends.self (op : EStateM ε σ α) (s : σ) :
    Ends op s (fun a s' => op s = .ok a s') fun e s' => op s = .error e s' := by
  unfold Ends
  cases op s <;> rfl

/-- What is to be said of the returns only. -/
theorem ends_of_run {op : EStateM ε σ α} {s : σ} {ret : α → σ → Prop}
    (h : ∀ a s', op s = .ok a s' → ret a s') : Ends op s ret fun _ _ => True :=
  (Ends.self op s).imp h fun _ _ _ => trivial

/-- Two things known of one ending. -/
theorem Ends.and {op : EStateM ε σ α} {s : σ} {ret ret' : α → σ → Prop} {stop stop' : ε → σ → Prop}
    (h : Ends op s ret stop) (h' : Ends op s ret' stop') :
    Ends op s (fun a s' => ret a s' ∧ ret' a s') fun e s' => stop e s' ∧ stop' e s' := by
  unfold Ends at *
  cases hop : op s with
  | ok a s' => rw [hop] at h h'; exact ⟨h, h'⟩
  | error e s' => rw [hop] at h h'; exact ⟨h, h'⟩

theorem Returns.and {op : EStateM ε σ α} {s : σ} {ret ret' : α → σ → Prop} (h : Returns op s ret)
    (h' : Returns op s ret') : Returns op s fun a s' => ret a s' ∧ ret' a s' :=
  (Ends.and h h').imp (fun _ _ => id) fun _ _ => And.left

/-- What is said of all returns is said of one that is known to come. -/
theorem Returns.also {op : EStateM ε σ α} {s : σ} {ret ret' : α → σ → Prop}
    (h : Returns op s ret) (h' : Ends op s ret' fun _ _ => True) :
    Returns op s fun a s' => ret a s' ∧ ret' a s' :=
  (Ends.and h h').imp (fun _ _ => id) fun _ _ => And.left

/-- A return can be named. -/
theorem Returns.exists {op : EStateM ε σ α} {s : σ} {ret : α → σ → Prop} (h : Returns op s ret) :
    ∃ a s', op s = .ok a s' ∧ ret a s' := by
  cases hop : op s with
  | ok a s' => exact ⟨a, s', rfl, h.of_ok hop⟩
  | error e s' => exact (h.of_error hop).elim

/-- After a return the rest runs from where it ended. -/
theorem run_bind_ok {x : EStateM ε σ γ} {f : γ → EStateM ε σ α} {s s' : σ} {c : γ}
    (hx : x s = .ok c s') : (x >>= f) s = f c s' := by
  show EStateM.bind x f s = f c s'
  unfold EStateM.bind
  rw [hx]

theorem run_bind_error {x : EStateM ε σ γ} {f : γ → EStateM ε σ α} {s s' : σ} {e : ε}
    (hx : x s = .error e s') : (x >>= f) s = .error e s' := by
  show EStateM.bind x f s = .error e s'
  unfold EStateM.bind
  rw [hx]

theorem run_map_ok {x : EStateM ε σ γ} {s s' : σ} {c : γ} (f : γ → α) (hx : x s = .ok c s') :
    (f <$> x) s = .ok (f c) s' := by
  show EStateM.map f x s = .ok (f c) s'
  unfold EStateM.map
  rw [hx]

theorem run_map_error {x : EStateM ε σ γ} {s s' : σ} {e : ε} (f : γ → α)
    (hx : x s = .error e s') : (f <$> x) s = .error e s' := by
  show EStateM.map f x s = .error e s'
  unfold EStateM.map
  rw [hx]

/-- What runs alike runs on alike. -/
theorem run_bind_congr {x y : EStateM ε σ γ} (f : γ → EStateM ε σ α) {s : σ} (h : x s = y s) :
    (x >>= f) s = (y >>= f) s := by
  show EStateM.bind x f s = EStateM.bind y f s
  unfold EStateM.bind
  rw [h]

theorem run_map_congr {x y : EStateM ε σ γ} (f : γ → α) {s : σ} (h : x s = y s) :
    (f <$> x) s = (f <$> y) s := by
  show EStateM.map f x s = EStateM.map f y s
  unfold EStateM.map
  rw [h]

theorem ends_of_run_eq {x y : EStateM ε σ α} {s : σ} {ret : α → σ → Prop} {stop : ε → σ → Prop}
    (h : x s = y s) : Ends x s ret stop ↔ Ends y s ret stop := by
  unfold Ends
  rw [h]

/-! ## Taking operations apart -/

section Laws

variable {s : σ} {ret : α → σ → Prop} {stop : ε → σ → Prop}

@[simp] theorem ends_pure {a : α} : Ends (pure a) s ret stop ↔ ret a s := Iff.rfl

@[simp] theorem ends_throw {e : ε} : Ends (throw e : EStateM ε σ α) s ret stop ↔ stop e s := Iff.rfl

theorem ends_bind {x : EStateM ε σ γ} {f : γ → EStateM ε σ α} :
    Ends (x >>= f) s ret stop ↔ Ends x s (fun c s' => Ends (f c) s' ret stop) stop := by
  unfold Ends
  show (match EStateM.bind x f s with
    | .ok a s' => ret a s'
    | .error e s' => stop e s') ↔ _
  unfold EStateM.bind
  cases x s <;> rfl

theorem ends_map {x : EStateM ε σ γ} {f : γ → α} :
    Ends (f <$> x) s ret stop ↔ Ends x s (fun c s' => ret (f c) s') stop := by
  unfold Ends
  show (match EStateM.map f x s with
    | .ok a s' => ret a s'
    | .error e s' => stop e s') ↔ _
  unfold EStateM.map
  cases x s <;> rfl

@[simp] theorem ends_get {ret : σ → σ → Prop} :
    Ends (get : EStateM ε σ σ) s ret stop ↔ ret s s := Iff.rfl

@[simp] theorem ends_modify {ret : PUnit → σ → Prop} {f : σ → σ} :
    Ends (modify f : EStateM ε σ PUnit) s ret stop ↔ ret ⟨⟩ (f s) := Iff.rfl

end Laws

/-! ## Operations on a heap -/

section Heap

variable {β : Type} {h : Heap β} {stop : Fault → Heap β → Prop}

@[simp] theorem ends_ofExcept_ok {ret : α → Heap β → Prop} {a : α} :
    Ends (HeapOp.ofExcept (.ok a)) h ret stop ↔ ret a h := Iff.rfl

theorem run_query {look : Heap β → Except Fault α} {a : α} (hlook : look h = .ok a) :
    HeapOp.query look h = .ok a h := by
  show HeapOp.ofExcept (look h) h = _
  rw [hlook]
  rfl

/-- A question that has an answer leaves the heap alone. -/
theorem ends_query {ret : α → Heap β → Prop} {look : Heap β → Except Fault α} {a : α}
    (hlook : look h = .ok a) : Ends (HeapOp.query look) h ret stop ↔ ret a h := by
  unfold HeapOp.query
  rw [ends_bind, ends_get, hlook, ends_ofExcept_ok]

/-- A question leaves the heap alone, answered or not. -/
theorem query_ends (look : Heap β → Except Fault α) (h : Heap β) :
    Ends (HeapOp.query look) h (fun a h' => h' = h ∧ look h = .ok a) fun _ h' => h' = h := by
  unfold HeapOp.query
  rw [ends_bind, ends_get]
  cases look h with
  | ok a => exact ends_ofExcept_ok.2 ⟨rfl, rfl⟩
  | error e => exact ends_throw.2 rfl

@[simp] theorem ends_mapMemory {ret : Unit → Heap β → Prop} {change : Memory → Memory} :
    Ends (HeapOp.mapMemory change) h ret stop ↔ ret () ⟨change h.memory, h.state⟩ := Iff.rfl

end Heap

/-! ## Operations on a ledger -/

section Ledger

variable {β : Type} {l : Ledger β} {stop : Halt → Ledger β → Prop}

theorem ends_onHeap {ret : α → Ledger β → Prop} {op : HeapOp β α} :
    Ends (Ledger.onHeap op) l ret stop ↔
      Ends op l.heap (fun a heap => ret a { l with heap := heap })
        fun fault heap => stop (.fault fault) { l with heap := heap } := by
  unfold Ends Ledger.onHeap
  cases op l.heap <;> rfl

@[simp] theorem ends_emit {ret : Unit → Ledger β → Prop} {events : List Event} :
    Ends (Ledger.emit events) l ret stop ↔ ret () { l with log := l.log ++ events } := Iff.rfl

end Ledger

-- From here on an operation is taken apart by the laws. Left open, the definition would let
-- unification run whole operations, down to the bits of the words they read.
attribute [irreducible] Ends

end HeapLedger
