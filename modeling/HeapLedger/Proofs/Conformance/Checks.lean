import HeapLedger.Conformance
import HeapLedger.Proofs.Follows
import HeapLedger.Proofs.Strategy.Stack

/-!
# `HeapLedger/Proofs/Conformance/Checks.lean` — what a check has seen

A check is judged by what it got to see. Run over a watched backend it does what it always does
(`Conformance.follows_alignment` and so on), and leaves behind its `sightings`: every request that it
made, with the heap that the request found. As a request in a heap has one answer, that is enough to
say what came of it, and what was in the heap then.

The laws that take checks apart are those of `Ends`. A loop is gone through with what holds between
its rounds (`ends_forM`, `ends_mapM`), and tests that change nothing are one test (`ends_tests`).
-/

set_option autoImplicit false

namespace HeapLedger

section Loops

variable {ε σ α γ : Type} {stop : ε → σ → Prop}

/-- What holds between the rounds of a loop holds after it. -/
theorem ends_forM {xs : List γ} {f : γ → EStateM ε σ PUnit} {holds : σ → Prop}
    (hround : ∀ x ∈ xs, ∀ s, holds s → Ends (f x) s (fun _ => holds) stop) :
    ∀ s, holds s → Ends (xs.forM f) s (fun _ => holds) stop := by
  induction xs with
  | nil => exact fun s hs => ends_pure.2 hs
  | cons x xs ih =>
    obtain ⟨hx, hxs⟩ := List.forall_mem_cons.1 hround
    intro s hs
    show Ends (f x >>= fun _ => xs.forM f) s _ _
    rw [ends_bind]
    exact (hx s hs).mono fun _ => ih hxs

theorem ends_mapM {xs : List γ} {f : γ → EStateM ε σ α} {holds : σ → Prop}
    (hround : ∀ x ∈ xs, ∀ s, holds s → Ends (f x) s (fun _ => holds) stop) :
    ∀ s, holds s → Ends (xs.mapM f) s (fun _ => holds) stop := by
  induction xs with
  | nil => exact fun s hs => ends_pure.2 hs
  | cons x xs ih =>
    obtain ⟨hx, hxs⟩ := List.forall_mem_cons.1 hround
    intro s hs
    rw [List.mapM_cons, ends_bind]
    refine (hx s hs).mono fun a s₁ hs₁ => ?_
    rw [ends_bind]
    exact (ih hxs s₁ hs₁).mono fun _ s₂ hs₂ => ends_pure.2 hs₂

/-- What holds with some rounds to go holds with none to go after them. -/
theorem ends_forM_rest {f : γ → EStateM ε σ PUnit} {holds : List γ → σ → Prop}
    (hround : ∀ x xs s, holds (x :: xs) s → Ends (f x) s (fun _ => holds xs) stop) :
    ∀ xs s, holds xs s → Ends (xs.forM f) s (fun _ => holds []) stop := by
  intro xs
  induction xs with
  | nil => exact fun s hs => ends_pure.2 hs
  | cons x xs ih =>
    intro s hs
    show Ends (f x >>= fun _ => xs.forM f) s _ _
    rw [ends_bind]
    exact (hround x xs s hs).mono fun _ => ih

/-- Tests that change nothing, one after the other, are one test. -/
theorem ends_tests {xs : List γ} {test : γ → EStateM ε σ PUnit} (passes : γ → Prop) {s : σ}
    (htest : ∀ x ∈ xs, Ends (test x) s (fun _ s' => s' = s ∧ passes x)
      fun _ s' => s' = s ∧ ¬ passes x) :
    Ends (xs.forM test) s (fun _ s' => s' = s ∧ ∀ x ∈ xs, passes x)
      fun _ s' => s' = s ∧ ¬ ∀ x ∈ xs, passes x := by
  induction xs with
  | nil => exact ends_pure.2 ⟨rfl, fun _ hx => nomatch hx⟩
  | cons x xs ih =>
    obtain ⟨hx, hxs⟩ := List.forall_mem_cons.1 htest
    show Ends (test x >>= fun _ => xs.forM test) s _ _
    rw [ends_bind]
    apply hx.imp
    · rintro _ s' ⟨rfl, hpass⟩
      apply (ih hxs).imp
      · rintro _ s'' ⟨rfl, hall⟩
        exact ⟨rfl, List.forall_mem_cons.2 ⟨hpass, hall⟩⟩
      · rintro _ s'' ⟨rfl, hfail⟩
        exact ⟨rfl, fun hall => hfail (List.forall_mem_cons.1 hall).2⟩
    · rintro _ s' ⟨rfl, hfail⟩
      exact ⟨rfl, fun hall => hfail (List.forall_mem_cons.1 hall).1⟩

variable {σ' : Type} {f : σ' → σ}

theorem Follows.ite {c : Prop} [Decidable c] {x' y' : EStateM ε σ' α} {x y : EStateM ε σ α}
    (hx : Follows f x' x) (hy : Follows f y' y) :
    Follows f (if c then x' else y') (if c then x else y) := by
  by_cases hc : c
  · rwa [if_pos hc, if_pos hc]
  · rwa [if_neg hc, if_neg hc]

theorem Follows.forM {xs : List γ} {g' : γ → EStateM ε σ' PUnit} {g : γ → EStateM ε σ PUnit}
    (h : ∀ x, Follows f (g' x) (g x)) : Follows f (xs.forM g') (xs.forM g) := by
  induction xs with
  | nil => exact .pure _
  | cons x xs ih => exact (h x).bind fun _ => ih

theorem Follows.mapM {xs : List γ} {g' : γ → EStateM ε σ' α} {g : γ → EStateM ε σ α}
    (h : ∀ x, Follows f (g' x) (g x)) : Follows f (xs.mapM g') (xs.mapM g) := by
  induction xs with
  | nil => exact .pure _
  | cons x xs ih =>
    rw [List.mapM_cons, List.mapM_cons]
    exact (h x).bind fun _ => ih.bind fun _ => .pure _

end Loops

variable {β α : Type}

/-- The block that is given back by a request, if the request goes through. -/
def Request.gives? : Request → Option Nat
  | .realloc p _ | .free p | .freeSized p _ => some p
  | _ => none

/-- The heap of a backend of which nothing has been asked yet. -/
def Heap.watched (h : Heap β) : Heap (Watched β) :=
  ⟨h.memory, h.state, []⟩

namespace Sighting

variable {b : Backend β} {s : Sighting β} {h' : Heap β}

def gives? (s : Sighting β) : Option Nat :=
  s.request.gives?

/-- The block that a request for memory brought. -/
def brought (b : Backend β) (s : Sighting β) : Option Nat :=
  match s.request.ask b s.heap with
  | .ok r _ => r
  | .error _ _ => none

/-- A request for memory brought none. -/
def Failed (b : Backend β) (s : Sighting β) : Prop :=
  s.request.size?.isSome ∧ s.brought b = none

/-- If a block was brought, it is as the guarantee says, in the heap that it came with. -/
def Meets (b : Backend β) (guarantee : Sighting β → Nat → Heap β → Prop) (s : Sighting β) : Prop :=
  ∀ q h', s.request.ask b s.heap = .ok (some q) h' → guarantee s q h'

theorem brought_of_run {r : Option Nat} (hrun : s.request.ask b s.heap = .ok r h') :
    s.brought b = r := by
  unfold brought
  rw [hrun]

theorem meets_of_run {guarantee : Sighting β → Nat → Heap β → Prop} {q : Nat}
    (hrun : s.request.ask b s.heap = .ok (some q) h') :
    s.Meets b guarantee ↔ guarantee s q h' := by
  constructor
  · intro hmeets
    exact hmeets q h' hrun
  · intro hq q₁ h₁ hrun₁
    cases hrun.symm.trans hrun₁
    exact hq

end Sighting

namespace Conformance

section Laws

variable {h : Heap β} {stop : Violation → Heap β → Prop}

theorem ends_call {op : HeapOp β α} {ret : α → Heap β → Prop} :
    Ends (call op) h ret stop ↔ Ends op h ret fun fault => stop (.fault fault) := by
  unfold Ends call
  cases op h <;> rfl

/-- Nothing but a pointer will do. -/
theorem ends_expect {refused : Violation} {op : HeapOp β (Option Nat)} {ret : Nat → Heap β → Prop} :
    Ends (expect refused op) h ret stop ↔
      Ends (call op) h (fun r h' => match r with
        | some p => ret p h'
        | none => stop refused h') stop := by
  unfold expect
  rw [ends_bind]
  apply iff_of_eq
  congr 1
  funext r h'
  cases r with
  | none => exact propext ends_throw
  | some p => exact propext ends_pure

/-- A call that is written down, and what it came to. -/
theorem watched_ends (request : Request) (op : HeapOp β α) (w : Heap (Watched β)) :
    Ends (call (op.watch request)) w
      (fun a w' => w'.state.seen = ⟨w.unwatched, request⟩ :: w.state.seen ∧
        op w.unwatched = .ok a w'.unwatched)
      fun _ w' => w'.state.seen = ⟨w.unwatched, request⟩ :: w.state.seen ∧
        ¬ Returns op w.unwatched fun _ _ => True := by
  rw [ends_call, ends_watch]
  apply (Ends.self op w.unwatched).imp
  · intro a h' hrun
    exact ⟨rfl, hrun⟩
  · intro e h' hrun
    exact ⟨rfl, fun hreturns => hreturns.of_error hrun⟩

/-- The first bytes of a block are looked at, and nothing is changed. -/
theorem kept_ends (p n : Nat) (h : Heap β) :
    Ends (kept p n) h (fun _ h' => h' = h ∧ ∀ i < n, h.memory.byte (p + i) = pattern i)
      fun _ h' => h' = h ∧ ¬ ∀ i < n, h.memory.byte (p + i) = pattern i := by
  unfold kept
  apply Ends.imp (ends_tests (fun i => h.memory.byte (p + i) = pattern i) ?_)
  · rintro _ h' ⟨rfl, hall⟩
    exact ⟨rfl, fun i hi => hall i (List.mem_range.2 hi)⟩
  · rintro _ h' ⟨rfl, hfail⟩
    exact ⟨rfl, fun hall => hfail fun i hi => hall i (List.mem_range.1 hi)⟩
  · intro i _
    unfold memory
    rw [ends_bind, ends_bind, ends_get, ends_pure]
    by_cases hfound : pattern i = h.memory.byte (p + i)
    · rw [if_neg (not_not_intro hfound), ends_pure]
      exact ⟨rfl, hfound.symm⟩
    · rw [if_pos hfound, ends_throw]
      exact ⟨rfl, fun h => hfound h.symm⟩

end Laws

/-! ## Checks over a watched backend -/

section Watching

theorem follows_call {op' : HeapOp (Watched β) α} {op : HeapOp β α}
    (hop : Follows Heap.unwatched op' op) : Follows Heap.unwatched (call op') (call op) := by
  unfold Follows call
  intro h
  cases hrun : op' h with
  | ok a h' =>
    simp only
    rw [hop.of_ok hrun]
  | error e h' =>
    simp only
    rw [hop.of_error hrun]

theorem follows_expect (refused : Violation) {op' : HeapOp (Watched β) (Option Nat)}
    {op : HeapOp β (Option Nat)} (hop : Follows Heap.unwatched op' op) :
    Follows Heap.unwatched (expect refused op') (expect refused op) :=
  (follows_call hop).bind fun r => by
    cases r with
    | none => exact .throw _
    | some p => exact .pure p

theorem follows_kept (p n : Nat) :
    Follows Heap.unwatched (kept p n : Check (Watched β) Unit) (kept p n) := by
  apply Follows.forM
  intro i
  apply Follows.get
  exact fun h => .ite (.throw _) (.pure _)

theorem follows_alignment (b : Backend β) :
    Follows Heap.unwatched (alignment b.watched) (alignment b) := by
  refine (follows_call (follows_ofExcept _)).bind fun sizes => ?_
  refine (Follows.mapM fun size => ?_).bind fun ptrs => ?_
  · exact (follows_expect _ (follows_watch _ _)).bind fun p => .ite (.throw _) (.pure p)
  · exact .forM fun p => follows_call (follows_watch _ _)

theorem follows_edgeCaseSizes (b : Backend β) :
    Follows Heap.unwatched (edgeCaseSizes b.watched) (edgeCaseSizes b) :=
  .forM fun size => (follows_call (follows_watch _ _)).bind fun r => by
    cases r with
    | none => exact .pure _
    | some p => exact follows_call (follows_watch _ _)

theorem follows_sizeOverAlloc (b : SizedBackend β) :
    Follows Heap.unwatched (sizeOverAlloc b.watched) (sizeOverAlloc b) := by
  refine .forM fun size => ?_
  refine (follows_expect _ (follows_watch _ _)).bind fun p => ?_
  refine (follows_call (follows_query fun _ => rfl)).bind fun usable => ?_
  refine .ite (.throw _) ?_
  exact (follows_call (follows_mapMemory _)).bind fun _ => follows_call (follows_watch _ _)

theorem follows_zeroedAlloc (b : Backend β) :
    Follows Heap.unwatched (zeroedAlloc b.watched) (zeroedAlloc b) := by
  refine .forM fun size => ?_
  refine (follows_expect _ (follows_watch _ _)).bind fun p => ?_
  exact .get fun h => .ite (follows_call (follows_watch _ _)) (.throw _)

theorem follows_reallocPreserves (b : Backend β) :
    Follows Heap.unwatched (reallocPreserves b.watched) (reallocPreserves b) := by
  refine (follows_expect _ (follows_watch _ _)).bind fun p => ?_
  refine (follows_call (follows_mapMemory _)).bind fun _ => ?_
  refine (follows_expect _ (follows_watch _ _)).bind fun p₁ => ?_
  refine (follows_kept p₁ 16).bind fun _ => ?_
  refine (follows_expect _ (follows_watch _ _)).bind fun p₂ => ?_
  exact (follows_kept p₂ 4).bind fun _ => follows_call (follows_watch _ _)

end Watching

/-! ## What has been seen -/

/-- What a check finds wrong, if anything. -/
def verdict (check : Check β α) (h : Heap β) : Option Violation :=
  match check h with
  | .ok _ _ => none
  | .error e _ => some e

theorem verdict_of_ok {check : Check β α} {h h' : Heap β} {a : α} (hrun : check h = .ok a h') :
    verdict check h = none := by
  unfold verdict
  rw [hrun]

theorem verdict_of_error {check : Check β α} {h h' : Heap β} {e : Violation}
    (hrun : check h = .error e h') : verdict check h = some e := by
  unfold verdict
  rw [hrun]

/-- The requests that a check makes from a heap, in order, each with the heap that it found. -/
def sightings (check : Check (Watched β) α) (h : Heap β) : List (Sighting β) :=
  match check h.watched with
  | .ok _ w | .error _ w => w.state.seen.reverse

/-- What all that has been seen by the end is, all sightings are. -/
theorem forall_sightings {check' : Check (Watched β) α} {h : Heap β} {P : Sighting β → Prop}
    (hends : Ends check' h.watched (fun _ w => ∀ s ∈ w.state.seen, P s)
      fun _ w => ∀ s ∈ w.state.seen, P s) : ∀ s ∈ sightings check' h, P s := by
  unfold sightings
  cases hrun : check' h.watched with
  | ok a w => exact fun s hs => hends.of_ok hrun s (List.mem_reverse.1 hs)
  | error e w => exact fun s hs => hends.of_error hrun s (List.mem_reverse.1 hs)

/-- What is known of the end of a check over a watched backend is known of the end of the check, and
of what it has seen. -/
theorem ended {check' : Check (Watched β) α} {check : Check β α} {h : Heap β}
    {ret : α → Heap (Watched β) → Prop} {stop : Violation → Heap (Watched β) → Prop}
    (hfollows : Follows Heap.unwatched check' check) (hends : Ends check' h.watched ret stop) :
    (∃ a w, check h = .ok a w.unwatched ∧ sightings check' h = w.state.seen.reverse ∧ ret a w) ∨
      ∃ e w, check h = .error e w.unwatched ∧ sightings check' h = w.state.seen.reverse ∧
        stop e w := by
  unfold sightings
  cases hrun : check' h.watched with
  | ok a w => exact .inl ⟨a, w, hfollows.of_ok hrun, rfl, hends.of_ok hrun⟩
  | error e w => exact .inr ⟨e, w, hfollows.of_error hrun, rfl, hends.of_error hrun⟩

end Conformance

end HeapLedger
