import Mathlib.Algebra.BigOperators.Group.Finset.Basic
import Mathlib.Data.Finset.Option
import HeapLedger.Proofs.Ledger.Perform

/-!
# `HeapLedger/Proofs/Desk.lean` — a ledger and the pointers that are out

A desk is a ledger together with the pointers that its callers hold. They are known from the calls
alone: a pointer is out from the reply that hands it out to the ending that gives it up. What
happens at a desk is a list of moves. Threads call the ledger, take turns, come into being and end,
and between calls anybody writes to memory. Lawful moves are those that keep to two rules: pass only
pointers that are out, and write only to the usable bytes behind them. A handler that unwinds ends
the call and not the run.

The invariant of all lawful runs is `Desk.Keeps`: behind every pointer that is out, and no other,
stands a holding, and `usedMemory` is the sum of what they are booked for. One move keeps it
(`Keeps.after`) and leaves all pointers that it does not give up standing for what they stood for;
runs follow by induction (`Keeps.run`).
-/

set_option autoImplicit false

namespace HeapLedger

/-- What a holding is booked for, and nothing where there is none. -/
def Holdings.cost (hs : Holdings) (p : Nat) : Nat :=
  ((hs p).map Holding.footprint).getD 0

/-- A ledger, and the pointers that are out. -/
structure Desk (β : Type) where
  ledger : Ledger β
  live : Finset Nat

namespace Desk

/-- What happens at a desk. -/
inductive Move where
  | call (action : Action)
  /-- Callers write to their blocks. -/
  | write (memory : Memory)
  | switch (thread : Nat)
  /-- A thread touches a counter somewhere else for the first time. -/
  | claim (thread : Nat)
  | retire (thread : Nat)

variable {β : Type}

/-- A desk over a heap where nothing has happened. -/
def opening (heap : Heap β) (slots : Nat) : Desk β :=
  ⟨.new heap slots, ∅⟩

section Moves

variable (s : Strategy β) (host : Host) (d : Desk β)

/-- A call, made: how it ends, and the ledger by then. -/
def answer (a : Action) : Ending × Ledger β :=
  match a.perform s host d.ledger with
  | .ok r l => (.ok r, l)
  | .error e l => (.error e, l)

/-- The pointer that a move gives up. -/
def given : Move → Option Nat
  | .call a => a.gone (d.answer s host a).1
  | _ => none

/-- The pointer that a move hands out. -/
def handed : Move → Option Nat
  | .call a => (d.answer s host a).1.came
  | _ => none

/-- The ledger after a move. -/
def turn : Move → Ledger β
  | .call a => (d.answer s host a).2
  | .write m => { d.ledger with heap := ⟨m, d.ledger.heap.state⟩ }
  | .switch thread => { d.ledger with caller := thread }
  | .claim thread => { d.ledger with threads := d.ledger.threads.claim thread }
  | .retire thread => { d.ledger with threads := d.ledger.threads.retire thread }

/-- The desk after a move. -/
def after (m : Move) : Desk β :=
  ⟨d.turn s host m, (d.live \ (d.given s host m).toFinset) ∪ (d.handed s host m).toFinset⟩

/-- The move keeps to the rules: pointers that are passed are out, and bytes that are written are
usable behind pointers that are. -/
def Allows : Move → Prop
  | .call a => a.booked = true ∧ ∀ p ∈ a.pointer?, p ∈ d.live
  | .write m => ∀ x, m.byte x ≠ d.ledger.heap.memory.byte x →
      ∃ p ∈ d.live, ∃ usable, s.usableSize p d.ledger.heap = .ok usable ∧ p ≤ x ∧ x < p + usable
  | _ => True

def run : Desk β → List Move → Desk β
  | d, [] => d
  | d, m :: ms => run (d.after s host m) ms

/-- Every move keeps to the rules where it is made. -/
def Lawful : Desk β → List Move → Prop
  | _, [] => True
  | d, m :: ms => d.Allows s m ∧ Lawful (d.after s host m) ms

/-- No move gives this pointer up. -/
def Spares (p : Nat) : Desk β → List Move → Prop
  | _, [] => True
  | d, m :: ms => d.given s host m ≠ some p ∧ Spares p (d.after s host m) ms

end Moves

section Calls

variable {s : Strategy β} {host : Host} {d : Desk β} {a : Action} {e : Ending} {l : Ledger β}

/-- The desk after a call, by how the call has ended. -/
theorem after_of_answer (h : d.answer s host a = (e, l)) :
    d.after s host (.call a) = ⟨l, (d.live \ (a.gone e).toFinset) ∪ e.came.toFinset⟩ := by
  unfold after turn given handed
  simp only [h]

theorem after_still (h : d.answer s host a = (e, l)) (hgone : a.gone e = none)
    (hcame : e.came = none) : d.after s host (.call a) = ⟨l, d.live⟩ := by
  rw [after_of_answer h, hgone, hcame]
  simp

end Calls

/-! ## The invariant -/

/-- Behind the pointers that are out stand the holdings of the table, and `usedMemory` is the sum of
what they are booked for. -/
structure Keeps (k : Custody β) (hs : Holdings) (d : Desk β) : Prop where
  sound : Ledger.Sound k hs d.ledger
  live : ∀ p, p ∈ d.live ↔ (hs p).isSome
  used : d.ledger.usedMemory = UInt64.ofNat (∑ p ∈ d.live, hs.cost p)

theorem keeps_opening {k : Custody β} {heap : Heap β} (hheap : k.valid heap) (slots : Nat) :
    Keeps k (fun _ => none) (opening heap slots) where
  sound := by
    refine ⟨⟨hheap, ?_, ?_⟩, Counter.tidy_zero slots _⟩
    · intro p d hp
      cases hp
    · intro p q d e hp
      cases hp
  live := by simp [opening]
  used := rfl

/-! ## Sums over the pointers that are out -/

section Sums

variable {hs : Holdings} {live : Finset Nat} {gone : Option Nat} {came : Option (Nat × Holding)}

theorem mem_kept {p : Nat} : p ∈ live \ gone.toFinset ↔ p ∈ live ∧ gone ≠ some p := by
  rw [Finset.mem_sdiff, Option.mem_toFinset, Option.mem_def]

theorem sum_kept (hgone : ∀ p ∈ gone, p ∈ live) :
    ∑ p ∈ live \ gone.toFinset, hs.cost p + ((gone.bind hs).map Holding.footprint).getD 0 =
      ∑ p ∈ live, hs.cost p := by
  cases gone with
  | none => simp
  | some p =>
    rw [Option.toFinset_some, Finset.sdiff_singleton_eq_erase]
    exact Finset.sum_erase_add live hs.cost (hgone p rfl)

/-- Entries that are neither given up nor handed out are what they were. -/
theorem exchange_kept (hfresh : ∀ q e, came = some (q, e) → gone ≠ some q → hs q = none) {p : Nat}
    (hp : (hs p).isSome) (hgone : gone ≠ some p) : exchange hs gone came p = hs p := by
  refine exchange_of_ne hgone fun hcame => ?_
  obtain ⟨⟨q, e⟩, rfl, rfl⟩ := Option.map_eq_some_iff.1 hcame
  rw [hfresh q e rfl hgone] at hp
  cases hp

theorem sum_exchange (hlive : ∀ p, p ∈ live ↔ (hs p).isSome)
    (hfresh : ∀ q e, came = some (q, e) → gone ≠ some q → hs q = none) :
    ∑ p ∈ (live \ gone.toFinset) ∪ (came.map Prod.fst).toFinset,
        Holdings.cost (exchange hs gone came) p =
      ∑ p ∈ live \ gone.toFinset, hs.cost p + (came.map fun c => c.2.footprint).getD 0 := by
  have hkept : ∑ p ∈ live \ gone.toFinset, Holdings.cost (exchange hs gone came) p =
      ∑ p ∈ live \ gone.toFinset, hs.cost p := by
    refine Finset.sum_congr rfl fun p hp => ?_
    obtain ⟨hp, hgone⟩ := mem_kept.1 hp
    unfold Holdings.cost
    rw [exchange_kept hfresh ((hlive p).1 hp) hgone]
  cases came with
  | none => simpa using hkept
  | some c =>
    obtain ⟨q, e⟩ := c
    have hq : q ∉ live \ gone.toFinset := by
      intro hq
      obtain ⟨hq, hgone⟩ := mem_kept.1 hq
      have hsome := (hlive q).1 hq
      rw [hfresh q e rfl hgone] at hsome
      cases hsome
    have hcost : Holdings.cost (exchange hs gone (some (q, e))) q = e.footprint := by
      unfold Holdings.cost
      rw [exchange_came]
      rfl
    rw [Option.map_some, Option.toFinset_some, Finset.union_comm, ← Finset.insert_eq,
      Finset.sum_insert hq, hcost, hkept, Nat.add_comm]
    rfl

end Sums

/-! ## Moves keep the invariant -/

section Steps

variable {s : Strategy β} {k : s.Contract} {hs hs' : Holdings} {host : Host} {d d' : Desk β}
  {l : Ledger β} {gone : Option Nat} {came : Option (Nat × Holding)}

theorem Keeps.holding {k : Custody β} (hk : Keeps k hs d) {p : Nat} (hp : p ∈ d.live) :
    ∃ e, hs p = some e :=
  Option.isSome_iff_exists.1 ((hk.live p).1 hp)

/-- A call that keeps to the rules has its outcome. -/
theorem Keeps.comes (hk : Keeps k.toCustody hs d) (hhost : host.Confined) {a : Action}
    (ha : d.Allows s (.call a)) : Action.Comes k host hs d.ledger a :=
  Action.perform_ends hhost hk.sound ha.1 fun p hp => (hk.live p).1 (ha.2 p hp)

theorem Keeps.still (hk : Keeps k.toCustody hs d) (hl : Ledger.Sound k.toCustody hs l)
    (hused : l.usedMemory = d.ledger.usedMemory) : Keeps k.toCustody hs ⟨l, d.live⟩ :=
  ⟨hl, hk.live, hused.trans hk.used⟩

theorem Keeps.posted (hk : Keeps k.toCustody hs d) (hgone : ∀ p ∈ gone, p ∈ d.live)
    (hpost : Ledger.Posts k.toCustody hs gone came d.ledger l) :
    Keeps k.toCustody (exchange hs gone came)
      ⟨l, (d.live \ gone.toFinset) ∪ (came.map Prod.fst).toFinset⟩ := by
  have hfresh := hpost.deal.fresh
  refine ⟨hpost.sound, ?_, ?_⟩
  · intro p
    rw [Finset.mem_union, mem_kept, Option.mem_toFinset]
    constructor
    · rintro (⟨hp, hne⟩ | hp)
      · rw [hk.live] at hp
        rw [exchange_kept hfresh hp hne]
        exact hp
      · obtain ⟨⟨q, e⟩, rfl, rfl⟩ := Option.map_eq_some_iff.1 hp
        rw [exchange_came]
        rfl
    · intro hp
      obtain ⟨e, he⟩ := Option.isSome_iff_exists.1 hp
      rcases exchange_eq_some he with rfl | ⟨hne, hp⟩
      · exact .inr rfl
      · refine .inl ⟨?_, hne⟩
        rw [hk.live, hp]
        rfl
  · have hcame : Ledger.booked (came.map Prod.snd) =
        UInt64.ofNat ((came.map fun c => c.2.footprint).getD 0) := by
      cases came with
      | none => rfl
      | some c => rfl
    -- What is booked for `gone` is a summand of the old sum, so taking it off leaves the others.
    rw [hpost.used, hk.used, ← sum_kept hgone, sum_exchange hk.live hfresh, hcame,
      UInt64.ofNat_add, UInt64.ofNat_add]
    show UInt64.ofNat _ + Ledger.booked (gone.bind hs) - Ledger.booked (gone.bind hs) + _ = _
    rw [UInt64.add_sub_cancel]

/-- What is left of the table and of the backend's blocks from one desk to another, if the pointers
that are `spared` are not given up in between. -/
structure Continues (k : s.Contract) (spared : Nat → Prop) (hs hs' : Holdings) (d d' : Desk β) :
    Prop where
  keeps : Keeps k.toCustody hs' d'
  same : ∀ p ∈ d.live, spared p → hs' p = hs p
  tight : k.honours → k.Tight hs d.ledger.heap → k.Tight hs' d'.ledger.heap

theorem answer_outcome {a : Action} (h : Action.Comes k host hs d.ledger a) :
    Action.Outcome k hs d.ledger a (d.answer s host a).1 (d.answer s host a).2 := by
  unfold answer
  cases hrun : a.perform s host d.ledger with
  | ok r l => exact h.of_ok hrun
  | error e l => exact h.of_error hrun

/-- What holds of a call however it ends holds of what it hands out and of the ledger by then. -/
theorem handed_of_ends {a : Action} {P : Option Nat → Ledger β → Prop}
    (h : Ends (a.perform s host) d.ledger (fun r => P (Ending.came (.ok r)))
      fun e => P (Ending.came (.error e))) :
    P (d.handed s host (.call a)) (d.turn s host (.call a)) := by
  show P (d.answer s host a).1.came (d.answer s host a).2
  unfold answer
  cases hrun : a.perform s host d.ledger with
  | ok r l => exact h.of_ok hrun
  | error e l => exact h.of_error hrun

theorem Keeps.of_outcome {a : Action} {e : Ending} (hk : Keeps k.toCustody hs d)
    (hptr : ∀ p ∈ a.pointer?, p ∈ d.live) (ho : Action.Outcome k hs d.ledger a e l) :
    ∃ hs', Continues k (fun p => a.gone e ≠ some p) hs hs' d
      ⟨l, (d.live \ (a.gone e).toFinset) ∪ e.came.toFinset⟩ := by
  have hgone : ∀ p ∈ a.gone e, p ∈ d.live := fun p hp =>
    hptr p (Action.pointer_of_gone hp)
  cases ho with
  | posted came hcame hpost =>
    refine ⟨exchange hs (a.gone e) came, ?_, ?_, fun _ ht => hpost.deal.tight ht⟩
    · rw [← hcame.1]
      exact hk.posted hgone hpost
    · intro p hp hne
      exact exchange_kept hpost.deal.fresh ((hk.live p).1 hp) hne
  | @advised p hint n b m _ haction hp hm hheap hcounter hthreads =>
    have hnone : a.gone (.ok (.bytes n)) = none := by
      rw [haction]
      rfl
    -- Pages are taken back within usable bytes, which is no worse than a write by their holder.
    obtain ⟨hholds, hlive⟩ := hk.sound.holds.write fun x hx => ⟨p, b, hp, hm x hx⟩
    refine ⟨hs, ?_, fun _ _ _ => rfl, ?_⟩
    · rw [hnone]
      simp only [Option.toFinset_none, Finset.sdiff_empty, Ending.came, Finset.union_empty]
      refine hk.still ⟨?_, ?_⟩ ?_
      · rw [hheap]
        exact hholds
      · rw [hcounter, hthreads]
        exact hk.sound.tidy
      · rw [Ledger.usedMemory, hcounter, hthreads]
        rfl
    · intro _ ht q x hq
      rw [hheap, hlive] at hq
      exact ht q x hq
  | @astray halt _ hforfeit h =>
    have hnone : a.gone (.error halt) = none := hforfeit
    -- The block that nobody holds spoils tightness, but only a backend without honour loses one.
    refine ⟨hs, ?_, fun _ _ _ => rfl, fun hhonours => absurd hhonours h.honours⟩
    rw [hnone]
    simp only [Option.toFinset_none, Finset.sdiff_empty, Ending.came, Finset.union_empty]
    exact hk.still (h.sound hk.sound) h.used

/-- The pointer that a call hands out, what stands behind it, and how it was counted. -/
theorem Keeps.handed {a : Action} {p : Nat} (hk : Keeps k.toCustody hs d) (hhost : host.Confined)
    (ha : d.Allows s (.call a)) (hp : d.handed s host (.call a) = some p) :
    ∃ e, Ledger.Posts k.toCustody hs (d.given s host (.call a)) (some (p, e)) d.ledger
        (d.turn s host (.call a)) ∧
      (∀ usable ∈ (d.answer s host a).1.told, usable = e.usable) ∧
      Keeps k.toCustody (exchange hs (d.given s host (.call a)) (some (p, e)))
        (d.after s host (.call a)) := by
  have ho := answer_outcome (hk.comes hhost ha)
  unfold after
  unfold given turn
  simp only [hp]
  change (d.answer s host a).1.came = some p at hp
  generalize d.answer s host a = r at *
  obtain ⟨e, l⟩ := r
  cases ho with
  | posted came hcame hpost =>
    obtain ⟨⟨q, x⟩, rfl, hq⟩ := Option.map_eq_some_iff.1 (hcame.1.trans hp)
    obtain rfl : q = p := hq
    have hgone : ∀ p ∈ a.gone e, p ∈ d.live := fun p hp => ha.2 p (Action.pointer_of_gone hp)
    exact ⟨x, hpost, hcame.2 (q, x) rfl, hk.posted hgone hpost⟩
  | advised => cases hp
  | astray => cases hp

/-- A move that hands nothing out and gives nothing up leaves the pointers that are out alone. -/
theorem Keeps.quiet {m : Move} (hk : Keeps k.toCustody hs d) (hgiven : d.given s host m = none)
    (hhanded : d.handed s host m = none)
    (hl : Ledger.Sound k.toCustody hs (d.turn s host m))
    (hused : (d.turn s host m).usedMemory = d.ledger.usedMemory)
    (hlive : k.live (d.turn s host m).heap = k.live d.ledger.heap) :
    ∃ hs', Continues k (fun p => d.given s host m ≠ some p) hs hs' d (d.after s host m) := by
  refine ⟨hs, ?_, fun _ _ _ => rfl, ?_⟩
  · have hsame : d.after s host m = ⟨d.turn s host m, d.live⟩ := by
      unfold after
      rw [hgiven, hhanded]
      simp
    rw [hsame]
    exact hk.still hl hused
  · intro _ ht q x hq
    change k.live (d.turn s host m).heap q = some x at hq
    rw [hlive] at hq
    exact ht q x hq

/-- A lawful move keeps the invariant. -/
theorem Keeps.after (hk : Keeps k.toCustody hs d) (hhost : host.Confined) {m : Move}
    (hm : d.Allows s m) :
    ∃ hs', Continues k (fun p => d.given s host m ≠ some p) hs hs' d (d.after s host m) := by
  cases m with
  | call a =>
    exact hk.of_outcome hm.2 (answer_outcome (hk.comes hhost hm))
  | write m =>
    obtain ⟨hholds, hlive⟩ := hk.sound.holds.write fun x hx => by
      obtain ⟨p, hp, usable, husable, hin⟩ := hm x hx
      obtain ⟨e, he⟩ := hk.holding hp
      have hstands := k.usableSize hk.sound.holds.valid (hk.sound.holds.stands p e he)
      rw [hstands] at husable
      cases husable
      exact ⟨p, e, he, hin⟩
    exact hk.quiet rfl rfl ⟨hholds, hk.sound.tidy⟩ rfl hlive
  | switch thread => exact hk.quiet rfl rfl ⟨hk.sound.holds, hk.sound.tidy⟩ rfl rfl
  | claim thread =>
    refine hk.quiet rfl rfl ⟨hk.sound.holds, hk.sound.tidy.claim thread⟩ ?_ rfl
    exact hk.sound.tidy.total_claim thread
  | retire thread => exact hk.quiet rfl rfl ⟨hk.sound.holds, hk.sound.tidy⟩ rfl rfl

/-- Lawful runs keep the invariant. -/
theorem Keeps.run (hk : Keeps k.toCustody hs d) (hhost : host.Confined) {ms : List Move}
    (hms : Lawful s host d ms) :
    ∃ hs', Continues k (fun p => Spares s host p d ms) hs hs' d (Desk.run s host d ms) := by
  induction ms generalizing d hs with
  | nil => exact ⟨hs, hk, fun _ _ _ => rfl, fun _ => id⟩
  | cons m ms ih =>
    obtain ⟨hs₁, h₁⟩ := hk.after hhost hms.1
    obtain ⟨hs₂, h₂⟩ := ih h₁.keeps hms.2
    refine ⟨hs₂, h₂.keeps, ?_, fun hhonours ht => h₂.tight hhonours (h₁.tight hhonours ht)⟩
    -- A pointer that is spared is still out after the first move, so the rest applies to it.
    intro p hp hms
    obtain ⟨hgiven, hspared⟩ := hms
    have hsame := h₁.same p hp hgiven
    have hout : p ∈ (d.after s host m).live := by
      rw [h₁.keeps.live, hsame]
      exact (hk.live p).1 hp
    rw [h₂.same p hout hspared, hsame]

end Steps

end Desk

end HeapLedger
