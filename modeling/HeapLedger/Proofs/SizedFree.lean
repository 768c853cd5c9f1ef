import HeapLedger.Proofs.Atomicity
import HeapLedger.Proofs.Strategy.Traces
import HeapLedger.Proofs.Traffic

/-!
# `HeapLedger/Proofs/SizedFree.lean` — a free that is told the size

Whoever still knows how many bytes may be used at a pointer can say so when they free it. It makes
no difference: the same block goes back with the same size, and the ledger is the same afterwards.
If what they say is not so, the call stops before anything has happened, and the pointer can be
freed as before.

That the backend cannot tell either shows over a watched backend, whose diary is part of what is the
same.
-/

set_option autoImplicit false

namespace HeapLedger

variable {β : Type}

theorem giveBack_seen {b : Backend β} {h : Heap (Watched β)} {start size : Nat} :
    Ends (b.watched.giveBack start size) h
      (fun _ h' => h'.state.seen = h.sight (.freeSized start size)) fun _ _ => True := by
  unfold Backend.giveBack
  rw [ends_bind]
  apply ends_watch.2
  apply ends_of_run
  intro _ h' _
  exact ends_pure.2 rfl

namespace Ledger

variable {a : Adapter β} {hs : Holdings} {l : Ledger β} {p : Nat} {e : Holding}

theorem freeWithSize_same (hl : Sound a.contract.toCustody hs l) (hp : hs p = some e) :
    freeWithSize a.strategy (some p) e.usable l = free a.strategy (some p) l := by
  have htraced := a.traced hl.holds.valid (hl.holds.stands p e hp)
  have hheap : onHeap (a.strategy.freeWithSize p e.usable) l = onHeap (a.strategy.free p) l := by
    unfold onHeap
    rw [htraced.freeWithSize_eq, htraced.free_eq]
  exact run_bind_congr credit hheap

/-- A size that is not the block's own is found out before anything happens. -/
theorem freeWithSize_refused {wrong : Nat} (hl : Sound a.contract.toCustody hs l)
    (hp : hs p = some e) (hwrong : wrong ≠ e.usable) :
    freeWithSize a.strategy (some p) wrong l = .error (.fault (.wrongUsable wrong e.usable)) l := by
  have hstops := a.contract.freeWithWrongSize hl.holds.valid (hl.holds.stands p e hp) hwrong
  cases hrun : a.strategy.freeWithSize p wrong l.heap with
  | ok cost heap => exact (hstops.of_ok hrun).elim
  | error fault heap =>
    obtain ⟨rfl, rfl⟩ := hstops.of_error hrun
    apply run_bind_error
    unfold onHeap
    rw [hrun]

/-- The one thing that a free asks of the backend. -/
theorem free_seen {w : Ledger (Watched β)} (hw : Sound a.onWatched.contract.toCustody hs w)
    (hp : hs p = some e) :
    Returns (free a.onWatched.strategy (some p)) w fun _ w' =>
      w'.heap.state.seen = w.heap.sight (.freeSized (a.raw w.heap.unwatched p) e.footprint) := by
  have hvalid := hw.holds.valid
  have hstands := hw.holds.stands p e hp
  have htraced := a.onWatched.traced hvalid hstands
  have hseen : Ends (a.onWatched.strategy.free p) w.heap (fun _ heap =>
      heap.state.seen = w.heap.sight (.freeSized (a.raw w.heap.unwatched p) e.footprint))
      fun _ _ => True := by
    rw [← a.raw_onWatched, htraced.raw_eq]
    apply ends_of_run
    intro cost heap hrun
    rw [htraced.free_eq, a.backend_onWatched] at hrun
    exact giveBack_seen.of_ok hrun
  have hreturns := (a.onWatched.contract.free hvalid hstands).also hseen
  unfold free
  rw [Returns, ends_bind, ends_onHeap]
  apply hreturns.imp
  intro cost heap hfreed
  apply count_keeps
  intro w' hheap
  rw [hheap]
  exact hfreed.2

end Ledger

namespace Desk

/-- The block of `p` has gone back to the backend, which was asked for just that, with the size that
was booked for it. Nobody else is affected. -/
structure GivenBack (a : Adapter β) (p size : Nat) (w w' : Desk (Watched β)) : Prop where
  live : w'.live = w.live.erase p
  used : w'.ledger.usedMemory = w.ledger.usedMemory - UInt64.ofNat size
  asked : w'.ledger.heap.state.seen =
    w.ledger.heap.sight (.freeSized (a.raw w.ledger.heap.unwatched p) size)
  same : ∀ q ∈ w.live, q ≠ p → SameFor a.watched q w w'

section Frees

variable (host : Host) {a : Adapter β} {hs : Holdings} {d : Desk β} {p : Nat} {e : Holding}

theorem freed (hk : Keeps a.contract.toCustody hs d) (hp : hs p = some e) :
    ∃ l, Ledger.free a.strategy (some p) d.ledger = .ok () l ∧
      Ledger.Posts a.contract.toCustody hs (some p) none d.ledger l ∧
      d.answer a.strategy host (.free (some p)) = (.ok .done, l) ∧
      d.after a.strategy host (.call (.free (some p))) = ⟨l, d.live.erase p⟩ := by
  have hout : ∀ q ∈ some p, (hs q).isSome := by
    rintro q ⟨⟩
    simp [hp]
  obtain ⟨_, l, hrun, hpost⟩ := (Ledger.free_ends (k := a.contract) hk.sound hout).exists
  have hanswer : d.answer a.strategy host (.free (some p)) = (.ok .done, l) :=
    answer_ok (run_map_ok (fun _ => Reply.done) hrun)
  refine ⟨l, hrun, hpost, hanswer, ?_⟩
  rw [after_of_answer hanswer]
  show (⟨l, d.live \ (some p).toFinset ∪ (none : Option Nat).toFinset⟩ : Desk β) = _
  simp [Finset.sdiff_singleton_eq_erase]

theorem answer_freeWithSize (hk : Keeps a.contract.toCustody hs d) (hp : hs p = some e) :
    d.answer a.strategy host (.freeWithSize (some p) e.usable) =
      d.answer a.strategy host (.free (some p)) := by
  have hrun : (Action.freeWithSize (some p) e.usable).perform a.strategy host d.ledger =
      (Action.free (some p)).perform a.strategy host d.ledger :=
    run_map_congr (fun _ => Reply.done) (Ledger.freeWithSize_same hk.sound hp)
  unfold answer
  rw [hrun]

/-- What is given up, by a free with or without the size, depends on the ending alone. -/
theorem after_freeWithSize (hk : Keeps a.contract.toCustody hs d) (hp : hs p = some e) :
    d.after a.strategy host (.call (.freeWithSize (some p) e.usable)) =
      d.after a.strategy host (.call (.free (some p))) := by
  obtain ⟨l, -, -, hanswer, -⟩ := freed host hk hp
  have hsized := (answer_freeWithSize host hk hp).trans hanswer
  rw [after_of_answer hsized, after_of_answer hanswer]
  rfl

theorem answer_wrongSize {wrong : Nat} (hk : Keeps a.contract.toCustody hs d) (hp : hs p = some e)
    (hwrong : wrong ≠ e.usable) :
    d.answer a.strategy host (.freeWithSize (some p) wrong) =
      (.error (.fault (.wrongUsable wrong e.usable)), d.ledger) := by
  have hrun : (Action.freeWithSize (some p) wrong).perform a.strategy host d.ledger =
      .error (.fault (.wrongUsable wrong e.usable)) d.ledger :=
    run_map_error (fun _ => Reply.done) (Ledger.freeWithSize_refused hk.sound hp hwrong)
  unfold answer
  rw [hrun]

theorem after_wrongSize {wrong : Nat} (hk : Keeps a.contract.toCustody hs d) (hp : hs p = some e)
    (hwrong : wrong ≠ e.usable) :
    d.after a.strategy host (.call (.freeWithSize (some p) wrong)) = d :=
  after_still (answer_wrongSize host hk hp hwrong) rfl rfl

end Frees

section Watching

variable (a : Adapter β) {host : Host} {hs : Holdings} {w : Desk (Watched β)} {p : Nat} {e : Holding}

theorem givenBack (hk : Keeps a.onWatched.contract.toCustody hs w) (hp : hs p = some e) :
    GivenBack a p e.footprint w (w.after a.watched host (.call (.free (some p)))) := by
  rw [← a.strategy_onWatched]
  obtain ⟨l, hrun, hpost, -, hafter⟩ := freed host hk hp
  rw [hafter]
  refine ⟨rfl, used_erased hp hpost, (Ledger.free_seen hk.sound hp).of_ok hrun, ?_⟩
  intro q hq hne
  rw [← a.strategy_onWatched]
  exact hk.sameFor_erased hp hpost hq hne

/-- A lawful run over the watched backend keeps the invariant of the strategy over it. -/
theorem keeps_runWatched (hhost : host.Confined) {heap : Heap β} (hheap : a.survey.valid heap)
    (slots : Nat) {ms : List Move} (hms : Lawful a.strategy host (opening heap slots) ms) :
    ∃ hs, Keeps a.onWatched.contract.toCustody hs
      (run a.watched host (openingWatched heap slots) ms) := by
  have hvalid : a.onWatched.survey.valid ⟨heap.memory, heap.state, []⟩ := by
    rw [a.survey_onWatched]
    exact ⟨hheap, fun x hx => nomatch hx⟩
  have hlawful := (lawful_unwatched a.watched_imitates host (openingWatched heap slots) ms).1 hms
  rw [← a.strategy_onWatched] at hlawful ⊢
  obtain ⟨hs, hk, -⟩ := keeps_run a.onWatched hhost hvalid slots hlawful
  exact ⟨hs, hk⟩

/-- What a pointer stands for is not changed by watching. -/
theorem watched_holding {a : Adapter β} {hs' : Holdings}
    (hw : Keeps a.onWatched.contract.toCustody hs' w)
    (hk : Keeps a.contract.toCustody hs w.unwatched) (hp : hs p = some e) :
    ∃ e', hs' p = some e' ∧ e'.usable = e.usable ∧ e'.footprint = e.footprint := by
  have hlive : p ∈ w.live := (hk.live p).2 (by rw [hp]; rfl)
  obtain ⟨e', he'⟩ := hw.holding hlive
  have htraced := a.traced hk.sound.holds.valid (hk.sound.holds.stands p e hp)
  have htraced' := a.onWatched.traced hw.sound.holds.valid (hw.sound.holds.stands p e' he')
  have husable := htraced'.usableSize_eq
  have hsize := htraced'.footprint_eq
  rw [a.strategy_onWatched, a.watched_imitates.usableSize] at husable
  rw [a.strategy_onWatched, a.watched_imitates.footprint] at hsize
  refine ⟨e', he', ?_, ?_⟩
  · exact Except.ok.inj (husable.symm.trans htraced.usableSize_eq)
  · exact Except.ok.inj (hsize.symm.trans htraced.footprint_eq)

end Watching

/-- After every lawful run, with the same run over the watched backend beside it: a free that is
told how many bytes may be used at its pointer ends as a free without it, at the same desk, and the
backend has got the block back by the same request. If it is told anything else it stops with that,
and both desks are as they were. -/
theorem sized_free_is_free (a : Adapter β) {host : Host} (hhost : host.Confined) {heap : Heap β}
    (hheap : a.survey.valid heap) (slots : Nat) {ms : List Move}
    (hms : Lawful a.strategy host (opening heap slots) ms) :
    let d := run a.strategy host (opening heap slots) ms
    let w := run a.watched host (openingWatched heap slots) ms
    w.unwatched = d ∧ ∀ p ∈ d.live, ∃ usable size,
      Ledger.usableSize a.strategy p d.ledger = .ok usable d.ledger ∧
      Ledger.allocationSize a.strategy p d.ledger = .ok size d.ledger ∧
      ((d.answer a.strategy host (.free (some p))).1 = .ok .done ∧
        GivenBack a p size w (w.after a.watched host (.call (.free (some p))))) ∧
      (d.answer a.strategy host (.freeWithSize (some p) usable) =
          d.answer a.strategy host (.free (some p)) ∧
        d.after a.strategy host (.call (.freeWithSize (some p) usable)) =
          d.after a.strategy host (.call (.free (some p))) ∧
        w.after a.watched host (.call (.freeWithSize (some p) usable)) =
          w.after a.watched host (.call (.free (some p)))) ∧
      ∀ wrong, wrong ≠ usable →
        (d.answer a.strategy host (.freeWithSize (some p) wrong)).1 =
            .error (.fault (.wrongUsable wrong usable)) ∧
          d.after a.strategy host (.call (.freeWithSize (some p) wrong)) = d ∧
          w.after a.watched host (.call (.freeWithSize (some p) wrong)) = w := by
  intro d w
  have hsame : w.unwatched = d :=
    unwatched_run a.watched_imitates host (openingWatched heap slots) ms
  obtain ⟨hs, hk, -⟩ := keeps_run a hhost hheap slots hms
  obtain ⟨hs', hw⟩ := keeps_runWatched a hhost hheap slots hms
  refine ⟨hsame, fun p hp => ?_⟩
  obtain ⟨e, he, husable, hsize⟩ := hk.answers hp
  obtain ⟨e', he', husable', hsize'⟩ := watched_holding hw (hsame ▸ hk) he
  obtain ⟨l, -, -, hanswer, -⟩ := freed host hk he
  have hsized := after_freeWithSize host hw he'
  rw [husable', a.strategy_onWatched] at hsized
  refine ⟨e.usable, e.footprint, husable, hsize, ⟨?_, ?_⟩, ⟨?_, ?_, hsized⟩, ?_⟩
  · rw [hanswer]
  · rw [← hsize']
    exact givenBack a hw he'
  · exact answer_freeWithSize host hk he
  · exact after_freeWithSize host hk he
  · intro wrong hwrong
    have hstill := after_wrongSize host hw he' (by rw [husable']; exact hwrong)
    rw [a.strategy_onWatched] at hstill
    refine ⟨?_, after_wrongSize host hk he hwrong, hstill⟩
    rw [answer_wrongSize host hk he hwrong]

/-- Ten usable bytes at a multiple of 64, in a block of 98. -/
theorem sized_free_is_free_arena :
    let a := Adapter.arenaHeadered Arena.honest_default
    let d := run a.strategy .unsupported (opening arenaHeap 4) (arenaVisit (Arena.base + 16))
    let w := run a.watched .unsupported (openingWatched arenaHeap 4) (arenaVisit (Arena.base + 16))
    let p := Arena.base + 64
    p ∈ d.live ∧
      GivenBack a p 98 w (w.after a.watched .unsupported (.call (.freeWithSize (some p) 10))) ∧
      d.after a.strategy .unsupported (.call (.freeWithSize (some p) 11)) = d := by
  intro a d w p
  have hp : p ∈ d.live := by decide +kernel
  have husable : a.strategy.usableSize p d.ledger.heap = .ok 10 := by decide +kernel
  have hsize : a.strategy.footprint p d.ledger.heap = .ok 98 := by decide +kernel
  obtain ⟨usable, size, husable', hsize', ⟨-, hfree⟩, ⟨-, -, hsized⟩, hwrong⟩ :=
    (sized_free_is_free a Host.confined_unsupported arenaHeap_valid 4 lawful_arenaVisit).2 p hp
  rw [Ledger.usableSize_eq husable] at husable'
  rw [Ledger.allocationSize_eq hsize] at hsize'
  have hten : 10 = usable := (EStateM.Result.ok.inj husable').1
  have hcost : 98 = size := (EStateM.Result.ok.inj hsize').1
  rw [← hten] at hsized hwrong
  rw [← hcost] at hfree
  refine ⟨hp, ?_, (hwrong 11 (by decide)).2.1⟩
  rw [hsized]
  exact hfree

end Desk

end HeapLedger
