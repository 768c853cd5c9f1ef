import HeapLedger.Proofs.Accounting

/-!
# `HeapLedger/Proofs/Atomicity.lean` — failure changes nothing

A call can fail before the backend is asked, when it refuses, or between two requests to it. A
caller who is told of the failure need not know which: the count, the pointers that are out, their
sizes, the content of their blocks and the backend's blocks are what they were.

There is one exception, and it is the caller's to avoid. A resize of a block to a size that is
refused gives the block up, and says so with the size. Resizing by layout is not subject to it: the
size is tested before anything that would give the block up.
-/

set_option autoImplicit false

namespace HeapLedger

variable {β : Type}

/-- Nothing is forfeited but for a size that is refused. -/
theorem Action.forfeit_eq_none {a : Action}
    (h : ∀ mode p size, a = .realloc mode (some p) size ∨ a = .reallocUsable mode (some p) size →
      Size.tooLarge size = false) : a.forfeit = none := by
  unfold forfeit
  split
  · rename_i mode ptr size
    cases ptr with
    | none => exact ite_self none
    | some p => rw [h mode p size (.inl rfl), if_neg Bool.false_ne_true]
  · rename_i mode ptr size
    cases ptr with
    | none => exact ite_self none
    | some p => rw [h mode p size (.inr rfl), if_neg Bool.false_ne_true]
  · rfl

namespace Desk

/-- The holder of `p` finds the same sizes and the same content at both desks. -/
def SameFor (s : Strategy β) (p : Nat) (d d' : Desk β) : Prop :=
  ∃ usable size,
    Ledger.usableSize s p d.ledger = .ok usable d.ledger ∧
    Ledger.usableSize s p d'.ledger = .ok usable d'.ledger ∧
    Ledger.allocationSize s p d.ledger = .ok size d.ledger ∧
    Ledger.allocationSize s p d'.ledger = .ok size d'.ledger ∧
    Memory.Agree p usable d.ledger.heap.memory d'.ledger.heap.memory

/-- Nothing has changed that a caller or the backend can see. -/
structure Untouched (a : Adapter β) (d d' : Desk β) : Prop where
  used : d'.ledger.usedMemory = d.ledger.usedMemory
  live : d'.live = d.live
  same : ∀ p ∈ d.live, SameFor a.strategy p d d'
  blocks : a.survey.live d'.ledger.heap = a.survey.live d.ledger.heap

/-- Nothing has changed but that the block of `p` is gone. -/
structure Forfeited (a : Adapter β) (p : Nat) (d d' : Desk β) : Prop where
  used : ∃ size, Ledger.allocationSize a.strategy p d.ledger = .ok size d.ledger ∧
    d'.ledger.usedMemory = d.ledger.usedMemory - UInt64.ofNat size
  live : d'.live = d.live.erase p
  same : ∀ q ∈ d.live, q ≠ p → SameFor a.strategy q d d'
  blocks : ∀ q, a.survey.live d'.ledger.heap q =
    if q = a.raw d.ledger.heap p then none else a.survey.live d.ledger.heap q

section Same

variable {s : Strategy β} {k : s.Contract} {hs hs' : Holdings} {d d' : Desk β} {p : Nat}
  {gone : Option Nat} {came : Option (Nat × Holding)}

/-- A pointer that stands for the same at both desks is the same for its holder, if the block
behind it has kept its content. -/
theorem sameFor_of_keeps (hk : Keeps k.toCustody hs d) (hk' : Keeps k.toCustody hs' d')
    (hp : p ∈ d.live) (hsame : hs' p = hs p)
    (hkept : ∀ e, hs p = some e →
      Memory.Agree e.start e.lease.bytes d.ledger.heap.memory d'.ledger.heap.memory) :
    SameFor s p d d' := by
  obtain ⟨e, he, husable, hsize⟩ := hk.answers hp
  have hp' : p ∈ d'.live := by
    rw [hk'.live, hsame, he]
    rfl
  obtain ⟨e', he', husable', hsize'⟩ := hk'.answers hp'
  obtain rfl : e = e' := Option.some.inj (he.symm.trans (hsame.symm.trans he'))
  refine ⟨e.usable, e.footprint, husable, husable', hsize, hsize', ?_⟩
  obtain ⟨_, hlo, hhi⟩ := hk.sound.holds.inside he
  exact (hkept e he).narrow hlo hhi

theorem sameFor_of_posts (hk : Keeps k.toCustody hs d) (hk' : Keeps k.toCustody hs' d')
    (hpost : Ledger.Posts k.toCustody hs gone came d.ledger d'.ledger) (hp : p ∈ d.live)
    (hgone : gone ≠ some p) (hsame : hs' p = hs p) : SameFor s p d d' :=
  sameFor_of_keeps hk hk' hp hsame fun _ he => hpost.deal.kept hk.sound.holds he hgone

/-! A pointer is given up, and nothing else happens. -/

variable {l : Ledger β} {e : Holding}

theorem Keeps.erased (hk : Keeps k.toCustody hs d) (hp : hs p = some e)
    (hpost : Ledger.Posts k.toCustody hs (some p) none d.ledger l) :
    Keeps k.toCustody (exchange hs (some p) none) ⟨l, d.live.erase p⟩ := by
  have hout : ∀ q ∈ some p, q ∈ d.live := by
    rintro q ⟨⟩
    simp [hk.live, hp]
  have hposted := hk.posted hout hpost
  simpa [Finset.sdiff_singleton_eq_erase] using hposted

theorem Keeps.sameFor_erased (hk : Keeps k.toCustody hs d) (hp : hs p = some e)
    (hpost : Ledger.Posts k.toCustody hs (some p) none d.ledger l) {q : Nat} (hq : q ∈ d.live)
    (hne : q ≠ p) : SameFor s q d ⟨l, d.live.erase p⟩ := by
  have hgone : some p ≠ some q := by simpa using hne.symm
  exact sameFor_of_posts hk (hk.erased hp hpost) hpost hq hgone (exchange_of_ne hgone (by simp))

end Same

theorem used_erased {k : Custody β} {hs : Holdings} {l l' : Ledger β} {p : Nat} {e : Holding}
    (hp : hs p = some e) (hpost : Ledger.Posts k hs (some p) none l l') :
    l'.usedMemory = l.usedMemory - UInt64.ofNat e.footprint := by
  have hused := hpost.used
  rw [Option.bind_some, hp, Option.map_none, Ledger.booked_none, UInt64.add_zero] at hused
  exact hused

section Replies

variable {s : Strategy β} {d : Desk β} {host : Host} {c : Action} {r : Reply Nat} {l : Ledger β}

theorem answer_ok (hrun : c.perform s host d.ledger = .ok r l) :
    d.answer s host c = (.ok r, l) := by
  unfold answer
  rw [hrun]

theorem answer_error {e : Halt} (hrun : c.perform s host d.ledger = .error e l) :
    d.answer s host c = (.error e, l) := by
  unfold answer
  rw [hrun]

theorem perform_of_answer (hanswer : (d.answer s host c).1 = .ok r) :
    ∃ l, c.perform s host d.ledger = .ok r l := by
  unfold answer at hanswer
  cases hrun : c.perform s host d.ledger with
  | ok r' l =>
    rw [hrun] at hanswer
    cases hanswer
    exact ⟨l, rfl⟩
  | error e l =>
    rw [hrun] at hanswer
    cases hanswer

end Replies

section Failing

variable {a : Adapter β} {hs : Holdings} {d : Desk β} {host : Host} {c : Action} {r : Reply Nat}
  {l : Ledger β} {p size : Nat}

theorem came_of_fails {e : Ending} (h : c.fails e = true) : e.came = none := by
  unfold Action.fails at h
  split at h
  · rfl
  · rfl
  · rfl
  · cases h

/-- A reply that reports failure posts no more than the call forfeits. -/
theorem posts_of_fails (hk : Keeps a.contract.toCustody hs d) (hhost : host.Confined)
    (hc : d.Allows a.strategy (.call c))
    (hrun : c.perform a.strategy host d.ledger = .ok r l) (hfails : c.fails (.ok r) = true) :
    Ledger.Posts a.contract.toCustody hs c.forfeit none d.ledger l ∧
      d.after a.strategy host (.call c) = ⟨l, d.live \ c.forfeit.toFinset⟩ := by
  have hcomes := hk.comes hhost hc
  have hgone : c.gone (.ok r) = c.forfeit := if_pos hfails
  have hnone : Ending.came (.ok r) = none := came_of_fails hfails
  have hanswer := answer_ok hrun
  constructor
  · cases hcomes.of_ok hrun with
    | posted came hcame hpost =>
      -- A reply that reports failure carries no pointer, so none came.
      have hempty : came = none := Option.map_eq_none_iff.1 (hcame.1.trans hnone)
      rw [hgone, hempty] at hpost
      exact hpost
    | advised => cases hfails
  · rw [after_of_answer hanswer, hgone, hnone, Option.toFinset_none, Finset.union_empty]

/-- Where nothing is posted, nothing has changed. -/
theorem untouched_of_posts (hk : Keeps a.contract.toCustody hs d)
    (hpost : Ledger.Posts a.contract.toCustody hs none none d.ledger l) :
    Untouched a d ⟨l, d.live⟩ := by
  have hk' : Keeps a.contract.toCustody hs ⟨l, d.live⟩ := by
    refine hk.still ?_ ?_
    · simpa using hpost.sound
    · simpa using hpost.used
  refine ⟨?_, rfl, fun p hp => ?_, ?_⟩
  · simpa using hpost.used
  · exact sameFor_of_posts hk hk' hpost hp (by simp) rfl
  · rw [← a.contract_survey]
    simpa using hpost.deal.trade.live

theorem untouched_of_fails (hk : Keeps a.contract.toCustody hs d) (hhost : host.Confined)
    (hc : d.Allows a.strategy (.call c))
    (hrun : c.perform a.strategy host d.ledger = .ok r l) (hfails : c.fails (.ok r) = true)
    (hforfeit : c.forfeit = none) : Untouched a d (d.after a.strategy host (.call c)) := by
  obtain ⟨hpost, hafter⟩ := posts_of_fails hk hhost hc hrun hfails
  rw [hforfeit] at hpost hafter
  have hsame : d.after a.strategy host (.call c) = ⟨l, d.live⟩ := by
    simpa using hafter
  rw [hsame]
  exact untouched_of_posts hk hpost

/-- A resize to a size that is refused is answered with that size. -/
theorem perform_overflow (hk : Keeps a.contract.toCustody hs d) (hp : p ∈ d.live)
    (hlarge : Size.tooLarge size = true)
    (hcall : c = .realloc .attempt (some p) size ∨ c = .reallocUsable .attempt (some p) size) :
    ∃ l, c.perform a.strategy host d.ledger = .ok (.failed (.overflow size)) l := by
  have hout : ∀ q ∈ some p, (hs q).isSome := by
    intro q hq
    cases hq
    exact (hk.live p).1 hp
  have hfree := Ledger.free_ends (k := a.contract) hk.sound hout
  have hreturns : Returns (c.perform a.strategy host) d.ledger fun r _ =>
      r = .failed (.overflow size) := by
    rcases hcall with rfl | rfl
    · unfold Action.perform Action.reported Ledger.tryRealloc
      rw [Returns, ends_bind, ends_map, Ledger.tryReallocUsable_tooLarge hlarge, ends_bind]
      exact hfree.imp fun _ _ _ => ends_pure.2 (ends_pure.2 rfl)
    · unfold Action.perform Action.reported
      rw [Returns, ends_bind, Ledger.tryReallocUsable_tooLarge hlarge, ends_bind]
      exact hfree.imp fun _ _ _ => ends_pure.2 (ends_pure.2 rfl)
  obtain ⟨r, l, hrun, rfl⟩ := hreturns.exists
  exact ⟨l, hrun⟩

/-- A pointer that is given up, while nothing else happens, is forfeited. -/
theorem forfeited_of_posts {e : Holding} (hk : Keeps a.contract.toCustody hs d) (hp : hs p = some e)
    (hpost : Ledger.Posts a.contract.toCustody hs (some p) none d.ledger l) :
    Forfeited a p d ⟨l, d.live.erase p⟩ := by
  have hlive : p ∈ d.live := by simp [hk.live, hp]
  obtain ⟨e', he', -, hsize⟩ := hk.answers hlive
  rw [hp] at he'
  cases he'
  refine ⟨⟨e.footprint, hsize, used_erased hp hpost⟩, rfl, fun q hq hne => ?_, fun q => ?_⟩
  · exact hk.sameFor_erased hp hpost hq hne
  · have hblocks := congrFun hpost.deal.trade.live q
    have hraw := a.raw_of_stands hk.sound.holds.valid (hk.sound.holds.stands p e hp)
    rw [← a.contract_survey, hblocks, hraw, Option.bind_some, Holdings.start?, hp]
    by_cases hq : q = e.start
    · subst hq
      simp
    · rw [if_neg hq, exchange_of_ne]
      · simpa using fun h => hq h.symm
      · simp

theorem forfeited_of_fails (hk : Keeps a.contract.toCustody hs d) (hhost : host.Confined)
    (hc : d.Allows a.strategy (.call c)) (hp : p ∈ d.live)
    (hrun : c.perform a.strategy host d.ledger = .ok r l) (hfails : c.fails (.ok r) = true)
    (hforfeit : c.forfeit = some p) : Forfeited a p d (d.after a.strategy host (.call c)) := by
  obtain ⟨hpost, hafter⟩ := posts_of_fails hk hhost hc hrun hfails
  rw [hforfeit] at hpost hafter
  rw [Option.toFinset_some, Finset.sdiff_singleton_eq_erase] at hafter
  obtain ⟨e, he⟩ := hk.holding hp
  rw [hafter]
  exact forfeited_of_posts hk he hpost

/-- A call whose reply reports failure has changed nothing, save that a resize of a block to a size
that is refused has given exactly that block up. -/
theorem failure_atomic (a : Adapter β) {host : Host} (hhost : host.Confined) {heap : Heap β}
    (hheap : a.survey.valid heap) (slots : Nat) {ms : List Move}
    (hms : Lawful a.strategy host (opening heap slots) ms) (c : Action)
    (hc : (run a.strategy host (opening heap slots) ms).Allows a.strategy (.call c)) :
    let d := run a.strategy host (opening heap slots) ms
    let d' := d.after a.strategy host (.call c)
    (∀ r l, c.perform a.strategy host d.ledger = .ok r l → c.fails (.ok r) = true →
      (∀ mode p size, c = .realloc mode (some p) size ∨ c = .reallocUsable mode (some p) size →
        Size.tooLarge size = false) → Untouched a d d') ∧
    ∀ p size, c = .realloc .attempt (some p) size ∨ c = .reallocUsable .attempt (some p) size →
      Size.tooLarge size = true →
      (∃ l, c.perform a.strategy host d.ledger = .ok (.failed (.overflow size)) l) ∧
        Forfeited a p d d' := by
  obtain ⟨hs, hk, -⟩ := keeps_run a hhost hheap slots hms
  refine ⟨?_, ?_⟩
  · intro r l hperform hfails hsmall
    exact untouched_of_fails hk hhost hc hperform hfails (Action.forfeit_eq_none hsmall)
  · intro p size hcall hlarge
    have hptr : c.pointer? = some p ∧ c.forfeit = some p := by
      rcases hcall with rfl | rfl
      · exact ⟨rfl, if_pos hlarge⟩
      · exact ⟨rfl, if_pos hlarge⟩
    have hp := hc.2 p hptr.1
    obtain ⟨l, hperform⟩ := perform_overflow hk hp hlarge hcall
    exact ⟨⟨l, hperform⟩, forfeited_of_fails hk hhost hc hp hperform rfl hptr.2⟩

end Failing

theorem failure_atomic_arena :
    let a := Adapter.arenaHeadered Arena.honest_default
    let d := run a.strategy .unsupported (opening arenaHeap 4) (arenaVisit (Arena.base + 16))
    let c := Action.realloc .attempt (some (Arena.base + 64)) Size.bound
    (∃ l, c.perform a.strategy .unsupported d.ledger = .ok (.failed (.overflow Size.bound)) l) ∧
      Forfeited a (Arena.base + 64) d (d.after a.strategy .unsupported (.call c)) := by
  have hc : (run (Adapter.arenaHeadered Arena.honest_default).strategy .unsupported
      (opening arenaHeap 4) (arenaVisit (Arena.base + 16))).Allows
        (Adapter.arenaHeadered Arena.honest_default).strategy
        (.call (.realloc .attempt (some (Arena.base + 64)) Size.bound)) := by
    refine ⟨rfl, ?_⟩
    decide +kernel
  have hatomic := failure_atomic (Adapter.arenaHeadered Arena.honest_default)
    Host.confined_unsupported arenaHeap_valid 4 lawful_arenaVisit _ hc
  exact hatomic.2 _ _ (.inl rfl) (by decide)

end Desk

end HeapLedger
