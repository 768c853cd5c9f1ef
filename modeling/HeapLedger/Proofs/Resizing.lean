import HeapLedger.Proofs.Atomicity

/-!
# `HeapLedger/Proofs/Resizing.lean` — a resize moves one block and nothing else

A block that is resized may go by four ways. The backend resizes it, header and all, and the header
is written anew; an over-aligned block is copied into a plain one; a native block is the backend's
own; and memory by layout is moved to a new block of the same alignment. `resize_moves` says that a
caller cannot tell them apart: as many bytes as there were and are come along, the old pointer is
out no more, every other pointer finds its sizes and its content as before, and the count has
changed by the difference in cost (`Desk.Moved`).

What the backend has to do for this is to keep content when it resizes a block
(`Adapter.Preserves`).
-/

set_option autoImplicit false

namespace HeapLedger

variable {β : Type}

/-! ## Which operation has answered -/

section Ran

variable {s : Strategy β} {host : Host} {l l' : Ledger β} {ptr r : Option Nat} {n u : Nat}
  {mode : Mode} {layout : Layout}

/-- In both modes a size that is told comes from the attempt. -/
theorem Action.ran_reallocUsable (hn : n ≠ 0)
    (hrun : (Action.reallocUsable mode ptr n).perform s host l = .ok (.sized r u) l') :
    Ledger.tryReallocUsable s ptr n l = .ok (.ok (r, u)) l' := by
  have hran : Ends ((Action.reallocUsable mode ptr n).perform s host) l
      (fun reply l' => ∀ r u, reply = .sized r u →
        Ledger.tryReallocUsable s ptr n l = .ok (.ok (r, u)) l') fun _ _ => True := by
    cases mode with
    | attempt =>
      unfold perform reported
      rw [ends_bind]
      apply (Ends.self _ l).imp
      · intro x l₁ htry
        cases x with
        | ok b =>
          apply ends_pure.2
          rintro r u ⟨⟩
          exact htry
        | error e =>
          apply ends_pure.2
          rintro r u ⟨⟩
      · intros
        trivial
    | orFail =>
      unfold perform Ledger.reallocUsable
      rw [ends_map, ends_bind]
      apply (Ends.self _ l).imp
      · intro x l₁ htry
        cases x with
        | ok b =>
          apply ends_pure.2
          rintro r u ⟨⟩
          exact htry
        | error e =>
          simp only
          rw [if_neg hn, Ledger.fail_ends]
          trivial
      · intros
        trivial
  exact hran.of_ok hrun r u rfl

theorem Action.ran_layoutRealloc
    (hrun : (Action.layoutRealloc ptr layout n).perform s host l = .ok (.pointer r) l') :
    Ledger.layoutRealloc s ptr layout n l = .ok r l' := by
  have hran : Ends ((Action.layoutRealloc ptr layout n).perform s host) l
      (fun reply l' => ∀ r, reply = .pointer r →
        Ledger.layoutRealloc s ptr layout n l = .ok r l') fun _ _ => True := by
    unfold perform
    rw [ends_map]
    apply (Ends.self _ l).imp
    · rintro x l₁ hrealloc r ⟨⟩
      exact hrealloc
    · intros
      trivial
  exact hran.of_ok hrun r rfl

end Ran

namespace Desk

/-- From `d` to `d'` the block of `p` has become the block of `q`, with its first `len` bytes. The
count has changed by the difference in cost, and nothing else has changed for anybody. -/
structure Moved (s : Strategy β) (p q len : Nat) (d d' : Desk β) : Prop where
  content : Memory.Carried p q len d.ledger.heap.memory d'.ledger.heap.memory
  live : d'.live = insert q (d.live.erase p)
  same : ∀ x ∈ d.live, x ≠ p → x ≠ q ∧ SameFor s x d d'
  used : ∃ old new, Ledger.allocationSize s p d.ledger = .ok old d.ledger ∧
    Ledger.allocationSize s q d'.ledger = .ok new d'.ledger ∧
    d'.ledger.usedMemory = d.ledger.usedMemory - UInt64.ofNat old + UInt64.ofNat new

section Posting

variable {s : Strategy β} {k : s.Contract} {hs : Holdings} {d : Desk β} {l : Ledger β}
  {p q len : Nat} {e : Holding} {host : Host} {c : Action} {r : Reply Nat}

/-- A reply that hands `q` out for `p`, and the desk after it. -/
theorem after_exchange (hrun : c.perform s host d.ledger = .ok r l) (hspent : c.spent = some p)
    (hcame : Ending.came (.ok r) = some q) :
    d.after s host (.call c) = ⟨l, insert q (d.live.erase p)⟩ := by
  have hanswer := answer_ok hrun
  have hgone : c.gone (.ok r) = some p := by
    have hsucceeds : ¬ c.fails (.ok r) = true := by
      intro hfails
      rw [came_of_fails hfails] at hcame
      cases hcame
    rw [Action.gone, if_neg hsucceeds, hspent]
  rw [after_of_answer hanswer, hgone, hcame, Option.toFinset_some, Option.toFinset_some,
    Finset.sdiff_singleton_eq_erase, Finset.union_comm, ← Finset.insert_eq]

/-- A posting that exchanges `p` for `q` is a move, if the content has come along. -/
theorem moved_of_posts (hk : Keeps k.toCustody hs d) (hp : p ∈ d.live)
    (hpost : Ledger.Posts k.toCustody hs (some p) (some (q, e)) d.ledger l)
    (hcontent : Memory.Carried p q len d.ledger.heap.memory l.heap.memory) :
    Ledger.usableSize s q l = .ok e.usable l ∧
      Moved s p q len d ⟨l, insert q (d.live.erase p)⟩ := by
  obtain ⟨b, hb, -, hcost⟩ := hk.answers hp
  have hk' : Keeps k.toCustody (exchange hs (some p) (some (q, e)))
      ⟨l, insert q (d.live.erase p)⟩ := by
    have hposted := hk.posted (by rintro x ⟨⟩; exact hp) hpost
    rw [Option.map_some, Option.toFinset_some, Option.toFinset_some,
      Finset.sdiff_singleton_eq_erase, Finset.union_comm, ← Finset.insert_eq] at hposted
    exact hposted
  obtain ⟨e', he', husable, hcost'⟩ := hk'.answers (Finset.mem_insert_self q _)
  rw [exchange_came] at he'
  cases he'
  refine ⟨husable, hcontent, rfl, ?_, b.footprint, e.footprint, hcost, hcost', ?_⟩
  · intro x hx hne
    have hgone : some p ≠ some x := fun h => hne (Option.some.inj h).symm
    -- Another pointer is not the one that came, as that was not out before.
    have hnew : x ≠ q := by
      rintro rfl
      obtain ⟨f, hf⟩ := hk.holding hx
      rw [hpost.deal.fresh x e rfl hgone] at hf
      cases hf
    refine ⟨hnew, ?_⟩
    apply sameFor_of_posts hk hk' hpost hx hgone
    apply exchange_of_ne hgone
    intro hcame
    exact hnew (Option.some.inj hcame).symm
  · have hused := hpost.used
    rw [Option.bind_some, hb] at hused
    exact hused

end Posting

section Resizing

variable {s : Strategy β} {k : s.Contract} {hs : Holdings} {d : Desk β} {host : Host} {p n : Nat}

/-- A resize that tells a size. -/
theorem Keeps.resized (hk : Keeps k.toCustody hs d) (hpres : k.Preserves) (hp : p ∈ d.live)
    (hpos : 0 < n) (hsmall : Size.tooLarge n = false) {mode : Mode} {r : Option Nat} {u : Nat}
    {l : Ledger β}
    (hrun : (Action.reallocUsable mode (some p) n).perform s host d.ledger = .ok (.sized r u) l) :
    ∃ q old, r = some q ∧ Ledger.usableSize s p d.ledger = .ok old d.ledger ∧ n ≤ u ∧
      Ledger.usableSize s q l = .ok u l ∧
      Moved s p q (min old n) d ⟨l, insert q (d.live.erase p)⟩ := by
  have hn := Nat.ne_of_gt hpos
  have hlarge : ¬ Size.tooLarge n = true := by
    rw [hsmall]
    exact Bool.false_ne_true
  obtain ⟨b, hb, husable, -⟩ := hk.answers hp
  have htry := Action.ran_reallocUsable hn hrun
  have hsettled := (Ledger.tryReallocUsable_some_ends hk.sound hb hn hlarge).of_ok htry
  have hcarried := (Ledger.tryReallocUsable_carries hpres hk.sound hb hn hlarge).of_ok htry
  obtain ⟨came, hcame, hpost, hnone, hsize⟩ := hsettled
  cases came with
  | none => exact absurd (hnone rfl) hn
  | some x =>
    obtain ⟨q, e⟩ := x
    obtain ⟨hu, hle⟩ := hsize (q, e) rfl
    obtain rfl : u = e.usable := hu
    obtain rfl : some q = r := hcame
    obtain ⟨husable', hmoved⟩ := moved_of_posts hk hp hpost (hcarried _ rfl q rfl)
    exact ⟨q, b.usable, rfl, husable, hle, husable', hmoved⟩

/-- A resize by layout that hands out a pointer. -/
theorem Keeps.resizedByLayout (hk : Keeps k.toCustody hs d) (hpres : k.Preserves)
    (hp : p ∈ d.live) {layout : Layout} {old q : Nat} {l : Ledger β}
    (hold : Ledger.usableSize s p d.ledger = .ok old d.ledger) (hle : layout.size ≤ old)
    (hrun : (Action.layoutRealloc (some p) layout n).perform s host d.ledger =
      .ok (.pointer (some q)) l) :
    ∃ u, Ledger.usableSize s q l = .ok u l ∧ n ≤ u ∧
      Moved s p q (min layout.size n) d ⟨l, insert q (d.live.erase p)⟩ := by
  obtain ⟨b, hb, husable, -⟩ := hk.answers hp
  rw [husable] at hold
  cases hold
  have hout : ∀ x ∈ some p, (hs x).isSome := by
    rintro x ⟨⟩
    exact (hk.live p).1 hp
  have hrealloc := Action.ran_layoutRealloc hrun
  have hoffered := (Ledger.layoutRealloc_ends hk.sound hout).of_ok hrealloc
  have hcarried := (Ledger.layoutRealloc_carries hpres hk.sound hout).of_ok hrealloc
  obtain ⟨e, hpost, hsize⟩ := hoffered
  obtain ⟨husable', hmoved⟩ := moved_of_posts hk hp hpost (hcarried p rfl b hb hle q rfl)
  exact ⟨e.usable, husable', hsize, hmoved⟩

/-- After every lawful run a resize that goes through, of any pointer that is out and to any size
that is not refused, moves that block and nothing else: the bytes that the old size and the new one
have in common come along, and the size that is told is the new block's and is enough. So does a
resize by layout, in place or to a new block, for the bytes that the layout reached to. -/
theorem resize_moves (a : Adapter β) (ha : a.Preserves) {host : Host} (hhost : host.Confined)
    {heap : Heap β} (hheap : a.survey.valid heap) (slots : Nat) {ms : List Move}
    (hms : Lawful a.strategy host (opening heap slots) ms) :
    let d := run a.strategy host (opening heap slots) ms
    (∀ p ∈ d.live, ∀ mode n, 0 < n → Size.tooLarge n = false →
      let c := Action.reallocUsable mode (some p) n
      let d' := d.after a.strategy host (.call c)
      ∀ r u, (d.answer a.strategy host c).1 = .ok (.sized r u) →
        ∃ q old, r = some q ∧ Ledger.usableSize a.strategy p d.ledger = .ok old d.ledger ∧
          n ≤ u ∧ Ledger.usableSize a.strategy q d'.ledger = .ok u d'.ledger ∧
          Moved a.strategy p q (min old n) d d') ∧
    ∀ p ∈ d.live, ∀ layout n old, Ledger.usableSize a.strategy p d.ledger = .ok old d.ledger →
      layout.size ≤ old →
      let c := Action.layoutRealloc (some p) layout n
      let d' := d.after a.strategy host (.call c)
      ∀ q, (d.answer a.strategy host c).1 = .ok (.pointer (some q)) →
        ∃ u, Ledger.usableSize a.strategy q d'.ledger = .ok u d'.ledger ∧ n ≤ u ∧
          Moved a.strategy p q (min layout.size n) d d' := by
  obtain ⟨hs, hk, -⟩ := keeps_run a hhost hheap slots hms
  have hpres := Adapter.contract_preserves ha
  refine ⟨?_, ?_⟩
  · intro p hp mode n hpos hsmall c d' r u hanswer
    obtain ⟨l, hrun⟩ := perform_of_answer hanswer
    obtain ⟨q, old, rfl, hold, hle, husable, hmoved⟩ := hk.resized hpres hp hpos hsmall hrun
    have hafter : d' = _ := after_exchange hrun rfl rfl
    rw [hafter]
    exact ⟨q, old, rfl, hold, hle, husable, hmoved⟩
  · intro p hp layout n old hold hle c d' q hanswer
    obtain ⟨l, hrun⟩ := perform_of_answer hanswer
    have hafter : d' = _ := after_exchange hrun rfl rfl
    rw [hafter]
    exact hk.resizedByLayout hpres hp hold hle hrun

end Resizing

/-- An over-aligned block of ten bytes becomes a plain one of forty. -/
theorem resize_moves_arena :
    let a := Adapter.arenaHeadered Arena.honest_default
    let d := run a.strategy .unsupported (opening arenaHeap 4) (arenaVisit (Arena.base + 16))
    let c := Action.reallocUsable .attempt (some (Arena.base + 64)) 40
    ∃ q, (d.answer a.strategy .unsupported c).1 = .ok (.sized (some q) 40) ∧
      Moved a.strategy (Arena.base + 64) q 10 d (d.after a.strategy .unsupported (.call c)) := by
  intro a d c
  have hmoves := resize_moves a (Adapter.arenaHeadered_preserves Arena.honest_default rfl)
    Host.confined_unsupported arenaHeap_valid 4 lawful_arenaVisit
  have hlive : Arena.base + 64 ∈ d.live := by decide +kernel
  have hanswer : (d.answer a.strategy .unsupported c).1 =
      .ok (.sized (some (Arena.base + 160)) 40) := by
    decide +kernel
  have husable : a.strategy.usableSize (Arena.base + 64) d.ledger.heap = .ok 10 := by
    decide +kernel
  obtain ⟨q, old, hq, hold, -, -, hmoved⟩ :=
    hmoves.1 _ hlive .attempt 40 (by decide) (by decide) _ _ hanswer
  rw [Ledger.usableSize_eq husable] at hold
  cases hold
  cases hq
  exact ⟨_, hanswer, hmoved⟩

end Desk

end HeapLedger
