import HeapLedger.Proofs.Atomicity

/-!
# `HeapLedger/Proofs/Arrival.lean` — one pointer more

Every call that brings memory and takes none back leaves a desk in the same way: there is one
pointer more, it is counted, and nothing else is different for anybody (`Desk.Joined`). It follows
from what the call has posted (`Desk.joined_of_posts`). What the new bytes hold is for each call to
say.
-/

set_option autoImplicit false

namespace HeapLedger

variable {β : Type}

namespace Desk

/-- From one desk to the next the pointer `q` comes, with `usable` bytes that are booked as `size`.
It stands for a new block, its bytes are apart from all others, and nothing else has changed,
neither for those who hold other pointers nor in any other block of the backend, headers
included. -/
structure Joined (a : Adapter β) (q usable size : Nat) (d d' : Desk β) : Prop where
  fresh : q ∉ d.live
  live : d'.live = insert q d.live
  usableSize : Ledger.usableSize a.strategy q d'.ledger = .ok usable d'.ledger
  allocationSize : Ledger.allocationSize a.strategy q d'.ledger = .ok size d'.ledger
  used : d'.ledger.usedMemory = d.ledger.usedMemory + UInt64.ofNat size
  /-- The block of the backend that the bytes lie in. -/
  block : ∃ l, a.survey.live d.ledger.heap (a.raw d'.ledger.heap q) = none ∧
    a.survey.live d'.ledger.heap (a.raw d'.ledger.heap q) = some l ∧
    a.raw d'.ledger.heap q ≤ q ∧ q + usable ≤ a.raw d'.ledger.heap q + l.bytes
  apart : ∀ p ∈ d.live, ∀ n, Ledger.usableSize a.strategy p d'.ledger = .ok n d'.ledger →
    p + n ≤ q ∨ q + usable ≤ p
  same : ∀ p ∈ d.live, SameFor a.strategy p d d'
  blocks : ∀ x l, a.survey.live d.ledger.heap x = some l →
    a.survey.live d'.ledger.heap x = some l ∧
      Memory.Agree x l.bytes d.ledger.heap.memory d'.ledger.heap.memory ∧
      (x + l.bytes ≤ q ∨ q + usable ≤ x)

section Coming

variable {a : Adapter β} {hs : Holdings} {host : Host} {d : Desk β} {c : Action} {q : Nat}

theorem live_came (live : Finset Nat) (q : Nat) :
    live \ (none : Option Nat).toFinset ∪ (some q).toFinset = insert q live := by
  simp

/-- A call that gives nothing up and hands a pointer out leaves one pointer more. -/
theorem after_of_handed (hforfeit : c.forfeit = none) (hspent : c.spent = none)
    (hq : d.handed a.strategy host (.call c) = some q) :
    d.after a.strategy host (.call c) =
      ⟨d.turn a.strategy host (.call c), insert q d.live⟩ := by
  have hgiven : d.given a.strategy host (.call c) = none := by
    unfold given Action.gone
    simp only [hforfeit, hspent, ite_self]
  unfold after
  rw [hgiven, hq, live_came]

/-- What a call hands out is as it is when the call returns. -/
theorem handed_of_returns {P : Nat → Ledger β → Prop}
    (h : Ends (c.perform a.strategy host) d.ledger (fun r l => ∀ q ∈ Ending.came (.ok r), P q l)
      fun _ _ => True) (hq : d.handed a.strategy host (.call c) = some q) :
    P q (d.turn a.strategy host (.call c)) := by
  have hends := h.imp (fun _ _ => id) fun e l _ => (forall_mem_none : ∀ q ∈ none, P q l)
  exact handed_of_ends (P := fun r l => ∀ q ∈ r, P q l) hends q hq

/-- A pointer that comes while nothing goes joins those that are out. -/
theorem Keeps.came {s : Strategy β} {k : s.Contract} {e : Holding} {l : Ledger β}
    (hk : Keeps k.toCustody hs d)
    (hpost : Ledger.Posts k.toCustody hs none (some (q, e)) d.ledger l) :
    Keeps k.toCustody (exchange hs none (some (q, e))) ⟨l, insert q d.live⟩ := by
  have hposted := hk.posted forall_mem_none hpost
  rw [Option.map_some, live_came] at hposted
  exact hposted

/-- The usable bytes of different pointers are apart. -/
theorem Keeps.usable_apart {s : Strategy β} {k : s.Contract} (hk : Keeps k.toCustody hs d)
    {p n m : Nat} (hp : p ∈ d.live) (hq : q ∈ d.live) (hpq : p ≠ q)
    (hn : Ledger.usableSize s p d.ledger = .ok n d.ledger)
    (hm : Ledger.usableSize s q d.ledger = .ok m d.ledger) : p + n ≤ q ∨ q + m ≤ p := by
  obtain ⟨x, hx, hpx, -⟩ := hk.answers hp
  obtain ⟨y, hy, hqy, -⟩ := hk.answers hq
  cases hn.symm.trans hpx
  cases hm.symm.trans hqy
  obtain ⟨-, hxlo, hxhi⟩ := hk.sound.holds.inside hx
  obtain ⟨-, hylo, hyhi⟩ := hk.sound.holds.inside hy
  rcases hk.sound.holds.apart hx hy hpq with hap | hap
  · omega
  · omega

/-- What is posted for a pointer that comes, while nothing goes, is that it has joined. -/
theorem joined_of_posts {e : Holding} {l : Ledger β} (hk : Keeps a.contract.toCustody hs d)
    (hpost : Ledger.Posts a.contract.toCustody hs none (some (q, e)) d.ledger l) :
    Joined a q e.usable e.footprint d ⟨l, insert q d.live⟩ := by
  have hk' := hk.came hpost
  have hholds := hpost.deal.holds
  have htrade := hpost.deal.trade
  have hin := hholds.inside (p := q) exchange_came
  have hraw : a.raw l.heap q = e.start :=
    a.raw_of_stands hholds.valid (hholds.stands q e exchange_came)
  have hfresh : q ∉ d.live := by simp [hk.live, hpost.deal.fresh q e rfl (by simp)]
  obtain ⟨x, hx, husable, hsize⟩ := hk'.answers (Finset.mem_insert_self q d.live)
  obtain rfl : e = x := Option.some.inj (exchange_came.symm.trans hx)
  refine ⟨hfresh, rfl, husable, hsize, ?_, ?_, ?_, ?_, ?_⟩
  · simpa using hpost.used
  · rw [← a.contract_survey, hraw]
    exact ⟨e.lease, htrade.fresh e.start e.lease rfl (by simp), htrade.live_came, hin.2⟩
  · intro p hp n hn
    have hne : p ≠ q := fun heq => hfresh (heq ▸ hp)
    exact hk'.usable_apart (Finset.mem_insert_of_mem hp) (Finset.mem_insert_self q d.live) hne hn
      husable
  · intro p hp
    obtain ⟨y, hy⟩ := hk.holding hp
    refine sameFor_of_posts hk hk' hpost hp (by simp) ?_
    rw [hpost.deal.old hy, hy]
  · intro x l hx
    rw [← a.contract_survey] at hx ⊢
    refine ⟨htrade.live_of_ne hx (by simp), htrade.kept x l hx (by simp), ?_⟩
    rcases htrade.apart_came hx (by simp) with hap | hap
    · exact .inl (Nat.le_trans hap hin.2.1)
    · exact .inr (Nat.le_trans hin.2.2 hap)

end Coming

end Desk

end HeapLedger
