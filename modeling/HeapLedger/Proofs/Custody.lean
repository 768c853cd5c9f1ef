import HeapLedger.Proofs.Survey

/-!
# `HeapLedger/Proofs/Custody.lean` — what callers hold

A caller's pointer is not always the backend's. A `Holding` is what stands behind a pointer: the
backend's block with its lease, the bytes that the caller may use and what the block is booked for.
A `Custody` is a survey together with a rule that says when a pointer stands for a holding. The rule
may read the bytes of the block in front of the pointer and the lease, and nothing else
(`Custody.stable`).

That is all it takes for the isolation of holders: if every pointer of a table stands for its
holding and no two share a block (`Custody.Holds`), then writes to usable bytes break nothing
(`Holds.write`), and a trade by the backend makes a deal between callers and backend
(`Deal.of_trade`), after which all other pointers stand for what they stood for.
-/

set_option autoImplicit false

namespace HeapLedger

/-- What stands behind a caller's pointer. -/
structure Holding where
  /-- The backend's pointer. -/
  start : Nat
  /-- The backend's block. -/
  lease : Lease
  /-- Bytes that the caller may use. -/
  usable : Nat
  /-- Bytes that are booked for it. -/
  footprint : Nat

/-- The live pointers of all callers and what stands behind them. -/
abbrev Holdings : Type := Nat → Option Holding

/-- The backend's pointer behind a caller's. -/
def Holdings.start? (hs : Holdings) (p : Nat) : Option Nat :=
  (hs p).map Holding.start

/-- A survey, and when a pointer stands for a holding. -/
structure Custody (β : Type) extends Survey β where
  stands : Nat → Holding → Heap β → Prop
  lease : ∀ {p d h}, stands p d h → live h d.start = some d.lease
  inside : ∀ {p d h}, valid h → stands p d h →
    0 < d.usable ∧ d.start ≤ p ∧ p + d.usable ≤ d.start + d.lease.bytes
  stable : ∀ {p d h h'}, stands p d h → live h' d.start = some d.lease →
    Memory.Agree d.start (p - d.start) h.memory h'.memory → stands p d h'

namespace Custody

variable {β : Type}

/-- Every pointer of the table stands for its holding, and no two share a block. -/
structure Holds (k : Custody β) (hs : Holdings) (h : Heap β) : Prop where
  valid : k.valid h
  stands : ∀ p d, hs p = some d → k.stands p d h
  distinct : ∀ p q d e, hs p = some d → hs q = some e → d.start = e.start → p = q

/-- Every live block of the backend stands behind some pointer. -/
def Tight (k : Custody β) (hs : Holdings) (h : Heap β) : Prop :=
  ∀ q l, k.live h q = some l → ∃ p d, hs p = some d ∧ d.start = q

/-- From `h` to `h'` callers give up the pointer `gone`, if any, and get the pointer `came`, if any;
the backend trades the blocks behind them. -/
structure Deal (k : Custody β) (hs : Holdings) (gone : Option Nat) (came : Option (Nat × Holding))
    (h h' : Heap β) : Prop where
  holds : k.Holds (exchange hs gone came) h'
  fresh : ∀ q e, came = some (q, e) → gone ≠ some q → hs q = none
  trade : k.Trade (gone.bind hs.start?) (came.map fun c => (c.2.start, c.2.lease)) h h'

variable {k : Custody β} {hs : Holdings} {gone : Option Nat} {came : Option (Nat × Holding)}
  {h h' h'' : Heap β} {p q : Nat} {d e : Holding}

/-! ## Holders are apart -/

theorem Holds.live (hh : k.Holds hs h) (hp : hs p = some d) : k.live h d.start = some d.lease :=
  k.lease (hh.stands p d hp)

theorem Holds.inside (hh : k.Holds hs h) (hp : hs p = some d) :
    0 < d.usable ∧ d.start ≤ p ∧ p + d.usable ≤ d.start + d.lease.bytes :=
  k.inside hh.valid (hh.stands p d hp)

theorem Holds.apart (hh : k.Holds hs h) (hp : hs p = some d) (hq : hs q = some e) (hpq : p ≠ q) :
    d.start + d.lease.bytes ≤ e.start ∨ e.start + e.lease.bytes ≤ d.start :=
  k.apart hh.valid (hh.live hp) (hh.live hq) fun hs => hpq (hh.distinct p q d e hp hq hs)

/-- The block behind another pointer is not the one behind `gone`. -/
theorem Holds.start_ne (hh : k.Holds hs h) (hp : hs p = some d) (hgone : gone ≠ some p) :
    gone.bind hs.start? ≠ some d.start := by
  intro hstart
  obtain ⟨q, rfl, hq⟩ := Option.bind_eq_some_iff.1 hstart
  obtain ⟨e, he, hde⟩ := Option.map_eq_some_iff.1 hq
  exact hgone (congrArg some (hh.distinct q p e d he hp hde))

/-- What an unrelated trade leaves of a pointer. -/
theorem stands_of_trade {gone : Option Nat} {came : Option (Nat × Lease)}
    (hp : k.stands p d h) (hv : k.valid h) (t : k.Trade gone came h h')
    (hgone : gone ≠ some d.start) : k.stands p d h' := by
  obtain ⟨_, hlo, hhi⟩ := k.inside hv hp
  refine k.stable hp (t.live_of_ne (k.lease hp) hgone) ?_
  exact (t.kept _ _ (k.lease hp) hgone).narrow (Nat.le_refl _) (by omega)

/-- Usable bytes of the block that has come are written to, and it is as if it had come like that. -/
theorem trade_write {gone : Option Nat} {m : Memory} (hv' : k.valid h') (hq : k.stands q e h')
    (t : k.Trade gone (some (e.start, e.lease)) h h')
    (hm : ∀ a, m.byte a ≠ h'.memory.byte a → q ≤ a ∧ a < q + e.usable) :
    k.Trade gone (some (e.start, e.lease)) h ⟨m, h'.state⟩ ∧ k.stands q e ⟨m, h'.state⟩ := by
  obtain ⟨hpos, hfront, hend⟩ := k.inside hv' hq
  have hwrite : k.Trade gone (some (e.start, e.lease)) h ⟨m, h'.state⟩ := by
    refine t.write fun a ha => ?_
    have hchanged := hm a ha
    omega
  refine ⟨hwrite, k.stable hq hwrite.live_came fun a _ ha => ?_⟩
  apply Decidable.byContradiction
  intro hne
  have hchanged := hm a hne
  omega

theorem trade_copy (hv' : k.valid h') (hq : k.stands q e h')
    (t : k.Trade none (some (e.start, e.lease)) h h') {len : Nat} (hlen : len ≤ e.usable) :
    k.Trade none (some (e.start, e.lease)) h ⟨h'.memory.copy q p len, h'.state⟩ ∧
      k.stands q e ⟨h'.memory.copy q p len, h'.state⟩ := by
  refine trade_write hv' hq t fun a ha => ?_
  have hchanged := Memory.changed_copy ha
  omega

/-- Usable bytes that are copied to a new pointer are still there when the old block has gone. -/
theorem carried (k : Custody β) (hv : k.valid h) {len : Nat} (hp : k.stands p d h)
    (t : k.Trade none (some (e.start, e.lease)) h h') (hq : k.stands q e h')
    (hlen : len ≤ d.usable) (hlen' : len ≤ e.usable)
    (t' : k.Trade (some d.start) none ⟨h'.memory.copy q p len, h'.state⟩ h'') :
    Memory.Carried p q len h.memory h''.memory := by
  obtain ⟨-, hplo, hphi⟩ := k.inside hv hp
  obtain ⟨-, hqlo, hqhi⟩ := k.inside t.valid hq
  exact t.carried (k.lease hp) ⟨hplo, by omega⟩ ⟨hqlo, by omega⟩ t'

/-! ## Writing -/

/-- Whoever writes to usable bytes writes to nothing that lies in front of a pointer, in its block. -/
theorem Holds.front_kept (hh : k.Holds hs h) {m : Memory}
    (hm : ∀ a, m.byte a ≠ h.memory.byte a → ∃ p d, hs p = some d ∧ p ≤ a ∧ a < p + d.usable)
    (hp : hs p = some d) : Memory.Agree d.start (p - d.start) h.memory m := by
  -- A byte in front of `p` that changed would be usable through another pointer, whose block is
  -- apart from this one.
  intro a hlo hhi
  refine Decidable.byContradiction fun hne => ?_
  obtain ⟨q, e, hq, hqlo, hqhi⟩ := hm a hne
  have hpin := hh.inside hp
  have hqin := hh.inside hq
  by_cases hpq : p = q
  · omega
  · rcases hh.apart hp hq hpq with hap | hap
    · omega
    · omega

/-- Nor to the block behind another pointer. -/
theorem Holds.block_kept (hh : k.Holds hs h) {m : Memory}
    (hm : ∀ a, m.byte a ≠ h.memory.byte a → p ≤ a ∧ a < p + d.usable) (hp : hs p = some d)
    (hq : hs q = some e) (hpq : p ≠ q) : Memory.Agree e.start e.lease.bytes h.memory m := by
  intro a hlo hhi
  refine Decidable.byContradiction fun hne => ?_
  have hchanged := hm a hne
  have hpin := hh.inside hp
  rcases hh.apart hp hq hpq with hap | hap
  · omega
  · omega

/-- Whoever writes to usable bytes disturbs no holder, and not the backend either. -/
theorem Holds.write (hh : k.Holds hs h) {m : Memory}
    (hm : ∀ a, m.byte a ≠ h.memory.byte a → ∃ p d, hs p = some d ∧ p ≤ a ∧ a < p + d.usable) :
    k.Holds hs ⟨m, h.state⟩ ∧ k.live ⟨m, h.state⟩ = k.live h := by
  have hin : ∀ a, m.byte a ≠ h.memory.byte a →
      ∃ p l, k.live h p = some l ∧ p ≤ a ∧ a < p + l.bytes := by
    intro a ha
    obtain ⟨p, d, hp, hlo, hhi⟩ := hm a ha
    have hins := hh.inside hp
    exact ⟨d.start, d.lease, hh.live hp, by omega, by omega⟩
  obtain ⟨hvalid, hlive⟩ := k.write hh.valid hin
  refine ⟨⟨hvalid, ?_, hh.distinct⟩, hlive⟩
  intro p d hp
  refine k.stable (hh.stands p d hp) ?_ (hh.front_kept hm hp)
  rw [hlive]
  exact hh.live hp

/-! ## Deals -/

/-- A trade of the blocks behind pointers is a deal if the pointer that comes stands for what it
should. -/
theorem Deal.of_trade (hh : k.Holds hs h)
    (t : k.Trade (gone.bind hs.start?) (came.map fun c => (c.2.start, c.2.lease)) h h')
    (hcame : ∀ q e, came = some (q, e) → k.stands q e h') : k.Deal hs gone came h h' := by
  -- Old pointers stand because their blocks stay, and their blocks are not the one that comes.
  have hold : ∀ p d, gone ≠ some p → hs p = some d → k.stands p d h' := fun p d hgone hp =>
    stands_of_trade (hh.stands p d hp) hh.valid t (hh.start_ne hp hgone)
  have hnew : ∀ p q d e, gone ≠ some p → hs p = some d → came = some (q, e) →
      d.start ≠ e.start := by
    rintro p q d e hgone hp rfl
    exact t.ne_came (hh.live hp) (hh.start_ne hp hgone)
  refine ⟨⟨t.valid, ?_, ?_⟩, ?_, t⟩
  · intro p d hp
    rcases exchange_eq_some hp with rfl | ⟨hgone, hp⟩
    · exact hcame p d rfl
    · exact hold p d hgone hp
  · intro p q d e hp hq hde
    rcases exchange_eq_some hp with hcp | ⟨hgp, hp⟩ <;>
      rcases exchange_eq_some hq with hcq | ⟨hgq, hq⟩
    · cases hcp.symm.trans hcq
      rfl
    · exact absurd hde.symm (hnew q p e d hgq hq hcp)
    · exact absurd hde (hnew p q d e hgp hp hcq)
    · exact hh.distinct p q d e hp hq hde
  · -- The new pointer lies in the new block, and old ones lie in blocks apart from it.
    rintro q e rfl hgone
    cases hq : hs q with
    | none => rfl
    | some d =>
      have hein := k.inside t.valid (hcame q e rfl)
      have hdin := hh.inside hq
      have hap : d.start + d.lease.bytes ≤ e.start ∨ e.start + e.lease.bytes ≤ d.start :=
        t.apart_came (hh.live hq) (hh.start_ne hq hgone)
      omega

/-- The block that came may be written to, as far as it is usable. -/
theorem Deal.write (hd : k.Deal hs gone (some (q, e)) h h') {m : Memory}
    (hm : ∀ a, m.byte a ≠ h'.memory.byte a → q ≤ a ∧ a < q + e.usable) :
    k.Deal hs gone (some (q, e)) h ⟨m, h'.state⟩ := by
  refine ⟨?_, hd.fresh, hd.trade.write fun a ha => ?_⟩
  · exact (hd.holds.write fun a ha => ⟨q, e, exchange_came, hm a ha⟩).1
  · obtain ⟨hlo, hhi⟩ := hm a ha
    have hin := hd.holds.inside (p := q) exchange_came
    show e.start ≤ a ∧ a < e.start + e.lease.bytes
    omega

/-- The pointers that were out stand for what they stood for when one comes. -/
theorem Deal.old (hd : k.Deal hs none came h h') (hp : hs p = some d) :
    exchange hs none came p = some d := by
  rw [exchange_of_ne (by simp), hp]
  intro hcame
  obtain ⟨⟨q, e⟩, rfl, rfl⟩ := Option.map_eq_some_iff.1 hcame
  rw [hd.fresh q e rfl (by simp)] at hp
  cases hp

/-- A pointer comes and then another goes. -/
theorem Deal.move (hh : k.Holds hs h) (hp : hs p = some d) (hd : k.Deal hs none (some (q, e)) h h')
    (hd' : k.Deal (exchange hs none (some (q, e))) (some p) none h' h'') :
    k.Deal hs (some p) (some (q, e)) h h'' := by
  -- The pointer that goes was out before the other one came.
  have hpq : p ≠ q := by
    rintro rfl
    rw [hd.fresh p e rfl (by simp)] at hp
    cases hp
  refine ⟨?_, ?_, ?_⟩
  · rw [← exchange_exchange hpq]
    exact hd'.holds
  · intro x ex hx _
    exact hd.fresh x ex hx (by simp)
  · have t' := hd'.trade
    rw [Option.bind_some, Holdings.start?, hd.old hp] at t'
    rw [Option.bind_some, Holdings.start?, hp]
    exact hd.trade.move (hh.live hp) t'

/-- A pointer comes, usable bytes are copied to it, and then the pointer that they were copied from
goes. -/
theorem Deal.carried {len : Nat} (hh : k.Holds hs h) (hp : hs p = some d)
    (hd : k.Deal hs none (some (q, e)) h h') (hlen : len ≤ d.usable) (hlen' : len ≤ e.usable)
    (hd' : k.Deal (exchange hs none (some (q, e))) (some p) none
      ⟨h'.memory.copy q p len, h'.state⟩ h'') :
    Memory.Carried p q len h.memory h''.memory := by
  have t' := hd'.trade
  rw [Option.bind_some, Holdings.start?, hd.old hp] at t'
  apply k.carried hh.valid (hh.stands p d hp) hd.trade _ hlen hlen' t'
  exact hd.holds.stands q e exchange_came

/-- The bytes behind a pointer that stays are what they were. -/
theorem Deal.kept (hd : k.Deal hs gone came h h') (hh : k.Holds hs h) (hp : hs p = some d)
    (hgone : gone ≠ some p) : Memory.Agree d.start d.lease.bytes h.memory h'.memory :=
  hd.trade.kept _ _ (hh.live hp) (hh.start_ne hp hgone)

/-- A deal leaves no block without a holder. -/
theorem Deal.tight (hd : k.Deal hs gone came h h') (ht : k.Tight hs h) :
    k.Tight (exchange hs gone came) h' := by
  intro x l hx
  rw [hd.trade.live] at hx
  rcases exchange_eq_some hx with hcame | ⟨hgone, hx⟩
  · obtain ⟨⟨q, e⟩, rfl, he⟩ := Option.map_eq_some_iff.1 hcame
    cases he
    exact ⟨q, e, exchange_came, rfl⟩
  · obtain ⟨p, d, hp, rfl⟩ := ht x l hx
    have hgp : gone ≠ some p := by
      rintro rfl
      exact hgone (by rw [Option.bind_some, Holdings.start?, hp]; rfl)
    refine ⟨p, d, ?_, rfl⟩
    rw [exchange_of_ne hgp, hp]
    intro hcame
    obtain ⟨⟨q, e⟩, rfl, rfl⟩ := Option.map_eq_some_iff.1 hcame
    rw [hd.fresh q e rfl hgp] at hp
    cases hp

end Custody

end HeapLedger
