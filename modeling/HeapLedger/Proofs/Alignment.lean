import HeapLedger.Proofs.Accounting
import HeapLedger.Proofs.Ledger.Answers
import HeapLedger.Proofs.Strategy.Alignment

/-!
# `HeapLedger/Proofs/Alignment.lean` — every alignment is served and kept

Over a headered strategy, whatever a call says about alignment holds of the pointer that it hands
out, for every power of two and every size, and so it does after any number of resizes by layout.
Where a call says nothing, the backend's own alignment is kept. The backend is only expected to keep
that alignment for blocks of enough bytes (`Backend.Contract.Aligns`).

`alignments_served` also says when there is no pointer. If the size rules let the request through,
the backend decides: there is none just when the backend refuses the one request that is made of it
(`Action.asks`), which is for `Strategy.Headered.order` many bytes. The sums in that number stay
within a word for every backend whose alignment is at most `2 ^ 32`.
-/

set_option autoImplicit false

namespace HeapLedger

variable {β : Type}

/-- The size and the alignment that a call asks for. -/
def Action.wants : Action → Option (Nat × Nat)
  | .allocAligned _ size align => some (size, align)
  | .layoutAlloc layout | .layoutAllocZeroed layout => some (layout.size, layout.align)
  | .layoutRealloc _ layout size => some (size, layout.align)
  | _ => none

namespace Strategy.Headered

/-- The bytes that the backend is asked for on behalf of a layout: those of the block and a header,
and beyond the backend's own alignment one more word and a whole alignment. -/
def order (b : Backend β) (l : Layout) : Nat :=
  match l.plainSize b.maxAlign with
  | some size => size + width b
  | none => Size.clamp l.size + width b + Word.bytes + l.align

variable {b : Backend β} {due : Lease → Nat → Prop} {c : b.Contract due} {h : Heap β} {l : Layout}
  {p n : Nat}

theorem order_lt (hmax : b.maxAlign ≤ 2 ^ 32) (hpasses : l.Passes b.maxAlign) :
    order b l < Word.limit := by
  have hwidth : width b ≤ 2 ^ 32 := Header.width_le (by decide) hmax
  have hspace : 2 * Size.bound + 2 = Word.limit := by decide
  have hobject : Word.maxObject + 1 = Size.bound + 1 := by decide
  have hbytes : Word.bytes = 8 := rfl
  have hroom : 2 ^ 32 + 16 < Size.bound := by decide
  have hfits := l.add_align_le
  unfold order
  cases hplain : l.plainSize b.maxAlign with
  | some size =>
    unfold Layout.Passes at hpasses
    rw [hplain, Option.getD_some] at hpasses
    have hsmall : size < Size.bound := Size.lt_bound (by simp [hpasses])
    simp only
    omega
  | none =>
    have hclamp : Size.clamp l.size ≤ l.size + 8 := by
      unfold Size.clamp Size.least
      split <;> omega
    simp only
    omega

end Strategy.Headered

open Strategy.Headered in
/-- What the backend is asked on behalf of a call for memory of a layout. A plain block that is
resized is resized by the backend, and every other call takes a new block. -/
def Action.asks (b : Backend β) (m : Memory) (l : Layout) : Action → HeapOp β (Option Nat)
  | .layoutAllocZeroed _ =>
      if l.align ≤ b.maxAlign then b.allocZeroed (order b l) else b.alloc (order b l)
  | .layoutRealloc (some p) _ _ =>
      match Header.read m p with
      | .ok x =>
          if l.align ≤ b.maxAlign ∧ x.align = 0 then
            b.realloc (Header.start (width b) m p x) (order b l)
          else b.alloc (order b l)
      | .error _ => b.alloc (order b l)
  | _ => b.alloc (order b l)

/-! ## What the strategy answers -/

namespace Strategy.Headered

variable {b : Backend β} {due : Lease → Nat → Prop} {c : b.Contract due} {h : Heap β} {l : Layout}
  {p n : Nat}

section Plain

variable (hpow : b.maxAlign.isPowerOfTwo) (hmax : b.maxAlign ≤ 2 ^ 32)

include hpow hmax

/-- A plain block serves every layout that a plain size serves. -/
theorem answered_of_plain {ask : HeapOp β (Option Nat)} {r : Option Nat}
    (hplain : l.plainSize b.maxAlign = some n)
    (hr : Answered b.maxAlign (n + width b < Word.limit) ask h r) :
    Answered l.align (l.Passes b.maxAlign) ask h r := by
  apply hr.mono
  · exact dvd_of_isPowerOfTwo l.isPowerOfTwo_align hpow (Layout.plainSize_eq_some hplain).1
  · intro hpasses
    have hlt := order_lt hmax hpasses
    unfold order at hlt
    rw [hplain] at hlt
    exact hlt

theorem take_answers {ask : Nat → HeapOp β (Option Nat)} (hv : c.valid h)
    (hpasses : l.Passes b.maxAlign)
    (hask : ∀ total, b.maxAlign ≤ total → 0 < total → total < Word.limit →
      Returns (ask total) h fun r _ => ∀ q ∈ r, b.maxAlign ∣ q) :
    Returns ((headered b).take (allocBy b ask) l) h fun r _ =>
      Answered l.align (l.Passes b.maxAlign)
        (if l.align ≤ b.maxAlign then ask (order b l) else b.alloc (order b l)) h
        (r.map Block.ptr) := by
  have hlt := order_lt hmax hpasses
  unfold Strategy.take
  show Returns (match l.plainSize b.maxAlign with
    | some size => allocBy b ask size
    | none => allocAligned b (Size.clamp l.size) l.align) h _
  unfold order at hlt ⊢
  cases hplain : l.plainSize b.maxAlign with
  | some n =>
    simp only
    rw [if_pos (Layout.plainSize_eq_some hplain).1]
    apply (allocBy_answers hpow hask).imp
    intro r _ hr
    exact answered_of_plain hpow hmax hplain hr
  | none =>
    have hbeyond := Layout.plainSize_eq_none hplain
    rw [hplain] at hlt
    simp only
    rw [if_neg (Nat.not_le_of_lt hbeyond)]
    have hsmall : Size.clamp l.size < Size.bound := by
      unfold Layout.Passes at hpasses
      rw [hplain, Option.getD_none] at hpasses
      exact Size.clamp_lt (Size.lt_bound (by simp [hpasses]))
    apply (allocAligned_answers hv (Size.clamp_pos l.size) hsmall l.isPowerOfTwo_align hbeyond).imp
    intro r _ hr
    exact hr.mono (Nat.dvd_refl _) fun _ => hlt

/-- A new block of any kind is asked for as a new block. -/
theorem take_alloc_answers (hc : c.Aligns) (hv : c.valid h) (hpasses : l.Passes b.maxAlign) :
    Returns ((headered b).take (headered b).alloc l) h fun r _ =>
      Answered l.align (l.Passes b.maxAlign) (b.alloc (order b l)) h (r.map Block.ptr) := by
  apply (take_answers hpow hmax hv hpasses fun total => hc.alloc hv).imp
  intro r h' hr
  rw [ite_self] at hr
  exact hr

/-- A block of any kind is resized into a plain one. -/
theorem realloc_answers (hexact : ∀ l, l.asked ≤ l.bytes → due l l.asked) (hc : c.Aligns)
    {d : Holding} (hv : c.valid h) (hp : (custody c).stands p d h)
    (hplain : l.plainSize b.maxAlign = some n) (hlt : n < Size.bound) (layout : Layout)
    (size : Nat) :
    Returns (realloc b p n) h fun r _ => Answered l.align (l.Passes b.maxAlign)
      ((Action.layoutRealloc (some p) layout size).asks b h.memory l) h
      (r.map fun y => y.block.ptr) := by
  obtain ⟨x, hf⟩ := found hv hp
  have hle := (Layout.plainSize_eq_some hplain).1
  have horder : order b l = n + width b := by
    unfold order
    rw [hplain]
  unfold Action.asks
  simp only [hf.read, hf.start, horder]
  by_cases hx : x.align = 0
  · rw [if_pos ⟨hle, hx⟩]
    apply (realloc_plain_answers hc hpow hv hf hx).imp
    intro r _ hr
    exact answered_of_plain hpow hmax hplain hr
  · rw [if_neg fun h => hx h.2]
    have hpos := (Layout.le_plainSize hplain).2
    apply (realloc_far_answers hexact hc hpow hv hp hf hx hpos hlt).imp
    intro r _ hr
    exact answered_of_plain hpow hmax hplain hr

end Plain

end Strategy.Headered

/-! ## What the ledger answers -/

namespace Action

/-- How a call is answered that asks for `size` bytes at a multiple of `align`. -/
structure Met (b : Backend β) (a : Action) (size align : Nat) (l : Ledger β) (r : Option Nat)
    (l' : Ledger β) : Prop where
  aligned : ∀ q ∈ r, align ∣ q
  enough : ∀ q ∈ r, ∃ u,
    Ledger.usableSize (Strategy.headered b) q l' = .ok u l' ∧ size ≤ u
  refused : ∀ layout, Layout.of? size align = some layout → layout.Passes b.maxAlign →
    (r = none ↔ (a.asks b l.heap.memory layout).Refuses l.heap)

section Met

variable {b : Backend β} {due : Lease → Nat → Prop} {c : b.Contract due}
  {hexact : ∀ l, l.asked ≤ l.bytes → due l l.asked} {hs : Holdings} {l l' l'' : Ledger β}
  {a : Action} {size align : Nat} {gone r ptr : Option Nat} {layout : Layout} {host : Host}
  {mode : Mode}

/-- There is no such layout, and nothing comes of it. -/
theorem Met.of_none (hlayout : Layout.of? size align = none) :
    Met b a size align l none l' where
  aligned := fun _ hq => nomatch hq
  enough := fun _ hq => nomatch hq
  refused := by
    intro layout hsome
    rw [hlayout] at hsome
    cases hsome

/-- Without a pointer it makes no difference what the ledger is by then. -/
theorem Met.congr_none (h : Met b a size align l none l') : Met b a size align l none l'' where
  aligned := h.aligned
  enough := fun _ hq => nomatch hq
  refused := h.refused

theorem Met.of_answered (hlayout : Layout.of? size align = some layout)
    (hoffered : Ledger.Offered (Strategy.Headered.custody c) hs gone size l r l')
    (hanswered : Answered align (layout.Passes b.maxAlign) (a.asks b l.heap.memory layout)
      l.heap r) (hexact : ∀ l, l.asked ≤ l.bytes → due l l.asked) :
    Met b a size align l r l' where
  aligned := hanswered.aligned
  enough := by
    rintro q rfl
    obtain ⟨e, hpost, hsize⟩ := hoffered
    have hholds := hpost.deal.holds
    have hstands := hholds.stands q e exchange_came
    have husable := (Strategy.headeredContract c hexact).usableSize hholds.valid hstands
    exact ⟨e.usable, Ledger.usableSize_eq husable, hsize⟩
  refused := by
    intro layout' hlayout'
    rw [hlayout] at hlayout'
    cases hlayout'
    exact hanswered.refused

/-- Both forms of an allocation hand out what the attempt does. -/
theorem met_of_attempt {op : LedgerOp β (Except AllocError Nat)}
    (h : Returns op l fun r l' => Met b a size align l r.toOption l') :
    Ends (reported pointerReply op) l (fun r => Met b a size align l (Ending.came (.ok r)))
        (fun e => Met b a size align l (Ending.came (.error e))) ∧
      Ends (pointerReply <$> Ledger.orFail op) l
        (fun r => Met b a size align l (Ending.came (.ok r)))
        fun e => Met b a size align l (Ending.came (.error e)) := by
  constructor
  · unfold reported
    rw [ends_bind]
    apply h.imp
    intro r l' hr
    cases r with
    | ok q => exact ends_pure.2 hr
    | error e => exact ends_pure.2 hr
  · rw [ends_map]
    apply Ledger.orFail_ends h.ends
    · intro q l' hr
      exact hr
    · intro e l' hr
      exact hr.congr_none

/-- A resize by layout asks for a new block unless a plain block stays one. -/
theorem layoutRealloc_asks {m : Memory} {new : Layout}
    (h : ptr = none ∨ new.plainSize b.maxAlign = none) :
    (Action.layoutRealloc ptr layout size).asks b m new =
      b.alloc (Strategy.Headered.order b new) := by
  cases ptr with
  | none => rfl
  | some p =>
    obtain hnone | hplain := h
    · cases hnone
    · have hbeyond := Layout.plainSize_eq_none hplain
      unfold asks
      cases hread : Header.read m p with
      | error e => simp only [hread]
      | ok x => simp only [hread, Nat.not_le_of_lt hbeyond, false_and, if_false]

section Calls

variable (hc : c.Aligns) (hpow : b.maxAlign.isPowerOfTwo) (hmax : b.maxAlign ≤ 2 ^ 32)
  (hl : Ledger.Sound (Strategy.headeredContract c hexact).toCustody hs l)

include hc hpow hmax hl

/-- An aligned allocation, on behalf of any call for which a new block is asked. -/
theorem tryAllocAligned_met
    (hasks : ∀ layout, a.asks b l.heap.memory layout = b.alloc (Strategy.Headered.order b layout)) :
    Returns (Ledger.tryAllocAligned (.headered b) size align) l fun r l' =>
      Met b a size align l r.toOption l' := by
  cases hlayout : Layout.of? size align with
  | none =>
    unfold Ledger.tryAllocAligned
    rw [hlayout]
    exact ends_pure.2 (.of_none hlayout)
  | some layout =>
    obtain ⟨-, rfl⟩ := Layout.of?_eq_some hlayout
    have hgiven : Returns (Ledger.tryAllocAligned (.headered b) size layout.align) l
        (Ledger.Given (Strategy.headeredContract c hexact).toCustody hs size l) :=
      Ledger.returns_of_honours trivial (Ledger.tryAllocAligned_ends hl)
    have hanswered := Ledger.tryAllocAligned_answers (s := .headered b) (l := l)
      (P := Answered layout.align (layout.Passes b.maxAlign) (a.asks b l.heap.memory layout) l.heap)
      hlayout Answered.blocked fun hpasses => by
        rw [hasks]
        exact Strategy.Headered.take_alloc_answers hpow hmax hc hl.holds.valid hpasses
    apply (hgiven.and hanswered).imp
    intro r l' hr
    exact .of_answered hlayout hr.1.offered hr.2 hexact

theorem allocAligned_met : Ends ((Action.allocAligned mode size align).perform (.headered b) host) l
    (fun r => Met b (.allocAligned mode size align) size align l (Ending.came (.ok r)))
    fun e => Met b (.allocAligned mode size align) size align l (Ending.came (.error e)) := by
  have hmet : Returns (Ledger.tryAllocAligned (.headered b) size align) l fun r l' =>
      Met b (.allocAligned mode size align) size align l r.toOption l' :=
    tryAllocAligned_met hc hpow hmax hl fun _ => rfl
  have hforms := met_of_attempt hmet
  cases mode with
  | attempt => exact hforms.1
  | orFail => exact hforms.2

theorem layoutAlloc_met :
    Returns (Ledger.layoutAlloc (.headered b) layout) l
      (Met b (.layoutAlloc layout) layout.size layout.align l) := by
  unfold Ledger.layoutAlloc Ledger.pointer?
  rw [Returns, ends_bind]
  have hmet : Returns (Ledger.tryAllocAligned (.headered b) layout.size layout.align) l fun r l' =>
      Met b (.layoutAlloc layout) layout.size layout.align l r.toOption l' :=
    tryAllocAligned_met hc hpow hmax hl fun _ => rfl
  apply hmet.imp
  intro r l' hr
  cases r with
  | error e => exact ends_pure.2 hr
  | ok q => exact ends_pure.2 hr

theorem layoutAllocZeroed_met :
    Returns (Ledger.layoutAllocZeroed (.headered b) layout) l
      (Met b (.layoutAllocZeroed layout) layout.size layout.align l) := by
  have hoffered : Returns (Ledger.layoutAllocZeroed (.headered b) layout) l
      (Ledger.Offered (Strategy.headeredContract c hexact).toCustody hs none layout.size l) :=
    Ledger.returns_of_honours trivial (Ledger.layoutAllocZeroed_ends hl)
  have hanswered := Ledger.layoutAllocZeroed_answers (s := .headered b) (l := l)
    (P := Answered layout.align (layout.Passes b.maxAlign)
      ((Action.layoutAllocZeroed layout).asks b l.heap.memory layout) l.heap)
    Answered.blocked fun hpasses =>
      Strategy.Headered.take_answers hpow hmax hl.holds.valid hpasses fun total =>
        hc.allocZeroed hl.holds.valid
  apply (hoffered.and hanswered).imp
  intro r l' hr
  exact .of_answered layout.of?_self hr.1 hr.2 hexact

theorem layoutRealloc_met (hptr : ∀ p ∈ ptr, (hs p).isSome) :
    Returns (Ledger.layoutRealloc (.headered b) ptr layout size) l
      (Met b (.layoutRealloc ptr layout size) size layout.align l) := by
  have hoffered : Returns (Ledger.layoutRealloc (.headered b) ptr layout size) l
      (Ledger.Offered (Strategy.headeredContract c hexact).toCustody hs ptr size l) :=
    Ledger.returns_of_honours trivial (Ledger.layoutRealloc_ends hl hptr)
  cases hnew : Layout.of? size layout.align with
  | none =>
    unfold Ledger.layoutRealloc
    rw [hnew]
    exact ends_pure.2 (.of_none hnew)
  | some new =>
    have halign : layout.align = new.align := (Layout.of?_eq_some hnew).2.symm
    have hanswered := Ledger.layoutRealloc_answers (s := .headered b) (l := l)
      (P := Answered layout.align (new.Passes b.maxAlign)
        ((Action.layoutRealloc ptr layout size).asks b l.heap.memory new) l.heap)
      hnew Answered.blocked
      (fun hpasses hfresh => by
        rw [layoutRealloc_asks hfresh, halign]
        exact Strategy.Headered.take_alloc_answers hpow hmax hc hl.holds.valid hpasses)
      (fun p n hp hplain hlt => by
        subst hp
        obtain ⟨d, hd⟩ := Option.isSome_iff_exists.1 (hptr p rfl)
        rw [halign]
        exact Strategy.Headered.realloc_answers hpow hmax hexact hc hl.holds.valid
          (hl.holds.stands p d hd) hplain hlt layout size)
    apply (Ends.and hoffered hanswered).imp
    · intro r l' hr
      exact .of_answered hnew hr.1 hr.2 hexact
    · intro e l' hstop
      exact hstop.1

/-- Every call that wants memory of a size and an alignment is answered in this way. -/
theorem perform_met (hptr : ∀ p ∈ a.pointer?, (hs p).isSome) (hwants : a.wants = some (size, align)) :
    Ends (a.perform (.headered b) host) l
      (fun r => Met b a size align l (Ending.came (.ok r)))
      fun e => Met b a size align l (Ending.came (.error e)) := by
  unfold wants at hwants
  split at hwants
  · cases hwants
    exact allocAligned_met hc hpow hmax hl
  · cases hwants
    unfold perform
    rw [ends_map]
    exact (layoutAlloc_met hc hpow hmax hl).ends
  · cases hwants
    unfold perform
    rw [ends_map]
    exact (layoutAllocZeroed_met hc hpow hmax hl).ends
  · cases hwants
    unfold perform
    rw [ends_map]
    exact (layoutRealloc_met hc hpow hmax hl hptr).ends
  · cases hwants

end Calls

end Met

end Action

/-! ## At a desk -/

namespace Desk

section Served

variable {b : Backend β} {c : b.Contract Lease.Admits} {d : Desk β}

/-- Every pointer that is out is a multiple of the backend's alignment. -/
theorem Keeps.dvd_of_live {hexact : ∀ l, l.asked ≤ l.bytes → Lease.Admits l l.asked}
    {hs : Holdings} {p : Nat} (hc : c.Aligns) (hpow : b.maxAlign.isPowerOfTwo)
    (hk : Keeps ((Strategy.headeredContract c hexact).among
      (Strategy.Headered.handsOut hexact hc hpow)).toCustody hs d) (hp : p ∈ d.live) :
    b.maxAlign ∣ p := by
  obtain ⟨e, he⟩ := hk.holding hp
  exact (hk.sound.holds.stands p e he).2

end Served

/-- After every lawful run over headers, whatever is asked for next: all pointers that are out then
are multiples of the backend's alignment. A call that wants memory of a size and an alignment hands
out a multiple of that alignment, with at least that many usable bytes, or it hands out nothing. If
the size rules let it through it hands out nothing just when the backend has nothing to give for
the one request that is made on its behalf. -/
theorem alignments_served {b : Backend β} (c : b.Contract Lease.Admits) (hc : c.Aligns)
    (hpow : b.maxAlign.isPowerOfTwo) (hmax : b.maxAlign ≤ 2 ^ 32) {host : Host}
    (hhost : host.Confined) {heap : Heap β} (hheap : c.valid heap) (slots : Nat) {ms : List Move}
    (hms : Lawful (.headered b) host (opening heap slots) ms) (a : Action)
    (ha : (run (.headered b) host (opening heap slots) ms).Allows (.headered b) (.call a)) :
    let d := run (.headered b) host (opening heap slots) ms
    let d' := d.after (.headered b) host (.call a)
    let r := d.handed (.headered b) host (.call a)
    (∀ p ∈ d.live, b.maxAlign ∣ p) ∧ (∀ q ∈ r, q ∈ d'.live ∧ b.maxAlign ∣ q) ∧
      ∀ size align, a.wants = some (size, align) →
        (∀ q ∈ r, align ∣ q ∧
          ∃ u, Ledger.usableSize (.headered b) q d'.ledger = .ok u d'.ledger ∧ size ≤ u) ∧
        ∀ layout, Layout.of? size align = some layout → layout.Passes b.maxAlign →
          (r = none ↔ (a.asks b d.ledger.heap.memory layout).Refuses d.ledger.heap) := by
  intro d d' r
  have hexact : ∀ l, l.asked ≤ l.bytes → Lease.Admits l l.asked := fun _ => Lease.admits_asked
  have hgood := Strategy.Headered.handsOut hexact hc hpow
  -- The pointers are followed under the contract that knows their alignment, and what is asked of
  -- the strategy next is answered under its own.
  let k := (Strategy.headeredContract c hexact).among hgood
  have hopen : Keeps k.toCustody (fun _ => none) (opening heap slots) := keeps_opening hheap slots
  obtain ⟨hs, hrun⟩ := hopen.run hhost hms
  obtain ⟨hs', hafter⟩ := hrun.keeps.after hhost ha
  have hlive : ∀ p ∈ d'.live, b.maxAlign ∣ p := fun p hp =>
    Keeps.dvd_of_live hc hpow hafter.keeps hp
  refine ⟨fun p hp => Keeps.dvd_of_live hc hpow hrun.keeps hp, ?_, ?_⟩
  · intro q hq
    have hout : q ∈ d'.live := Finset.mem_union_right _ (Option.mem_toFinset.2 hq)
    exact ⟨hout, hlive q hout⟩
  · intro size align hwants
    obtain ⟨hs₀, hk, -⟩ := keeps_run (.headered b c) hhost hheap slots hms
    have hptr : ∀ p ∈ a.pointer?, (hs₀ p).isSome := fun p hp => (hk.live p).1 (ha.2 p hp)
    have hsound : Ledger.Sound (Strategy.headeredContract c hexact).toCustody hs₀ d.ledger :=
      hk.sound
    have hmet : a.Met b size align d.ledger r d'.ledger :=
      handed_of_ends (Action.perform_met hc hpow hmax hsound hptr hwants)
    refine ⟨?_, hmet.refused⟩
    intro q hq
    exact ⟨hmet.aligned q hq, hmet.enough q hq⟩

/-- In an arena whose resizes always move, a block of ten bytes at a multiple of 64 becomes one of
forty at another. -/
theorem alignments_served_arena :
    let b := (Arena.full { alwaysMove := true }).toBackend
    let d := run (.headered b) .unsupported (opening arenaHeap 4) (arenaVisit (Arena.base + 16))
    let a := Action.layoutRealloc (some (Arena.base + 64)) ⟨10, 64, ⟨6, rfl⟩, by decide⟩ 40
    ∃ q, d.handed (.headered b) .unsupported (.call a) = some q ∧ 64 ∣ q := by
  intro b d a
  have hms : Lawful (.headered b) .unsupported (opening arenaHeap 4)
      (arenaVisit (Arena.base + 16)) := by
    refine ⟨⟨rfl, ?_⟩, trivial, ⟨rfl, ?_⟩, ⟨rfl, ?_⟩, trivial⟩
    · decide
    · decide
    · decide +kernel
  have ha : d.Allows (.headered b) (.call a) := by
    refine ⟨rfl, ?_⟩
    decide +kernel
  have hhonest : ({ alwaysMove := true } : Arena.Config).Honest := Arena.honest_default.moving
  have hserved := alignments_served (Arena.fullContract hhonest).toContract
    (Arena.fullContract_aligns hhonest ⟨4, rfl⟩ (by decide) rfl) ⟨4, rfl⟩ (by decide)
    Host.confined_unsupported arenaHeap_valid 4 hms a ha
  have hhanded : d.handed (.headered b) .unsupported (.call a) = some (Arena.base + 192) := by
    decide +kernel
  obtain ⟨hmet, -⟩ := hserved.2.2 40 64 rfl
  exact ⟨_, hhanded, (hmet _ hhanded).1⟩

end Desk

end HeapLedger
