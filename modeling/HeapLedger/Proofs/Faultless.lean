import HeapLedger.Proofs.Accounting
import HeapLedger.Proofs.Checked

/-!
# `HeapLedger/Proofs/Faultless.lean` — no call meets a fault

A fault says that somebody broke a rule: a sum left the word, a header was overwritten, a backend
misplaced a block, a size was not the block's own. Where callers pass pointers that are out and
write to usable bytes, and the backend keeps its contract, no call meets one, for any sizes and
alignments whatever. A call returns, unless it is of the forms that may not fail
(`Action.insists`); those call the handler when there is no memory, and stop for no other reason
(`Action.Proceeds`).

That is about the checks that calls make. `calls_never_fault` adds those that a machine could make:
the arithmetic between the checks stays within the word and above zero, for every number that can
be passed (`ChecksPass`) and in front of every pointer that is out (`Adapter.Located`).
-/

set_option autoImplicit false

namespace HeapLedger

variable {β : Type}

/-! ## Calls -/

namespace Action

/-- The call may not fail, and the handler is called instead. -/
def insists : Action → Bool
  | .alloc .orFail _ | .allocUsable .orFail _ | .allocZeroed .orFail _
  | .allocZeroedUsable .orFail _ | .allocZeroedArray .orFail _ _ | .allocAligned .orFail _ _
  | .realloc .orFail _ _ | .reallocUsable .orFail _ _ | .dupString _ => true
  | _ => false

variable {s : Strategy β} {k : s.Contract} {hs : Holdings} {l : Ledger β} {host : Host}
  {a : Action} {mode : Mode} {size : Nat} {ptr : Option Nat}

/-- The call returns, or it may not fail and has called the handler. -/
abbrev Proceeds (s : Strategy β) (host : Host) (l : Ledger β) (a : Action) : Prop :=
  Ends (a.perform s host) l (fun _ _ => True) fun e _ =>
    a.insists = true ∧ ∃ handler size, e = .outOfMemory handler size

theorem Proceeds.returns (h : Proceeds s host l a) (hnot : a.insists = false) :
    ∃ r l', a.perform s host l = .ok r l' := by
  have hreturns : Returns (a.perform s host) l fun _ _ => True := by
    apply h.imp
    · intros
      trivial
    · intro e l' hstop
      rw [hnot] at hstop
      exact Bool.false_ne_true hstop.1
  obtain ⟨r, l', hrun, -⟩ := hreturns.exists
  exact ⟨r, l', hrun⟩

theorem Proceeds.ne_fault (h : Proceeds s host l a) (fault : Fault) (l' : Ledger β) :
    a.perform s host l ≠ .error (.fault fault) l' := by
  intro hrun
  obtain ⟨-, handler, size, hhalt⟩ := h.of_error hrun
  cases hhalt

/-! ### Forms -/

theorem reported_proceeds {α : Type} {reply : α → Reply Nat} {op : LedgerOp β (Except AllocError α)}
    {P : Except AllocError α → Ledger β → Prop} {stop : Halt → Ledger β → Prop}
    (h : Returns op l P) : Ends (reported reply op) l (fun _ _ => True) stop := by
  unfold reported
  rw [ends_bind]
  apply h.imp
  intro r l' _
  cases r with
  | ok x => exact ends_pure.2 trivial
  | error e => exact ends_pure.2 trivial

/-- What may not fail stops at the handler, and nowhere else. -/
theorem orFail_proceeds {α : Type} {op : LedgerOp β (Except AllocError α)}
    {P : Except AllocError α → Ledger β → Prop} (hinsists : a.insists = true)
    (h : Returns op l P) :
    Ends (Ledger.orFail op) l (fun _ _ => True) fun e _ =>
      a.insists = true ∧ ∃ handler size, e = .outOfMemory handler size := by
  apply Ledger.orFail_ends h.ends
  · intros
    trivial
  · intro e l' _
    exact ⟨hinsists, _, _, rfl⟩

/-- By layout a call never stops at all, as alignments are honoured. -/
theorem layout_proceeds {op : LedgerOp β (Option Nat)} {P : Option Nat → Ledger β → Prop}
    {stop : Halt → Ledger β → Prop} (hk : k.honours) (h : Ends op l P (Ledger.Astray k l)) :
    Ends (Reply.pointer <$> op) l (fun _ _ => True) stop := by
  rw [ends_map]
  apply (Ledger.returns_of_honours hk h).imp
  intros
  trivial

/-! ### Each kind of call -/

section Kinds

variable (hl : Ledger.Sound k.toCustody hs l)

include hl

theorem alloc_proceeds : Proceeds s host l (.alloc mode size) := by
  cases mode with
  | attempt => exact reported_proceeds (Ledger.tryAlloc_ends hl)
  | orFail =>
    unfold Proceeds perform Ledger.alloc Ledger.allocUsable
    rw [ends_map, ends_map]
    exact orFail_proceeds rfl (Ledger.tryAllocUsable_ends hl)

theorem allocUsable_proceeds : Proceeds s host l (.allocUsable mode size) := by
  cases mode with
  | attempt => exact reported_proceeds (Ledger.tryAllocUsable_ends hl)
  | orFail =>
    unfold Proceeds perform Ledger.allocUsable
    rw [ends_map]
    exact orFail_proceeds rfl (Ledger.tryAllocUsable_ends hl)

theorem allocZeroed_proceeds : Proceeds s host l (.allocZeroed mode size) := by
  cases mode with
  | attempt => exact reported_proceeds (Ledger.tryAllocZeroed_ends hl)
  | orFail =>
    unfold Proceeds perform Ledger.allocZeroed Ledger.allocZeroedUsable
    rw [ends_map, ends_map]
    exact orFail_proceeds rfl (Ledger.tryAllocZeroedUsable_ends hl)

theorem allocZeroedUsable_proceeds : Proceeds s host l (.allocZeroedUsable mode size) := by
  cases mode with
  | attempt => exact reported_proceeds (Ledger.tryAllocZeroedUsable_ends hl)
  | orFail =>
    unfold Proceeds perform Ledger.allocZeroedUsable
    rw [ends_map]
    exact orFail_proceeds rfl (Ledger.tryAllocZeroedUsable_ends hl)

theorem allocZeroedArray_proceeds {count elem : Nat} :
    Proceeds s host l (.allocZeroedArray mode count elem) := by
  cases mode with
  | attempt => exact reported_proceeds (Ledger.tryAllocZeroedArray_ends hl)
  | orFail =>
    unfold Proceeds perform Ledger.allocZeroedArray
    rw [ends_map]
    exact orFail_proceeds rfl (Ledger.tryAllocZeroedArray_ends hl)

theorem allocAligned_proceeds (hk : k.honours) {align : Nat} :
    Proceeds s host l (.allocAligned mode size align) := by
  have h : Returns (Ledger.tryAllocAligned s size align) l (Ledger.Given k.toCustody hs size l) :=
    Ledger.returns_of_honours hk (Ledger.tryAllocAligned_ends hl)
  cases mode with
  | attempt => exact reported_proceeds h
  | orFail =>
    unfold Proceeds perform Ledger.allocAligned
    rw [ends_map]
    exact orFail_proceeds rfl h

/-- A resize that may not fail, for both kinds of reply. -/
theorem reallocUsable_ends_proceeds (hptr : ∀ p ∈ ptr, (hs p).isSome)
    (hinsists : a.insists = true) :
    Ends (Ledger.reallocUsable s ptr size) l (fun _ _ => True) fun e _ =>
      a.insists = true ∧ ∃ handler size, e = .outOfMemory handler size := by
  unfold Ledger.reallocUsable
  rw [ends_bind]
  apply (Ledger.tryReallocUsable_ends hl hptr).imp
  intro r l' _
  cases r with
  | ok r => exact ends_pure.2 trivial
  | error e =>
    simp only
    split
    · exact ends_pure.2 trivial
    · rw [Ledger.fail_ends]
      exact ⟨hinsists, _, _, rfl⟩

theorem realloc_proceeds (hptr : ∀ p ∈ ptr, (hs p).isSome) :
    Proceeds s host l (.realloc mode ptr size) := by
  cases mode with
  | attempt => exact reported_proceeds (Ledger.tryRealloc_ends hl hptr)
  | orFail =>
    unfold Proceeds perform Ledger.realloc
    rw [ends_map, ends_map]
    exact reallocUsable_ends_proceeds hl hptr rfl

theorem reallocUsable_proceeds (hptr : ∀ p ∈ ptr, (hs p).isSome) :
    Proceeds s host l (.reallocUsable mode ptr size) := by
  cases mode with
  | attempt => exact reported_proceeds (Ledger.tryReallocUsable_ends hl hptr)
  | orFail =>
    unfold Proceeds perform
    rw [ends_map]
    exact reallocUsable_ends_proceeds hl hptr rfl

theorem dupString_proceeds {text : List UInt8} : Proceeds s host l (.dupString text) := by
  unfold Proceeds perform Ledger.dupString Ledger.alloc Ledger.allocUsable
  rw [ends_map, ends_bind, ends_map]
  apply (orFail_proceeds rfl (Ledger.tryAllocUsable_ends hl)).mono
  intro r l' _
  rw [ends_bind, ends_onHeap, ends_mapMemory, ends_pure]
  trivial

theorem free_proceeds (hptr : ∀ p ∈ ptr, (hs p).isSome) : Proceeds s host l (.free ptr) := by
  unfold Proceeds perform
  rw [ends_map]
  apply (Ledger.free_ends hl hptr).imp
  intros
  trivial

/-- Among the sizes that a caller may name for a block, only its own is right. -/
theorem freeWithSize_proceeds {usable : Nat} (hptr : ∀ p ∈ ptr, (hs p).isSome)
    (hsize : ∀ p ∈ ptr, ∀ d, hs p = some d → usable = d.usable) :
    Proceeds s host l (.freeWithSize ptr usable) := by
  unfold Proceeds perform
  rw [ends_map]
  apply (Ledger.freeWithSize_ends hl hptr).imp
  · intros
    trivial
  · intro e l' hwrong
    obtain ⟨⟨p, d, hp, hd, hne, -⟩, -⟩ := hwrong
    exact absurd (hsize p hp d hd) hne

theorem usableSize_ends_proceeds {p : Nat} {ret : Nat → Ledger β → Prop}
    {stop : Halt → Ledger β → Prop} (hp : (hs p).isSome) (hret : ∀ n, ret n l) :
    Ends (Ledger.usableSize s p) l ret stop := by
  obtain ⟨d, hd⟩ := Option.isSome_iff_exists.1 hp
  have hlook := k.usableSize hl.holds.valid (hl.holds.stands p d hd)
  unfold Ledger.usableSize
  rw [ends_onHeap, ends_query hlook]
  exact hret _

theorem allocationSize_proceeds {p : Nat} (hp : (hs p).isSome) :
    Proceeds s host l (.allocationSize p) := by
  obtain ⟨d, hd⟩ := Option.isSome_iff_exists.1 hp
  have hlook := k.footprint hl.holds.valid (hl.holds.stands p d hd)
  unfold Proceeds perform Ledger.allocationSize
  rw [ends_map, ends_onHeap, ends_query hlook]
  trivial

theorem adviseUnused_proceeds {hint : Nat} (hptr : ∀ p ∈ ptr, (hs p).isSome) :
    Proceeds s host l (.adviseUnused ptr hint) := by
  unfold Proceeds perform Ledger.adviseUnused
  rw [ends_map]
  cases ptr with
  | none => exact ends_pure.2 trivial
  | some p =>
    simp only
    split
    · exact ends_pure.2 trivial
    rw [ends_bind]
    apply usableSize_ends_proceeds hl (hptr p rfl)
    intro usable
    split
    · exact ends_pure.2 trivial
    rw [ends_bind, ends_get, ends_bind, ends_modify, ends_bind, ends_emit, ends_pure]
    trivial

end Kinds

/-- Every call proceeds, if its pointer is out and it names a block's own size where it names one. -/
theorem perform_proceeds (hk : k.honours) (hl : Ledger.Sound k.toCustody hs l)
    (hbooked : a.booked = true) (hptr : ∀ p ∈ a.pointer?, (hs p).isSome)
    (hsize : ∀ p usable, a = .freeWithSize (some p) usable → ∀ d, hs p = some d →
      usable = d.usable) : Proceeds s host l a := by
  cases a with
  | alloc mode size => exact alloc_proceeds hl
  | allocUsable mode size => exact allocUsable_proceeds hl
  | allocZeroed mode size => exact allocZeroed_proceeds hl
  | allocZeroedUsable mode size => exact allocZeroedUsable_proceeds hl
  | allocZeroedArray mode count elem => exact allocZeroedArray_proceeds hl
  | allocAligned mode size align => exact allocAligned_proceeds hl hk
  | realloc mode ptr size => exact realloc_proceeds hl hptr
  | reallocUsable mode ptr size => exact reallocUsable_proceeds hl hptr
  | dupString text => exact dupString_proceeds hl
  | free ptr => exact free_proceeds hl hptr
  | freeWithSize ptr usable =>
    apply freeWithSize_proceeds hl hptr
    rintro p rfl
    exact hsize p usable rfl
  | usableSize p =>
    unfold Proceeds perform
    rw [ends_map]
    exact usableSize_ends_proceeds hl (hptr p rfl) fun _ => trivial
  | allocationSize p => exact allocationSize_proceeds hl (hptr p rfl)
  | adviseUnused ptr hint => exact adviseUnused_proceeds hl hptr
  | layoutAlloc layout => exact layout_proceeds hk (Ledger.layoutAlloc_ends hl)
  | layoutAllocZeroed layout => exact layout_proceeds hk (Ledger.layoutAllocZeroed_ends hl)
  | layoutRealloc ptr layout size => exact layout_proceeds hk (Ledger.layoutRealloc_ends hl hptr)
  | layoutFree ptr layout =>
    unfold Proceeds perform
    rw [ends_map]
    apply (Ledger.layoutFree_ends hl hptr).imp
    intros
    trivial
  | setBackgroundThread enable =>
    unfold Proceeds perform Ledger.setBackgroundThread
    rw [ends_map, ends_onHeap]
    apply (k.setBackgroundThread enable hl.holds.valid).imp
    intros
    trivial
  | purge =>
    unfold Proceeds perform Ledger.purge
    rw [ends_map, ends_bind, ends_onHeap]
    apply (k.purge hl.holds.valid).imp
    intro outcome heap _
    rw [ends_bind, ends_emit, ends_pure]
    trivial
  | setHandler handler =>
    unfold Proceeds perform Ledger.setHandler
    rw [ends_map, ends_bind, ends_emit, ends_modify]
    trivial
  | info =>
    unfold Proceeds perform Ledger.info
    rw [ends_map, ends_bind, ends_get, ends_pure]
    trivial
  | record =>
    unfold Proceeds perform
    rw [ends_bind, ends_get, ends_pure]
    trivial
  | handler =>
    unfold Proceeds perform Ledger.handler
    rw [ends_map, ends_bind, ends_get, ends_pure]
    trivial
  | blockAlloc | blockAllocZeroed | blockAllocAligned | blockRealloc | blockFree
  | blockFreeWithSize | blockUsableSize | blockFootprint => cases hbooked

end Action

/-! ## Pointers -/

/-- From the pointer the strategy gets to the backend's own, reading no word and taking no
difference that is below zero, and to the block's cost, with no sum beyond the word. -/
def Adapter.Located (a : Adapter β) (h : Heap β) (p : Nat) : Prop :=
  match a with
  | .native _ _ => True
  | .headered b _ => ∃ x, Header.read h.memory p = .ok x ∧
      (∀ n ≤ x.words, Header.wordAddressChecked p n = some (Header.wordAddress p n)) ∧
      Header.startChecked (Strategy.Headered.width b) h.memory p x = some (a.raw h p) ∧
      Header.footprint (Strategy.Headered.width b) x =
        .ok (Header.cost (Strategy.Headered.width b) x)

theorem Adapter.located_of_stands (a : Adapter β) {h : Heap β} {p : Nat} {d : Holding}
    (hv : a.contract.valid h) (hp : a.contract.stands p d h) : a.Located h p := by
  have hraw := a.raw_of_stands hv hp
  cases a with
  | native b c => trivial
  | headered b c =>
    obtain ⟨x, hf⟩ := Strategy.Headered.found hv hp
    obtain ⟨hwords, hstart⟩ := hf.stamped.checked (Strategy.Headered.two_words_le_width b)
    refine ⟨x, hf.read, hwords, ?_, Header.footprint_eq hf.fits⟩
    rw [hraw]
    exact hstart

namespace Desk

/-- At a desk that is kept, every call that keeps to the rules proceeds. -/
theorem Keeps.proceeds {s : Strategy β} {k : s.Contract} {hs : Holdings} {d : Desk β} {c : Action}
    (hk : Keeps k.toCustody hs d) (hhonours : k.honours) (host : Host)
    (hc : d.Allows s (.call c))
    (hsize : ∀ p usable, c = .freeWithSize (some p) usable →
      Ledger.usableSize s p d.ledger = .ok usable d.ledger) : c.Proceeds s host d.ledger := by
  have hptr : ∀ p ∈ c.pointer?, (hs p).isSome := fun p hp => (hk.live p).1 (hc.2 p hp)
  apply Action.perform_proceeds hhonours hk.sound hc.1 hptr
  -- What a caller reads off the ledger is the size in the table.
  rintro p usable rfl e he
  obtain ⟨e', he', hlook, -⟩ := hk.answers (hc.2 p rfl)
  obtain rfl : e = e' := Option.some.inj (he.symm.trans he')
  rw [hsize p usable rfl] at hlook
  cases hlook
  rfl

/-- After every lawful run no call meets a fault, for any arguments, if it passes pointers that are
out and frees with a block's own size where it names one. All calls return but those that may not
fail. The computations with sizes and addresses go through on a machine that checks every step, and
so do those by which the block of a pointer is found. -/
theorem calls_never_fault (a : Adapter β) (ha : a.Honours) (hmax : a.backend.maxAlign ≤ 2 ^ 32)
    {host : Host} (hhost : host.Confined) {heap : Heap β} (hheap : a.survey.valid heap)
    (slots : Nat) {ms : List Move} (hms : Lawful a.strategy host (opening heap slots) ms) :
    let d := run a.strategy host (opening heap slots) ms
    (∀ c, d.Allows a.strategy (.call c) →
      (∀ p usable, c = .freeWithSize (some p) usable →
        Ledger.usableSize a.strategy p d.ledger = .ok usable d.ledger) →
      (c.insists = false → ∃ r l, c.perform a.strategy host d.ledger = .ok r l) ∧
        ∀ fault l, c.perform a.strategy host d.ledger ≠ .error (.fault fault) l) ∧
      ChecksPass a.backend.maxAlign ∧ ∀ p ∈ d.live, a.Located d.ledger.heap p := by
  intro d
  obtain ⟨hs, hk, -⟩ := keeps_run a hhost hheap slots hms
  refine ⟨?_, checksPass hmax, ?_⟩
  · intro c hc hsize
    have hproceeds := hk.proceeds (a.contract_honours.2 ha) host hc hsize
    exact ⟨hproceeds.returns, hproceeds.ne_fault⟩
  · intro p hp
    obtain ⟨e, he⟩ := hk.holding hp
    exact a.located_of_stands hk.sound.holds.valid (hk.sound.holds.stands p e he)

/-- The block of ten bytes at a multiple of 64 is freed by its size. -/
theorem calls_never_fault_arena :
    let s := (Adapter.arenaHeadered Arena.honest_default).strategy
    let d := run s .unsupported (opening arenaHeap 4) (arenaVisit (Arena.base + 16))
    ∃ r l, (Action.freeWithSize (some (Arena.base + 64)) 10).perform s .unsupported d.ledger =
      .ok r l := by
  intro s d
  obtain ⟨hcalls, -⟩ := calls_never_fault (Adapter.arenaHeadered Arena.honest_default) trivial
    (by decide) Host.confined_unsupported arenaHeap_valid 4 lawful_arenaVisit
  have hlook : s.usableSize (Arena.base + 64) d.ledger.heap = .ok 10 := by decide +kernel
  have hallows : d.Allows s (.call (.freeWithSize (some (Arena.base + 64)) 10)) := by
    refine ⟨rfl, ?_⟩
    decide +kernel
  have hnamed : ∀ p usable,
      Action.freeWithSize (some (Arena.base + 64)) 10 = .freeWithSize (some p) usable →
      Ledger.usableSize s p d.ledger = .ok usable d.ledger := by
    intro p usable hcall
    obtain ⟨hp, husable⟩ := Action.freeWithSize.inj hcall
    rw [← Option.some.inj hp, ← husable]
    exact Ledger.usableSize_eq hlook
  exact (hcalls _ hallows hnamed).1 rfl

end Desk

end HeapLedger
