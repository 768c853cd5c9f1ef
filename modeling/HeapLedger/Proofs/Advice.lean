import HeapLedger.Proofs.Faultless
import HeapLedger.Proofs.Host
import HeapLedger.Proofs.Resizing
import HeapLedger.Proofs.SizedFree

/-!
# `HeapLedger/Proofs/Advice.lean` — advice takes whole pages of one block

A caller who no longer needs the content of a block can offer its pages to the host. Pages know
nothing of blocks: the first and the last bytes of a block share theirs with headers and with other
blocks. What is taken is every page that lies wholly inside the usable bytes and nothing besides,
and then those bytes are zero and all others are what they were (`Ledger.Advised`). A small hint, a
block without a whole page and a host that refuses come to the same, which is nothing.

So advice disturbs nobody (`Desk.Undisturbed`). Headers are where they were, the block that was
offered is as large as before, and it can be freed and resized as if nothing had happened.
-/

set_option autoImplicit false

namespace HeapLedger

variable {β : Type}

namespace Ledger

/-- The ledger after a host has left this memory and had this logged. -/
def released (l : Ledger β) (m : Memory) (events : List Event) : Ledger β :=
  { l with heap := ⟨m, l.heap.state⟩, log := l.log ++ events }

@[simp] theorem released_nil (l : Ledger β) : l.released l.heap.memory [] = l := by
  simp [released]

/-- A hint of so few bytes that there need not be a whole page among them. -/
def SmallHint (page hint : Nat) : Prop :=
  0 < hint ∧ hint < 2 * page

/-- What becomes of an offer of the `usable` bytes at `p`: the number of bytes that is told, and
the ledger afterwards. The whole pages among them are the `bytes` from `start`. -/
structure Advised (machine : Machine) (p usable hint start bytes : Nat) (l : Ledger β) (told : Nat)
    (l' : Ledger β) : Prop where
  pages : ∀ x, Host.InWholePage machine.pageSize p usable x ↔ start ≤ x ∧ x < start + bytes
  declined : SmallHint machine.pageSize hint ∨ bytes = 0 → told = 0 ∧ l' = l
  refused : ∀ e, machine.refusal start bytes = some e →
    told = 0 ∧ ∃ events, l' = l.released l.heap.memory events ∧
      (events = [] ∨ events = [.releaseRefused bytes e])
  taken : ¬ SmallHint machine.pageSize hint → bytes ≠ 0 → machine.refusal start bytes = none →
    told = bytes ∧ ∃ m, l' = l.released m [] ∧
      ∀ x, m.byte x = if start ≤ x ∧ x < start + bytes then 0 else l.heap.memory.byte x

section Offers

variable {a : Adapter β} {hs : Holdings} {l : Ledger β} {p hint : Nat} {e : Holding}
  {machine : Machine}

theorem adviseUnused_declined (hl : Sound a.contract.toCustody hs l) (hp : hs p = some e)
    (h : SmallHint machine.pageSize hint ∨ e.usable < machine.pageSize) :
    adviseUnused a.strategy machine.host (some p) hint l = .ok 0 l := by
  have husable := usableSize_eq (a.contract.usableSize hl.holds.valid (hl.holds.stands p e hp))
  unfold adviseUnused
  by_cases hguard : machine.host.pageSize = 0 ∨ (hint ≠ 0 ∧ hint / 2 < machine.host.pageSize)
  · simp only [if_pos hguard]
    rfl
  · have hsmall : e.usable < machine.host.pageSize := by
      refine h.resolve_left fun hhint => hguard (.inr ?_)
      obtain ⟨hpos, hlt⟩ := hhint
      exact ⟨by omega, Nat.div_lt_of_lt_mul hlt⟩
    simp only [if_neg hguard]
    rw [run_bind_ok husable, if_pos hsmall]
    rfl

theorem adviseUnused_offered (hl : Sound a.contract.toCustody hs l) (hp : hs p = some e)
    (hpage : 0 < machine.pageSize) (hhint : ¬ SmallHint machine.pageSize hint)
    (hlarge : ¬ e.usable < machine.pageSize) {n : Nat} {m : Memory} {events : List Event}
    (hrun : machine.releasePages p e.usable l.heap.memory = (n, m, events)) :
    adviseUnused a.strategy machine.host (some p) hint l = .ok n (l.released m events) := by
  have husable := usableSize_eq (a.contract.usableSize hl.holds.valid (hl.holds.stands p e hp))
  have hguard : ¬ (machine.host.pageSize = 0 ∨ (hint ≠ 0 ∧ hint / 2 < machine.host.pageSize)) := by
    rintro (hzero | ⟨hpos, hlt⟩)
    · exact Nat.ne_of_gt hpage hzero
    · have hfew : hint < machine.pageSize * 2 := (Nat.div_lt_iff_lt_mul Nat.two_pos).1 hlt
      exact hhint ⟨by omega, by omega⟩
  have hlarge' : ¬ e.usable < machine.host.pageSize := hlarge
  unfold adviseUnused
  simp only [if_neg hguard]
  rw [run_bind_ok husable, if_neg hlarge']
  show EStateM.Result.ok (machine.releasePages p e.usable l.heap.memory).1
    (l.released (machine.releasePages p e.usable l.heap.memory).2.1
      (machine.releasePages p e.usable l.heap.memory).2.2) = _
  rw [hrun]

theorem adviseUnused_advised (hl : Sound a.contract.toCustody hs l) (hp : hs p = some e)
    (hpage : machine.pageSize.isPowerOfTwo) (hint : Nat) :
    ∃ start bytes told m events,
      adviseUnused a.strategy machine.host (some p) hint l = .ok told (l.released m events) ∧
      Advised machine p e.usable hint start bytes l told (l.released m events) ∧
      ∀ x, m.byte x ≠ l.heap.memory.byte x → p ≤ x ∧ x < p + e.usable := by
  have hpos := Nat.pos_of_isPowerOfTwo hpage
  obtain ⟨-, hlo, hhi⟩ := hl.holds.inside hp
  obtain ⟨-, -, hfits⟩ := a.contract.fits hl.holds.valid (hl.holds.live hp)
  have hpages : ∀ x, Host.InWholePage machine.pageSize p e.usable x ↔ _ :=
    fun _ => Host.inWholePage_iff hpos
  obtain ⟨hzero, hrefused, htaken⟩ := machine.releasePages_run hpage
    (show p + e.usable ≤ Word.limit by omega) l.heap.memory
  have hfew : e.usable < machine.pageSize → Host.wholeBytes machine.pageSize p e.usable = 0 :=
    Host.wholeBytes_of_lt
  refine ⟨Word.roundUp p machine.pageSize, Host.wholeBytes machine.pageSize p e.usable, ?_⟩
  generalize Word.roundUp p machine.pageSize = start at *
  generalize Host.wholeBytes machine.pageSize p e.usable = bytes at *
  by_cases hnone : SmallHint machine.pageSize hint ∨ bytes = 0
  · have hdeclined : adviseUnused a.strategy machine.host (some p) hint l = .ok 0 l := by
      by_cases hskip : SmallHint machine.pageSize hint ∨ e.usable < machine.pageSize
      · exact adviseUnused_declined hl hp hskip
      · obtain ⟨hhint, hlarge⟩ := not_or.1 hskip
        have hrun := hzero (hnone.resolve_left hhint)
        rw [adviseUnused_offered hl hp hpos hhint hlarge hrun, released_nil]
    refine ⟨0, l.heap.memory, [], ?_, ⟨hpages, ?_, ?_, ?_⟩, fun x hx => absurd rfl hx⟩
    · rw [hdeclined, released_nil]
    · exact fun _ => ⟨rfl, released_nil l⟩
    · exact fun _ _ => ⟨rfl, [], rfl, .inl rfl⟩
    · exact fun hhint hsome => absurd hnone (not_or.2 ⟨hhint, hsome⟩)
  · obtain ⟨hhint, hsome⟩ := not_or.1 hnone
    have hlarge := mt hfew hsome
    cases hrefusal : machine.refusal start bytes with
    | some err =>
      obtain ⟨events, hrun, hevents⟩ := hrefused err hrefusal
      have hoffered := adviseUnused_offered hl hp hpos hhint hlarge hrun
      refine ⟨0, l.heap.memory, events, hoffered, ⟨hpages, ?_, ?_, ?_⟩, fun x hx => absurd rfl hx⟩
      · exact fun h => absurd h hnone
      · intro err' herr
        rw [hrefusal] at herr
        cases herr
        exact ⟨rfl, events, rfl, hevents⟩
      · intro _ _ hgranted
        rw [hrefusal] at hgranted
        cases hgranted
    | none =>
      have hoffered := adviseUnused_offered hl hp hpos hhint hlarge (htaken hsome hrefusal)
      refine ⟨bytes, _, [], hoffered, ⟨hpages, ?_, ?_, ?_⟩, ?_⟩
      · exact fun h => absurd h hnone
      · intro err herr
        rw [hrefusal] at herr
        cases herr
      · exact fun _ _ _ => ⟨rfl, _, rfl, Memory.byte_fill _ _ _ _⟩
      · intro x hx
        obtain ⟨first, -, hfirst, hend, hbelow, habove⟩ := (hpages x).2 (Memory.changed_fill hx)
        omega

end Offers

end Ledger

namespace Desk

/-- The holder of `q` may have lost content, but nothing else. At both desks the same block stands
behind `q`, with the same sizes and the same header, and at the second it can be freed and resized
as one does with such a block. -/
structure Retained (a : Adapter β) (host : Host) (q : Nat) (d d' : Desk β) : Prop where
  block : ∃ start usable size, a.Traced q start usable size d.ledger.heap ∧
    a.Traced q start usable size d'.ledger.heap ∧
    Memory.Agree start (q - start) d.ledger.heap.memory d'.ledger.heap.memory
  freed : (d'.answer a.strategy host (.free (some q))).1 = .ok .done ∧
    Forfeited a q d' (d'.after a.strategy host (.call (.free (some q))))
  resizes : ∀ n, ∃ r, (d'.answer a.strategy host (.reallocUsable .attempt (some q) n)).1 = .ok r
  moves : a.Preserves → ∀ n, 0 < n → Size.tooLarge n = false →
    let c := Action.reallocUsable .attempt (some q) n
    ∀ r u, (d'.answer a.strategy host c).1 = .ok (.sized r u) →
      ∃ q' old, r = some q' ∧ Ledger.usableSize a.strategy q d'.ledger = .ok old d'.ledger ∧
        Moved a.strategy q q' (min old n) d' (d'.after a.strategy host (.call c))

/-- From `d` to `d'` the holder of `p` may have lost content, and nobody else has lost anything. -/
structure Undisturbed (a : Adapter β) (host : Host) (p : Nat) (d d' : Desk β) : Prop where
  used : d'.ledger.usedMemory = d.ledger.usedMemory
  live : d'.live = d.live
  blocks : a.survey.live d'.ledger.heap = a.survey.live d.ledger.heap
  same : ∀ q ∈ d.live, q ≠ p → SameFor a.strategy q d d'
  retained : ∀ q ∈ d.live, Retained a host q d d'

section Releases

variable {a : Adapter β} {hs : Holdings} {d d' : Desk β} {p q : Nat} {e : Holding} {host : Host}
  {m : Memory} {events : List Event}

theorem Keeps.frees (hk : Keeps a.contract.toCustody hs d) (hq : q ∈ d.live) :
    (d.answer a.strategy host (.free (some q))).1 = .ok .done ∧
      Forfeited a q d (d.after a.strategy host (.call (.free (some q)))) := by
  obtain ⟨e, he⟩ := hk.holding hq
  obtain ⟨l, -, hpost, hanswer, hafter⟩ := freed host hk he
  rw [hanswer, hafter]
  exact ⟨rfl, forfeited_of_posts hk he hpost⟩

theorem Keeps.resizes (hk : Keeps a.contract.toCustody hs d) (hq : q ∈ d.live) (n : Nat) :
    ∃ r, (d.answer a.strategy host (.reallocUsable .attempt (some q) n)).1 = .ok r := by
  have hout : ∀ x ∈ some q, (hs x).isSome := by
    rintro x ⟨⟩
    exact (hk.live q).1 hq
  have hproceeds : Action.Proceeds a.strategy host d.ledger (.reallocUsable .attempt (some q) n) :=
    Action.reallocUsable_proceeds hk.sound hout
  obtain ⟨r, l, hrun⟩ := hproceeds.returns rfl
  exact ⟨r, congrArg Prod.fst (answer_ok hrun)⟩

/-- A table that holds at both desks retains its pointers, if nothing in front of them has changed. -/
theorem retained_of_keeps (hk : Keeps a.contract.toCustody hs d)
    (hk' : Keeps a.contract.toCustody hs d') (hq : q ∈ d.live)
    (hfront : ∀ e, hs q = some e →
      Memory.Agree e.start (q - e.start) d.ledger.heap.memory d'.ledger.heap.memory) :
    Retained a host q d d' := by
  obtain ⟨e, he⟩ := hk.holding hq
  have hq' : q ∈ d'.live := by simp [hk'.live, he]
  refine ⟨⟨e.start, e.usable, e.footprint, ?_, ?_, hfront e he⟩, hk'.frees hq', hk'.resizes hq', ?_⟩
  · exact a.traced hk.sound.holds.valid (hk.sound.holds.stands q e he)
  · exact a.traced hk'.sound.holds.valid (hk'.sound.holds.stands q e he)
  · intro ha n hpos hsmall c r u hanswer
    obtain ⟨l, hrun⟩ := perform_of_answer hanswer
    have hpres := Adapter.contract_preserves ha
    obtain ⟨q', old, rfl, hold, -, -, hmoved⟩ := hk'.resized hpres hq' hpos hsmall hrun
    rw [after_exchange hrun rfl rfl]
    exact ⟨q', old, rfl, hold, hmoved⟩

/-- A host that stays within the usable bytes of `p` disturbs nobody. -/
theorem Keeps.undisturbed (hk : Keeps a.contract.toCustody hs d) (hp : hs p = some e)
    (hm : ∀ x, m.byte x ≠ d.ledger.heap.memory.byte x → p ≤ x ∧ x < p + e.usable) :
    Undisturbed a host p d ⟨d.ledger.released m events, d.live⟩ := by
  have hholder : ∀ x, m.byte x ≠ d.ledger.heap.memory.byte x →
      ∃ p e, hs p = some e ∧ p ≤ x ∧ x < p + e.usable := fun x hx => ⟨p, e, hp, hm x hx⟩
  obtain ⟨hholds, hlive⟩ := hk.sound.holds.write hholder
  have hk' : Keeps a.contract.toCustody hs ⟨d.ledger.released m events, d.live⟩ :=
    hk.still ⟨hholds, hk.sound.tidy⟩ rfl
  refine ⟨rfl, rfl, ?_, ?_, ?_⟩
  · rw [← a.contract_survey]
    exact hlive
  · intro q hq hne
    refine sameFor_of_keeps hk hk' hq rfl fun f hf => ?_
    exact hk.sound.holds.block_kept hm hp hf hne.symm
  · intro q hq
    exact retained_of_keeps hk hk' hq fun f hf => hk.sound.holds.front_kept hholder hf

/-- What a call for advice is told, and the desk after it. -/
theorem after_advice {s : Strategy β} {ptr : Option Nat} {hint n : Nat} {l : Ledger β}
    (hrun : Ledger.adviseUnused s host ptr hint d.ledger = .ok n l) :
    d.answer s host (.adviseUnused ptr hint) = (.ok (.bytes n), l) ∧
      d.after s host (.call (.adviseUnused ptr hint)) = ⟨l, d.live⟩ := by
  have hanswer : d.answer s host (.adviseUnused ptr hint) = (.ok (.bytes n), l) :=
    answer_ok (run_map_ok Reply.bytes hrun)
  exact ⟨hanswer, after_still hanswer rfl rfl⟩

end Releases

/-- After every lawful run, on every machine with pages of a power of two: an offer of the block
behind any pointer that is out is either taken up, with all the whole pages that lie in its usable
bytes and no other byte, or comes to nothing, as it does for a small hint, a block without a whole
page and a system that refuses. Nobody is disturbed by it. -/
theorem advice_takes_whole_pages (a : Adapter β) {host : Host} (hhost : host.Confined)
    {heap : Heap β} (hheap : a.survey.valid heap) (slots : Nat) {ms : List Move}
    (hms : Lawful a.strategy host (opening heap slots) ms) {machine : Machine}
    (hpage : machine.pageSize.isPowerOfTwo) (hint : Nat) :
    let d := run a.strategy host (opening heap slots) ms
    d.answer a.strategy machine.host (.adviseUnused none hint) = (.ok (.bytes 0), d.ledger) ∧
    ∀ p ∈ d.live, ∃ usable start bytes told,
      let c := Action.adviseUnused (some p) hint
      let d' := d.after a.strategy machine.host (.call c)
      Ledger.usableSize a.strategy p d.ledger = .ok usable d.ledger ∧
      (d.answer a.strategy machine.host c).1 = .ok (.bytes told) ∧
      Ledger.Advised machine p usable hint start bytes d.ledger told d'.ledger ∧
      Undisturbed a machine.host p d d' := by
  intro d
  obtain ⟨hs, hk, -⟩ := keeps_run a hhost hheap slots hms
  refine ⟨(after_advice rfl).1, fun p hp => ?_⟩
  obtain ⟨e, he, husable, -⟩ := hk.answers hp
  obtain ⟨start, bytes, told, m, events, hrun, hadvised, hm⟩ :=
    Ledger.adviseUnused_advised hk.sound he hpage hint
  obtain ⟨hanswer, hafter⟩ := after_advice hrun
  refine ⟨e.usable, start, bytes, told, husable, congrArg Prod.fst hanswer, ?_, ?_⟩
  · rw [hafter]
    exact hadvised
  · rw [hafter]
    exact hk.undisturbed he hm

/-- One block of two hundred bytes, and a small one behind it. -/
def arenaPair : List Move :=
  [.call (.alloc .attempt 200), .call (.alloc .attempt 5)]

theorem lawful_arenaPair (host : Host) :
    Lawful (.headered (Arena.full {}).toBackend) host (opening arenaHeap 4) arenaPair :=
  ⟨⟨rfl, forall_mem_none⟩, ⟨rfl, forall_mem_none⟩, trivial⟩

/-- On pages of 64 bytes, two of those that the block of two hundred bytes reaches into are its
own. -/
theorem advice_takes_whole_pages_arena :
    let a := Adapter.arenaHeadered Arena.honest_default
    let machine := { Machine.small with pageSize := 64 }
    let d := run a.strategy machine.host (opening arenaHeap 4) arenaPair
    let p := Arena.base + 16
    let c := Action.adviseUnused (some p) 0
    let d' := d.after a.strategy machine.host (.call c)
    (d.answer a.strategy machine.host c).1 = .ok (.bytes 128) ∧
      (∀ x, d'.ledger.heap.memory.byte x =
        if Arena.base + 64 ≤ x ∧ x < Arena.base + 192 then 0 else d.ledger.heap.memory.byte x) ∧
      Undisturbed a machine.host p d d' := by
  intro a machine d p c d'
  have hp : p ∈ d.live := by decide +kernel
  have husable : a.strategy.usableSize p d.ledger.heap = .ok 200 := by decide +kernel
  have hpage : machine.pageSize.isPowerOfTwo := ⟨6, rfl⟩
  obtain ⟨usable, start, bytes, told, husable', hanswer, hadvised, hundisturbed⟩ :=
    (advice_takes_whole_pages a machine.confined_host arenaHeap_valid 4
      (lawful_arenaPair machine.host) hpage 0).2 p hp
  rw [Ledger.usableSize_eq husable] at husable'
  have hsize : 200 = usable := (EStateM.Result.ok.inj husable').1
  subst hsize
  -- Two ways to say where the whole pages are, compared at the ends of the range.
  have hstart : Word.roundUp p 64 = Arena.base + 64 := by decide
  have hbytes : Host.wholeBytes 64 p 200 = 128 := by decide
  have hpages : ∀ x, (Arena.base + 64 ≤ x ∧ x < Arena.base + 64 + 128) ↔
      (start ≤ x ∧ x < start + bytes) := by
    intro x
    rw [← hstart, ← hbytes]
    exact (Host.inWholePage_iff (by decide)).symm.trans (hadvised.pages x)
  have hfirst := hpages (Arena.base + 64)
  have hbefore := hpages (Arena.base + 63)
  have hlast := hpages (Arena.base + 191)
  have hbehind := hpages (Arena.base + 192)
  obtain rfl : start = Arena.base + 64 := by omega
  obtain rfl : bytes = 128 := by omega
  obtain ⟨rfl, m, hafter, hm⟩ := hadvised.taken (by simp [Ledger.SmallHint]) (by decide) rfl
  refine ⟨hanswer, fun x => ?_, hundisturbed⟩
  rw [hafter]
  exact hm x

end Desk

end HeapLedger
