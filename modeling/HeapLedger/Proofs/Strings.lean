import HeapLedger.Proofs.Arrival
import HeapLedger.Proofs.Ledger.Answers
import HeapLedger.Proofs.Ledger.Insistence
import HeapLedger.Proofs.Strategy.Plain

/-!
# `HeapLedger/Proofs/Strings.lean` — strings that are copied

A string in memory is its bytes and a zero byte after them, and whoever has its address finds its
end by looking for the zero (`Memory.string?`). So a copy has to be one byte longer than the string,
and a string that is read back is the one that was written only if it holds no zero itself
(`Memory.string?_eq_some`).

A call that copies a string comes to a copy or to the handler, as an attempt to allocate one byte
more than the string would have come to a pointer or to a failure (`Desk.Duplicates`). The copy is
exact and belongs to whoever asked for it, and the original is where it was
(`Desk.strings_duplicated`). The original may lie behind a pointer that is out, or in memory with
which the backend has nothing to do (`Desk.Shelters`).
-/

set_option autoImplicit false

namespace HeapLedger

variable {β : Type}

/-! ## Strings in memory -/

namespace Memory

/-- The bytes from `p` to the first zero byte, if that is one of the first `limit` bytes. -/
def string? (m : Memory) (p : Nat) : Nat → Option (List UInt8)
  | 0 => none
  | limit + 1 =>
      if m.byte p = 0 then some []
      else (m.string? (p + 1) limit).map (m.byte p :: ·)

variable {m m' : Memory} {p len limit : Nat} {text : List UInt8}

theorem slice_succ (m : Memory) (p len : Nat) :
    m.slice p (len + 1) = m.byte p :: m.slice (p + 1) len := by
  rw [slice_eq, slice_eq, List.range_succ_eq_map, List.map_cons, List.map_map]
  congr 1
  apply List.map_congr_left
  intro i _
  show m.byte (p + (i + 1)) = m.byte (p + 1 + i)
  congr 1
  omega

theorem slice_zero (m : Memory) (p : Nat) : m.slice p 0 = [] :=
  slice_eq m p 0

theorem Agree.slice (h : Agree p len m m') : m'.slice p len = m.slice p len := by
  rw [slice_eq, slice_eq]
  apply List.map_congr_left
  intro i hi
  have hlt := List.mem_range.1 hi
  exact h (p + i) (by omega) (by omega)

/-- What is stored is there. -/
theorem slice_store (m : Memory) (p : Nat) (bytes : List UInt8) :
    (m.store p bytes.toArray).slice p bytes.length = bytes := by
  apply List.ext_getElem
  · rw [length_slice]
  · intro i hi hi'
    simp only [slice_eq, List.getElem_map, List.getElem_range]
    rw [byte_store, if_pos ⟨by omega, by simpa using hi'⟩, Nat.add_sub_cancel_left]
    simp [Array.getD, hi']

/-- What is read as a string is what stands there in front of a zero, and holds none itself. -/
theorem string?_eq_some : m.string? p limit = some text ↔
    text.length < limit ∧ 0 ∉ text ∧ m.slice p (text.length + 1) = text ++ [0] := by
  induction limit generalizing p text with
  | zero => simp [string?]
  | succ limit ih =>
    unfold string?
    by_cases hzero : m.byte p = 0
    · rw [if_pos hzero]
      cases text with
      | nil => simp [slice_succ, slice_zero, hzero]
      | cons v text =>
        -- A string that starts with the zero would hold it.
        simp only [Option.some.injEq, List.nil_eq, reduceCtorEq, false_iff]
        rintro ⟨-, hmem, hslice⟩
        rw [slice_succ, List.cons_append, List.cons.injEq, hzero] at hslice
        simp [← hslice.1] at hmem
    · rw [if_neg hzero]
      cases text with
      | nil => simp [slice_succ, slice_zero, hzero]
      | cons v text =>
        rw [Option.map_eq_some_iff]
        simp only [ih, List.length_cons, List.mem_cons, not_or]
        rw [slice_succ, List.cons_append, List.cons.injEq]
        constructor
        · rintro ⟨rest, ⟨hlen, hmem, hslice⟩, hcons⟩
          cases hcons
          exact ⟨by omega, ⟨fun h => hzero h.symm, hmem⟩, rfl, hslice⟩
        · rintro ⟨hlen, ⟨-, hmem⟩, rfl, hslice⟩
          exact ⟨text, ⟨by omega, hmem, hslice⟩, rfl⟩

example : ((filled 9).store 4 #[71, 77, 0, 71, 0]).string? 4 3 = some [71, 77] := by decide +kernel

/-- A string is as it was if its bytes and the zero are. -/
theorem Agree.string? (h : Agree p (text.length + 1) m m') (hread : m.string? p limit = some text) :
    m'.string? p limit = some text := by
  rw [string?_eq_some] at hread ⊢
  rw [h.slice]
  exact hread

theorem string?_mono {limit' : Nat} (h : m.string? p limit = some text) (hle : limit ≤ limit') :
    m.string? p limit' = some text := by
  rw [string?_eq_some] at h ⊢
  exact ⟨Nat.lt_of_lt_of_le h.1 hle, h.2⟩

/-- However far one looks, it is the same string that is found. -/
theorem string?_unique {limit' : Nat} {text' : List UInt8} (h : m.string? p limit = some text)
    (h' : m.string? p limit' = some text') : text' = text := by
  have hfar := string?_mono h (Nat.le_max_left limit limit')
  have hfar' := string?_mono h' (Nat.le_max_right limit limit')
  exact Option.some.inj (hfar'.symm.trans hfar)

end Memory

/-! ## Memory for a string -/

namespace Ledger

variable {s : Strategy β} {l : Ledger β} {size : Nat}

/-- A block that there is not is reported with the size that was asked for, and the account of the
heap is as it was. -/
theorem tryAlloc_fails (s : Strategy β) (l : Ledger β) (size : Nat) :
    Ends (tryAlloc s size) l
      (fun r l' => ∀ e, r = .error e → e.requested = size ∧ l' = { l with heap := l'.heap })
      fun _ _ => True := by
  unfold tryAlloc
  rw [ends_map, tryAllocUsable_eq]
  unfold tryOrder
  cases Order.passed .plain size with
  | none =>
    apply ends_pure.2
    rintro _ ⟨⟩
    exact ⟨rfl, rfl⟩
  | some o =>
    simp only
    rw [ends_bind, ends_onHeap]
    apply (Ends.self (o.take s) l.heap).imp
    · intro r heap _
      apply settle_keeps
      · rintro rfl _ ⟨⟩
        exact ⟨rfl, rfl⟩
      · rintro x rfl l' _ _ ⟨⟩
    · intros
      trivial

/-- What is known of the strategy's block and of the heap by then is known when it is counted. -/
theorem tryAlloc_reaches {P : Option Block → Heap β → Prop} (hpos : 0 < size)
    (hidle : P none l.heap)
    (halloc : size < Size.bound → Returns (s.alloc size) l.heap P) :
    Returns (tryAlloc s size) l fun r l' =>
      ∃ block : Option Block, r.toOption = block.map Block.ptr ∧ P block l'.heap := by
  unfold tryAlloc
  rw [Returns, ends_map, tryAllocUsable_eq]
  cases ho : Order.passed .plain size with
  | none => exact ends_pure.2 ⟨none, rfl, hidle⟩
  | some o =>
    obtain ⟨hlt, rfl⟩ := Order.passed_eq_some ho
    show Ends (onHeap (s.alloc (Size.clamp size)) >>= settle size) l _ _
    rw [clamp_of_pos hpos, ends_bind, ends_onHeap]
    apply (halloc hlt).imp
    intro r heap hr
    apply settle_keeps
    · rintro rfl
      exact ⟨none, rfl, hr⟩
    · rintro x rfl l' hheap
      refine ⟨some x, rfl, ?_⟩
      rw [hheap]
      exact hr

end Ledger

/-! ## Copies -/

namespace Desk

/-- The `len` bytes at `start` are no concern of a call for plain memory: they are usable behind a
pointer that is out, or the backend avoids them. -/
def Shelters (a : Adapter β) (d : Desk β) (start len : Nat) : Prop :=
  (∃ p ∈ d.live, ∃ usable, Ledger.usableSize a.strategy p d.ledger = .ok usable d.ledger ∧
    p ≤ start ∧ start + len ≤ p + usable) ∨ a.Avoids d.ledger.heap start len

/-- From one desk to the next the pointer `q` comes, to a copy of a string. -/
structure Duplicated (a : Adapter β) (text : List UInt8) (q usable size : Nat) (d d' : Desk β) :
    Prop where
  joined : Joined a q usable size d d'
  enough : text.length + 1 ≤ usable
  content : d'.ledger.heap.memory.slice q (text.length + 1) = text ++ [0]
  read : ∀ limit, text.length < limit → d'.ledger.heap.memory.string? q limit = some text
  /-- Wherever the string has been before, it is still there, and the copy is somewhere else. -/
  source : ∀ src limit, d.ledger.heap.memory.string? src limit = some text →
    d.Shelters a src (text.length + 1) → d'.ledger.heap.memory.string? src limit = some text ∧
      (src + (text.length + 1) ≤ q ∨ q + usable ≤ src)
  /-- Behind a header there is no byte to spare. -/
  headered : ∀ b c, a = .headered b c →
    usable = text.length + 1 ∧ size = text.length + 1 + Strategy.Headered.width b

/-- A call that copies a string comes to a copy, or else to the handler, which is told what could
not be had and finds everything as it was. It is one or the other as there is memory for the string
and the zero after it. -/
def Duplicates (a : Adapter β) (host : Host) (text : List UInt8) (d : Desk β) : Prop :=
  let c := Action.dupString text
  let d' := d.after a.strategy host (.call c)
  let attempt := (d.answer a.strategy host (.alloc .attempt (text.length + 1))).1
  (∃ q usable size, attempt = .ok (.pointer (some q)) ∧
    (d.answer a.strategy host c).1 = .ok (.pointer (some q)) ∧
      Duplicated a text q usable size d d') ∨
  ∃ e, attempt = .ok (.failed e) ∧
    (d.answer a.strategy host c).1 =
      .error (.outOfMemory d.ledger.policy.current (text.length + 1)) ∧
    Untouched a d d' ∧
    d'.ledger = { d.ledger with
      heap := d'.ledger.heap
      log := d.ledger.log ++ d.ledger.policy.current.events (text.length + 1) }

section Copies

variable {a : Adapter β} {hs : Holdings} {host : Host} {d : Desk β} {text : List UInt8}
  {q size : Nat} {e : Holding} {l : Ledger β}

theorem Shelters.avoids {start len : Nat} (hshelters : d.Shelters a start len)
    (hk : Keeps a.contract.toCustody hs d) : a.Avoids d.ledger.heap start len := by
  rcases hshelters with ⟨p, hp, usable, husable, hlo, hhi⟩ | havoids
  · obtain ⟨x, hx, hpx, -⟩ := hk.answers hp
    cases husable.symm.trans hpx
    obtain ⟨-, hxlo, hxhi⟩ := hk.sound.holds.inside hx
    have hvalid := hk.sound.holds.valid
    have hlive := hk.sound.holds.live hx
    rw [a.contract_survey] at hvalid hlive
    exact a.avoids_of_live hvalid hlive (Nat.le_trans hxlo hlo) (Nat.le_trans hhi hxhi)
  · exact havoids

/-- What the backend avoids is missed when a block is allocated. -/
theorem misses_of_run {start len : Nat} (hk : Keeps a.contract.toCustody hs d) (hsize : 0 < size)
    (hrun : Ledger.tryAlloc a.strategy size d.ledger = .ok (.ok q) l)
    (havoids : a.Avoids d.ledger.heap start len) :
    a.contract.Misses start len d.ledger.heap l.heap := by
  have hvalid := hk.sound.holds.valid
  rw [a.contract_survey] at hvalid ⊢
  have hreaches := Ledger.tryAlloc_reaches (P := fun _ => a.survey.Misses start len d.ledger.heap)
    hsize (.refl _ _ _ _) fun hlt => a.alloc_misses hvalid havoids hsize hlt
  obtain ⟨-, -, hmiss⟩ := hreaches.of_ok hrun
  exact hmiss

/-- What is missed when a pointer comes is apart from its usable bytes, so they may be written to. -/
theorem kept_of_misses {k : Custody β} {start len : Nat} {m : Memory}
    (hmiss : k.Misses start len d.ledger.heap l.heap)
    (hpost : Ledger.Posts k hs none (some (q, e)) d.ledger l)
    (hm : ∀ x, m.byte x ≠ l.heap.memory.byte x → q ≤ x ∧ x < q + e.usable) :
    Memory.Agree start len d.ledger.heap.memory m ∧ (start + len ≤ q ∨ q + e.usable ≤ start) := by
  have htrade := hpost.deal.trade
  have hfresh := htrade.fresh e.start e.lease rfl (by simp)
  obtain ⟨-, hlo, hhi⟩ := hpost.deal.holds.inside (p := q) exchange_came
  have hap : start + len ≤ q ∨ q + e.usable ≤ start := by
    rcases hmiss.apart e.start e.lease hfresh htrade.live_came with hap | hap
    · exact .inl (Nat.le_trans hap hlo)
    · exact .inr (Nat.le_trans hhi hap)
  refine ⟨?_, hap⟩
  intro x hxlo hxhi
  rw [← hmiss.same x hxlo hxhi]
  apply Decidable.byContradiction
  intro hne
  have hin := hm x hne
  omega

/-- Behind a header a new pointer stands for the bytes that were asked for. -/
theorem headered_sizes {b : Backend β} {c : b.Contract Lease.Admits}
    (hk : Keeps (Adapter.headered b c).contract.toCustody hs d) (hsize : 0 < size)
    (hrun : Ledger.tryAlloc (.headered b) size d.ledger = .ok (.ok q) l)
    (hpost : Ledger.Posts (Adapter.headered b c).contract.toCustody hs none (some (q, e)) d.ledger
      l) : e.usable = size ∧ e.footprint = size + Strategy.Headered.width b := by
  have hreaches := Ledger.tryAlloc_reaches hsize forall_mem_none fun hlt =>
    Adapter.alloc_sizes (c := c) hk.sound.holds.valid hsize hlt
  obtain ⟨block, hblock, hsizes⟩ := hreaches.of_ok hrun
  obtain ⟨block, rfl, rfl⟩ := Option.map_eq_some_iff.1 hblock.symm
  obtain ⟨husable, hcost⟩ := hsizes block rfl
  have hholds := hpost.deal.holds
  have hstands := hholds.stands block.ptr e exchange_came
  have husable' := (Adapter.headered b c).contract.usableSize hholds.valid hstands
  have hcost' := (Adapter.headered b c).contract.footprint hholds.valid hstands
  exact ⟨Except.ok.inj (husable'.symm.trans husable), Except.ok.inj (hcost'.symm.trans hcost)⟩

/-- A string is written to where a block for it has come. -/
theorem duplicated_of_run (hk : Keeps a.contract.toCustody hs d) (htext : 0 ∉ text)
    (hrun : Ledger.tryAlloc a.strategy (text.length + 1) d.ledger = .ok (.ok q) l) :
    ∃ usable size, Duplicated a text q usable size d
      ⟨{ l with heap := ⟨l.heap.memory.store q (text ++ [0]).toArray, l.heap.state⟩ },
        insert q d.live⟩ := by
  obtain ⟨e, hpost, hroom⟩ := (Ledger.tryAlloc_ends hk.sound).of_ok hrun
  -- The string and its zero fit the usable bytes, so whatever is written belongs to the copy.
  have hwritten : ∀ x, (l.heap.memory.store q (text ++ [0]).toArray).byte x ≠
      l.heap.memory.byte x → q ≤ x ∧ x < q + e.usable := by
    intro x hx
    have hchanged := Memory.changed_storeString hx
    omega
  have hpost' := hpost.write hwritten
  have hjoined := joined_of_posts hk hpost'
  have hslice : (l.heap.memory.store q (text ++ [0]).toArray).slice q (text.length + 1) =
      text ++ [0] := by
    have hstored := Memory.slice_store l.heap.memory q (text ++ [0])
    rwa [List.length_append, List.length_singleton] at hstored
  refine ⟨e.usable, e.footprint, hjoined, hroom, hslice, ?_, ?_, ?_⟩
  · intro limit hlimit
    exact Memory.string?_eq_some.2 ⟨hlimit, htext, hslice⟩
  · intro src limit hread hshelters
    have hmiss := misses_of_run hk (Nat.succ_pos _) hrun (hshelters.avoids hk)
    obtain ⟨hkept, hap⟩ := kept_of_misses hmiss hpost hwritten
    exact ⟨hkept.string? hread, hap⟩
  · rintro b c rfl
    exact headered_sizes hk (Nat.succ_pos _) hrun hpost

theorem Keeps.duplicates (hk : Keeps a.contract.toCustody hs d) (htext : 0 ∉ text) :
    Duplicates a host text d := by
  have hends : Returns (Ledger.tryAlloc a.strategy (text.length + 1)) d.ledger
      (Ledger.Given a.contract.toCustody hs (text.length + 1) d.ledger) :=
    Ledger.tryAlloc_ends hk.sound
  obtain ⟨r, l, hrun, hgiven⟩ := hends.exists
  have hinsisted := Action.dupString_insisted a.strategy host d.ledger text
  cases r with
  | ok q =>
    have hattempt : (Action.alloc .attempt (text.length + 1)).perform a.strategy host d.ledger =
        .ok (.pointer (some q)) l := Action.reported_ok hrun
    rw [hattempt] at hinsisted
    obtain ⟨usable, size, hdup⟩ := duplicated_of_run hk htext hrun
    have hanswer := answer_ok hinsisted
    refine .inl ⟨q, usable, size, ?_, ?_, ?_⟩
    · rw [answer_ok hattempt]
    · rw [hanswer]
    · have hafter : d.after a.strategy host (.call (.dupString text)) = ⟨_, insert q d.live⟩ :=
        (after_of_answer hanswer).trans (congrArg _ (live_came d.live q))
      rw [hafter]
      exact hdup
  | error e =>
    have hattempt : (Action.alloc .attempt (text.length + 1)).perform a.strategy host d.ledger =
        .ok (.failed e) l := Action.reported_failed hrun
    rw [hattempt, Action.insisted_failed rfl] at hinsisted
    obtain ⟨hnamed, hsame⟩ := (Ledger.tryAlloc_fails a.strategy d.ledger _).of_ok hrun e rfl
    rw [hnamed] at hinsisted
    have hanswer := answer_error hinsisted
    have hafter := after_still hanswer rfl rfl
    refine .inr ⟨e, ?_, ?_, ?_, ?_⟩
    · rw [answer_ok hattempt]
    · rw [hanswer]
    · rw [hafter]
      exact untouched_of_posts hk (hgiven.congr rfl rfl rfl)
    · rw [hafter, hsame]

end Copies

/-- After every lawful run, and for every string without a zero in it: a call that copies the string
comes to a copy of its own that is exact, or else to the handler, with everything as it was. What is
read at the copy is the string, and copying that is copying the string again. -/
theorem strings_duplicated (a : Adapter β) {host : Host} (hhost : host.Confined) {heap : Heap β}
    (hheap : a.survey.valid heap) (slots : Nat) {ms : List Move}
    (hms : Lawful a.strategy host (opening heap slots) ms) {text : List UInt8}
    (htext : 0 ∉ text) :
    let d := run a.strategy host (opening heap slots) ms
    let d' := d.after a.strategy host (.call (.dupString text))
    Duplicates a host text d ∧
      ∀ q, d.handed a.strategy host (.call (.dupString text)) = some q →
        ∀ limit copy, d'.ledger.heap.memory.string? q limit = some copy →
          copy = text ∧ Duplicates a host copy d' := by
  intro d d'
  obtain ⟨hs, hk, -⟩ := keeps_run a hhost hheap slots hms
  have hdup : Duplicates a host text d := hk.duplicates htext
  refine ⟨hdup, ?_⟩
  intro q hq limit copy hcopy
  have hcall : d.Allows a.strategy (.call (.dupString text)) := ⟨rfl, forall_mem_none⟩
  obtain ⟨hs', hafter⟩ := hk.after hhost hcall
  obtain rfl : copy = text := by
    change (d.answer a.strategy host (.dupString text)).1.came = some q at hq
    rcases hdup with ⟨q', usable, size, -, hanswer, hmade⟩ | ⟨e, -, hanswer, -⟩
    · rw [hanswer] at hq
      cases hq
      exact Memory.string?_unique (hmade.read _ (Nat.lt_succ_self _)) hcopy
    · rw [hanswer] at hq
      cases hq
  exact ⟨rfl, hafter.keeps.duplicates htext⟩

/-- A string in memory that is not the arena's is copied, and the copy is copied again. All three
are there in the end. -/
theorem strings_duplicated_arena :
    let a := Adapter.arenaHeadered Arena.honest_default
    let heap : Heap Arena := ⟨Arena.freshMemory.store 64 #[71, 77, 0], .new {}⟩
    let d := run a.strategy .unsupported (opening heap 4) [.call (.dupString [71, 77])]
    let d' := d.after a.strategy .unsupported (.call (.dupString [71, 77]))
    Duplicated a [71, 77] (Arena.base + 48) 3 19 d d' ∧
      d'.ledger.heap.memory.string? (Arena.base + 16) 3 = some [71, 77] ∧
      d'.ledger.heap.memory.string? 64 3 = some [71, 77] := by
  intro a heap d d'
  have hheap : a.survey.valid heap := Arena.orderly_new {}
  have hms : Lawful a.strategy .unsupported (opening heap 4) [.call (.dupString [71, 77])] :=
    ⟨⟨rfl, forall_mem_none⟩, trivial⟩
  have htext : (0 : UInt8) ∉ [71, 77] := by decide
  obtain ⟨hdup, -⟩ := strings_duplicated a Host.confined_unsupported hheap 4 hms htext
  obtain ⟨hs, hk, -⟩ := keeps_run a Host.confined_unsupported hheap 4 hms
  have hgranted : (d.answer a.strategy .unsupported (.alloc .attempt 3)).1 =
      .ok (.pointer (some (Arena.base + 48))) := by
    decide +kernel
  rcases hdup with ⟨q, usable, size, hattempt, -, hmade⟩ | ⟨e, hattempt, -⟩
  · cases hgranted.symm.trans hattempt
    obtain ⟨rfl, rfl⟩ := hmade.headered _ _ rfl
    refine ⟨hmade, ?_, ?_⟩
    · have hread : d.ledger.heap.memory.string? (Arena.base + 16) 3 = some [71, 77] := by
        decide +kernel
      have hlive : Arena.base + 16 ∈ d.live := by decide +kernel
      have husable : a.strategy.usableSize (Arena.base + 16) d.ledger.heap = .ok 3 := by
        decide +kernel
      exact (hmade.source _ 3 hread (.inl ⟨_, hlive, 3, Ledger.usableSize_eq husable, Nat.le_refl _,
        Nat.le_refl _⟩)).1
    · have hread : d.ledger.heap.memory.string? 64 3 = some [71, 77] := by decide +kernel
      have houtside : 64 + 3 ≤ Arena.base := by decide
      exact (hmade.source 64 3 hread (.inr (Arena.fullContract_avoids Arena.honest_default
        hk.sound.holds.valid (.inl houtside)))).1
  · cases hgranted.symm.trans hattempt

end Desk

end HeapLedger
