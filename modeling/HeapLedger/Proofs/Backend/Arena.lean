import HeapLedger.Backend.Arena
import HeapLedger.Proofs.Backend.Contract

/-!
# `HeapLedger/Proofs/Backend/Arena.lean` — honest arenas keep the contract

An arena that was told to break no promise (`Config.Honest`) keeps the contract of a backend,
whichever attempts fail, whether resizes move, and whether they copy. It hands out the bytes at its
cursor and never goes back, so all that is to be known of its blocks is that they end before the
cursor and are apart (`Orderly`).

Both arenas make the same three changes: a block is put at the cursor (`trade_settle`), a block is
cut short (`trade_shrink`), and a block is overwritten and forgotten (`trade_retire`). Counting
attempts and writing calls down is not seen through the survey (`Alike`).
-/

set_option autoImplicit false

namespace HeapLedger.Arena

/-- The arena breaks no promise. -/
structure Config.Honest (c : Config) : Prop where
  quantum : c.quantum ≤ 1
  maxAlign : 0 < c.maxAlign
  limit : c.limit ≤ span
  misalign : c.misalign = 0
  understate : c.understate = 0
  huge : c.huge = false

theorem honest_default : ({} : Config).Honest where
  quantum := Nat.le_refl 1
  maxAlign := Nat.succ_pos 15
  limit := by decide
  misalign := rfl
  understate := rfl
  huge := rfl

/-- To move a block breaks no promise. -/
theorem Config.Honest.moving {c : Config} (hc : c.Honest) :
    ({ c with alwaysMove := true } : Config).Honest where
  quantum := hc.quantum
  maxAlign := hc.maxAlign
  limit := hc.limit
  misalign := hc.misalign
  understate := hc.understate
  huge := hc.huge

/-- Nor does it to begin somewhere else. -/
theorem Config.Honest.starting {c : Config} (hc : c.Honest) (start : Nat) :
    ({ c with start := start } : Config).Honest where
  quantum := hc.quantum
  maxAlign := hc.maxAlign
  limit := hc.limit
  misalign := hc.misalign
  understate := hc.understate
  huge := hc.huge

/-- Blocks end before the cursor and do not meet. -/
structure Orderly (a : Arena) : Prop where
  inside : ∀ p n, a.live.find? p = some n →
    0 < n ∧ p + n ≤ base + a.cursor ∧ p + n ≤ base + span
  apart : ∀ p q n m, a.live.find? p = some n → a.live.find? q = some m → p ≠ q →
    p + n ≤ q ∨ q + m ≤ p

theorem orderly_new (c : Config) : Orderly (new c) where
  inside := fun _ _ h => nomatch h
  apart := fun _ _ _ _ h => nomatch h

theorem end_le_limit : base + span ≤ Word.limit := by decide

/-- Blocks have exactly the bytes that were asked for. -/
def survey : Survey Arena where
  valid := fun h => Orderly h.state
  live := fun h p => (h.state.live.find? p).map fun n => ⟨n, n⟩
  fits := by
    intro h p l hv hl
    obtain ⟨n, hn, rfl⟩ := Option.map_eq_some_iff.1 hl
    obtain ⟨hpos, -, hend⟩ := hv.inside p n hn
    exact ⟨hpos, Nat.le_refl _, Nat.le_trans hend end_le_limit⟩
  apart := by
    intro h p q l k hv hl hk hpq
    obtain ⟨n, hn, rfl⟩ := Option.map_eq_some_iff.1 hl
    obtain ⟨m, hm, rfl⟩ := Option.map_eq_some_iff.1 hk
    exact hv.apart p q n m hn hm hpq
  write := fun hv _ => ⟨hv, rfl⟩

theorem live_eq {h : Heap Arena} {p n : Nat} (hp : h.state.live.find? p = some n) :
    survey.live h p = some ⟨n, n⟩ :=
  Option.map_eq_some_iff.2 ⟨n, hp, rfl⟩

theorem find?_eq {h : Heap Arena} {p : Nat} {l : Lease} (hl : survey.live h p = some l) :
    h.state.live.find? p = some l.bytes := by
  obtain ⟨n, hn, rfl⟩ := Option.map_eq_some_iff.1 hl
  exact hn

variable {h h' h'' : Heap Arena} {c : Config} {gone : Option Nat} {came : Option (Nat × Lease)}
  {p n align : Nat}

/-! ## Changes -/

/-- Heaps that differ in no more than the calls and attempts that were written down. -/
structure Alike (h h' : Heap Arena) : Prop where
  memory : h'.memory = h.memory
  live : h'.state.live = h.state.live
  cursor : h'.state.cursor = h.state.cursor

theorem Alike.refl (h : Heap Arena) : Alike h h := ⟨rfl, rfl, rfl⟩

theorem Alike.valid (hl : Alike h h') (hv : survey.valid h) : survey.valid h' := by
  refine ⟨?_, ?_⟩
  · rw [hl.live, hl.cursor]
    exact hv.inside
  · rw [hl.live]
    exact hv.apart

theorem Alike.surveyed (hl : Alike h h') : survey.live h' = survey.live h := by
  funext q
  show (h'.state.live.find? q).map _ = (h.state.live.find? q).map _
  rw [hl.live]

theorem Alike.before (hl : Alike h h') (t : survey.Trade gone came h' h'') :
    survey.Trade gone came h h'' := by
  refine ⟨t.valid, ?_, ?_, ?_⟩
  · rw [t.live, hl.surveyed]
  · rw [← hl.surveyed]
    exact t.fresh
  · rw [← hl.surveyed, ← hl.memory]
    exact t.kept

theorem Alike.after (hl : Alike h' h'') (t : survey.Trade gone came h h') :
    survey.Trade gone came h h'' := by
  refine ⟨hl.valid t.valid, ?_, t.fresh, ?_⟩
  · rw [hl.surveyed, t.live]
  · rw [hl.memory]
    exact t.kept

theorem Alike.still (hl : Alike h h') (hv : survey.valid h) : survey.Trade none none h h' :=
  hl.after (.refl hv)

/-- A block is put at the cursor or beyond it. -/
theorem trade_settle {offset : Nat} (hv : survey.valid h) (hn : 0 < n)
    (hlo : h.state.cursor ≤ offset) (hhi : offset + n ≤ span) :
    survey.Trade none (some (base + offset, ⟨n, n⟩)) h ⟨h.memory, h.state.settle offset n⟩ := by
  -- All blocks end at the cursor or before it, and that is where the new one starts.
  have hbelow : ∀ p m, h.state.live.find? p = some m →
      p + m ≤ base + offset ∧ p < base + offset := by
    intro p m hp
    have hin := hv.inside p m hp
    omega
  refine ⟨⟨?_, ?_⟩, ?_, ?_, fun _ _ _ _ => .refl _ _ _⟩
  · intro p m hp
    simp only [settle, Blocks.find?_insert] at hp ⊢
    split at hp
    · cases hp
      omega
    · have hin := hv.inside p m hp
      omega
  · intro p q m k hp hq hpq
    simp only [settle, Blocks.find?_insert] at hp hq
    split at hp <;> split at hq
    · omega
    · have hq' := hbelow q k hq
      omega
    · have hp' := hbelow p m hp
      omega
    · exact hv.apart p q m k hp hq hpq
  · funext q
    show ((h.state.settle offset n).live.find? q).map _ = _
    simp only [settle, Blocks.find?_insert]
    by_cases hq : q = base + offset
    · subst hq
      simp
    · rw [if_neg hq, exchange_of_ne (by simp) (by simpa using fun h => hq h.symm)]
      rfl
  · rintro q l ⟨⟩ -
    show (h.state.live.find? (base + offset)).map _ = _
    cases hq : h.state.live.find? (base + offset) with
    | none => rfl
    | some m => exact absurd (hbelow _ m hq).2 (Nat.lt_irrefl _)

theorem orderly_erase {a : Arena} (ha : Orderly a) (p : Nat) :
    Orderly { a with live := a.live.erase p } := by
  refine ⟨?_, ?_⟩
  · intro q m hq
    simp only [Blocks.find?_erase] at hq
    split at hq
    · cases hq
    · exact ha.inside q m hq
  · intro q r m k hq hr
    simp only [Blocks.find?_erase] at hq hr
    split at hq
    · cases hq
    · split at hr
      · cases hr
      · exact ha.apart q r m k hq hr

/-- A block is overwritten and forgotten. -/
theorem trade_retire {v : UInt8} (hv : survey.valid h) (hp : h.state.live.find? p = some n) :
    survey.Trade (some p) none h
      ⟨h.memory.fill p n v, { h.state with live := h.state.live.erase p }⟩ := by
  refine ⟨orderly_erase hv p, ?_, (fun _ _ hcame => nomatch hcame), ?_⟩
  · funext q
    show ((h.state.live.erase p).find? q).map _ = _
    rw [Blocks.find?_erase]
    by_cases hq : q = p
    · subst hq
      simp
    · rw [if_neg hq, exchange_of_ne (by simpa using fun h => hq h.symm) (by simp)]
      rfl
  · intro q l hq hne a hlo hhi
    obtain ⟨m, hm, rfl⟩ := Option.map_eq_some_iff.1 hq
    have hapart := hv.apart q p m n hm hp fun h => hne (congrArg some h.symm)
    refine Decidable.byContradiction fun hchange => ?_
    have hchanged := Memory.changed_fill hchange
    change a < q + m at hhi
    omega

/-- A block is cut short where it is. -/
theorem trade_shrink {old : Nat} (hv : survey.valid h) (hp : h.state.live.find? p = some old)
    (hn : 0 < n) (hle : n ≤ old) :
    survey.Trade (some p) (some (p, ⟨n, n⟩)) h
      ⟨h.memory, { h.state with live := (h.state.live.erase p).insert p n }⟩ := by
  have hfind : ∀ q m, ((h.state.live.erase p).insert p n).find? q = some m →
      ∃ k, h.state.live.find? q = some k ∧ 0 < m ∧ m ≤ k := by
    intro q m hq
    rw [Blocks.find?_insert, Blocks.find?_erase] at hq
    split at hq
    · rename_i heq
      cases hq
      exact ⟨old, heq ▸ hp, hn, hle⟩
    · exact ⟨m, hq, (hv.inside q m hq).1, Nat.le_refl _⟩
  refine ⟨⟨?_, ?_⟩, ?_, ?_, fun _ _ _ _ => .refl _ _ _⟩
  · intro q m hq
    obtain ⟨k, hk, hpos, hmk⟩ := hfind q m hq
    have hin := hv.inside q k hk
    simp only
    omega
  · intro q r m k hq hr hqr
    obtain ⟨m', hm', -, hm⟩ := hfind q m hq
    obtain ⟨k', hk', -, hk⟩ := hfind r k hr
    have hapart := hv.apart q r m' k' hm' hk' hqr
    omega
  · funext q
    show (((h.state.live.erase p).insert p n).find? q).map _ = _
    rw [Blocks.find?_insert, Blocks.find?_erase]
    by_cases hq : q = p
    · subst hq
      simp
    · have hne : p ≠ q := fun h => hq h.symm
      rw [if_neg hq, if_neg hq, exchange_of_ne (by simpa using hne) (by simpa using hne)]
      rfl
  · intro q l hl hne
    cases hl
    exact absurd rfl hne

/-! ## Operations -/

variable {stop : Fault → Heap Arena → Prop}

theorem note_ends {call : Call} {ret : Unit → Heap Arena → Prop}
    (hret : ∀ h', Alike h h' → ret () h') : Ends (note call) h ret stop := by
  unfold note change
  rw [ends_modify]
  exact hret _ ⟨rfl, rfl, rfl⟩

theorem attempt_ends {ret : Bool → Heap Arena → Prop}
    (hret : ∀ goes h', Alike h h' → ret goes h') : Ends (attempt c) h ret stop := by
  unfold attempt change
  rw [ends_bind, ends_get, ends_bind, ends_modify, ends_pure]
  exact hret _ _ ⟨rfl, rfl, rfl⟩

theorem capacity_eq (hc : c.Honest) (hn : n < Word.limit) : capacity c n = some n := by
  have hq := hc.quantum
  have hone : max c.quantum 1 = 1 := by omega
  have hround : Word.roundUp n 1 = n := by
    unfold Word.roundUp
    omega
  unfold capacity
  rw [hone, hround, hc.huge]
  simp [hn]

theorem spot_eq_some (hc : c.Honest) {a : Arena} {offset : Nat} (halign : 0 < align)
    (h : spot c a n align = some offset) :
    a.cursor ≤ offset ∧ offset + n ≤ span ∧ align ∣ offset := by
  have hle := Word.le_roundUp a.cursor halign
  have hlimit := hc.limit
  unfold spot at h
  simp only [hc.misalign, Nat.add_zero] at h
  split at h
  · cases h
    exact ⟨hle, by omega, Word.dvd_roundUp _ _⟩
  · cases h

/-- How a block is placed for a request of `n` bytes, if it is. -/
def Landed (align n : Nat) (h : Heap Arena) : Option Nat → Heap Arena → Prop
  | none, h' => Alike h h'
  | some ptr, h' => survey.Trade none (some (ptr, ⟨n, n⟩)) h h' ∧
      ∃ offset, ptr = base + offset ∧ align ∣ offset

theorem Landed.served {r : Option Nat} (hv : survey.valid h) (hr : Landed align n h r h') :
    survey.Served none n h r h' := by
  cases r with
  | none => exact hr.still hv
  | some ptr => exact ⟨n, hr.1⟩

theorem Landed.before {r : Option Nat} (hl : Alike h h') (hr : Landed align n h' r h'') :
    Landed align n h r h'' := by
  cases r with
  | none => exact ⟨hr.memory.trans hl.memory, hr.live.trans hl.live, hr.cursor.trans hl.cursor⟩
  | some ptr => exact ⟨hl.before hr.1, hr.2⟩

theorem Landed.after {r : Option Nat} (hr : Landed align n h r h') (hl : Alike h' h'') :
    Landed align n h r h'' := by
  cases r with
  | none => exact ⟨hl.memory.trans hr.memory, hl.live.trans hr.live, hl.cursor.trans hr.cursor⟩
  | some ptr => exact ⟨hl.after hr.1, hr.2⟩

theorem place_ends (hc : c.Honest) (hv : survey.valid h) (hn : 0 < n) (hlim : n < Word.limit)
    (halign : 0 < align) : Returns (place c n align) h (Landed align n h) := by
  unfold place
  rw [Returns, ends_bind, ends_get]
  simp only [capacity_eq hc hlim, Option.bind_some]
  cases hspot : spot c h.state n align with
  | none => exact ends_pure.2 (.refl h)
  | some offset =>
    obtain ⟨hlo, hhi, hdvd⟩ := spot_eq_some hc halign hspot
    simp only [Option.map_some]
    unfold change
    rw [ends_bind, ends_modify, ends_pure]
    exact ⟨trade_settle hv hn hlo hhi, offset, rfl, hdvd⟩

theorem tryPlace_ends (hc : c.Honest) (hv : survey.valid h) (hn : 0 < n) (hlim : n < Word.limit)
    (halign : 0 < align) : Returns (tryPlace c n align) h (Landed align n h) := by
  unfold tryPlace
  rw [Returns, ends_bind]
  refine attempt_ends fun goes h₁ hl => ?_
  cases goes with
  | false => exact ends_pure.2 hl
  | true => exact (place_ends hc (hl.valid hv) hn hlim halign).imp fun _ _ => Landed.before hl

theorem alloc_lands (hc : c.Honest) (hv : survey.valid h) (hn : 0 < n) (hlim : n < Word.limit) :
    Returns (alloc c n) h (Landed c.maxAlign n h) := by
  unfold alloc
  rw [Returns, ends_bind]
  refine (tryPlace_ends hc hv hn hlim hc.maxAlign).imp fun ptr h₁ hptr => ?_
  rw [ends_bind]
  exact note_ends fun h₂ hl => ends_pure.2 (hptr.after hl)

theorem alloc_ends (hc : c.Honest) (hv : survey.valid h) (hn : 0 < n) (hlim : n < Word.limit) :
    Returns (alloc c n) h (survey.Served none n h) :=
  (alloc_lands hc hv hn hlim).imp fun _ _ hr => hr.served hv

theorem allocAligned_ends (hc : c.Honest) (hv : survey.valid h) (hn : 0 < n)
    (hlim : n < Word.limit) (hpow : align.isPowerOfTwo) :
    Returns (allocAligned c n align) h fun r h' =>
      Landed align n h r h' ∧ (r.isSome → align ≤ span) := by
  unfold allocAligned
  rw [Returns]
  simp only
  split
  · rename_i hspan
    rw [ends_bind]
    refine (tryPlace_ends hc hv hn hlim (Nat.pos_of_isPowerOfTwo hpow)).imp fun ptr h₁ hptr => ?_
    rw [ends_bind]
    exact note_ends fun h₂ hl => ends_pure.2 ⟨hptr.after hl, fun _ => hspan.2⟩
  · rw [ends_bind, ends_pure, ends_bind]
    exact note_ends fun h₂ hl => ends_pure.2 ⟨hl, fun hsome => absurd hsome Bool.false_ne_true⟩

/-- Writing zeros, and one byte that is none, stays inside the block. -/
theorem allocZeroed_lands (hc : c.Honest) (hv : survey.valid h) (hn : 0 < n)
    (hlim : n < Word.limit) : Returns (allocZeroed c n) h (Landed c.maxAlign n h) := by
  unfold allocZeroed
  rw [Returns, ends_bind]
  refine (tryPlace_ends hc hv hn hlim hc.maxAlign).imp fun ptr h₁ hptr => ?_
  rw [ends_bind]
  refine note_ends fun h₂ hl => ?_
  have hlanded := hptr.after hl
  cases ptr with
  | none => exact ends_pure.2 hlanded
  | some ptr =>
    obtain ⟨t₂, hplace⟩ := hlanded
    have t := t₂.write (m := h₂.memory.fill ptr n 0) fun a ha => Memory.changed_fill ha
    simp only
    rw [ends_bind, ends_mapMemory]
    split
    · rw [ends_bind, ends_mapMemory, ends_pure]
      refine ⟨t.write fun a ha => ?_, hplace⟩
      have hchanged := Memory.changed_fill ha
      show ptr ≤ a ∧ a < ptr + n
      omega
    · exact ends_pure.2 ⟨t, hplace⟩

theorem allocZeroed_ends (hc : c.Honest) (hv : survey.valid h) (hn : 0 < n)
    (hlim : n < Word.limit) : Returns (allocZeroed c n) h (survey.Served none n h) :=
  (allocZeroed_lands hc hv hn hlim).imp fun _ _ hr => hr.served hv

theorem retire_ends (hv : survey.valid h) (hp : h.state.live.find? p = some n) :
    Returns (retire p n) h fun _ => survey.Trade (some p) none h := by
  unfold retire change
  rw [Returns, ends_bind, ends_mapMemory, ends_modify]
  exact trade_retire hv hp

theorem takeBack_ends (hv : survey.valid h) (hp : h.state.live.find? p = some n) :
    Returns (takeBack p) h fun _ => survey.Trade (some p) none h := by
  unfold takeBack
  rw [Returns, ends_bind, ends_get, hp]
  simp only
  rw [ends_bind]
  exact (retire_ends hv hp).imp fun _ _ t => ends_pure.2 t

/-- How a block of `old` bytes at `p` is resized to `n` bytes: with its content if the arena copies,
and to where new blocks go if it always moves. -/
structure Resettled (c : Config) (p old n : Nat) (h : Heap Arena) (r : Option Nat)
    (h' : Heap Arena) : Prop where
  served : survey.Served (some p) n h r h'
  carried : c.lossy = false →
    ∀ q ∈ r, Memory.Carried p q (min old n) h.memory h'.memory
  moved : c.alwaysMove = true → ∀ q ∈ r, ∃ offset, q = base + offset ∧ c.maxAlign ∣ offset

theorem Resettled.refused {old : Nat} (t : survey.Trade none none h h') :
    Resettled c p old n h none h' where
  served := t
  carried := fun _ _ hq => nomatch hq
  moved := fun _ _ hq => nomatch hq

/-- A block that grows moves: it is placed anew, copied, and retired where it was. -/
theorem resize_ends {old : Nat} (hc : c.Honest) (hv : survey.valid h)
    (hp : h.state.live.find? p = some old) (hn : 0 < n) (hlim : n < Word.limit) :
    Returns (resize c p old n) h (Resettled c p old n h) := by
  unfold resize
  simp only [capacity_eq hc hlim]
  split
  · rename_i hstay
    unfold change
    rw [Returns, ends_bind, ends_modify, ends_pure]
    refine ⟨⟨n, trade_shrink hv hp hn hstay.1⟩, ?_, ?_⟩
    · rintro - q ⟨⟩
      exact (Memory.Agree.refl _ _ _).carried
    · intro hmoves
      rw [hstay.2] at hmoves
      cases hmoves
  rw [Returns, ends_bind]
  refine (place_ends hc hv hn hlim hc.maxAlign).imp fun ptr h₁ hptr => ?_
  cases ptr with
  | none => exact ends_pure.2 (.refused (hptr.served hv))
  | some q =>
    obtain ⟨t, hplace⟩ := hptr
    have hlive : survey.live h p = some ⟨old, old⟩ := live_eq hp
    have hold : h₁.state.live.find? p = some old := find?_eq (t.live_of_ne hlive (by simp))
    -- Whether the content is copied or forgotten, what is written lies in the new block.
    have hretired : ∀ m : Memory, (∀ a, m.byte a ≠ h₁.memory.byte a → q ≤ a ∧ a < q + n) →
        (c.lossy = false → m = h₁.memory.copy q p (min old n)) →
        Returns (do retire p old; pure (some q)) ⟨m, h₁.state⟩ (Resettled c p old n h) := by
      intro m hm hcopied
      have tm := t.write hm
      rw [Returns, ends_bind]
      refine (retire_ends tm.valid hold).imp fun _ h₂ t₂ => ends_pure.2 ?_
      refine ⟨⟨n, tm.move hlive t₂⟩, ?_, ?_⟩
      · rintro hcopies _ ⟨⟩
        rw [hcopied hcopies] at t₂
        refine t.carried hlive ⟨Nat.le_refl _, ?_⟩ ⟨Nat.le_refl _, ?_⟩ t₂
        · exact Nat.add_le_add_left (Nat.min_le_left _ _) _
        · exact Nat.add_le_add_left (Nat.min_le_right _ _) _
      · rintro - _ ⟨⟩
        exact hplace
    simp only
    split
    · rw [ends_bind, ends_mapMemory]
      refine hretired _ (fun a ha => ?_) fun _ => rfl
      have hchanged := Memory.changed_copy ha
      omega
    · rename_i hlossy
      exact hretired h₁.memory (fun a ha => absurd rfl ha) fun hcopies => absurd hcopies hlossy

theorem realloc_ends {old : Nat} (hc : c.Honest) (hv : survey.valid h)
    (hp : h.state.live.find? p = some old) (hn : 0 < n) (hlim : n < Word.limit) :
    Returns (realloc c p n) h (Resettled c p old n h) := by
  unfold realloc
  rw [Returns, ends_bind]
  refine attempt_ends fun goes h₁ hl => ?_
  have hp₁ : h₁.state.live.find? p = some old := by
    rw [hl.live]
    exact hp
  rw [ends_bind, ends_get, hp₁]
  simp only
  cases goes with
  | false =>
    rw [if_neg Bool.false_ne_true, ends_bind, ends_pure, ends_bind]
    refine note_ends fun h₂ hl₂ => ends_pure.2 (.refused ?_)
    exact hl₂.after (hl.still hv)
  | true =>
    rw [if_pos rfl, ends_bind]
    refine (resize_ends hc (hl.valid hv) hp₁ hn hlim).imp fun ptr h₂ hptr => ?_
    rw [ends_bind]
    refine note_ends fun h₃ hl₃ => ends_pure.2 ?_
    cases ptr with
    | none => exact .refused (hl₃.after (hl.before hptr.served))
    | some q =>
      obtain ⟨⟨bytes, t⟩, hcarried, hmoved⟩ := hptr
      refine ⟨⟨bytes, hl₃.after (hl.before t)⟩, ?_, hmoved⟩
      rw [← hl.memory, hl₃.memory]
      exact hcarried

theorem free_ends (hv : survey.valid h) (hp : h.state.live.find? p = some n) :
    Returns (free p) h fun _ => survey.Trade (some p) none h := by
  unfold free
  rw [Returns, ends_bind]
  exact (takeBack_ends hv hp).imp fun _ h₁ t => note_ends fun h₂ hl => hl.after t

theorem freeSized_ends {size : Nat} (hv : survey.valid h)
    (hp : h.state.live.find? p = some n) :
    Returns (freeSized p size) h fun _ => survey.Trade (some p) none h := by
  unfold freeSized
  rw [Returns, ends_bind]
  exact (takeBack_ends hv hp).imp fun _ h₁ t => note_ends fun h₂ hl => hl.after t

theorem blockSize_eq (hc : c.Honest) (hp : h.state.live.find? p = some n) :
    blockSize c p h = .ok n := by
  unfold blockSize
  rw [hp, hc.understate]
  rfl

/-! ## Contracts -/

def basicContract (hc : c.Honest) : (basic c).Contract Lease.Admits where
  toSurvey := survey
  alloc := alloc_ends hc
  allocZeroed := fun hv hn hlim => survey.zeroed_ends (alloc_ends hc hv hn hlim)
  allocAligned := fun hv _ _ _ _ => ends_pure.2 (.refl hv)
  realloc := fun hv hl hn hlim =>
    (realloc_ends hc hv (find?_eq hl) hn hlim).imp fun _ _ => Resettled.served
  freeSized := fun hv hl _ => free_ends hv (find?_eq hl)
  setBackgroundThread := fun _ hv => ends_pure.2 (.refl hv)
  purge := fun hv => ends_pure.2 (.refl hv)
  blockSize := fun _ hl => blockSize_eq hc (find?_eq hl)

def fullContract (hc : c.Honest) : (full c).Contract Lease.Admits where
  toSurvey := survey
  alloc := alloc_ends hc
  allocZeroed := allocZeroed_ends hc
  allocAligned := fun hv hn hlim hpow _ =>
    (allocAligned_ends hc hv hn hlim hpow).imp fun _ _ hr => hr.1.served hv
  realloc := fun hv hl hn hlim =>
    (realloc_ends hc hv (find?_eq hl) hn hlim).imp fun _ _ => Resettled.served
  freeSized := fun hv hl _ => freeSized_ends hv (find?_eq hl)
  setBackgroundThread := fun _ hv => note_ends fun _ hl => hl.still hv
  purge := fun hv => ends_bind.2 (note_ends fun _ hl => ends_pure.2 (hl.still hv))
  blockSize := fun _ hl => blockSize_eq hc (find?_eq hl)

theorem dvd_base (hpow : align.isPowerOfTwo) (hspan : align ≤ span) : align ∣ base := by
  obtain ⟨k, rfl⟩ := hpow
  have hk : k ≤ 22 := (Nat.pow_le_pow_iff_right Nat.one_lt_two).1 hspan
  have hbase : 2 ^ k ∣ 2 ^ 46 := Nat.pow_dvd_pow 2 (by omega)
  exact hbase

/-- Blocks lie at multiples of the alignment from the base, and the base is a multiple of every
alignment that is served. -/
theorem fullContract_honours (hc : c.Honest) : (fullContract hc).Honours := by
  intro h n align q h' hv hn hlim hpow hmax hrun
  obtain ⟨⟨-, offset, rfl, hdvd⟩, hreach⟩ := (allocAligned_ends hc hv hn hlim hpow).of_ok hrun
  exact Nat.mod_eq_zero_of_dvd (Nat.dvd_add (dvd_base hpow (hreach rfl)) hdvd)

/-- An arena that copies keeps content, to the last byte of the block. -/
theorem fullContract_preserves (hc : c.Honest) (hcopies : c.lossy = false) :
    (fullContract hc).Preserves Lease.bytes := by
  intro h p l n hv hl hn hlim
  exact (realloc_ends hc hv (find?_eq hl) hn hlim).imp fun _ _ hr => hr.carried hcopies

/-- An arena that zeroes to the end hands out zeros. -/
theorem fullContract_zeroes (hc : c.Honest) (hclean : c.dirtyZero = false) :
    (fullContract hc).Zeroes := by
  intro h n hv hn hlim
  show Returns (allocZeroed c n) h _
  unfold allocZeroed
  rw [Returns, ends_bind]
  refine (tryPlace_ends hc hv hn hlim hc.maxAlign).imp fun ptr h₁ _ => ?_
  rw [ends_bind]
  refine note_ends fun h₂ _ => ?_
  cases ptr with
  | none => exact ends_pure.2 forall_mem_none
  | some ptr =>
    simp only [hclean]
    rw [ends_bind, ends_mapMemory, if_neg Bool.false_ne_true]
    apply ends_pure.2
    rintro _ ⟨⟩ i hi
    show (h₂.memory.fill ptr n 0).byte (ptr + i) = 0
    rw [Memory.byte_fill, if_pos (by omega)]

/-- Taking a block writes to no memory. -/
theorem tryPlace_memory (c : Config) (n align : Nat) (h : Heap Arena) :
    Returns (tryPlace c n align) h fun _ h' => h'.memory = h.memory := by
  unfold tryPlace
  rw [Returns, ends_bind]
  apply attempt_ends
  intro goes h₁ hl
  cases goes with
  | false => exact ends_pure.2 hl.memory
  | true =>
    simp only [if_true]
    unfold place change
    rw [ends_bind, ends_get]
    simp only
    split
    · exact ends_pure.2 hl.memory
    · rw [ends_bind, ends_modify, ends_pure]
      exact hl.memory

theorem alloc_memory (c : Config) (n : Nat) (h : Heap Arena) :
    Returns (alloc c n) h fun _ h' => h'.memory = h.memory := by
  unfold alloc
  rw [Returns, ends_bind]
  apply (tryPlace_memory c n c.maxAlign h).imp
  intro ptr h₁ hmem
  rw [ends_bind]
  exact note_ends fun h₂ hl => ends_pure.2 (hl.memory.trans hmem)

/-- Memory outside the run of addresses that arenas use is not the arena's. -/
theorem fullContract_avoids (hc : c.Honest) (hv : survey.valid h) {start len : Nat}
    (hout : start + len ≤ base ∨ base + span ≤ start) : (fullContract hc).Avoids h start len := by
  intro n r h' hn hlim hrun
  have hmem : h'.memory = h.memory := (alloc_memory c n h).of_ok hrun
  have hlands : Landed c.maxAlign n h r h' := (alloc_lands hc hv hn hlim).of_ok hrun
  refine ⟨?_, ?_⟩
  · intro a _ _
    rw [hmem]
  · intro q l hq hq'
    cases r with
    | none =>
      have hlive := congrFun hlands.surveyed q
      cases hq.symm.trans (hlive.symm.trans hq')
    | some ptr =>
      obtain ⟨t, offset, rfl, -⟩ := hlands
      have hcame := t.eq_came hq hq'
      have hends : Orderly h'.state := t.valid
      obtain ⟨-, -, hend⟩ := hends.inside q l.bytes (find?_eq hq')
      cases hcame
      simp only at hend ⊢
      omega

theorem Landed.dvd {r : Option Nat} (hr : Landed align n h r h') (hpow : align.isPowerOfTwo)
    (hspan : align ≤ span) : ∀ q ∈ r, align ∣ q := by
  rintro q rfl
  obtain ⟨-, offset, rfl, hoffset⟩ := hr
  exact Nat.dvd_add (dvd_base hpow hspan) hoffset

theorem Resettled.dvd {old : Nat} {r : Option Nat} (hr : Resettled c p old n h r h')
    (hpow : c.maxAlign.isPowerOfTwo) (hspan : c.maxAlign ≤ span) (hmoves : c.alwaysMove = true) :
    ∀ q ∈ r, c.maxAlign ∣ q := by
  intro q hq
  obtain ⟨offset, rfl, hoffset⟩ := hr.moved hmoves q hq
  exact Nat.dvd_add (dvd_base hpow hspan) hoffset

/-- New blocks have the arena's alignment, and so have resized ones if they always move. -/
theorem fullContract_aligns (hc : c.Honest) (hpow : c.maxAlign.isPowerOfTwo)
    (hspan : c.maxAlign ≤ span) (hmoves : c.alwaysMove = true) : (fullContract hc).Aligns where
  alloc := fun hv _ hn hlim => (alloc_lands hc hv hn hlim).imp fun _ _ hr => hr.dvd hpow hspan
  allocZeroed := fun hv _ hn hlim =>
    (allocZeroed_lands hc hv hn hlim).imp fun _ _ hr => hr.dvd hpow hspan
  realloc := fun hv hl _ hn hlim =>
    (realloc_ends hc hv (find?_eq hl) hn hlim).imp fun _ _ hr => hr.dvd hpow hspan hmoves

end HeapLedger.Arena
