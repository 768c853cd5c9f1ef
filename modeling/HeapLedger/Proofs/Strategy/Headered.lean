import HeapLedger.Proofs.Header
import HeapLedger.Proofs.Strategy.Contract
import HeapLedger.Strategy.Headered

/-!
# `HeapLedger/Proofs/Strategy/Headered.lean` — blocks behind their headers

Under a headered strategy a pointer stands for a holding when the words in front of it are a header
that leads back to the backend's block, and that block was asked for with exactly the bytes that the
header accounts for. The header lies between the start of the block and the pointer, so a custody is
what this is: the words are safe from every other holder.

Two operations take more than a look at the header. A new block is stamped, which makes it stand for
what was asked (`stamp_ends`, `stampAligned_ends`). An over-aligned block is resized by a new block,
a copy and a free; the copy stays inside the new block and the free finds the old header untouched.
-/

set_option autoImplicit false

namespace HeapLedger.Strategy

variable {β : Type}

namespace Headered

/-- A block with a header: its bytes as recorded, its footprint as asked for. -/
def holding (w start bytes : Nat) (x : Header) : Holding :=
  ⟨start, ⟨Header.cost w x, bytes⟩, x.size, Header.cost w x⟩

variable {b : Backend β} {due : Lease → Nat → Prop} {h h' : Heap β} {p n : Nat}

theorem two_words_le_width (b : Backend β) : 2 * Word.bytes ≤ width b :=
  Header.two_words_le_width b.maxAlign

/-- Every pointer has a header in front of it that leads back to its block. -/
def custody (c : b.Contract due) : Custody β where
  toSurvey := c.toSurvey
  stands := fun p d h => c.live h d.start = some d.lease ∧
    ∃ x, Header.Stamped (width b) h.memory d.start p x ∧ Header.cost (width b) x < Word.limit ∧
      d = holding (width b) d.start d.lease.bytes x
  lease := fun hp => hp.1
  inside := by
    intro p d h hv hp
    obtain ⟨hl, x, hx, -, hd⟩ := hp
    have hfits := c.fits hv hl
    have hroom := hx.room
    have hstart := hx.start_le (two_words_le_width b)
    have hpos := hx.pos
    have husable : d.usable = x.size := by rw [hd]; rfl
    have hasked : d.lease.asked = Header.cost (width b) x := by rw [hd]; rfl
    rw [husable]
    omega
  stable := by
    intro p d h h' hp hl hm
    obtain ⟨-, x, hx, hlim, hd⟩ := hp
    exact ⟨hl, x, hx.congr (two_words_le_width b) hm, hlim, hd⟩

variable {c : b.Contract due}

/-! ## New blocks -/

/-- A block of the backend with room for a header in front becomes a block of the strategy. -/
theorem served_of_stamped {gone : Option Nat} {raw bytes : Nat} {x : Header} {m : Memory}
    {h₁ : Heap β} (t : c.Trade gone (some (raw, ⟨Header.cost (width b) x, bytes⟩)) h h₁)
    (hm : ∀ a, m.byte a ≠ h₁.memory.byte a → raw ≤ a ∧ a < p)
    (hx : Header.Stamped (width b) m raw p x) (hlim : Header.cost (width b) x < Word.limit) :
    (custody c).Served gone x.size h (some ⟨p, x.size, Header.cost (width b) x⟩)
      ⟨m, h₁.state⟩ := by
  have hasked : Header.cost (width b) x ≤ bytes := (c.fits t.valid t.live_came).2.1
  have hroom := hx.room
  have t' : c.Trade gone (some (raw, ⟨Header.cost (width b) x, bytes⟩)) h ⟨m, h₁.state⟩ := by
    refine t.write fun a ha => ?_
    obtain ⟨hlo, hhi⟩ := hm a ha
    have hpos := hx.pos
    show raw ≤ a ∧ a < raw + bytes
    omega
  have hstands : (custody c).stands p (holding (width b) raw bytes x) ⟨m, h₁.state⟩ :=
    ⟨t'.live_came, x, hx, hlim, rfl⟩
  exact ⟨holding (width b) raw bytes x, t', hstands, rfl, rfl, Nat.le_refl _⟩

/-- A stamp writes a plain header, where the cost of the block does not leave the word. -/
theorem stamp_eq {raw : Nat} (hlim : n + width b < Word.limit) :
    stamp b raw n h = .ok ⟨raw + width b, n, n + width b⟩
      ⟨Header.writePlain h.memory (raw + width b) n, h.state⟩ := by
  have hcost : Header.footprint (width b) ⟨n, 0⟩ = .ok (n + width b) := Header.footprint_eq hlim
  unfold stamp
  rw [hcost]
  rfl

/-- A stamp for an alignment puts the pointer where the header fits in front of it. -/
theorem stampAligned_eq {raw align : Nat} (hpow : align.isPowerOfTwo)
    (hspot : raw + width b + Word.bytes + align < Word.limit)
    (hlim : Header.cost (width b) ⟨n, align⟩ < Word.limit) :
    stampAligned b raw n align h =
      .ok ⟨Word.roundUp (raw + (width b + Word.bytes)) align, n, Header.cost (width b) ⟨n, align⟩⟩
        ⟨Header.writeAligned h.memory raw (Word.roundUp (raw + (width b + Word.bytes)) align) n align,
          h.state⟩ := by
  unfold stampAligned
  rw [Header.alignedPointer_eq hpow hspot, Header.footprint_eq hlim]
  rfl

theorem stamp_ends {gone : Option Nat} {raw bytes : Nat} (hn : 0 < n) (hlt : n < Size.bound)
    (hlim : n + width b < Word.limit)
    (t : c.Trade gone (some (raw, ⟨n + width b, bytes⟩)) h h') :
    Returns (stamp b raw n) h' fun block => (custody c).Served gone n h (some block) := by
  have hcost : Header.cost (width b) ⟨n, 0⟩ = n + width b := if_pos rfl
  have hw := two_words_le_width b
  refine Ends.intro_ok (stamp_eq hlim) ?_
  rw [← hcost] at t hlim ⊢
  refine served_of_stamped t ?_ (Header.stamped_writePlain hw hn hlt) hlim
  intro a ha
  have hchanged := Header.changed_writePlain (by omega) ha
  omega

theorem stampAligned_ends {gone : Option Nat} {raw bytes align : Nat} (hn : 0 < n)
    (hlt : n < Size.bound) (hpow : align.isPowerOfTwo)
    (hlim : n + width b + Word.bytes + align < Word.limit)
    (t : c.Trade gone (some (raw, ⟨n + width b + Word.bytes + align, bytes⟩)) h h') :
    Returns (stampAligned b raw n align) h' fun block h₂ =>
      (custody c).Served gone n h (some block) h₂ ∧ align ∣ block.ptr := by
  have hpos := Nat.pos_of_isPowerOfTwo hpow
  have hcost : Header.cost (width b) ⟨n, align⟩ = n + width b + Word.bytes + align :=
    if_neg (Nat.pos_iff_ne_zero.1 hpos)
  have hw := two_words_le_width b
  have hasked : n + width b + Word.bytes + align ≤ bytes := (c.fits t.valid t.live_came).2.1
  have hspace : raw + bytes ≤ Word.limit := (c.fits t.valid t.live_came).2.2
  have hlo := Word.le_roundUp (raw + (width b + Word.bytes)) hpos
  have hhi := Word.roundUp_lt (raw + (width b + Word.bytes)) hpos
  rw [← hcost] at t hlim
  -- What was asked for fits the block and the block fits the address space, so no sum wraps.
  refine Ends.intro_ok (stampAligned_eq hpow (by omega) hlim) ⟨?_, Word.dvd_roundUp _ align⟩
  refine served_of_stamped t ?_ (Header.stamped_writeAligned hw hn hlt hpow (by omega) (by omega)
    (by omega) (by omega)) hlim
  intro a ha
  have hchanged := Header.changed_writeAligned (by omega) ha
  omega

/-- The stamp changes nothing but the bytes in front of the block. -/
theorem stamp_keeps {raw : Nat} (bytes : Nat) (hlim : n + width b < Word.limit) :
    Returns (stamp b raw n) h fun block h' => block.ptr = raw + width b ∧
      Memory.Agree (raw + width b) bytes h.memory h'.memory := by
  have hw := two_words_le_width b
  refine Ends.intro_ok (stamp_eq hlim) ⟨rfl, ?_⟩
  intro a hlo hhi
  apply Decidable.byContradiction
  intro hne
  have hchanged := Header.changed_writePlain (by omega) hne
  omega

/-- A plain block, from memory that `take` gets, perhaps for memory that it gives up. -/
theorem allocBy_ends {gone : Option Nat} {take : Nat → HeapOp β (Option Nat)} (hv : c.valid h)
    (hn : 0 < n) (hlt : n < Size.bound)
    (htake : ∀ total, 0 < total → total < Word.limit →
      Returns (take total) h (c.Served gone total h)) :
    Returns (allocBy b take n) h ((custody c).Served gone n h) := by
  unfold allocBy
  cases hsize : Header.plainSize (width b) n with
  | none => exact ends_pure.2 (Survey.Trade.refl hv)
  | some total =>
    obtain ⟨hlim, rfl⟩ := Header.plainSize_eq_some.1 hsize
    rw [Returns, ends_bind]
    refine (htake _ (by omega) hlim).imp fun r h₁ hr => ?_
    cases r with
    | none => exact ends_pure.2 hr
    | some raw =>
      obtain ⟨bytes, t⟩ := hr
      rw [ends_map]
      exact stamp_ends hn hlt hlim t

/-- What `take` brings along behind a header is what the block holds. -/
theorem allocBy_carries {take : Nat → HeapOp β (Option Nat)} {src len : Nat}
    (htake : n + width b < Word.limit → Returns (take (n + width b)) h fun r h' =>
      ∀ q ∈ r, Memory.Carried src q (width b + len) h.memory h'.memory) :
    Returns (allocBy b take n) h fun r h' =>
      ∀ block ∈ r, Memory.Carried (src + width b) block.ptr len h.memory h'.memory := by
  unfold allocBy
  cases hsize : Header.plainSize (width b) n with
  | none =>
    apply ends_pure.2
    intro block hblock
    cases hblock
  | some total =>
    obtain ⟨hlim, rfl⟩ := Header.plainSize_eq_some.1 hsize
    rw [Returns, ends_bind]
    apply (htake hlim).imp
    intro r h₁ hcarried
    cases r with
    | none =>
      apply ends_pure.2
      intro block hblock
      cases hblock
    | some raw =>
      rw [ends_map]
      apply (stamp_keeps len hlim).imp
      intro block h₂ hstamp y hy
      obtain ⟨hptr, hkept⟩ := hstamp
      cases hy
      rw [hptr]
      exact ((hcarried raw rfl).drop (Nat.le_refl _)).stay hkept

theorem allocAligned_ends {align : Nat} (hv : c.valid h) (hn : 0 < n) (hlt : n < Size.bound)
    (hpow : align.isPowerOfTwo) (hmax : b.maxAlign < align) :
    Returns (allocAligned b n align) h ((custody c).Served none n h) := by
  unfold allocAligned
  rw [if_neg (by simpa using hpow), if_neg (by omega)]
  cases hsize : Header.alignedSize (width b) n align with
  | none => exact ends_pure.2 (Survey.Trade.refl hv)
  | some total =>
    obtain ⟨hlim, rfl⟩ := Header.alignedSize_eq_some.1 hsize
    rw [Returns, ends_bind]
    refine (c.alloc hv (by omega) hlim).imp fun r h₁ hr => ?_
    cases r with
    | none => exact ends_pure.2 hr
    | some raw =>
      obtain ⟨bytes, t⟩ := hr
      rw [ends_map]
      exact (stampAligned_ends hn hlt hpow hlim t).imp fun _ _ => And.left

/-! ## Live blocks -/

/-- What a live pointer's header leads to. -/
structure Found (b : Backend β) (v : Survey β) (p : Nat) (d : Holding) (h : Heap β) (x : Header) :
    Prop where
  stamped : Header.Stamped (width b) h.memory d.start p x
  read : Header.read h.memory p = .ok x
  start : Header.start (width b) h.memory p x = d.start
  booked : d.footprint = Header.cost (width b) x
  fits : Header.cost (width b) x < Word.limit
  cost : Header.footprint (width b) x = .ok d.footprint
  live : v.live h d.start = some d.lease
  usable : d.usable = x.size
  asked : d.lease.asked = d.footprint

theorem found {d : Holding} (hv : c.valid h) (hp : (custody c).stands p d h) :
    ∃ x, Found b c.toSurvey p d h x := by
  obtain ⟨-, hstart, hend⟩ := (custody c).inside hv hp
  obtain ⟨hl, x, hx, hlim, hd⟩ := hp
  have hw := two_words_le_width b
  have hfits := c.fits hv hl
  have hroom := hx.room
  have hpos := hx.pos
  have hfront := hx.start_le hw
  have hasked : d.lease.asked = Header.cost (width b) x := by rw [hd]; rfl
  have hcost : d.footprint = Header.cost (width b) x := by rw [hd]; rfl
  refine ⟨x, hx, hx.read, hx.start_eq hw (by omega), hcost, hlim, ?_, hl, by rw [hd]; rfl, by omega⟩
  rw [hcost]
  exact Header.footprint_eq hlim

theorem header_ends {d : Holding} {x : Header} {ret : Header → Heap β → Prop}
    {stop : Fault → Heap β → Prop} (hf : Found b c.toSurvey p d h x) :
    Ends (header p) h ret stop ↔ ret x h := by
  unfold header
  exact ends_query hf.read

/-- A block goes back to the backend with exactly the bytes that were asked for. -/
theorem release_ends (hexact : ∀ l, l.asked ≤ l.bytes → due l l.asked)
    {d : Holding} {x : Header} (hv : c.valid h)
    (hf : Found b c.toSurvey p d h x) :
    Returns (release b p x) h fun cost h' =>
      cost = d.footprint ∧ c.Trade (some d.start) none h h' := by
  have hdue : due d.lease d.footprint := by
    rw [← hf.asked]
    exact hexact d.lease (c.fits hv hf.live).2.1
  unfold release
  rw [Returns, ends_bind, hf.cost, ends_ofExcept_ok, ends_bind, ends_get, hf.start, ends_bind]
  exact (c.freeSized hv hf.live hdue).imp fun _ h' t => ends_pure.2 ⟨rfl, t⟩

theorem free_ends (hexact : ∀ l, l.asked ≤ l.bytes → due l l.asked)
    {d : Holding} (hv : c.valid h)
    (hp : (custody c).stands p d h) :
    Returns (free b p) h fun cost h' =>
      cost = d.footprint ∧ c.Trade (some d.start) none h h' := by
  obtain ⟨x, hf⟩ := found hv hp
  unfold free
  rw [Returns, ends_bind, header_ends hf]
  exact release_ends hexact hv hf

theorem freeWithSize_def (usable : Nat) : (headered b).freeWithSize p usable = (do
    let x ← header p
    if usable ≠ x.size then throw (.wrongUsable usable x.size) else release b p x) := rfl

theorem freeWithSize_ends (hexact : ∀ l, l.asked ≤ l.bytes → due l l.asked)
    {d : Holding} (hv : c.valid h)
    (hp : (custody c).stands p d h) :
    Returns ((headered b).freeWithSize p d.usable) h fun cost h' =>
      cost = d.footprint ∧ c.Trade (some d.start) none h h' := by
  obtain ⟨x, hf⟩ := found hv hp
  rw [Returns, freeWithSize_def, ends_bind, header_ends hf, if_neg (by simp [hf.usable])]
  exact release_ends hexact hv hf

theorem freeWithSize_wrong {d : Holding} {usable : Nat} (hv : c.valid h)
    (hp : (custody c).stands p d h) (husable : usable ≠ d.usable) :
    Ends ((headered b).freeWithSize p usable) h (fun _ _ => False)
      fun e h' => e = .wrongUsable usable d.usable ∧ h' = h := by
  obtain ⟨x, hf⟩ := found hv hp
  rw [hf.usable] at husable ⊢
  rw [freeWithSize_def, ends_bind, header_ends hf, if_pos husable, ends_throw]
  exact ⟨rfl, rfl⟩

/-! ## What the backend is asked -/

theorem header_run {x : Header} (hread : Header.read h.memory p = .ok x) :
    header p h = .ok x h := by
  unfold header
  exact run_query hread

theorem header_eq {raw : Nat} {x : Header} (hx : Header.Stamped (width b) h.memory raw p x) :
    header p h = .ok x h :=
  header_run hx.read

/-- A header that was read leads to where the block starts, and to what it costs. -/
theorem release_run {x : Header} {cost : Nat} (hcost : Header.footprint (width b) x = .ok cost) :
    release b p x h = (do
      b.freeSized (Header.start (width b) h.memory p x) cost
      pure cost) h := by
  unfold release
  rw [hcost]
  rfl

/-- A block that is given back goes by the backend's own pointer. -/
theorem release_eq {raw : Nat} {x : Header} (hx : Header.Stamped (width b) h.memory raw p x)
    (hp : p < Word.limit) (hlim : Header.cost (width b) x < Word.limit) :
    release b p x h = (do
      b.freeSized raw (Header.cost (width b) x)
      pure (Header.cost (width b) x)) h := by
  rw [release_run (Header.footprint_eq hlim), hx.start_eq (two_words_le_width b) hp]

theorem free_eq {raw : Nat} {x : Header} (hx : Header.Stamped (width b) h.memory raw p x) :
    free b p h = release b p x h := by
  unfold free
  exact run_bind_ok (header_eq hx)

theorem freeWithSize_eq {raw : Nat} {x : Header}
    (hx : Header.Stamped (width b) h.memory raw p x) :
    (headered b).freeWithSize p x.size h = release b p x h := by
  rw [freeWithSize_def, run_bind_ok (header_eq hx), if_neg (by simp)]

/-- The backend's block at `raw`, resized for `n` bytes behind a header, and stamped again. -/
def resizePlain (b : Backend β) (raw n old : Nat) : HeapOp β (Option Resized) :=
  match Header.plainSize (width b) n with
  | none => pure none
  | some total => do
      match ← b.realloc raw total with
      | none => pure none
      | some moved =>
          let block ← stamp b moved n
          pure (some ⟨block, old⟩)

/-- A plain block is resized as a new one is made, from memory that the backend moves. -/
theorem resizePlain_eq (b : Backend β) (raw n old : Nat) :
    resizePlain b raw n old =
      Option.map (fun block => ⟨block, old⟩) <$> allocBy b (b.realloc raw) n := by
  unfold resizePlain allocBy
  cases Header.plainSize (width b) n with
  | none => rfl
  | some total =>
    simp only [map_bind]
    congr
    funext r
    cases r with
    | none => rfl
    | some moved => simp

/-! ## Resizing -/

/-- An over-aligned block of `size` bytes, copied into a new plain one and freed. -/
def resizeFar (b : Backend β) (p size n old : Nat) : HeapOp β (Option Resized) := do
  match ← allocBy b b.alloc n with
  | none => pure none
  | some block =>
      HeapOp.mapMemory fun m => m.copy block.ptr p (min size n)
      let _ ← free b p
      pure (some ⟨block, old⟩)

/-- Which way a block is resized is in its header. -/
theorem realloc_def (b : Backend β) (p n : Nat) : realloc b p n = (do
    let x ← header p
    let old ← HeapOp.ofExcept (Header.footprint (width b) x)
    if x.align ≠ 0 then resizeFar b p x.size n old
    else resizePlain b (Header.start (width b) (← get).memory p x) n old) := by
  unfold realloc
  apply congrArg (header p >>= ·)
  funext x
  apply congrArg (HeapOp.ofExcept (Header.footprint (width b) x) >>= ·)
  funext old
  by_cases hfar : x.align ≠ 0
  · rw [if_pos hfar, if_pos hfar]
    rfl
  · rw [if_neg hfar, if_neg hfar]
    unfold resizePlain
    cases Header.plainSize (width b) n with
    | none => rfl
    | some total => rfl

theorem realloc_run {x : Header} {old : Nat} (hread : Header.read h.memory p = .ok x)
    (hcost : Header.footprint (width b) x = .ok old) :
    realloc b p n h =
      if x.align ≠ 0 then resizeFar b p x.size n old h
      else resizePlain b (Header.start (width b) h.memory p x) n old h := by
  have hold : HeapOp.ofExcept (Header.footprint (width b) x) h = .ok old h := by
    rw [hcost]
    rfl
  have hget : (get : HeapOp β (Heap β)) h = .ok h h := rfl
  rw [realloc_def, run_bind_ok (header_run hread), run_bind_ok hold]
  by_cases hfar : x.align ≠ 0
  · rw [if_pos hfar, if_pos hfar]
  · rw [if_neg hfar, if_neg hfar, run_bind_ok hget]

/-- A plain block that is resized goes by the backend's own pointer, too. -/
theorem realloc_eq {raw : Nat} {x : Header} (hx : Header.Stamped (width b) h.memory raw p x)
    (hp : p < Word.limit) (hlim : Header.cost (width b) x < Word.limit) (hplain : x.align = 0) :
    realloc b p n h = resizePlain b raw n (Header.cost (width b) x) h := by
  rw [realloc_run hx.read (Header.footprint_eq hlim), if_neg (not_not_intro hplain),
    hx.start_eq (two_words_le_width b) hp]

section Ends

variable {d : Holding} {x : Header} {ret : Option Resized → Heap β → Prop}
  {stop : Fault → Heap β → Prop} (hf : Found b c.toSurvey p d h x)

include hf

/-- The header is read before the backend moves the block, and decides how it is resized. -/
theorem ends_realloc_plain (hplain : x.align = 0) :
    Ends (realloc b p n) h ret stop ↔ Ends (resizePlain b d.start n d.footprint) h ret stop := by
  apply ends_of_run_eq
  rw [realloc_run hf.read hf.cost, if_neg (not_not_intro hplain), hf.start]

theorem ends_realloc_far (hfar : x.align ≠ 0) :
    Ends (realloc b p n) h ret stop ↔ Ends (resizeFar b p x.size n d.footprint) h ret stop := by
  apply ends_of_run_eq
  rw [realloc_run hf.read hf.cost, if_pos hfar]

end Ends

/-- A plain block is resized where the backend puts it, and stamped again. Nothing here depends on
what the backend does to the content, as the header was read before. -/
theorem realloc_plain {d : Holding} {x : Header} (hv : c.valid h)
    (hf : Found b c.toSurvey p d h x) (hplain : x.align = 0) (hn : 0 < n) (hlt : n < Size.bound) :
    Returns (realloc b p n) h fun r h' =>
      (custody c).Served (some d.start) n h (r.map Resized.block) h' ∧
        ∀ y ∈ r, y.oldFootprint = d.footprint := by
  rw [Returns, ends_realloc_plain hf hplain, resizePlain_eq, ends_map]
  apply (allocBy_ends hv hn hlt fun total hpos hlim => c.realloc hv hf.live hpos hlim).imp
  intro r h' hserved
  cases r with
  | none =>
    refine ⟨hserved, ?_⟩
    intro y hy
    cases hy
  | some block =>
    refine ⟨hserved, ?_⟩
    intro y hy
    cases hy
    rfl

/-- The backend carries the header along with the content, and the pointer keeps its distance. -/
theorem realloc_plain_carries (hc : c.Preserves Lease.asked) {d : Holding} {x : Header}
    (hv : c.valid h) (hf : Found b c.toSurvey p d h x) (hplain : x.align = 0) (hn : 0 < n) :
    Returns (realloc b p n) h fun r h' =>
      ∀ y ∈ r, Memory.Carried p y.block.ptr (min d.usable n) h.memory h'.memory := by
  have hptr : p = d.start + width b := hf.stamped.plain hplain
  -- What was asked for last is a header and the usable bytes, and so it is again.
  have hasked : d.lease.asked = d.usable + width b := by
    rw [hf.asked, hf.booked, hf.usable]
    exact if_pos hplain
  have htake : n + width b < Word.limit → Returns (b.realloc d.start (n + width b)) h fun r h' =>
      ∀ q ∈ r, Memory.Carried d.start q (width b + min d.usable n) h.memory h'.memory := by
    intro hlim
    apply (hc hv hf.live (by omega) hlim).imp
    intro r h' hcarried q hq
    exact (hcarried q hq).narrow (by omega)
  rw [Returns, ends_realloc_plain hf hplain, resizePlain_eq, ends_map, hptr]
  apply (allocBy_carries htake).imp
  intro r h' hcarried y hy
  obtain ⟨block, hblock, rfl⟩ := Option.map_eq_some_iff.1 hy
  exact hcarried block hblock

/-- What is copied into a new block stays inside it, so the old one can be freed afterwards. -/
theorem moved_ends (hexact : ∀ l, l.asked ≤ l.bytes → due l l.asked)
    {d e : Holding} {q len : Nat} (hv : c.valid h)
    (hp : (custody c).stands p d h) (t : c.Trade none (some (e.start, e.lease)) h h')
    (hq : (custody c).stands q e h') (hlen : len ≤ d.usable) (hlen' : len ≤ e.usable) :
    Returns (do
      HeapOp.mapMemory fun m => m.copy q p len
      free b p) h' fun _ h'' =>
        c.Trade (some d.start) (some (e.start, e.lease)) h h'' ∧ (custody c).stands q e h'' ∧
          Memory.Carried p q len h.memory h''.memory := by
  -- The copy changes usable bytes of the new block only, so both headers are still there.
  obtain ⟨hcopy, hq'⟩ := Custody.trade_copy (p := p) t.valid hq t hlen'
  have hp' := Custody.stands_of_trade hp hv hcopy (by simp)
  have hne : d.start ≠ e.start := hcopy.ne_came ((custody c).lease hp) (by simp)
  rw [Returns, ends_bind, ends_mapMemory]
  refine (free_ends hexact hcopy.valid hp').imp fun _ h'' hfreed => ?_
  obtain ⟨-, t'⟩ := hfreed
  refine ⟨hcopy.move ((custody c).lease hp) t', ?_, ?_⟩
  · exact Custody.stands_of_trade hq' hcopy.valid t' (by simpa using hne)
  · exact (custody c).carried hv hp t hq hlen hlen' t'

/-- The new block is had before the old one is copied and freed, so what is known of the new block's
allocation (`P`) is known of the resize. -/
theorem resizeFar_ends (hexact : ∀ l, l.asked ≤ l.bytes → due l l.asked) {d : Holding} {old : Nat}
    {P : Option Block → Prop} {ret : Option Resized → Heap β → Prop} (hv : c.valid h)
    (hp : (custody c).stands p d h) (hn : 0 < n) (hlt : n < Size.bound)
    (halloc : Returns (allocBy b b.alloc n) h fun r _ => P r)
    (hnone : ∀ h', P none → c.Trade none none h h' → ret none h')
    (hsome : ∀ block h', P (some block) → (custody c).Served (some d.start) n h (some block) h' →
      Memory.Carried p block.ptr (min d.usable n) h.memory h'.memory →
      ret (some ⟨block, old⟩) h') :
    Returns (resizeFar b p d.usable n old) h ret := by
  have hserves : Returns (allocBy b b.alloc n) h ((custody c).Served none n h) :=
    allocBy_ends hv hn hlt fun total hpos hlim => c.alloc hv hpos hlim
  unfold resizeFar
  rw [Returns, ends_bind]
  apply (hserves.and halloc).imp
  intro r h₁ hr
  obtain ⟨hserved, hP⟩ := hr
  cases r with
  | none => exact ends_pure.2 (hnone h₁ hP hserved)
  | some block =>
    obtain ⟨e, t, hq, husable, hcost, hne⟩ := hserved
    -- The new block has at least as many bytes as asked for, and no more than that are copied.
    have hlen : min d.usable n ≤ e.usable := Nat.le_trans (Nat.min_le_right _ _) hne
    have hmoved := moved_ends hexact hv hp t hq (Nat.min_le_left _ _) hlen
    rw [Returns, ends_bind] at hmoved
    rw [ends_bind]
    apply hmoved.mono
    intro _ h₂ hfree
    rw [ends_bind]
    apply Returns.imp hfree
    intro _ h₃ hfreed
    obtain ⟨t', hq', hcarried⟩ := hfreed
    exact ends_pure.2 (hsome block h₃ hP ⟨e, t', hq', husable, hcost, hne⟩ hcarried)

/-- An over-aligned block is copied into a new plain one and freed. -/
theorem realloc_far (hexact : ∀ l, l.asked ≤ l.bytes → due l l.asked)
    {d : Holding} {x : Header} (hv : c.valid h)
    (hp : (custody c).stands p d h) (hf : Found b c.toSurvey p d h x) (hfar : x.align ≠ 0)
    (hn : 0 < n) (hlt : n < Size.bound) :
    Returns (realloc b p n) h fun r h' =>
      (custody c).Served (some d.start) n h (r.map Resized.block) h' ∧
        ∀ y ∈ r, y.oldFootprint = d.footprint ∧
          Memory.Carried p y.block.ptr (min d.usable n) h.memory h'.memory := by
  have halloc : Returns (allocBy b b.alloc n) h fun _ _ => True :=
    Returns.imp (allocBy_ends hv hn hlt fun total hpos hlim => c.alloc hv hpos hlim)
      fun _ _ _ => trivial
  rw [Returns, ends_realloc_far hf hfar, ← hf.usable]
  apply resizeFar_ends hexact hv hp hn hlt halloc
  · intro h' _ t
    refine ⟨t, ?_⟩
    intro y hy
    cases hy
  · intro block h' _ hserved hcarried
    refine ⟨hserved, ?_⟩
    intro y hy
    cases hy
    exact ⟨rfl, hcarried⟩

theorem realloc_ends (hexact : ∀ l, l.asked ≤ l.bytes → due l l.asked)
    {d : Holding} (hv : c.valid h)
    (hp : (custody c).stands p d h) (hn : 0 < n) (hlt : n < Size.bound) :
    Returns (realloc b p n) h fun r h' =>
      (custody c).Served (some d.start) n h (r.map Resized.block) h' ∧
        ∀ y ∈ r, y.oldFootprint = d.footprint := by
  obtain ⟨x, hf⟩ := found hv hp
  by_cases hplain : x.align = 0
  · exact realloc_plain hv hf hplain hn hlt
  · exact (realloc_far hexact hv hp hf hplain hn hlt).imp fun _ _ hr =>
      ⟨hr.1, fun y hy => (hr.2 y hy).1⟩

/-- Whether the backend moves the block or the strategy does, the content comes along. -/
theorem realloc_carries (hexact : ∀ l, l.asked ≤ l.bytes → due l l.asked)
    (hc : c.Preserves Lease.asked) {d : Holding} (hv : c.valid h)
    (hp : (custody c).stands p d h) (hn : 0 < n) (hlt : n < Size.bound) :
    Returns (realloc b p n) h fun r h' =>
      ∀ y ∈ r, Memory.Carried p y.block.ptr (min d.usable n) h.memory h'.memory := by
  obtain ⟨x, hf⟩ := found hv hp
  by_cases hplain : x.align = 0
  · exact realloc_plain_carries hc hv hf hplain hn
  · exact (realloc_far hexact hv hp hf hplain hn hlt).imp fun _ _ hr y hy => (hr.2 y hy).2

end Headered

/-- A headered strategy keeps its contract over every backend that keeps its own and takes blocks
back with the size that was asked for. It never meets a block without its alignment. -/
def headeredContract {b : Backend β} {due : Lease → Nat → Prop} (c : b.Contract due)
    (hexact : ∀ l, l.asked ≤ l.bytes → due l l.asked) : (headered b).Contract where
  toCustody := Headered.custody c
  honours := True
  usableSize := by
    intro h p d hv hp
    obtain ⟨x, hf⟩ := Headered.found hv hp
    show Header.size <$> Header.read h.memory p = _
    rw [hf.read, hf.usable]
    rfl
  footprint := by
    intro h p d hv hp
    obtain ⟨x, hf⟩ := Headered.found hv hp
    show (Header.read h.memory p >>= fun x => Header.footprint (Headered.width b) x) = _
    rw [hf.read, Header.ok_bind, hf.cost]
  alloc := fun hv hn hlt => Headered.allocBy_ends hv hn hlt fun _ hpos hlim => c.alloc hv hpos hlim
  allocZeroed := fun hv hn hlt =>
    Headered.allocBy_ends hv hn hlt fun _ hpos hlim => c.allocZeroed hv hpos hlim
  allocAligned := fun hv hn hlt hpow hmax =>
    (Headered.allocAligned_ends hv hn hlt hpow hmax).ends
  realloc := fun hv hp hn hlt => Headered.realloc_ends hexact hv hp hn hlt
  free := fun hv hp => Headered.free_ends hexact hv hp
  freeWithSize := fun hv hp => Headered.freeWithSize_ends hexact hv hp
  freeWithWrongSize := fun hv hp husable => Headered.freeWithSize_wrong hv hp husable
  setBackgroundThread := c.setBackgroundThread
  purge := c.purge

end HeapLedger.Strategy
