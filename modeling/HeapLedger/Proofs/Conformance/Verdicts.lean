import HeapLedger.Proofs.Backend.Tenure
import HeapLedger.Proofs.Conformance.Scripts

/-!
# `HeapLedger/Proofs/Conformance/Verdicts.lean` — checks that neither miss nor invent

Three checks say whether resizes keep content, whether zeroed memory is zero, and whether blocks are
as big as they say. Over a backend that respects tenure they are right: a check follows its script,
fails if a request fails, and otherwise passes just when every block that it got was as the guarantee
says (`Judges`). What a check writes, it writes into the block that it holds, and it holds one at a
time; when it passes, it has given back every block, and the same blocks are live as before.

A resize is held to what it finds, while the check looks for what it has written. That comes to the
same, as each resize finds what has been written (`reallocPreserves_finds`).

Each round of a check takes a block (`takes_ends`), perhaps exchanges it for another, and gives it
back (`givesBack_ends`). Between, it looks at the block, and what it finds decides whether the log is
still `Fair` or is `Spoiled`.
-/

set_option autoImplicit false

namespace HeapLedger.Conformance

variable {β : Type}

/-! ## What is guaranteed of blocks -/

/-- A resized block starts with the bytes that the block before it had, with sixteen of them or with
as many as it was resized to. -/
def keepsContent : Sighting β → Nat → Heap β → Prop
  | ⟨h, .realloc p n⟩, q, h' =>
      ∀ i < min 16 n, h'.memory.byte (q + i) = h.memory.byte (p + i)
  | _, _, _ => True

/-- Zeroed memory is zero. -/
def isZero : Sighting β → Nat → Heap β → Prop
  | ⟨_, .allocZeroed n⟩, q, h' => ∀ i < n, h'.memory.byte (q + i) = 0
  | _, _, _ => True

/-- A block is said to have the bytes that were asked for. -/
def coversSize (b : SizedBackend β) : Sighting β → Nat → Heap β → Prop
  | ⟨_, .alloc n⟩, q, h' => ∃ usable, b.blockSize q h' = .ok usable ∧ n ≤ usable
  | _, _, _ => True

/-- How a check judges a backend from what it asks for and sees, from a heap on. -/
structure Judges (b : Backend β) (v : Survey β) (script : List (Line β))
    (guarantee : Sighting β → Nat → Heap β → Prop) (check : Check β Unit)
    (seen : List (Sighting β)) (h : Heap β) : Prop extends Plays b script check seen h where
  /-- A request that fails is not overlooked. -/
  refused : (∃ s ∈ seen, s.Failed b) → (verdict check h).isSome
  /-- If none does, nothing is found wrong just when all blocks are as they should be. -/
  judged : (∀ s ∈ seen, ¬ s.Failed b) →
    (verdict check h = none ↔ ∀ s ∈ seen, s.Meets b guarantee)
  /-- A check that passes has given back what it got, block by block. -/
  evened : ∀ h', check h = .ok () h' →
    seen.filterMap (Sighting.brought b) = seen.filterMap Sighting.gives?
  /-- It gave back live blocks only. -/
  apt : ∀ h', check h = .ok () h' → ∀ s ∈ seen, ∀ p ∈ s.gives?, (v.live s.heap p).isSome
  restored : ∀ h', check h = .ok () h' → v.valid h' ∧ v.live h' = v.live h

/-! ## What is written and looked for -/

/-- What is resized starts with the bytes from 0 to 15. -/
def FindsWritten : Sighting β → Prop
  | ⟨h, .realloc p _⟩ => ∀ i < 16, h.memory.byte (p + i) = UInt8.ofNat i
  | _ => True

/-- A resized block starts with the pattern, as far as the pattern and the block go. -/
def keepsPattern : Sighting β → Nat → Heap β → Prop
  | ⟨_, .realloc _ n⟩, q, h' => ∀ i < min 16 n, h'.memory.byte (q + i) = pattern i
  | _, _, _ => True

section Written

variable {b : Backend β}

/-- Where the pattern is what was there, looking for the pattern is looking for what was there. -/
theorem meets_keepsContent {s : Sighting β} (hs : FindsWritten s) :
    s.Meets b keepsContent ↔ s.Meets b keepsPattern := by
  obtain ⟨h, request⟩ := s
  cases request with
  | realloc p n =>
    have hsame : ∀ q (h' : Heap β),
        keepsContent ⟨h, .realloc p n⟩ q h' ↔ keepsPattern ⟨h, .realloc p n⟩ q h' := by
      intro q h'
      refine forall₂_congr fun i hi => ?_
      rw [hs i (Nat.lt_of_lt_of_le hi (Nat.min_le_left _ _))]
      rfl
    unfold Sighting.Meets
    simp only [hsame]
  | _ => exact Iff.rfl

section Seeing

variable {α : Type} {P : Sighting β → Prop} (w : Heap (Watched β)) (request : Request)

/-- One more request is written down, and it is like all others. -/
theorem watch_sees {op : HeapOp β α} (hw : ∀ s ∈ w.state.seen, P s)
    (hrequest : P ⟨w.unwatched, request⟩) :
    Ends (call (op.watch request)) w (fun _ w' => ∀ s ∈ w'.state.seen, P s)
      fun _ w' => ∀ s ∈ w'.state.seen, P s := by
  have hmore : ∀ s ∈ (⟨w.unwatched, request⟩ :: w.state.seen : List (Sighting β)), P s :=
    List.forall_mem_cons.2 ⟨hrequest, hw⟩
  apply (watched_ends request op w).imp
  · rintro _ w' ⟨hseen, -⟩
    rwa [hseen]
  · rintro _ w' ⟨hseen, -⟩
    rwa [hseen]

theorem expect_sees {op : HeapOp β (Option Nat)} {refused : Violation}
    (hw : ∀ s ∈ w.state.seen, P s) (hrequest : P ⟨w.unwatched, request⟩) :
    Ends (expect refused (op.watch request)) w (fun _ w' => ∀ s ∈ w'.state.seen, P s)
      fun _ w' => ∀ s ∈ w'.state.seen, P s := by
  rw [ends_expect]
  refine (watch_sees w request hw hrequest).mono fun r w' hw' => ?_
  cases r with
  | none => exact hw'
  | some q => exact hw'

end Seeing

/-- What is resized is what has been written, and then what has been found to be the same. -/
theorem reallocPreserves_finds (b : Backend β) (h : Heap β) :
    ∀ s ∈ sightings (reallocPreserves b.watched) h, FindsWritten s := by
  apply forall_sightings
  unfold reallocPreserves
  rw [ends_bind]
  apply (expect_sees h.watched (.alloc 16) (fun _ hs => nomatch hs) trivial).mono
  intro p w hw
  rw [ends_bind, ends_call, ends_mapMemory, ends_bind]
  have hwritten : ∀ i < 16, (w.memory.overwrite p 16 pattern).byte (p + i) = pattern i :=
    fun i hi => Memory.byte_overwrite_inside _ _ _ _ hi
  apply (expect_sees ⟨w.memory.overwrite p 16 pattern, w.state⟩ (.realloc p 100000) hw
    hwritten).mono
  intro p₁ w₁ hw₁
  rw [ends_bind]
  apply (kept_ends p₁ 16 w₁).imp
  · rintro _ _ ⟨rfl, hkept⟩
    rw [ends_bind]
    refine (expect_sees _ (.realloc p₁ 4) hw₁ hkept).mono fun p₂ w₂ hw₂ => ?_
    rw [ends_bind]
    apply (kept_ends p₂ 4 w₂).imp
    · rintro _ _ ⟨rfl, -⟩
      exact watch_sees _ (.free p₂) hw₂ trivial
    · rintro _ _ ⟨rfl, -⟩
      exact hw₂
  · rintro _ _ ⟨rfl, -⟩
    exact hw₁

end Written

/-! ## The log so far -/

/-- All is well so far, and the block at `owed` has still to be given back, if any. -/
structure Fair (b : Backend β) (v : Survey β) (guarantee : Sighting β → Nat → Heap β → Prop)
    (owed : Option Nat) (seen : List (Sighting β)) : Prop where
  passes : ∀ s ∈ seen, ¬ s.Failed b ∧ s.Meets b guarantee
  apt : ∀ s ∈ seen, ∀ p ∈ s.gives?, (v.live s.heap p).isSome
  even : seen.filterMap (Sighting.brought b) =
    owed.toList ++ seen.filterMap Sighting.gives?

/-- Something was wrong. -/
def Spoiled (b : Backend β) (guarantee : Sighting β → Nat → Heap β → Prop)
    (seen : List (Sighting β)) : Prop :=
  ∃ s ∈ seen, s.Failed b ∨ ¬ s.Meets b guarantee

section Log

variable {b : Backend β} {v : Survey β} {guarantee : Sighting β → Nat → Heap β → Prop}
  {owed : Option Nat} {seen : List (Sighting β)} {request : Request} {h h' : Heap β} {p q n : Nat}

theorem fair_nil : Fair b v guarantee none [] where
  passes := fun _ hs => nomatch hs
  apt := fun _ hs => nomatch hs
  even := rfl

/-- A block comes, in exchange for the one that is given back by the same request, if any. -/
theorem Fair.brings (hfair : Fair b v guarantee request.gives? seen)
    (hapt : ∀ p ∈ request.gives?, (v.live h p).isSome)
    (hrun : request.ask b h = .ok (some q) h') (hq : guarantee ⟨h, request⟩ q h') :
    Fair b v guarantee (some q) (⟨h, request⟩ :: seen) where
  passes := by
    have hbrought : Sighting.brought b ⟨h, request⟩ = some q := Sighting.brought_of_run hrun
    refine List.forall_mem_cons.2 ⟨⟨?_, (Sighting.meets_of_run hrun).2 hq⟩, hfair.passes⟩
    rintro ⟨-, hnone⟩
    rw [hbrought] at hnone
    cases hnone
  apt := List.forall_mem_cons.2 ⟨hapt, hfair.apt⟩
  even := by
    have hbrought : Sighting.brought b ⟨h, request⟩ = some q := Sighting.brought_of_run hrun
    have hgiven : Sighting.gives? ⟨h, request⟩ = request.gives? := rfl
    rw [List.filterMap_cons_some hbrought, hfair.even]
    cases hgives : request.gives? with
    | none =>
      rw [List.filterMap_cons_none (hgiven.trans hgives)]
      rfl
    | some p =>
      rw [List.filterMap_cons_some (hgiven.trans hgives)]
      rfl

/-- The block that is owed goes. -/
theorem Fair.gives (hfair : Fair b v guarantee (some p) seen) (hgives : request.gives? = some p)
    (hask : request.ask b = pure none) (hsize : request.size? = none)
    (hlive : (v.live h p).isSome) : Fair b v guarantee none (⟨h, request⟩ :: seen) where
  passes := by
    refine List.forall_mem_cons.2 ⟨⟨?_, ?_⟩, hfair.passes⟩
    · rintro ⟨hmemory, -⟩
      rw [hsize] at hmemory
      cases hmemory
    · intro q h' hrun
      rw [hask] at hrun
      cases hrun
  apt := by
    refine List.forall_mem_cons.2 ⟨?_, hfair.apt⟩
    intro p' hp'
    obtain rfl := Option.some.inj (hgives.symm.trans hp')
    exact hlive
  even := by
    have hbrought : Sighting.brought b ⟨h, request⟩ = none := by
      unfold Sighting.brought
      rw [hask]
      rfl
    have hgiven : Sighting.gives? (⟨h, request⟩ : Sighting β) = some p := hgives
    rw [List.filterMap_cons_none hbrought, hfair.even, List.filterMap_cons_some hgiven]
    rfl

end Log

/-! ## The steps of a check -/

section Steps

variable {b : Backend β} {v : Survey β} {guarantee : Sighting β → Nat → Heap β → Prop}
  {others : Nat → Option Lease} {request : Request} {w : Heap (Watched β)} {p q n : Nat} {l : Lease}

/-- Nothing is held, and all is well. -/
structure Sound (b : Backend β) (v : Survey β) (guarantee : Sighting β → Nat → Heap β → Prop)
    (others : Nat → Option Lease) (w : Heap (Watched β)) : Prop where
  valid : v.valid w.unwatched
  live : v.live w.unwatched = others
  fair : Fair b v guarantee none w.state.seen

/-- A block has come for a request, and all is well if it is as it should be. -/
structure Pending (b : Backend β) (v : Survey β) (guarantee : Sighting β → Nat → Heap β → Prop)
    (others : Nat → Option Lease) (s : Sighting β) (q : Nat) (w : Heap (Watched β)) : Prop where
  borrowed : ∃ l : Lease, s.request.size? = some l.asked ∧ v.Borrowed others q l w.unwatched
  fair : guarantee s q w.unwatched → Fair b v guarantee (some q) w.state.seen
  spoiled : ¬ guarantee s q w.unwatched → Spoiled b guarantee w.state.seen

/-- A request for memory that comes off, or else has failed. -/
theorem takes_ends (request : Request) {refused : Violation}
    (hfair : Fair b v guarantee request.gives? w.state.seen)
    (hapt : ∀ p ∈ request.gives?, (v.live w.unwatched p).isSome)
    (hsize : request.size? = some n)
    (hcomes : Returns (request.ask b) w.unwatched fun r h' =>
      ∀ q ∈ r, ∃ l : Lease, l.asked = n ∧ v.Borrowed others q l h') :
    Ends (expect refused ((request.ask b).watch request)) w
      (Pending b v guarantee others ⟨w.unwatched, request⟩) fun _ w' => Spoiled b guarantee w'.state.seen := by
  obtain ⟨r, h', hrun, hborrowed⟩ := hcomes.exists
  rw [ends_expect, ends_call, ends_watch]
  refine Ends.intro_ok hrun ?_
  cases r with
  | none =>
    refine ⟨⟨w.unwatched, request⟩, List.mem_cons_self, .inl ⟨?_, Sighting.brought_of_run hrun⟩⟩
    exact Option.isSome_of_eq_some hsize
  | some q =>
    obtain ⟨l, rfl, hb⟩ := hborrowed q rfl
    refine ⟨⟨l, hsize, hb⟩, fun hq => hfair.brings hapt hrun hq, fun hq => ?_⟩
    refine ⟨⟨w.unwatched, request⟩, List.mem_cons_self, .inr ?_⟩
    rwa [Sighting.meets_of_run hrun]

/-- A block is taken where none is held. -/
theorem Sound.takes (hw : Sound b v guarantee others w) (request : Request) {refused : Violation}
    (hgives : request.gives? = none) (hsize : request.size? = some n)
    (hturned : Returns (request.ask b) w.unwatched (v.Turned none n w.unwatched)) :
    Ends (expect refused ((request.ask b).watch request)) w
      (Pending b v guarantee others ⟨w.unwatched, request⟩) fun _ w' => Spoiled b guarantee w'.state.seen := by
  apply takes_ends request (by rw [hgives]; exact hw.fair) _ hsize
  · apply hturned.imp
    intro r h' ht
    rw [← hw.live]
    exact ht.borrowed
  · rw [hgives]
    exact fun _ hp => nomatch hp

/-- The block that is held is given back. -/
theorem givesBack_ends {op : HeapOp β Unit} {stop : Violation → Heap (Watched β) → Prop}
    (hfair : Fair b v guarantee (some p) w.state.seen)
    (hb : v.Borrowed others p l w.unwatched) (hgives : request.gives? = some p)
    (hask : request.ask b = pure none) (hsize : request.size? = none)
    (hgoes : Returns op w.unwatched fun _ => v.Turn (some p) none w.unwatched) :
    Ends (call (op.watch request)) w (fun _ => Sound b v guarantee others) stop := by
  rw [ends_call, ends_watch]
  apply hgoes.imp
  intro _ h' t
  exact ⟨t.valid, hb.returned t,
    hfair.gives hgives hask hsize (Option.isSome_of_eq_some hb.live_self)⟩

end Steps

/-! ## The checks -/

/-- Sizes that a backend may be asked for. -/
def Askable (n : Nat) : Prop :=
  0 < n ∧ n < Word.limit

instance (n : Nat) : Decidable (Askable n) :=
  inferInstanceAs (Decidable (0 < n ∧ n < Word.limit))

section Checks

variable {others : Nat → Option Lease}

/-- In each round a block of zeros is taken, looked at and given back. -/
theorem zeroedAlloc_ends {b : Backend β} (t : b.Tenure) :
    ∀ w, Sound b t.toSurvey isZero others w → Ends (zeroedAlloc b.watched) w
      (fun _ => Sound b t.toSurvey isZero others) fun _ w' => Spoiled b isZero w'.state.seen := by
  have haskable : ∀ n ∈ zeroedSizes, Askable n := by decide
  apply ends_forM
  intro n hmem w hw
  obtain ⟨hn, hlim⟩ := haskable n hmem
  rw [ends_bind]
  apply (hw.takes (.allocZeroed n) rfl rfl (t.allocZeroed hw.valid hn hlim)).mono
  intro q w₁ hq
  obtain ⟨l, -, hb⟩ := hq.borrowed
  unfold memory
  rw [ends_bind, ends_bind, ends_get, ends_pure]
  have htest : ((List.range n).all fun i => decide (w₁.memory.byte (q + i) = 0)) = true ↔
      isZero ⟨w.unwatched, .allocZeroed n⟩ q w₁.unwatched := by
    simp only [List.all_eq_true, List.mem_range, decide_eq_true_eq]
    rfl
  by_cases hzero : isZero ⟨w.unwatched, .allocZeroed n⟩ q w₁.unwatched
  · rw [if_pos (htest.2 hzero)]
    exact givesBack_ends (hq.fair hzero) hb rfl rfl rfl (t.free hb.valid hb.live_self)
  · rw [if_neg fun h => hzero (htest.1 h), ends_throw]
    exact hq.spoiled hzero

/-- In each round a block is taken, asked for its size, overwritten and given back. -/
theorem sizeOverAlloc_ends {b : SizedBackend β} (t : b.Tenure) :
    ∀ w, Sound b.toBackend t.toSurvey (coversSize b) others w →
      Ends (sizeOverAlloc b.watched) w
        (fun _ => Sound b.toBackend t.toSurvey (coversSize b) others)
        fun _ w' => Spoiled b.toBackend (coversSize b) w'.state.seen := by
  have haskable : ∀ n ∈ reportedSizes, Askable n := by decide
  apply ends_forM
  intro n hmem w hw
  obtain ⟨hn, hlim⟩ := haskable n hmem
  rw [ends_bind]
  apply (hw.takes (.alloc n) rfl rfl (t.alloc hw.valid hn hlim)).mono
  intro q w₁ hq
  obtain ⟨l, hasked, hb⟩ := hq.borrowed
  obtain ⟨usable, hsize, hle⟩ := t.blockSize hb.valid hb.live_self
  have hlook : b.watched.blockSize q w₁ = .ok usable := hsize
  rw [ends_bind, ends_call, ends_query hlook]
  by_cases hless : usable < n
  · rw [if_pos hless, ends_throw]
    apply hq.spoiled
    rintro ⟨usable', hsize', hcovers⟩
    cases hsize.symm.trans hsize'
    exact Nat.not_le_of_lt hless hcovers
  · have hcovers : n ≤ usable := Nat.le_of_not_lt hless
    -- What is overwritten lies inside the block, so the backend still knows it.
    have hb' : t.Borrowed others q l ⟨w₁.memory.fill q usable scribble, w₁.state.state⟩ := by
      apply hb.write
      intro a ha
      have hchanged := Memory.changed_fill ha
      omega
    rw [if_neg hless, ends_bind, ends_call, ends_mapMemory]
    have hadmits : l.Admits usable := ⟨Option.some.inj hasked ▸ hcovers, hle⟩
    exact givesBack_ends (hq.fair ⟨usable, hsize, hcovers⟩) hb' rfl rfl rfl
      (t.freeSized hb'.valid hb'.live_self hadmits)

/-- A block is exchanged for another and looked at as far as the pattern must be there. -/
theorem resized_ends {b : Backend β} (t : b.Tenure) {p n : Nat} {l : Lease} (hn : Askable n)
    {rest : Nat → Check (Watched β) Unit} {w : Heap (Watched β)}
    {ret : Unit → Heap (Watched β) → Prop}
    (hfair : Fair b t.toSurvey keepsPattern (some p) w.state.seen)
    (hb : t.Borrowed others p l w.unwatched)
    (hrest : ∀ q k w', Fair b t.toSurvey keepsPattern (some q) w'.state.seen →
      t.Borrowed others q k w'.unwatched →
      Ends (rest q) w' ret fun _ w' => Spoiled b keepsPattern w'.state.seen) :
    Ends (do
      let q ← expect .reallocRefused (b.watched.realloc p n)
      kept q (min 16 n)
      rest q) w ret fun _ w' => Spoiled b keepsPattern w'.state.seen := by
  have hcomes : Returns (b.realloc p n) w.unwatched fun r h' =>
      ∀ q ∈ r, ∃ k : Lease, k.asked = n ∧ t.Borrowed others q k h' :=
    (t.realloc hb.valid hb.live_self hn.1 hn.2).imp fun _ _ => Survey.Turned.moved hb
  have hapt : ∀ p' ∈ (Request.realloc p n).gives?, (t.live w.unwatched p').isSome := by
    rintro _ ⟨⟩
    exact Option.isSome_of_eq_some hb.live_self
  rw [ends_bind]
  apply (takes_ends (.realloc p n) hfair hapt rfl hcomes).mono
  intro q w₁ hq
  rw [ends_bind]
  apply (kept_ends q (min 16 n) w₁).imp
  · rintro _ w₂ ⟨rfl, hkept⟩
    obtain ⟨k, -, hborrowed⟩ := hq.borrowed
    exact hrest q k w₂ (hq.fair hkept) hborrowed
  · rintro _ w₂ ⟨rfl, hlost⟩
    exact hq.spoiled hlost

/-- A block is taken, written to, exchanged for a larger one and that for a smaller one, which is
given back. -/
theorem reallocPreserves_ends {b : Backend β} (t : b.Tenure) :
    ∀ w, Sound b t.toSurvey keepsPattern others w → Ends (reallocPreserves b.watched) w
      (fun _ => Sound b t.toSurvey keepsPattern others)
      fun _ w' => Spoiled b keepsPattern w'.state.seen := by
  intro w hw
  unfold reallocPreserves
  rw [ends_bind]
  apply (hw.takes (.alloc 16) rfl rfl (t.alloc hw.valid (by decide) (by decide))).mono
  intro p w₁ hp
  obtain ⟨l, hasked, hb⟩ := hp.borrowed
  have hroom : 16 ≤ l.bytes := by
    rw [Option.some.inj hasked]
    exact (t.fits hb.valid hb.live_self).2.1
  have hb' : t.Borrowed others p l ⟨w₁.memory.overwrite p 16 pattern, w₁.state.state⟩ := by
    apply hb.write
    intro a ha
    have hchanged := Memory.changed_overwrite ha
    omega
  rw [ends_bind, ends_call, ends_mapMemory]
  -- First to 100000 bytes, then to four.
  refine resized_ends t (n := 100000) (by decide) (hp.fair trivial) hb' fun q k w₂ hfair hq => ?_
  refine resized_ends t (n := 4) (by decide) hfair hq fun q' k' w₃ hfair' hq' => ?_
  exact givesBack_ends hfair' hq' rfl rfl rfl (t.free hq'.valid hq'.live_self)

end Checks

/-! ## Judgement -/

section Judging

variable {h : Heap β}

/-- A check that ends well in a sound state and otherwise in a spoiled one is a judge. -/
theorem judges_of_ends {b : Backend β} {v : Survey β} {guarantee : Sighting β → Nat → Heap β → Prop}
    {script : List (Line β)} {check' : Check (Watched β) Unit} {check : Check β Unit}
    (hplays : Plays b script check (sightings check' h) h)
    (hfollows : Follows Heap.unwatched check' check)
    (hends : Ends check' h.watched (fun _ => Sound b v guarantee (v.live h))
      fun _ w => Spoiled b guarantee w.state.seen) :
    Judges b v script guarantee check (sightings check' h) h := by
  rcases ended hfollows hends with ⟨_, w, hrun, hseen, hw⟩ | ⟨e, w, hrun, hseen, hw⟩
  · have hpasses : ∀ s ∈ sightings check' h, ¬ s.Failed b ∧ s.Meets b guarantee := by
      intro s hs
      rw [hseen, List.mem_reverse] at hs
      exact hw.fair.passes s hs
    exact {
      toPlays := hplays
      refused := fun ⟨s, hs, hfailed⟩ => absurd hfailed (hpasses s hs).1
      judged := fun _ => ⟨fun _ s hs => (hpasses s hs).2, fun _ => verdict_of_ok hrun⟩
      evened := by
        intro _ _
        rw [hseen, List.filterMap_reverse, List.filterMap_reverse, hw.fair.even]
        rfl
      apt := by
        intro _ _ s hs
        rw [hseen, List.mem_reverse] at hs
        exact hw.fair.apt s hs
      restored := by
        intro h' hrun'
        cases hrun.symm.trans hrun'
        exact ⟨hw.valid, hw.live⟩ }
  · have hstops : ∀ h', check h ≠ .ok () h' := by
      intro h' hrun'
      cases hrun.symm.trans hrun'
    obtain ⟨s, hs, hbad⟩ := hw
    have hmem : s ∈ sightings check' h := by
      rw [hseen, List.mem_reverse]
      exact hs
    exact {
      toPlays := hplays
      refused := fun _ => Option.isSome_of_eq_some (verdict_of_error hrun)
      judged := by
        intro hnone
        constructor
        · intro hpassed
          rw [verdict_of_error hrun] at hpassed
          cases hpassed
        · intro hall
          rcases hbad with hfailed | hbroken
          · exact absurd hfailed (hnone s hmem)
          · exact absurd (hall s hmem) hbroken
      evened := fun h' hrun' => absurd hrun' (hstops h')
      apt := fun h' hrun' => absurd hrun' (hstops h')
      restored := fun h' hrun' => absurd hrun' (hstops h') }

/-- What is the same of everything that a check has seen is as good a guarantee. -/
theorem Judges.congr {b : Backend β} {v : Survey β} {script : List (Line β)}
    {guarantee guarantee' : Sighting β → Nat → Heap β → Prop} {check : Check β Unit}
    {seen : List (Sighting β)} (hjudges : Judges b v script guarantee check seen h)
    (hsame : ∀ s ∈ seen, s.Meets b guarantee' ↔ s.Meets b guarantee) :
    Judges b v script guarantee' check seen h where
  toPlays := hjudges.toPlays
  refused := hjudges.refused
  judged := fun hnone => (hjudges.judged hnone).trans (forall₂_congr hsame).symm
  evened := hjudges.evened
  apt := hjudges.apt
  restored := hjudges.restored

theorem sound_watched {b : Backend β} {v : Survey β} {guarantee : Sighting β → Nat → Heap β → Prop}
    (hv : v.valid h) : Sound b v guarantee (v.live h) h.watched :=
  ⟨hv, rfl, fair_nil⟩

end Judging

/-- Over every backend that respects tenure, from every heap of it, the three checks follow their
scripts, and are right about content after resizes, about zeros and about sizes. What is resized
always starts with the bytes that were written. -/
theorem checks_judge :
    (∀ (b : Backend β) (t : b.Tenure) (h : Heap β), t.valid h →
      (∀ s ∈ sightings (reallocPreserves b.watched) h, FindsWritten s) ∧
        Judges b t.toSurvey resizingScript keepsContent (reallocPreserves b)
          (sightings (reallocPreserves b.watched) h) h ∧
        Judges b t.toSurvey zeroingScript isZero (zeroedAlloc b)
          (sightings (zeroedAlloc b.watched) h) h) ∧
      ∀ (b : SizedBackend β) (t : b.Tenure) (h : Heap β), t.valid h →
        Judges b.toBackend t.toSurvey (sizingScript b) (coversSize b) (sizeOverAlloc b)
          (sightings (sizeOverAlloc b.watched) h) h := by
  refine ⟨fun b t h hv => ⟨reallocPreserves_finds b h, ?_, ?_⟩, fun b t h hv => ?_⟩
  · have hpattern := judges_of_ends (reallocPreserves_plays b h) (follows_reallocPreserves b)
      (reallocPreserves_ends t _ (sound_watched hv))
    exact hpattern.congr fun s hs => meets_keepsContent (reallocPreserves_finds b h s hs)
  · exact judges_of_ends (zeroedAlloc_plays b h) (follows_zeroedAlloc b)
      (zeroedAlloc_ends t _ (sound_watched hv))
  · exact judges_of_ends (sizeOverAlloc_plays b h) (follows_sizeOverAlloc b)
      (sizeOverAlloc_ends t _ (sound_watched hv))

/-- An arena that leaves a byte of zeroed memory dirty and forgets what it moves is told so, and
otherwise approved of. -/
theorem checks_judge_arena :
    let b := Arena.full { dirtyZero := true, lossy := true }
    let h : Heap Arena := ⟨Arena.freshMemory, Arena.new {}⟩
    ∃ t : b.Tenure, t.valid h ∧
      Judges b.toBackend t.toSurvey resizingScript keepsContent (reallocPreserves b.toBackend)
        (sightings (reallocPreserves b.toBackend.watched) h) h ∧
      Judges b.toBackend t.toSurvey zeroingScript isZero (zeroedAlloc b.toBackend)
        (sightings (zeroedAlloc b.toBackend.watched) h) h ∧
      Judges b.toBackend t.toSurvey (sizingScript b) (coversSize b) (sizeOverAlloc b)
        (sightings (sizeOverAlloc b.watched) h) h ∧
      verdict (reallocPreserves b.toBackend) h = some (.lost 0 Arena.freshByte) ∧
      verdict (zeroedAlloc b.toBackend) h = some (.notZeroed 1) ∧
      verdict (sizeOverAlloc b) h = none := by
  intro b h
  have hhonest : ({ dirtyZero := true, lossy := true } : Arena.Config).Honest :=
    ⟨Nat.le_refl 1, Nat.succ_pos 15, by decide, rfl, rfl, rfl⟩
  have hv : (Arena.tenure hhonest).valid h := Arena.orderly_new _
  obtain ⟨hbackend, hsized⟩ := checks_judge (β := Arena)
  obtain ⟨-, hcontent, hzeros⟩ := hbackend b.toBackend (Arena.tenure hhonest).toTenure h hv
  refine ⟨Arena.tenure hhonest, hv, hcontent, hzeros, hsized b (Arena.tenure hhonest) h hv, ?_⟩
  decide +kernel

/-- What an honest arena gets to see of the check that resizes. -/
example : (sightings (reallocPreserves (Arena.full {}).toBackend.watched)
    ⟨Arena.freshMemory, Arena.new {}⟩).map Sighting.request =
      [.alloc 16, .realloc Arena.base 100000, .realloc (Arena.base + 16) 4,
        .free (Arena.base + 16)] := by
  decide +kernel

end HeapLedger.Conformance
