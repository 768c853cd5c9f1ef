import HeapLedger.Proofs.Backend.Packing
import HeapLedger.Proofs.Conformance.Scripts

/-!
# `HeapLedger/Proofs/Conformance/Probes.lean` — what two checks overlook, and what they resent

Of a backend that promises nothing at all it can still be said what two checks find wrong with it.

The check of alignments tries fixed sizes besides the backend's own alignment. Each block has to be
aligned, whatever its size. So it holds a backend to its alignment for blocks of 100 bytes and more,
while a backend with a larger alignment owes nothing there. It is right about backends with an
alignment of at most 100 bytes, and finds every block that is owed an alignment and does not have it.

The check of absurd sizes asks for them, and gives back what it gets. It never looks at how long that
is, so all it can find is that the backend stops at a fault.
-/

set_option autoImplicit false

namespace HeapLedger

variable {β : Type}

/-- Whether an operation returns can be found out by running it. -/
instance {ε σ α : Type} (op : EStateM ε σ α) (s : σ) : Decidable (Returns op s fun _ _ => True) :=
  match hrun : op s with
  | .ok _ _ => isTrue (Ends.intro_ok hrun trivial)
  | .error _ _ => isFalse fun hreturns => hreturns.of_error hrun

namespace Sighting

variable {b : Backend β} {s : Sighting β}

/-- The backend returned from the request, with or without a block. -/
def Answered (b : Backend β) (s : Sighting β) : Prop :=
  match s.request with
  | .free p => Returns (b.free p) s.heap fun _ _ => True
  | .freeSized p n => Returns (b.freeSized p n) s.heap fun _ _ => True
  | request => Returns (request.ask b) s.heap fun _ _ => True

instance : Decidable (s.Answered b) :=
  match s with
  | ⟨h, .free p⟩ => inferInstanceAs (Decidable (Returns (b.free p) h fun _ _ => True))
  | ⟨h, .freeSized p n⟩ => inferInstanceAs (Decidable (Returns (b.freeSized p n) h fun _ _ => True))
  | ⟨h, .alloc _⟩ | ⟨h, .allocZeroed _⟩ | ⟨h, .allocAligned _ _⟩ | ⟨h, .realloc _ _⟩
  | ⟨h, .setBackgroundThread _⟩ | ⟨h, .purge⟩ =>
      inferInstanceAs (Decidable (Returns (Request.ask b _) h fun _ _ => True))

instance : Decidable (s.Failed b) :=
  inferInstanceAs (Decidable (s.request.size?.isSome ∧ s.brought b = none))

/-- The request went through: memory was brought if it was one for memory. -/
structure Done (b : Backend β) (s : Sighting β) : Prop where
  answered : s.Answered b
  not_failed : ¬ s.Failed b

instance : Decidable (s.Done b) :=
  decidable_of_iff (s.Answered b ∧ ¬ s.Failed b) ⟨fun h => ⟨h.1, h.2⟩, fun h => ⟨h.1, h.2⟩⟩

end Sighting

namespace Conformance

variable {b : Backend β}

/-- The blocks that were brought for at least so many bytes have the backend's alignment. -/
def AlignedFrom (b : Backend β) (least : Nat) (seen : List (Sighting β)) : Prop :=
  ∀ s ∈ seen, ∀ n ∈ s.request.size?, least ≤ n → ∀ q ∈ s.brought b, b.maxAlign ∣ q

instance (least : Nat) (seen : List (Sighting β)) : Decidable (AlignedFrom b least seen) :=
  inferInstanceAs (Decidable (∀ s ∈ seen, ∀ n ∈ s.request.size?, least ≤ n →
    ∀ q ∈ s.brought b, b.maxAlign ∣ q))

theorem AlignedFrom.mono {least least' : Nat} {seen : List (Sighting β)}
    (haligned : AlignedFrom b least seen) (hle : least ≤ least') : AlignedFrom b least' seen :=
  fun s hs n hn hmore => haligned s hs n hn (Nat.le_trans hle hmore)

/-! ## Alignment -/

/-- The request is for a block that must be aligned, and it brought one that is not. -/
def Misaligned (b : Backend β) (sizes : List Nat) (s : Sighting β) : Prop :=
  ∃ n ∈ sizes, s.request.size? = some n ∧ ∃ q ∈ s.brought b, ¬ b.maxAlign ∣ q

/-- So far all requests went through and all blocks are aligned. -/
def Straight (b : Backend β) (w : Heap (Watched β)) : Prop :=
  ∀ s ∈ w.state.seen, s.Done b ∧ ∀ q ∈ s.brought b, b.maxAlign ∣ q

/-- Some request did not go through, or a block that must be aligned is not. -/
def Crooked (b : Backend β) (sizes : List Nat) (w : Heap (Watched β)) : Prop :=
  ∃ s ∈ w.state.seen, ¬ s.Done b ∨ Misaligned b sizes s

theorem alignedBlock_ends {sizes : List Nat} {n : Nat} (hn : n ∈ sizes) :
    ∀ w, Straight b w →
      Ends (alignedBlock b.watched n) w (fun _ => Straight b) fun _ => Crooked b sizes := by
  intro w hw
  unfold alignedBlock
  rw [ends_bind, ends_expect]
  apply (watched_ends (.alloc n) (b.alloc n) w).imp
  · rintro r w₁ ⟨hseen, hrun⟩
    have hbrought : Sighting.brought b ⟨w.unwatched, .alloc n⟩ = r := Sighting.brought_of_run hrun
    have hmem : ⟨w.unwatched, .alloc n⟩ ∈ w₁.state.seen := hseen ▸ List.mem_cons_self
    cases r with
    | none => exact ⟨_, hmem, .inl fun hdone => hdone.not_failed ⟨rfl, hbrought⟩⟩
    | some p =>
      dsimp only
      by_cases hp : p % b.watched.maxAlign = 0
      · have hdone : Sighting.Done b ⟨w.unwatched, .alloc n⟩ := by
          refine ⟨Ends.intro_ok hrun trivial, fun hfailed => ?_⟩
          rw [Sighting.Failed, hbrought] at hfailed
          cases hfailed.2
        rw [if_neg (not_not_intro hp), ends_pure, Straight, hseen, List.forall_mem_cons, hbrought]
        refine ⟨⟨hdone, ?_⟩, hw⟩
        rintro _ ⟨⟩
        exact Nat.dvd_of_mod_eq_zero hp
      · rw [if_pos hp, ends_throw]
        refine ⟨_, hmem, .inr ⟨n, hn, rfl, p, hbrought, fun hdvd => hp ?_⟩⟩
        exact Nat.mod_eq_zero_of_dvd hdvd
  · rintro e w₁ ⟨hseen, hfault⟩
    refine ⟨_, hseen ▸ List.mem_cons_self, .inl fun hdone => ?_⟩
    exact hfault hdone.answered

theorem freed_ends {sizes : List Nat} (p : Nat) :
    ∀ w, Straight b w →
      Ends (call (b.watched.free p)) w (fun _ => Straight b) fun _ => Crooked b sizes := by
  intro w hw
  apply (watched_ends (.free p) (b.free p) w).imp
  · rintro _ w₁ ⟨hseen, hrun⟩
    rw [Straight, hseen, List.forall_mem_cons]
    refine ⟨⟨⟨Ends.intro_ok hrun trivial, ?_⟩, fun _ hq => nomatch hq⟩, hw⟩
    rintro ⟨hmemory, -⟩
    cases hmemory
  · rintro e w₁ ⟨hseen, hfault⟩
    refine ⟨_, hseen ▸ List.mem_cons_self, .inl fun hdone => ?_⟩
    exact hfault hdone.answered

theorem alignment_ends {sizes : List Nat} (hsizes : alignmentSizes b.maxAlign = .ok sizes)
    (h : Heap β) :
    Ends (alignment b.watched) h.watched (fun _ => Straight b) fun _ => Crooked b sizes := by
  have htries : alignmentSizes b.watched.maxAlign = .ok sizes := hsizes
  unfold alignment
  rw [ends_bind, ends_call, htries, ends_ofExcept_ok, ends_bind]
  have hstart : Straight b h.watched := fun _ hs => nomatch hs
  apply (ends_mapM ?_ h.watched hstart).mono
  · intro ptrs w hw
    exact ends_forM (fun p _ => freed_ends p) w hw
  · intro n hn
    obtain ⟨size, hsize, hmem⟩ := List.mem_flatMap.1 hn
    obtain rfl := List.eq_of_mem_replicate hmem
    exact alignedBlock_ends hsize

/-- An alignment that cannot be doubled ends the check before it asks for anything. -/
theorem alignment_faults (hdouble : ¬ b.maxAlign * 2 < Word.limit) (h : Heap β) :
    alignment b h = .error (.fault .mulOverflow) h := by
  have hsizes : alignmentSizes b.maxAlign = .error .mulOverflow := if_neg hdouble
  have hcall : call (HeapOp.ofExcept (alignmentSizes b.maxAlign)) h =
      .error (.fault .mulOverflow) h := by
    rw [hsizes]
    rfl
  exact run_bind_error hcall

theorem le_of_mem_alignmentSizes {maxAlign n : Nat} {sizes : List Nat}
    (hsizes : alignmentSizes maxAlign = .ok sizes) (hn : n ∈ sizes) : min maxAlign 100 ≤ n := by
  unfold alignmentSizes at hsizes
  split at hsizes
  · cases hsizes
    simp only [List.mem_cons, List.not_mem_nil, or_false] at hn
    omega
  · cases hsizes

/-- A check that passes has seen aligned blocks only. -/
theorem alignedFrom_of_passed {h : Heap β} (hpassed : verdict (alignment b) h = none) :
    b.maxAlign * 2 < Word.limit ∧ AlignedFrom b 0 (sightings (alignment b.watched) h) := by
  by_cases hdouble : b.maxAlign * 2 < Word.limit
  · refine ⟨hdouble, ?_⟩
    have hsizes : alignmentSizes b.maxAlign = .ok _ := if_pos hdouble
    rcases ended (follows_alignment b) (alignment_ends hsizes h) with
      ⟨_, w, hrun, hseen, hw⟩ | ⟨e, w, hrun, hseen, hw⟩
    · intro s hs n _ _
      rw [hseen, List.mem_reverse] at hs
      exact (hw s hs).2
    · rw [verdict_of_error hrun] at hpassed
      cases hpassed
  · rw [verdict_of_error (alignment_faults hdouble h)] at hpassed
    cases hpassed

/-- A check that does not, though all requests went through, has seen a block of at least 100 bytes,
or of at least as many as the backend's alignment, that is not aligned. -/
theorem passed_of_alignedFrom {h : Heap β} (hdouble : b.maxAlign * 2 < Word.limit)
    (hdone : ∀ s ∈ sightings (alignment b.watched) h, s.Done b)
    (haligned : AlignedFrom b (min b.maxAlign 100) (sightings (alignment b.watched) h)) :
    verdict (alignment b) h = none := by
  have hsizes : alignmentSizes b.maxAlign = .ok _ := if_pos hdouble
  rcases ended (follows_alignment b) (alignment_ends hsizes h) with
    ⟨_, w, hrun, hseen, hw⟩ | ⟨e, w, hrun, hseen, s, hs, hbad⟩
  · exact verdict_of_ok hrun
  · have hmem : s ∈ sightings (alignment b.watched) h := by
      rw [hseen, List.mem_reverse]
      exact hs
    rcases hbad with hundone | ⟨n, hn, hsize, q, hq, hoff⟩
    · exact absurd (hdone s hmem) hundone
    · exact absurd (haligned s hmem n hsize (le_of_mem_alignmentSizes hsizes hn) q hq) hoff

/-! ## Absurd sizes -/

/-- Whatever is brought is given back unseen. -/
theorem edgeCaseSizes_ends (h : Heap β) :
    Ends (edgeCaseSizes b.watched) h.watched (fun _ w => ∀ s ∈ w.state.seen, s.Answered b)
      fun _ w => ∃ s ∈ w.state.seen, ¬ s.Answered b := by
  refine ends_forM (fun n _ w hw => ?_) h.watched fun _ hs => nomatch hs
  rw [ends_bind]
  apply (watched_ends (.alloc n) (b.alloc n) w).imp
  · rintro r w₁ ⟨hseen, hrun⟩
    have hw₁ : ∀ s ∈ w₁.state.seen, s.Answered b := by
      rw [hseen, List.forall_mem_cons]
      exact ⟨Ends.intro_ok hrun trivial, hw⟩
    cases r with
    | none => exact ends_pure.2 hw₁
    | some p =>
      apply (watched_ends (.free p) (b.free p) w₁).imp
      · rintro _ w₂ ⟨hseen₂, hrun₂⟩
        rw [hseen₂, List.forall_mem_cons]
        exact ⟨Ends.intro_ok hrun₂ trivial, hw₁⟩
      · rintro e w₂ ⟨hseen₂, hfault⟩
        exact ⟨⟨w₁.unwatched, .free p⟩, hseen₂ ▸ List.mem_cons_self, hfault⟩
  · rintro e w₁ ⟨hseen, hfault⟩
    exact ⟨⟨w.unwatched, .alloc n⟩, hseen ▸ List.mem_cons_self, hfault⟩

theorem edgeCaseSizes_passed_iff (h : Heap β) :
    verdict (edgeCaseSizes b) h = none ↔
      ∀ s ∈ sightings (edgeCaseSizes b.watched) h, s.Answered b := by
  rcases ended (follows_edgeCaseSizes b) (edgeCaseSizes_ends h) with
    ⟨_, w, hrun, hseen, hw⟩ | ⟨e, w, hrun, hseen, s, hs, hfault⟩
  · rw [verdict_of_ok hrun, hseen]
    exact iff_of_true rfl fun s hs => hw s (List.mem_reverse.1 hs)
  · rw [verdict_of_error hrun, hseen]
    apply iff_of_false
    · rintro ⟨⟩
    · exact fun hall => hfault (hall s (List.mem_reverse.2 hs))

/-! ## Both checks -/

/-- Over any backend both checks follow their scripts. If all requests went through, the check of
alignments passes just when the alignment can be doubled and every block is aligned that it got for
at least 100 bytes, or for at least as many as the alignment. It never passes if one of the latter is
not. The check of absurd sizes passes just when the backend returns from every request, however short
the blocks are that it brings. -/
theorem probes_judge (b : Backend β) (h : Heap β) :
    Plays b (alignmentScript b.maxAlign) (alignment b) (sightings (alignment b.watched) h) h ∧
      Plays b absurdScript (edgeCaseSizes b) (sightings (edgeCaseSizes b.watched) h) h ∧
      ((∀ s ∈ sightings (alignment b.watched) h, s.Done b) →
        (verdict (alignment b) h = none ↔ b.maxAlign * 2 < Word.limit ∧
          AlignedFrom b (min b.maxAlign 100) (sightings (alignment b.watched) h))) ∧
      (¬ AlignedFrom b b.maxAlign (sightings (alignment b.watched) h) →
        (verdict (alignment b) h).isSome) ∧
      (verdict (edgeCaseSizes b) h = none ↔
        ∀ s ∈ sightings (edgeCaseSizes b.watched) h, s.Answered b) := by
  refine ⟨alignment_plays b h, edgeCaseSizes_plays b h,
    fun hdone => ⟨fun hpassed => ?_, fun ⟨hdouble, haligned⟩ => ?_⟩, fun hoff => ?_, ?_⟩
  · obtain ⟨hdouble, haligned⟩ := alignedFrom_of_passed hpassed
    exact ⟨hdouble, haligned.mono (Nat.zero_le _)⟩
  · exact passed_of_alignedFrom hdouble hdone haligned
  · apply Option.isSome_iff_ne_none.2
    intro hpassed
    exact hoff ((alignedFrom_of_passed hpassed).2.mono (Nat.zero_le _))
  · exact edgeCaseSizes_passed_iff h

/-- A packing arena brings all blocks aligned that it owes, and is found wanting for the others. -/
theorem probes_judge_packing :
    let b := (Arena.packing 128).toBackend
    let h : Heap Arena := ⟨Arena.freshMemory, Arena.new {}⟩
    let seen := sightings (alignment b.watched) h
    (∀ s ∈ seen, s.Done b) ∧ AlignedFrom b 128 seen ∧ ¬ AlignedFrom b 100 seen ∧
      verdict (alignment b) h ≠ none := by
  intro b h seen
  have hdone : ∀ s ∈ seen, s.Done b := by decide +kernel
  have hoff : ¬ AlignedFrom b 100 seen := by decide +kernel
  obtain ⟨-, -, hiff, -, -⟩ := probes_judge b h
  exact ⟨hdone, by decide +kernel, hoff, fun hpassed => hoff ((hiff hdone).1 hpassed).2⟩

/-- An arena that keeps its contract is found wanting, and one that grants all bytes that a word can
count, and has sixteen of them, is not. -/
theorem probes_misjudge :
    let h : Heap Arena := ⟨Arena.freshMemory, Arena.new {}⟩
    let b := Arena.basic { huge := true }
    (∃ c : (Arena.packing 128).Contract Lease.Admits, c.Aligns ∧ c.valid h ∧
      verdict (alignment (Arena.packing 128).toBackend) h =
        some (.misaligned 100 (Arena.base + 6248) 128 104)) ∧
      (∃ h', b.alloc Word.max h = .ok (some Arena.base) h' ∧
        b.blockSize Arena.base h' = .ok 16) ∧
      verdict (edgeCaseSizes b.toBackend) h = none := by
  refine ⟨⟨_, Arena.packingContract_aligns ⟨7, rfl⟩ (by decide), Arena.orderly_new {}, ?_⟩,
    ⟨_, rfl, rfl⟩, ?_⟩
  · decide +kernel
  · decide +kernel

end Conformance

end HeapLedger
