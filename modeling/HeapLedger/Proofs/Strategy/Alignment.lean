import HeapLedger.Layout
import HeapLedger.Proofs.Strategy.Headered
import HeapLedger.Proofs.Strategy.Pointers

/-!
# `HeapLedger/Proofs/Strategy/Alignment.lean` — alignments that are served

A headered strategy gets alignments in two ways. The width of a header is a multiple of the
backend's alignment, so a plain block keeps that; for more, a larger block is taken and the pointer
is put where a mask says. All that the backend has to do is to keep its own alignment for blocks of
enough bytes (`Backend.Contract.Aligns`).

Nothing is refused on the way that the backend would have given. `Answered` says both of a request:
a pointer is a multiple of the alignment, and there is none just when the backend, asked for exactly
what is needed, has nothing.
-/

set_option autoImplicit false

namespace HeapLedger

variable {β : Type}

/-- The backend has nothing to give here for this request. -/
def HeapOp.Refuses (ask : HeapOp β (Option Nat)) (h : Heap β) : Prop :=
  ∃ h', ask h = .ok none h'

/-- How a request for a multiple of `align` is answered on whose behalf the backend is asked `ask`,
if the size rules let it through. -/
structure Answered (align : Nat) (passes : Prop) (ask : HeapOp β (Option Nat)) (h : Heap β)
    (r : Option Nat) : Prop where
  aligned : ∀ q ∈ r, align ∣ q
  refused : passes → (r = none ↔ ask.Refuses h)

namespace Answered

variable {align align' : Nat} {passes passes' : Prop} {ask : HeapOp β (Option Nat)} {h h' : Heap β}
  {r : Option Nat} {q raw : Nat}

/-- The size rules do not let the request through. -/
theorem blocked (hpasses : ¬ passes) : Answered align passes ask h none where
  aligned := fun _ hq => nomatch hq
  refused := fun h => absurd h hpasses

theorem of_refusal (hask : ask h = .ok none h') : Answered align passes ask h none where
  aligned := fun _ hq => nomatch hq
  refused := fun _ => ⟨fun _ => ⟨h', hask⟩, fun _ => rfl⟩

theorem of_grant (hask : ask h = .ok (some raw) h') (hq : align ∣ q) :
    Answered align passes ask h (some q) where
  aligned := by
    rintro _ ⟨⟩
    exact hq
  refused := by
    intro _
    constructor
    · intro hnone
      cases hnone
    · rintro ⟨h₂, hrefused⟩
      rw [hask] at hrefused
      cases hrefused

theorem mono (ha : Answered align passes ask h r) (halign : align' ∣ align)
    (hpasses : passes' → passes) : Answered align' passes' ask h r where
  aligned := fun q hq => Nat.dvd_trans halign (ha.aligned q hq)
  refused := fun h => ha.refused (hpasses h)

end Answered

theorem dvd_of_isPowerOfTwo {a b : Nat} (ha : a.isPowerOfTwo) (hb : b.isPowerOfTwo) (hle : a ≤ b) :
    a ∣ b := by
  obtain ⟨i, rfl⟩ := ha
  obtain ⟨j, rfl⟩ := hb
  exact Nat.pow_dvd_pow 2 ((Nat.pow_le_pow_iff_right Nat.one_lt_two).1 hle)

namespace Strategy.Headered

variable {b : Backend β} {due : Lease → Nat → Prop} {c : b.Contract due} {h : Heap β} {p n : Nat}

theorem maxAlign_le_width (b : Backend β) : b.maxAlign ≤ width b := by
  unfold width Header.width
  split <;> omega

/-- A header is as wide as a multiple of the backend's alignment. -/
theorem dvd_width (hpow : b.maxAlign.isPowerOfTwo) : b.maxAlign ∣ width b := by
  unfold width Header.width
  split
  · exact Nat.dvd_refl _
  · rename_i hle
    exact dvd_of_isPowerOfTwo hpow ⟨4, rfl⟩ (Nat.le_of_not_lt hle)

/-! ## Blocks of each kind -/

/-- A plain block lies a header's width into a block that is aligned, as that has enough bytes. -/
theorem allocBy_answers {take : Nat → HeapOp β (Option Nat)} (hpow : b.maxAlign.isPowerOfTwo)
    (htake : ∀ total, b.maxAlign ≤ total → 0 < total → total < Word.limit →
      Returns (take total) h fun r _ => ∀ q ∈ r, b.maxAlign ∣ q) :
    Returns (allocBy b take n) h fun r _ =>
      Answered b.maxAlign (n + width b < Word.limit) (take (n + width b)) h (r.map Block.ptr) := by
  have hwidth := maxAlign_le_width b
  have hpos : 0 < width b := Nat.lt_of_lt_of_le (by decide) (two_words_le_width b)
  unfold allocBy
  cases hsize : Header.plainSize (width b) n with
  | none =>
    apply ends_pure.2
    apply Answered.blocked
    intro hlim
    rw [Header.plainSize_eq_some.2 ⟨hlim, rfl⟩] at hsize
    cases hsize
  | some total =>
    obtain ⟨hlim, rfl⟩ := Header.plainSize_eq_some.1 hsize
    obtain ⟨r, h₁, hrun, hdvd⟩ := (htake (n + width b) (by omega) (by omega) hlim).exists
    rw [Returns, ends_bind]
    apply Ends.intro_ok hrun
    cases r with
    | none => exact ends_pure.2 (.of_refusal hrun)
    | some raw =>
      rw [ends_map]
      apply (stamp_keeps 0 hlim).imp
      intro block h₂ hstamp
      apply Answered.of_grant hrun
      rw [hstamp.1]
      exact Nat.dvd_add (hdvd raw rfl) (dvd_width hpow)

/-- An over-aligned block starts where the mask puts it. -/
theorem allocAligned_answers {align : Nat} (hv : c.valid h) (hn : 0 < n) (hlt : n < Size.bound)
    (hpow : align.isPowerOfTwo) (hmax : b.maxAlign < align) :
    Returns (allocAligned b n align) h fun r _ =>
      Answered align (n + width b + Word.bytes + align < Word.limit)
        (b.alloc (n + width b + Word.bytes + align)) h (r.map Block.ptr) := by
  unfold allocAligned
  rw [if_neg (by simpa using hpow), if_neg (by omega)]
  cases hsize : Header.alignedSize (width b) n align with
  | none =>
    apply ends_pure.2
    apply Answered.blocked
    intro hlim
    rw [Header.alignedSize_eq_some.2 ⟨hlim, rfl⟩] at hsize
    cases hsize
  | some total =>
    obtain ⟨hlim, rfl⟩ := Header.alignedSize_eq_some.1 hsize
    obtain ⟨r, h₁, hrun, hserved⟩ := (c.alloc hv (by omega) hlim).exists
    rw [Returns, ends_bind]
    apply Ends.intro_ok hrun
    cases r with
    | none => exact ends_pure.2 (.of_refusal hrun)
    | some raw =>
      obtain ⟨bytes, t⟩ := hserved
      rw [ends_map]
      apply (stampAligned_ends hn hlt hpow hlim t).imp
      intro block h₂ hstamp
      exact .of_grant hrun hstamp.2

section Resizing

variable {d : Holding} {x : Header} (hexact : ∀ l, l.asked ≤ l.bytes → due l l.asked)
  (hc : c.Aligns) (hpow : b.maxAlign.isPowerOfTwo)

include hc hpow

/-- A plain block is resized by the backend, and keeps the backend's alignment. -/
theorem realloc_plain_answers (hv : c.valid h) (hf : Found b c.toSurvey p d h x)
    (hplain : x.align = 0) :
    Returns (realloc b p n) h fun r _ =>
      Answered b.maxAlign (n + width b < Word.limit) (b.realloc d.start (n + width b)) h
        (r.map fun y => y.block.ptr) := by
  rw [Returns, ends_realloc_plain hf hplain, resizePlain_eq, ends_map]
  apply (allocBy_answers (n := n) hpow fun total hle hpos hlim =>
    hc.realloc hv hf.live hle hpos hlim).imp
  intro r h' hr
  rw [Option.map_map]
  exact hr

include hexact

/-- An over-aligned block is resized into a plain one, and no more is asked of the backend. -/
theorem realloc_far_answers (hv : c.valid h) (hp : (custody c).stands p d h)
    (hf : Found b c.toSurvey p d h x) (hfar : x.align ≠ 0) (hn : 0 < n) (hlt : n < Size.bound) :
    Returns (realloc b p n) h fun r _ =>
      Answered b.maxAlign (n + width b < Word.limit) (b.alloc (n + width b)) h
        (r.map fun y => y.block.ptr) := by
  have hanswers := allocBy_answers (n := n) hpow fun total hle hpos hlim =>
    hc.alloc (h := h) hv hle hpos hlim
  rw [Returns, ends_realloc_far hf hfar, ← hf.usable]
  apply resizeFar_ends hexact hv hp hn hlt hanswers
  · intro h' hanswered _
    exact hanswered
  · intro block h' hanswered _ _
    exact hanswered

end Resizing

/-! ## Every pointer has the backend's alignment -/

theorem handsOut (hexact : ∀ l, l.asked ≤ l.bytes → due l l.asked) (hc : c.Aligns)
    (hpow : b.maxAlign.isPowerOfTwo) :
    (headeredContract c hexact).HandsOut (b.maxAlign ∣ ·) where
  alloc := by
    intro h n hv hn hlt
    apply (allocBy_answers (n := n) hpow fun total => hc.alloc (h := h) hv).imp
    intro r h' hr block hblock
    cases hblock
    exact hr.aligned _ rfl
  allocZeroed := by
    intro h n hv hn hlt
    apply (allocBy_answers (n := n) hpow fun total => hc.allocZeroed (h := h) hv).imp
    intro r h' hr block hblock
    cases hblock
    exact hr.aligned _ rfl
  allocAligned := by
    intro h n align hv hn hlt hpow' hmax
    apply (allocAligned_answers hv hn hlt hpow' hmax).imp
    intro r h' hr block hblock
    cases hblock
    exact Nat.dvd_trans (dvd_of_isPowerOfTwo hpow hpow' (Nat.le_of_lt hmax)) (hr.aligned _ rfl)
  realloc := by
    intro h p d n hv hp hn hlt
    obtain ⟨x, hf⟩ := found hv hp
    by_cases hplain : x.align = 0
    · apply (realloc_plain_answers hc hpow hv hf hplain).imp
      intro r h' hr y hy
      cases hy
      exact hr.aligned _ rfl
    · apply (realloc_far_answers hexact hc hpow hv hp hf hplain hn hlt).imp
      intro r h' hr y hy
      cases hy
      exact hr.aligned _ rfl

end Strategy.Headered

end HeapLedger
