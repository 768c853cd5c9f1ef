import HeapLedger.Host
import HeapLedger.Proofs.Survey

/-!
# `HeapLedger/Proofs/Host.lean` — hosts that take back what they are offered

A host that takes pages back changes memory behind everybody's back. All that callers need to know
is that it stays within the bytes it was offered, `Host.Confined`, and every host here does: the
pages of a machine are found by rounding inwards.

Which pages a machine takes is said without rounding: those that lie wholly inside the range
(`Host.InWholePage`). They follow one another without a gap, so they are one range of bytes
(`inWholePage_iff`), and that range is the one that is computed (`wholePages_cases`) and taken
(`Machine.releasePages_run`).
-/

set_option autoImplicit false

namespace HeapLedger

/-- Taking pages back changes no byte that was not offered. -/
def Host.Confined (host : Host) : Prop :=
  ∀ ptr len m a, (host.releasePages ptr len m).2.1.byte a ≠ m.byte a → ptr ≤ a ∧ a < ptr + len

theorem Word.roundUp_zero (step : Nat) : Word.roundUp 0 step = 0 :=
  Nat.le_zero.1 (Word.roundUp_le (Nat.dvd_zero step) (Nat.le_refl 0))

namespace Host

theorem confined_unsupported : unsupported.Confined :=
  fun _ _ _ _ h => absurd rfl h

/-- Whole pages of a range lie inside it. -/
theorem wholePages_inside {ptr len page start bytes : Nat}
    (h : wholePages ptr len page = some (start, bytes)) :
    ptr ≤ start ∧ start + bytes ≤ ptr + len := by
  unfold wholePages at h
  simp only at h
  split at h
  · cases h
  rename_i hpow
  have hpos : 0 < page := Nat.pos_of_isPowerOfTwo (Decidable.not_not.1 hpow)
  have hle := Word.le_roundUp ptr hpos
  have hmask : Word.clearLow (len - (Word.roundUp ptr page - ptr)) page ≤
      len - (Word.roundUp ptr page - ptr) := Nat.and_le_left
  split at h
  · cases h
  split at h
  · cases h
  split at h
  · cases h
  cases h
  omega

/-! ## Which bytes lie in whole pages -/

/-- The byte at `x` lies in a page that is wholly inside the `len` bytes from `ptr`. -/
def InWholePage (page ptr len x : Nat) : Prop :=
  ∃ first, page ∣ first ∧ ptr ≤ first ∧ first + page ≤ ptr + len ∧ first ≤ x ∧ x < first + page

/-- How many of the `len` bytes from `ptr` lie in whole pages. -/
def wholeBytes (page ptr len : Nat) : Nat :=
  (len - (Word.roundUp ptr page - ptr)) / page * page

variable {page ptr len x : Nat}

/-! Whole pages take what follows the first boundary, but for less than a page. -/

theorem wholeBytes_le (page ptr len : Nat) :
    wholeBytes page ptr len ≤ len - (Word.roundUp ptr page - ptr) :=
  Nat.div_mul_le_self _ page

theorem lt_wholeBytes_add (hpage : 0 < page) (ptr len : Nat) :
    len - (Word.roundUp ptr page - ptr) < wholeBytes page ptr len + page :=
  Nat.lt_div_mul_add hpage

theorem dvd_wholeBytes (page ptr len : Nat) : page ∣ wholeBytes page ptr len :=
  Nat.dvd_mul_left _ _

theorem inWholePage_iff (hpage : 0 < page) : InWholePage page ptr len x ↔
    Word.roundUp ptr page ≤ x ∧ x < Word.roundUp ptr page + wholeBytes page ptr len := by
  have hptr := Word.le_roundUp ptr hpage
  have hstart := Word.dvd_roundUp ptr page
  have hend : page ∣ Word.roundUp ptr page + wholeBytes page ptr len :=
    Nat.dvd_add hstart (dvd_wholeBytes page ptr len)
  have hlow := wholeBytes_le page ptr len
  have hhigh := lt_wholeBytes_add hpage ptr len
  constructor
  · rintro ⟨first, hfirst, hlo, hhi, hx, hx'⟩
    have hafter := Word.roundUp_le hfirst hlo
    have hbefore : first + page ≤ Word.roundUp ptr page + wholeBytes page ptr len :=
      Nat.le_of_lt_add_of_dvd (by omega) (Nat.dvd_add hfirst (Nat.dvd_refl page)) hend
    omega
  · rintro ⟨hx, hx'⟩
    -- The page of `x` is inside because range and page end at multiples of the page size.
    have hbelow := Nat.div_mul_le_self x page
    have habove := Nat.lt_div_mul_add (a := x) hpage
    have hfirst : page ∣ x / page * page := Nat.dvd_mul_left _ _
    have hafter : Word.roundUp ptr page ≤ x / page * page :=
      Nat.le_of_lt_add_of_dvd (by omega) hstart hfirst
    have hbefore : x / page * page + page ≤ Word.roundUp ptr page + wholeBytes page ptr len :=
      Nat.le_of_lt_add_of_dvd (by omega) (Nat.dvd_add hfirst (Nat.dvd_refl page)) hend
    exact ⟨x / page * page, hfirst, by omega, by omega, hbelow, habove⟩

theorem wholeBytes_of_lt (h : len < page) : wholeBytes page ptr len = 0 := by
  unfold wholeBytes
  rw [Nat.div_eq_of_lt (by omega), Nat.zero_mul]

/-- The mask finds the bytes in whole pages, if there are fewer than a word can count. -/
theorem clearLow_wholeBytes (hpage : page.isPowerOfTwo) (hlen : len < Word.limit) :
    Word.clearLow (len - (Word.roundUp ptr page - ptr)) page = wholeBytes page ptr len := by
  by_cases hle : page ≤ Word.limit
  · exact Word.clearLow_eq hpage (by omega) hle
  · have hmask : Word.limit - page = 0 := by omega
    unfold Word.clearLow
    rw [hmask, Nat.and_zero, wholeBytes_of_lt (by omega)]

theorem clearLow_limit (hpage : 0 < page) : Word.clearLow Word.limit page = 0 := by
  have hlt : Word.limit - page < 2 ^ 64 := Nat.sub_lt (by decide) hpage
  show 2 ^ 64 &&& (Word.limit - page) = 0
  apply Nat.eq_of_testBit_eq
  intro i
  rw [Nat.testBit_and, Nat.testBit_two_pow, Nat.zero_testBit]
  by_cases hi : 64 = i
  · subst hi
    rw [Nat.testBit_lt_two_pow hlt, Bool.and_false]
  · rw [decide_eq_false hi, Bool.false_and]

/-- In the whole address space the mask finds none, although there are pages up to its end. -/
theorem wholeBytes_limit (hpage : page.isPowerOfTwo) :
    wholeBytes page 0 Word.limit = 0 ∨ wholeBytes page 0 Word.limit = Word.limit := by
  unfold wholeBytes
  rw [Word.roundUp_zero, Nat.sub_self, Nat.sub_zero]
  obtain ⟨k, rfl⟩ := hpage
  by_cases hk : k ≤ 64
  · exact .inr (Nat.div_mul_cancel (Nat.pow_dvd_pow 2 hk))
  · have hlarge : 2 ^ 64 < 2 ^ k := Nat.pow_lt_pow_right Nat.one_lt_two (by omega)
    change Word.limit < 2 ^ k at hlarge
    rw [Nat.div_eq_of_lt hlarge, Nat.zero_mul]
    exact .inl rfl

/-- The pages that are found are all that there are. Only in the whole address space none are
found, and that is nothing to take back. -/
theorem wholePages_cases (hpage : page.isPowerOfTwo) (hfits : ptr + len ≤ Word.limit) :
    (wholePages ptr len page = some (Word.roundUp ptr page, wholeBytes page ptr len) ∧
      wholeBytes page ptr len ≠ 0) ∨
    (wholePages ptr len page = none ∧ (wholeBytes page ptr len = 0 ∨
      Word.limit ≤ Word.roundUp ptr page + wholeBytes page ptr len)) := by
  have hpos := Nat.pos_of_isPowerOfTwo hpage
  have hptr := Word.le_roundUp ptr hpos
  have hlow := wholeBytes_le page ptr len
  unfold wholePages
  rw [if_neg (not_not_intro hpage)]
  by_cases hlen : len < Word.limit
  · rw [clearLow_wholeBytes hpage hlen]
    by_cases hnone : wholeBytes page ptr len = 0
    · refine .inr ⟨?_, .inl hnone⟩
      rw [if_pos hnone, ite_self, ite_self]
    · refine .inl ⟨?_, hnone⟩
      rw [if_neg (by omega), if_neg (by omega), if_neg hnone]
  · obtain rfl : ptr = 0 := by omega
    obtain rfl : len = Word.limit := by omega
    rw [Word.roundUp_zero, Nat.sub_self, Nat.sub_zero, clearLow_limit hpos]
    refine .inr ⟨?_, ?_⟩
    · rw [if_pos rfl, ite_self, ite_self]
    · rw [Nat.zero_add]
      exact (wholeBytes_limit hpage).imp_right fun hall => Nat.le_of_eq hall.symm

end Host

theorem Machine.confined_host (machine : Machine) : machine.host.Confined := by
  intro ptr len m a hne
  change (machine.releasePages ptr len m).2.1.byte a ≠ m.byte a at hne
  unfold releasePages at hne
  split at hne
  · exact absurd rfl hne
  · rename_i start bytes hpages
    have hinside := Host.wholePages_inside hpages
    split at hne
    · exact absurd rfl hne
    · have hchanged := Memory.changed_fill hne
      omega

/-- A machine takes all bytes in whole pages, unless the system refuses. -/
theorem Machine.releasePages_run (machine : Machine) (hpage : machine.pageSize.isPowerOfTwo)
    {ptr len : Nat} (hfits : ptr + len ≤ Word.limit) (m : Memory) :
    let start := Word.roundUp ptr machine.pageSize
    let bytes := Host.wholeBytes machine.pageSize ptr len
    (bytes = 0 → machine.releasePages ptr len m = (0, m, [])) ∧
    (∀ e, machine.refusal start bytes = some e → ∃ events,
      machine.releasePages ptr len m = (0, m, events) ∧
        (events = [] ∨ events = [.releaseRefused bytes e])) ∧
    (bytes ≠ 0 → machine.refusal start bytes = none →
      machine.releasePages ptr len m = (bytes, m.fill start bytes 0, [])) := by
  intro start bytes
  unfold releasePages
  rcases Host.wholePages_cases hpage hfits with ⟨hpages, hsome⟩ | ⟨hpages, hnone⟩
  · simp only [hpages]
    refine ⟨fun hzero => absurd hzero hsome, fun e hrefused => ?_, fun _ hgranted => ?_⟩
    · rw [hrefused]
      exact ⟨_, rfl, .inr rfl⟩
    · rw [hgranted]
  · rw [hpages]
    refine ⟨fun _ => rfl, fun _ _ => ⟨[], rfl, .inl rfl⟩, fun hsome hgranted => ?_⟩
    rw [refusal, if_pos (hnone.resolve_left hsome)] at hgranted
    cases hgranted

end HeapLedger
