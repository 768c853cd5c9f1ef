import HeapLedger.Proofs.Checked
import HeapLedger.Proofs.Host

/-!
# `HeapLedger/Proofs/Pages.lean` — all whole pages of a range, and no others

A range of bytes has whole pages in it or it has not, and if it has, they follow one another without
a gap. `Host.PageRun` says that a run of bytes is exactly these pages: it starts at the first page
boundary, it ends within the range, and what is left of the range is no page. There is at most one
such run (`PageRun.start_eq`, `PageRun.bytes_eq`), and one as soon as there is a page
(`pageRun_roundUp`).

`wholePages_eq_some` is that rounding and masking find this run. The one thing that they ask for
besides is that the run starts in the address space. Ranges may end beyond it: numbers are exact
here, and no step of the computation leaves the word (`wholePagesChecked`).
-/

set_option autoImplicit false

namespace HeapLedger.Host

/-- The page from `first` lies wholly inside the `len` bytes from `address`. -/
def WholePage (page address len first : Nat) : Prop :=
  page ∣ first ∧ address ≤ first ∧ first + page ≤ address + len

/-- The `bytes` from `start` are the whole pages in the `len` bytes from `address`. -/
structure PageRun (page address len start bytes : Nat) : Prop where
  boundary : page ∣ start
  after : address ≤ start
  first : ∀ b, page ∣ b → address ≤ b → start ≤ b
  nonempty : 0 < bytes
  pages : page ∣ bytes
  inside : start + bytes ≤ address + len
  rest : address + len < start + bytes + page

variable {page address len start bytes : Nat}

namespace PageRun

theorem start_eq (h : PageRun page address len start bytes) (hpage : 0 < page) :
    start = Word.roundUp address page :=
  Nat.le_antisymm (h.first _ (Word.dvd_roundUp address page) (Word.le_roundUp address hpage))
    (Word.roundUp_le h.boundary h.after)

theorem bytes_eq (h : PageRun page address len start bytes) (hpage : 0 < page) :
    bytes = wholeBytes page address len := by
  have hafter := h.after
  have hinside := h.inside
  have hrest := h.rest
  have hlow := wholeBytes_le page address len
  have hhigh := lt_wholeBytes_add hpage address len
  have hpages := dvd_wholeBytes page address len
  rw [← h.start_eq hpage] at hlow hhigh
  -- Both are multiples of the page size, and less than a page away from the same number.
  apply Nat.le_antisymm
  · exact Nat.le_of_lt_add_of_dvd (by omega) h.pages hpages
  · exact Nat.le_of_lt_add_of_dvd (by omega) hpages h.pages

/-- The pages of the run are the whole pages of the range: all of them are inside, and at neither
end could there be one more. -/
theorem wholePage_iff (h : PageRun page address len start bytes) (b : Nat) :
    WholePage page address len b ↔ page ∣ b ∧ start ≤ b ∧ b + page ≤ start + bytes := by
  have hafter := h.after
  have hinside := h.inside
  have hrest := h.rest
  constructor
  · rintro ⟨hb, hlo, hhi⟩
    have hend : page ∣ start + bytes := Nat.dvd_add h.boundary h.pages
    have hb' : page ∣ b + page := Nat.dvd_add hb (Nat.dvd_refl page)
    exact ⟨hb, h.first b hb hlo, Nat.le_of_lt_add_of_dvd (by omega) hb' hend⟩
  · rintro ⟨hb, hlo, hhi⟩
    exact ⟨hb, by omega, by omega⟩

theorem wholePage_start (h : PageRun page address len start bytes) :
    WholePage page address len start := by
  have hle : page ≤ bytes := Nat.le_of_dvd h.nonempty h.pages
  exact (h.wholePage_iff start).2 ⟨h.boundary, Nat.le_refl _, by omega⟩

end PageRun

/-- If any page is wholly inside, then there is a run of them from the first boundary. -/
theorem pageRun_roundUp (hpage : 0 < page) {b : Nat} (hb : WholePage page address len b) :
    PageRun page address len (Word.roundUp address page) (wholeBytes page address len) := by
  obtain ⟨hdvd, hlo, hhi⟩ := hb
  have hafter := Word.le_roundUp address hpage
  have hfirst : Word.roundUp address page ≤ b := Word.roundUp_le hdvd hlo
  have hlow := wholeBytes_le page address len
  have hhigh := lt_wholeBytes_add hpage address len
  refine ⟨Word.dvd_roundUp _ _, hafter, fun _ => Word.roundUp_le, ?_, dvd_wholeBytes _ _ _, ?_, ?_⟩
  · omega
  · omega
  · omega

theorem wholePage_roundUp (hpage : 0 < page) (hsome : wholeBytes page address len ≠ 0) :
    WholePage page address len (Word.roundUp address page) := by
  have hafter := Word.le_roundUp address hpage
  have hlow := wholeBytes_le page address len
  have hle : page ≤ wholeBytes page address len :=
    Nat.le_of_dvd (Nat.pos_of_ne_zero hsome) (dvd_wholeBytes page address len)
  exact ⟨Word.dvd_roundUp _ _, hafter, by omega⟩

/-! ## What is found -/

/-- Rounding and masking find the run of whole pages, if it starts in the address space. -/
theorem wholePages_eq_some (hlen : len < Word.limit) :
    wholePages address len page = some (start, bytes) ↔
      page.isPowerOfTwo ∧ start < Word.limit ∧ PageRun page address len start bytes := by
  by_cases hpow : page.isPowerOfTwo
  · have hpos := Nat.pos_of_isPowerOfTwo hpow
    have hafter := Word.le_roundUp address hpos
    unfold wholePages
    rw [if_neg (not_not_intro hpow), clearLow_wholeBytes hpow hlen]
    constructor
    · intro h
      split at h
      · cases h
      rename_i hstart
      split at h
      · cases h
      split at h
      · cases h
      rename_i hsome
      cases h
      exact ⟨hpow, Nat.lt_of_not_le hstart, pageRun_roundUp hpos (wholePage_roundUp hpos hsome)⟩
    · rintro ⟨-, hstart, hrun⟩
      have hinside := hrun.inside
      have hsome := hrun.nonempty
      obtain rfl := hrun.start_eq hpos
      obtain rfl := hrun.bytes_eq hpos
      rw [if_neg (by omega), if_neg (by omega), if_neg (by omega)]
  · unfold wholePages
    rw [if_pos hpow]
    constructor
    · intro h
      cases h
    · rintro ⟨hpow', -⟩
      exact absurd hpow' hpow

/-- Something is found just when a page from an address in the address space is wholly inside. -/
theorem exists_wholePages_iff (hpow : page.isPowerOfTwo) (hlen : len < Word.limit) :
    (∃ found, wholePages address len page = some found) ↔
      ∃ first < Word.limit, WholePage page address len first := by
  have hpos := Nat.pos_of_isPowerOfTwo hpow
  constructor
  · rintro ⟨⟨start, bytes⟩, hfound⟩
    obtain ⟨-, hstart, hrun⟩ := (wholePages_eq_some hlen).1 hfound
    exact ⟨start, hstart, hrun.wholePage_start⟩
  · rintro ⟨first, hfirst, hwhole⟩
    have hle := Word.roundUp_le hwhole.1 hwhole.2.1
    exact ⟨_, (wholePages_eq_some hlen).2
      ⟨hpow, Nat.lt_of_le_of_lt hle hfirst, pageRun_roundUp hpos hwhole⟩⟩

/-- A range that is shorter than a page has none. -/
theorem wholePages_of_lt (h : len < page) (hlen : len < Word.limit) :
    wholePages address len page = none := by
  cases hfound : wholePages address len page with
  | none => rfl
  | some found =>
    obtain ⟨-, -, hrun⟩ := (wholePages_eq_some hlen).1 hfound
    obtain ⟨-, hafter, hinside⟩ := hrun.wholePage_start
    omega

/-- In a range that is longer by a page less one byte, the first boundary starts a whole page. -/
theorem wholePage_roundUp_of_le (hpage : 0 < page) (h : 2 * page - 1 ≤ len) :
    WholePage page address len (Word.roundUp address page) := by
  have hlt := Word.roundUp_lt address hpage
  exact ⟨Word.dvd_roundUp _ _, Word.le_roundUp address hpage, by omega⟩

/-- Finding whole pages is exact, for every range of fewer bytes than a word can count. No step of
it leaves the word. Something is found just when a multiple of the page size in the address space
starts a page inside the range, and what is found are all such pages. -/
theorem wholePages_exact (address page : Nat) {len : Nat} (hlen : len < Word.limit) :
    wholePagesChecked address len page = some (wholePages address len page) ∧
    (¬ page.isPowerOfTwo → wholePages address len page = none) ∧
    (page.isPowerOfTwo → ((∃ found, wholePages address len page = some found) ↔
      ∃ k, k * page < Word.limit ∧ address ≤ k * page ∧ k * page + page ≤ address + len)) ∧
    (∀ start bytes, wholePages address len page = some (start, bytes) →
      PageRun page address len start bytes ∧
      ∀ b, WholePage page address len b ↔ page ∣ b ∧ start ≤ b ∧ b + page ≤ start + bytes) ∧
    (len < page → wholePages address len page = none) ∧
    (page.isPowerOfTwo → 2 * page - 1 ≤ len →
      ((∃ found, wholePages address len page = some found) ↔
        ∃ k, k * page < Word.limit ∧ address ≤ k * page)) := by
  refine ⟨wholePagesChecked_eq address len page, ?_, ?_, ?_, ?_, ?_⟩
  · intro hpow
    exact if_pos hpow
  · intro hpow
    rw [exists_wholePages_iff hpow hlen]
    constructor
    · rintro ⟨_, hfirst, ⟨k, rfl⟩, hlo, hhi⟩
      rw [Nat.mul_comm page k] at hfirst hlo hhi
      exact ⟨k, hfirst, hlo, hhi⟩
    · rintro ⟨k, hfirst, hlo, hhi⟩
      exact ⟨k * page, hfirst, Nat.dvd_mul_left page k, hlo, hhi⟩
  · intro start bytes hfound
    obtain ⟨-, -, hrun⟩ := (wholePages_eq_some hlen).1 hfound
    exact ⟨hrun, hrun.wholePage_iff⟩
  · intro hshort
    exact wholePages_of_lt hshort hlen
  · intro hpow hlong
    have hpos := Nat.pos_of_isPowerOfTwo hpow
    rw [exists_wholePages_iff hpow hlen]
    constructor
    · rintro ⟨_, hfirst, ⟨k, rfl⟩, hlo, -⟩
      rw [Nat.mul_comm page k] at hfirst hlo
      exact ⟨k, hfirst, hlo⟩
    · rintro ⟨k, hfirst, hlo⟩
      have hle := Word.roundUp_le (Nat.dvd_mul_left page k) hlo
      exact ⟨_, Nat.lt_of_le_of_lt hle hfirst, wholePage_roundUp_of_le hpos hlong⟩

/-- The last two pages of the address space, in a range that starts a byte before them. -/
theorem wholePages_exact_last_pages :
    8193 < Word.limit ∧
      wholePages (Word.limit - 8193) 8193 4096 = some (Word.limit - 8192, 8192) := by
  have hlimit : Word.limit = 2 ^ 64 := rfl
  have hlen : 8193 < Word.limit := by decide
  obtain ⟨-, -, -, hall, -, hlong⟩ := wholePages_exact (Word.limit - 8193) 4096 hlen
  obtain ⟨⟨start, bytes⟩, hfound⟩ :=
    (hlong ⟨12, rfl⟩ (by decide)).2 ⟨2 ^ 52 - 2, by decide, by decide⟩
  obtain ⟨hrun, -⟩ := hall start bytes hfound
  have hstart : start = Word.limit - 8192 := hrun.start_eq (by decide)
  have hpages := hrun.pages
  have hinside := hrun.inside
  have hrest := hrun.rest
  have hbytes : bytes = 8192 := by omega
  rw [hfound, hstart, hbytes]
  exact ⟨hlen, rfl⟩

end HeapLedger.Host
