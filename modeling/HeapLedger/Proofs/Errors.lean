import HeapLedger.Proofs.Accounting
import HeapLedger.Proofs.Ledger.Requests

/-!
# `HeapLedger/Proofs/Errors.lean` — errors that say what happened

An attempt at a new block can fail in two ways, and its error tells which. It is an overflow if the
size arithmetic refuses the numbers that were passed (`Action.Overruns`), and then nothing is asked
of the backend. It is exhaustion if the backend was asked and refused. There is no third way: a
request that the ledger lets through is never refused by the arithmetic of a header. In both cases
the number in the error is the caller's own.

Three rules guard the arithmetic: that the size can be rounded up to the alignment, that the rounded
size is below the bound, and that the size itself is. `order_eq_none_iff` says where they come to
the same, which is just below the largest object there can be.
-/

set_option autoImplicit false

namespace HeapLedger

variable {β : Type}

namespace Action

/-- The numbers that are passed with a call for a new block are words. -/
def Words : Action → Prop
  | .alloc _ size | .allocUsable _ size | .allocZeroed _ size | .allocZeroedUsable _ size
  | .realloc _ _ size | .reallocUsable _ _ size => size < Word.limit
  | .allocZeroedArray _ count elem => count < Word.limit ∧ elem < Word.limit
  | .allocAligned _ size align => size < Word.limit ∧ align < Word.limit
  | _ => True

/-- The size arithmetic refuses the numbers that are passed with a call for a new block. -/
def Overruns : Action → Prop
  | .alloc _ size | .allocUsable _ size | .allocZeroed _ size | .allocZeroedUsable _ size
  | .realloc _ _ size | .reallocUsable _ _ size => Word.max / 2 ≤ size
  | .allocZeroedArray _ count elem =>
      elem = 0 ∨ Word.max < count * elem ∨ Word.max / 2 ≤ count * elem
  | .allocAligned _ size align =>
      Word.max / 2 ≤ size ∨ ¬ align.isPowerOfTwo ∨ Word.maxObject < Word.roundUp size align
  | _ => False

end Action

/-! ## Where the size rules draw the line -/

namespace Order

variable {maxAlign size align : Nat} {kind : Nat → Order} {layout : Layout} {o : Order}

theorem passed_eq_none_iff : passed kind size = none ↔ Word.max / 2 ≤ size := by
  rw [show Word.max / 2 = Size.bound from rfl, ← Size.tooLarge_iff]
  unfold passed
  split
  · rename_i hlarge
    exact ⟨fun _ => hlarge, fun _ => rfl⟩
  · rename_i hsmall
    constructor
    · intro h
      cases h
    · intro hlarge
      exact absurd hlarge hsmall

/-- The largest object and one byte is a multiple of every alignment that is a word. -/
theorem dvd_maxObject (hpow : align.isPowerOfTwo) (hword : align < Word.limit) :
    align ∣ Word.maxObject + 1 := by
  obtain ⟨k, rfl⟩ := hpow
  have hlimit : Word.limit = 2 ^ 64 := rfl
  have hk : k < 64 := by
    rw [hlimit] at hword
    exact (Nat.pow_lt_pow_iff_right Nat.one_lt_two).1 hword
  have hobject : Word.maxObject + 1 = 2 ^ 63 := by decide
  rw [hobject]
  exact Nat.pow_dvd_pow 2 (by omega)

/-- Below the largest object and one byte, a multiple of the alignment has room for one more. -/
theorem roundUp_add_le (hpow : align.isPowerOfTwo) (hword : align < Word.limit)
    (hfits : Word.roundUp size align ≤ Word.maxObject) :
    Word.roundUp size align + align ≤ Word.maxObject + 1 := by
  obtain ⟨i, hi⟩ := Word.dvd_roundUp size align
  obtain ⟨j, hj⟩ := dvd_maxObject hpow hword
  have hlt : align * i < align * j := by omega
  have hij : i + 1 ≤ j := Nat.lt_of_mul_lt_mul_left hlt
  have hstep : align * (i + 1) ≤ align * j := Nat.mul_le_mul_left align hij
  rw [Nat.mul_add, Nat.mul_one] at hstep
  omega

/-- A size can be rounded up just when what it is rounded up to can exist. -/
theorem add_align_le_iff (hpow : align.isPowerOfTwo) (hword : align < Word.limit) :
    size + align ≤ Word.maxObject + 1 ↔ Word.roundUp size align ≤ Word.maxObject := by
  have hpos := Nat.pos_of_isPowerOfTwo hpow
  constructor
  · intro hfits
    have hlt := Word.roundUp_lt size hpos
    omega
  · intro hfits
    have hroom := roundUp_add_le hpow hword hfits
    have hle := Word.le_roundUp size hpos
    omega

theorem of?_eq_none_iff (hword : align < Word.limit) : Layout.of? size align = none ↔
    ¬ align.isPowerOfTwo ∨ Word.maxObject < Word.roundUp size align := by
  unfold Layout.of?
  by_cases hpow : align.isPowerOfTwo
  · have hround : size + align ≤ Word.maxObject + 1 ↔ Word.roundUp size align ≤ Word.maxObject :=
      add_align_le_iff hpow hword
    by_cases hfits : size + align ≤ Word.maxObject + 1
    · rw [dif_pos ⟨hpow, hfits⟩]
      have hle := hround.1 hfits
      simp [hpow, Nat.not_lt_of_le hle]
    · rw [dif_neg fun h => hfits h.2]
      have hlt := Nat.lt_of_not_le (mt hround.2 hfits)
      simp [hlt]
  · rw [dif_neg fun h => hpow h.1]
    simp [hpow]

/-- Once it can be rounded up, a size is refused only for itself. -/
theorem ofLayout_eq_none_iff (hmax : maxAlign ≤ 2 ^ 32) :
    ofLayout kind maxAlign layout = none ↔ Word.max / 2 ≤ layout.size := by
  unfold ofLayout
  cases hplain : layout.plainSize maxAlign with
  | none => exact passed_eq_none_iff
  | some n =>
    obtain ⟨hle, rfl⟩ := Layout.plainSize_eq_some hplain
    have hobject : Word.maxObject = Word.max / 2 := by decide
    have hroom : 2 ^ 32 < Word.max / 2 := by decide
    have hspace : Word.maxObject + 1 < Word.limit := by decide
    have hfits := layout.add_align_le
    have hword : layout.align < Word.limit := by omega
    have hlt : layout.padded < layout.size + layout.align :=
      Word.roundUp_lt layout.size layout.align_pos
    have hge : layout.size ≤ layout.padded := Word.le_roundUp layout.size layout.align_pos
    have hpadded : layout.padded + layout.align ≤ Word.maxObject + 1 :=
      roundUp_add_le layout.isPowerOfTwo_align hword
        ((add_align_le_iff layout.isPowerOfTwo_align hword).1 hfits)
    simp only
    rw [passed_eq_none_iff]
    constructor
    · intro hlarge
      -- The padded size is at most the largest object, and that is only reached without padding.
      omega
    · intro hlarge
      omega

end Order

namespace Action

variable {maxAlign : Nat} {a : Action} {o : Order}

/-- No order comes of a call just when the arithmetic refuses its numbers. -/
theorem order_eq_none_iff (hmax : maxAlign ≤ 2 ^ 32) (ha : a.attemptsNew = true)
    (hwords : a.Words) : a.orders maxAlign = none ↔ a.Overruns := by
  unfold attemptsNew at ha
  split at ha
  · exact Order.passed_eq_none_iff
  · exact Order.passed_eq_none_iff
  · exact Order.passed_eq_none_iff
  · exact Order.passed_eq_none_iff
  · rename_i count elem
    show Order.ofArray count elem = none ↔ _
    unfold Order.ofArray Overruns
    cases hsize : Size.ofArray count elem with
    | ok n =>
      obtain ⟨hne, hle, rfl⟩ := Size.ofArray_eq_ok_iff.1 hsize
      simp only
      rw [Order.passed_eq_none_iff]
      constructor
      · intro hlarge
        exact .inr (.inr hlarge)
      · rintro (hzero | hlt | hlarge)
        · exact absurd hzero hne
        · exact absurd hle (Nat.not_le_of_lt hlt)
        · exact hlarge
    | error e =>
      refine ⟨fun _ => ?_, fun _ => rfl⟩
      by_contra hfits
      rw [not_or, not_or, Nat.not_lt] at hfits
      rw [Size.ofArray_eq_ok_iff.2 ⟨hfits.1, hfits.2.1, rfl⟩] at hsize
      cases hsize
  · rename_i size align
    show (Layout.of? size align).bind (Order.ofLayout .plain maxAlign) = none ↔
      Word.max / 2 ≤ size ∨ ¬ align.isPowerOfTwo ∨ Word.maxObject < Word.roundUp size align
    rw [← Order.of?_eq_none_iff hwords.2]
    cases hlayout : Layout.of? size align with
    | none => exact ⟨fun _ => .inr rfl, fun _ => rfl⟩
    | some layout =>
      obtain ⟨rfl, -⟩ := Layout.of?_eq_some hlayout
      rw [Option.bind_some, Order.ofLayout_eq_none_iff hmax]
      simp
  · exact Order.passed_eq_none_iff
  · exact Order.passed_eq_none_iff
  · cases ha

end Action

namespace Stack

variable (u : Stack β) (host : Host) (l : Ledger β) {a : Action} {o : Order}

theorem perform_order (ha : a.attemptsNew = true) :
    a.perform u.strategy host = Action.reported a.answered
      (Ledger.tryOrder u.strategy (a.orders u.backend.maxAlign) a.named) := by
  rw [← u.maxAlign_strategy]
  exact Action.perform_attemptsNew u.strategy host ha

/-- Without an order the ledger stays as it is. -/
theorem perform_overflow (ha : a.attemptsNew = true)
    (horder : a.orders u.backend.maxAlign = none) :
    a.perform u.strategy host l = .ok (.failed (.overflow a.named)) l := by
  rw [perform_order u host ha, horder]
  rfl

theorem asks_nothing (ha : a.attemptsNew = true) (horder : a.orders u.backend.maxAlign = none) :
    u.asks host a l = [] := by
  rw [← u.maxAlign_watched] at horder
  unfold asks
  rw [u.watched.perform_overflow host l.watched ha horder]
  rfl

section Ordered

variable (hmax : u.backend.maxAlign ≤ 2 ^ 32) (ha : a.attemptsNew = true)
  (horder : a.orders u.backend.maxAlign = some o)

include hmax ha horder

/-- An order that the backend refuses is exhaustion, and no other is an error. -/
theorem perform_exhausted :
    Ends (a.perform u.strategy host) l
      (fun r _ => (r = .failed (.exhausted a.named) ∧
          ((u.request o).ask u.backend).Refuses l.heap) ∨
        (∀ e, r ≠ .failed e) ∧ ¬ ((u.request o).ask u.backend).Refuses l.heap)
      fun _ _ => ¬ ((u.request o).ask u.backend).Refuses l.heap := by
  have hanswered : ∀ block e, a.answered block ≠ .failed e := by
    intro block e
    unfold Action.answered
    split <;> exact fun h => nomatch h
  have hends := Ledger.tryOrder_ends u hmax (Action.passes_of_order horder) a.named l
  rw [perform_order u host ha, horder]
  unfold Action.reported
  rw [ends_bind]
  apply hends.mono
  rintro r l' (⟨rfl, hrefuses⟩ | ⟨⟨block, rfl⟩, hgranted⟩)
  · exact ends_pure.2 (.inl ⟨rfl, hrefuses⟩)
  · exact ends_pure.2 (.inr ⟨hanswered block, hgranted⟩)

theorem asks_once : u.asks host a l = [u.request o] := by
  have hends := Ledger.tryOrder_asks u hmax (Action.passes_of_order horder) a.named l.watched
  apply asks_of_ends
  rw [perform_order u.watched host ha, u.maxAlign_watched, horder]
  unfold Action.reported
  rw [ends_bind]
  apply hends.imp
  · intro r l' hseen
    have hasks : (l'.heap.state.seen.map Sighting.request).reverse = [u.request o] := by
      rw [hseen]
      rfl
    cases r with
    | ok block => exact ends_pure.2 hasks
    | error e => exact ends_pure.2 hasks
  · intro e l' hseen
    rw [hseen]
    rfl

end Ordered

/-- For every attempt at a new block, at every ledger over every backend, with any numbers: it is an
overflow just when the arithmetic refuses the numbers, and then nothing is asked of the backend. If
the arithmetic does not, the backend is asked once, and it is exhaustion just when the backend
refuses. Either error has the number that the caller named. -/
theorem errors_classified (u : Stack β) (hmax : u.backend.maxAlign ≤ 2 ^ 32) (host : Host)
    (l : Ledger β) {a : Action} (ha : a.attemptsNew = true) (hwords : a.Words) :
    let ending := a.perform u.strategy host l
    ((∃ n l', ending = .ok (.failed (.overflow n)) l') ↔ a.Overruns) ∧
      (a.Overruns → u.asks host a l = []) ∧
      (¬ a.Overruns → ∃ o, u.asks host a l = [u.request o]) ∧
      ((∃ n l', ending = .ok (.failed (.exhausted n)) l') ↔
        ∃ r ∈ u.asks host a l, (r.ask u.backend).Refuses l.heap) ∧
      ∀ e l', ending = .ok (.failed e) l' → e.requested = a.named := by
  intro ending
  rw [← Action.order_eq_none_iff hmax ha hwords]
  cases horder : a.orders u.backend.maxAlign with
  | none =>
    have hending : ending = .ok (.failed (.overflow a.named)) l :=
      perform_overflow u host l ha horder
    have hasks := asks_nothing u host l ha horder
    rw [hending, hasks]
    refine ⟨⟨fun _ => rfl, fun _ => ⟨_, _, rfl⟩⟩, fun _ => rfl, fun h => absurd rfl h, ?_, ?_⟩
    · constructor
      · rintro ⟨n, l', hrun⟩
        cases hrun
      · rintro ⟨r, hr, -⟩
        cases hr
    · intro e l' hrun
      cases hrun
      rfl
  | some o =>
    have hends := perform_exhausted u host l hmax ha horder
    rw [asks_once u host l hmax ha horder]
    have hfailed : ∀ e l', ending = .ok (.failed e) l' →
        e = .exhausted a.named ∧ ((u.request o).ask u.backend).Refuses l.heap := by
      intro e l' hrun
      rcases hends.of_ok hrun with ⟨he, hrefuses⟩ | ⟨hne, -⟩
      · cases he
        exact ⟨rfl, hrefuses⟩
      · exact absurd rfl (hne e)
    refine ⟨?_, ?_, fun _ => ⟨o, rfl⟩, ?_, ?_⟩
    · constructor
      · rintro ⟨n, l', hrun⟩
        cases (hfailed _ _ hrun).1
      · intro hnone
        cases hnone
    · intro hnone
      cases hnone
    · constructor
      · rintro ⟨n, l', hrun⟩
        exact ⟨_, List.mem_singleton_self _, (hfailed _ _ hrun).2⟩
      · rintro ⟨r, hr, hrefuses⟩
        obtain rfl := List.mem_singleton.1 hr
        cases hrun : a.perform u.strategy host l with
        | ok r l' =>
          rcases hends.of_ok hrun with ⟨rfl, -⟩ | ⟨-, hgranted⟩
          · exact ⟨a.named, l', hrun⟩
          · exact absurd hrefuses hgranted
        | error e l' => exact absurd hrefuses (hends.of_error hrun)
    · intro e l' hrun
      rw [(hfailed e l' hrun).1]
      rfl

/-- Over headers in an arena that gives out blocks of at most 4096 bytes: seventy bytes at a multiple
of 4096 take a request for a whole alignment more, which is refused, and the error tells of
seventy. -/
theorem errors_classified_arena :
    let u := Stack.headered ((Arena.full {}).toBackend.capped 4096)
    let a := Action.allocAligned .attempt 70 4096
    u.asks .unsupported a (.new Desk.arenaHeap 4) = [.alloc (70 + 16 + 8 + 4096)] ∧
      ∃ l, a.perform u.strategy .unsupported (.new Desk.arenaHeap 4) =
        .ok (.failed (.exhausted 70)) l := by
  intro u a
  have hasks : u.asks .unsupported a (.new Desk.arenaHeap 4) = [.alloc (70 + 16 + 8 + 4096)] := by
    decide +kernel
  obtain ⟨-, -, -, hexhausted, hnamed⟩ := errors_classified u (by decide) .unsupported
    (.new Desk.arenaHeap 4) (a := a) rfl ⟨by decide, by decide⟩
  rw [hasks] at hexhausted
  obtain ⟨n, l, hrun⟩ := hexhausted.2 ⟨_, List.mem_singleton_self _, _, rfl⟩
  obtain rfl : n = 70 := hnamed _ _ hrun
  exact ⟨hasks, l, hrun⟩

end Stack

end HeapLedger
