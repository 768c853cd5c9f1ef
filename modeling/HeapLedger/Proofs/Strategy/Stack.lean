import Mathlib.Algebra.GroupWithZero.Nat
import HeapLedger.Layout
import HeapLedger.Proofs.Follows
import HeapLedger.Proofs.Header
import HeapLedger.Strategy.Headered

/-!
# `HeapLedger/Proofs/Strategy/Stack.lean` — a strategy on top of any backend

A `Stack` is one of the two strategies over a backend of which nothing is promised: it may refuse,
fault or hand out nonsense. What a strategy does with it can still be said exactly. A new block of
any kind is an `Order`, and an order is carried out by one request to the backend (`Stack.request`),
which either leads to nothing or to a pointer that is finished into a block (`Stack.take_eq`). All
sums that this takes fit a word for every order that the size rules let through.
-/

set_option autoImplicit false

namespace HeapLedger

variable {β α : Type}

/-- A strategy over a backend that promises nothing. -/
inductive Stack (β : Type) where
  | native (b : SizedBackend β)
  | headered (b : Backend β)

/-- A new block that a strategy is asked for. -/
inductive Order where
  | plain (size : Nat)
  | zeroed (size : Nat)
  | aligned (size align : Nat)
  deriving DecidableEq

/-- The backend's operation behind a request for memory. -/
def Request.ask (b : Backend β) : Request → HeapOp β (Option Nat)
  | .alloc n => b.alloc n
  | .allocZeroed n => b.allocZeroed n
  | .allocAligned n align => b.allocAligned n align
  | .realloc p n => b.realloc p n
  | _ => pure none

/-- The bytes that a request for memory is for. -/
def Request.size? : Request → Option Nat
  | .alloc n | .allocZeroed n | .allocAligned n _ | .realloc _ n => some n
  | _ => none

namespace Order

def take (s : Strategy β) : Order → HeapOp β (Option Block)
  | plain n => s.alloc n
  | zeroed n => s.allocZeroed n
  | aligned n align => s.allocAligned n align

/-- The size rules let the order through: for some bytes and below the bound, and where an alignment
is named, for one that the strategy does not keep anyway, to which the size can be rounded up. -/
def Passes (maxAlign : Nat) : Order → Prop
  | plain n | zeroed n => 0 < n ∧ n < Size.bound
  | aligned n align => 0 < n ∧ n < Size.bound ∧ align.isPowerOfTwo ∧ maxAlign < align ∧
      n + align ≤ Word.maxObject + 1 + Size.least

end Order

namespace Stack

def backend : Stack β → Backend β
  | native b => b.toBackend
  | headered b => b

def strategy : Stack β → Strategy β
  | native b => .native b
  | headered b => .headered b

/-- The same over a backend that writes down what it is asked. -/
def watched : Stack β → Stack (Watched β)
  | native b => native b.watched
  | headered b => headered b.watched

/-- What the backend is asked for an order. A header is room in front, and beyond the backend's own
alignment one more word and a whole alignment are. -/
def request : Stack β → Order → Request
  | native _, .plain n => .alloc n
  | native _, .zeroed n => .allocZeroed n
  | native _, .aligned n align => .allocAligned n align
  | headered b, .plain n => .alloc (n + Strategy.Headered.width b)
  | headered b, .zeroed n => .allocZeroed (n + Strategy.Headered.width b)
  | headered b, .aligned n align =>
      .alloc (n + Strategy.Headered.width b + Word.bytes + align)

/-- What becomes of the backend's pointer. -/
def finish : Stack β → Order → Nat → HeapOp β Block
  | native b, .aligned _ align, p =>
      if p % align ≠ 0 then throw (.misaligned (p % align)) else Strategy.sizedBlock b p
  | native b, _, p => Strategy.sizedBlock b p
  | headered b, .aligned n align, p => Strategy.Headered.stampAligned b p n align
  | headered b, .plain n, p | headered b, .zeroed n, p => Strategy.Headered.stamp b p n

/-- A pointer that is asked for and finished into a block. -/
def fulfil (ask : HeapOp β (Option Nat)) (finish : Nat → HeapOp β Block) :
    HeapOp β (Option Block) := do
  match ← ask with
  | none => pure none
  | some p => some <$> finish p

theorem maxAlign_strategy (u : Stack β) : u.strategy.maxAlign = u.backend.maxAlign := by
  cases u with
  | native b => rfl
  | headered b => rfl

theorem maxAlign_watched (u : Stack β) : u.watched.backend.maxAlign = u.backend.maxAlign := by
  cases u with
  | native b => rfl
  | headered b => rfl

theorem request_watched (u : Stack β) (o : Order) : u.watched.request o = u.request o := by
  cases u with
  | native b => cases o <;> rfl
  | headered b => cases o <;> rfl

theorem ask_watched (u : Stack β) (o : Order) :
    (u.request o).ask u.watched.backend =
      ((u.request o).ask u.backend).watch (u.request o) := by
  cases u with
  | native b => cases o <;> rfl
  | headered b => cases o <;> rfl

/-! ## Carrying out an order -/

section Sums

variable {maxAlign n align : Nat}

/-- Half the address space is room enough for a header. -/
theorem plainSize_of_lt (hmax : maxAlign ≤ 2 ^ 32) (hn : n < Size.bound) :
    Header.plainSize (Header.width maxAlign) n = some (n + Header.width maxAlign) := by
  have hwidth : Header.width maxAlign ≤ 2 ^ 32 := Header.width_le (by decide) hmax
  have hroom : Size.bound + 2 ^ 32 < Word.limit := by decide
  exact Header.plainSize_eq_some.2 ⟨by omega, rfl⟩

/-- What can be rounded up leaves room for a header and a word. -/
theorem alignedSize_of_passes (hmax : maxAlign ≤ 2 ^ 32)
    (ho : (Order.aligned n align).Passes maxAlign) :
    Header.alignedSize (Header.width maxAlign) n align =
      some (n + Header.width maxAlign + Word.bytes + align) := by
  have hwidth : Header.width maxAlign ≤ 2 ^ 32 := Header.width_le (by decide) hmax
  have hroom : Word.maxObject + 1 + Size.least + 2 ^ 32 + Word.bytes < Word.limit := by decide
  obtain ⟨-, -, -, -, hfits⟩ := ho
  exact Header.alignedSize_eq_some.2 ⟨by omega, rfl⟩

end Sums

/-- An order is one request, and what comes of it. -/
theorem take_eq (u : Stack β) (hmax : u.backend.maxAlign ≤ 2 ^ 32) {o : Order}
    (ho : o.Passes u.backend.maxAlign) :
    o.take u.strategy = fulfil ((u.request o).ask u.backend) (u.finish o) := by
  cases u with
  | native b =>
    cases o with
    | plain n => rfl
    | zeroed n => rfl
    | aligned n align =>
      show (Strategy.native b).allocAligned n align = _
      unfold Strategy.native fulfil
      apply congrArg (b.allocAligned n align >>= ·)
      funext r
      cases r with
      | none => rfl
      | some p =>
        by_cases hp : p % align = 0
        · simp [finish, hp]
        · simp only [finish, ne_eq, hp, not_false_eq_true, if_true]
          rfl
  | headered b =>
    change b.maxAlign ≤ 2 ^ 32 at hmax
    cases o with
    | plain n =>
      show Strategy.Headered.allocBy b b.alloc n = _
      unfold Strategy.Headered.allocBy Strategy.Headered.width
      rw [plainSize_of_lt hmax ho.2]
      rfl
    | zeroed n =>
      show Strategy.Headered.allocBy b b.allocZeroed n = _
      unfold Strategy.Headered.allocBy Strategy.Headered.width
      rw [plainSize_of_lt hmax ho.2]
      rfl
    | aligned n align =>
      change (Order.aligned n align).Passes b.maxAlign at ho
      obtain ⟨-, -, hpow, hbeyond, -⟩ := id ho
      show Strategy.Headered.allocAligned b n align = _
      unfold Strategy.Headered.allocAligned Strategy.Headered.width
      rw [if_neg (not_not_intro hpow), if_neg (Nat.not_le_of_lt hbeyond),
        alignedSize_of_passes hmax ho]
      rfl

end Stack

end HeapLedger
