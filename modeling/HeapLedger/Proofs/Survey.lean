import HeapLedger.Backend

/-!
# `HeapLedger/Proofs/Survey.lean` — the live blocks behind a heap

A backend keeps its blocks in a state of its own, and nothing here looks into it. A `Survey` is what
must be known of that state from outside: which heaps are in order, and which blocks are live in
them, each with the bytes last asked for and the bytes it has (a `Lease`). Live blocks hold what was
asked for, lie in the address space and do not meet, and whoever writes inside them disturbs
nothing that the backend knows.

`Survey.Trade` is one step as seen through a survey: at most one block goes, at most one comes, and
every block that is there before and after keeps its lease and its content. All that backends,
strategies and ledgers do to a heap is put together from trades and from writes inside blocks, so
the laws of trades below are the frame rules of everything that follows.

Memory outside all blocks is nothing that trades speak of. Of any stretch of memory, in blocks or
not, `Survey.Misses` says that a step had nothing to do with it.
-/

set_option autoImplicit false

namespace HeapLedger

/-! ## Partial maps that lose one entry and win another -/

section Exchange

variable {α : Type}

/-- The map without `gone` and with `came`. An entry that comes where another goes replaces it. -/
def exchange (f : Nat → Option α) (gone : Option Nat) (came : Option (Nat × α)) :
    Nat → Option α := fun q =>
  if came.map Prod.fst = some q then came.map Prod.snd
  else if gone = some q then none
  else f q

variable {f : Nat → Option α} {gone : Option Nat} {came : Option (Nat × α)} {p q : Nat} {a b : α}

@[simp] theorem exchange_none_none : exchange f none none = f := by
  funext q
  simp [exchange]

@[simp] theorem exchange_came : exchange f gone (some (q, a)) q = some a := by
  simp [exchange]

theorem exchange_of_ne (hgone : gone ≠ some q) (hcame : came.map Prod.fst ≠ some q) :
    exchange f gone came q = f q := by
  rw [exchange, if_neg hcame, if_neg hgone]

@[simp] theorem exchange_gone : exchange f (some p) none p = none := by
  simp [exchange]

theorem exchange_eq_some (h : exchange f gone came q = some b) :
    came = some (q, b) ∨ gone ≠ some q ∧ f q = some b := by
  unfold exchange at h
  split at h
  · rename_i hcame
    obtain ⟨⟨q', a⟩, rfl, rfl⟩ := Option.map_eq_some_iff.1 hcame
    obtain rfl : a = b := Option.some.inj h
    exact .inl rfl
  · split at h
    · cases h
    · rename_i hgone
      exact .inr ⟨hgone, h⟩

theorem exchange_eq_none (hcame : came.map Prod.fst ≠ some q) (h : f q = none) :
    exchange f gone came q = none := by
  unfold exchange
  rw [if_neg hcame, h, ite_self]

/-- Where the same goes and comes, entries are there or not alike. -/
theorem isSome_exchange {γ : Type} {g : Nat → Option γ} {came' : Option (Nat × γ)}
    (h : ∀ q, (f q).isSome = (g q).isSome) (hcame : came.map Prod.fst = came'.map Prod.fst)
    (q : Nat) : (exchange f gone came q).isSome = (exchange g gone came' q).isSome := by
  unfold exchange
  rw [hcame]
  split
  · have hsome := congrArg Option.isSome hcame
    rw [Option.isSome_map, Option.isSome_map] at hsome ⊢
    exact hsome
  · split
    · rfl
    · exact h q

/-- First one comes, then another goes: the same as both at once. -/
theorem exchange_exchange (hpq : p ≠ q) :
    exchange (exchange f none (some (q, a))) (some p) none = exchange f (some p) (some (q, a)) := by
  funext x
  by_cases hx : x = q
  · subst hx
    rw [exchange_came, exchange_of_ne (by simpa using hpq) (by simp), exchange_came]
  · have hq : q ≠ x := fun h => hx h.symm
    simp [exchange, hq]

end Exchange

/-! ## Content -/

/-- The `len` bytes from `start` are the same in both memories. -/
def Memory.Agree (start len : Nat) (m m' : Memory) : Prop :=
  ∀ a, start ≤ a → a < start + len → m'.byte a = m.byte a

namespace Memory.Agree

variable {start len : Nat} {m m' m'' : Memory}

theorem refl (start len : Nat) (m : Memory) : Agree start len m m := fun _ _ _ => rfl

theorem trans (h : Agree start len m m') (h' : Agree start len m' m'') : Agree start len m m'' :=
  fun a hlo hhi => (h' a hlo hhi).trans (h a hlo hhi)

theorem narrow {start' len' : Nat} (h : Agree start len m m') (hlo : start ≤ start')
    (hhi : start' + len' ≤ start + len) : Agree start' len' m m' :=
  fun a ha ha' => h a (Nat.le_trans hlo ha) (Nat.lt_of_lt_of_le ha' hhi)

theorem word (h : Agree start len m m') {address : Nat} (hlo : start ≤ address)
    (hhi : address + Word.bytes ≤ start + len) : m'.word address = m.word address :=
  littleEndian_congr fun i hi => h (address + i) (by omega) (by omega)

end Memory.Agree

/-- The `len` bytes that were at `src` in the first memory are at `dst` in the second. -/
def Memory.Carried (src dst len : Nat) (m m' : Memory) : Prop :=
  ∀ i, i < len → m'.byte (dst + i) = m.byte (src + i)

namespace Memory.Carried

variable {src dst len len' : Nat} {m m' m'' : Memory}

theorem copy (m : Memory) (src dst len : Nat) : Carried src dst len m (m.copy dst src len) := by
  intro i hi
  rw [byte_copy, if_pos ⟨by omega, by omega⟩, Nat.add_sub_cancel_left]

theorem narrow (h : Carried src dst len m m') (hlen : len' ≤ len) : Carried src dst len' m m' :=
  fun i hi => h i (Nat.lt_of_lt_of_le hi hlen)

/-- The part that starts `k` bytes in. -/
theorem drop (h : Carried src dst len m m') {k : Nat} (hlen : k + len' ≤ len) :
    Carried (src + k) (dst + k) len' m m' := by
  intro i hi
  rw [Nat.add_assoc, Nat.add_assoc]
  exact h (k + i) (by omega)

/-- What has arrived stays. -/
theorem stay (h : Carried src dst len m m') (h' : Agree dst len m' m'') :
    Carried src dst len m m'' :=
  fun i hi => (h' (dst + i) (by omega) (by omega)).trans (h i hi)

/-- What is carried was there before. -/
theorem since (h : Agree src len m m') (h' : Carried src dst len m' m'') :
    Carried src dst len m m'' :=
  fun i hi => (h' i hi).trans (h (src + i) (by omega) (by omega))

end Memory.Carried

theorem Memory.Agree.carried {start len : Nat} {m m' : Memory} (h : Agree start len m m') :
    Carried start start len m m' :=
  fun i hi => h (start + i) (by omega) (by omega)

namespace Memory

variable {m : Memory} {a start len : Nat}

theorem changed_overwrite {content : Nat → UInt8}
    (h : (m.overwrite start len content).byte a ≠ m.byte a) : start ≤ a ∧ a < start + len := by
  rw [byte_overwrite] at h
  exact Decidable.byContradiction fun hout => h (if_neg hout)

theorem changed_setWord {value : Nat} (h : (m.setWord start value).byte a ≠ m.byte a) :
    start ≤ a ∧ a < start + Word.bytes :=
  changed_overwrite h

theorem changed_store {bytes : Array UInt8} (h : (m.store start bytes).byte a ≠ m.byte a) :
    start ≤ a ∧ a < start + bytes.size :=
  changed_overwrite h

/-- A string takes one byte more than it has. -/
theorem changed_storeString {text : List UInt8}
    (h : (m.store start (text ++ [0]).toArray).byte a ≠ m.byte a) :
    start ≤ a ∧ a < start + (text.length + 1) := by
  have hchanged := changed_store h
  rwa [List.size_toArray, List.length_append, List.length_singleton] at hchanged

theorem changed_fill {value : UInt8} (h : (m.fill start len value).byte a ≠ m.byte a) :
    start ≤ a ∧ a < start + len := by
  rw [byte_fill] at h
  exact Decidable.byContradiction fun hout => h (if_neg hout)

theorem changed_copy {src : Nat} (h : (m.copy start src len).byte a ≠ m.byte a) :
    start ≤ a ∧ a < start + len := by
  rw [byte_copy] at h
  exact Decidable.byContradiction fun hout => h (if_neg hout)

end Memory

/-! ## Live blocks -/

/-- A live block as its backend knows it. -/
structure Lease where
  /-- The bytes that were asked for last. -/
  asked : Nat
  /-- The bytes that the block has. -/
  bytes : Nat

/-- What a heap says about the live blocks of the backend whose state it holds. -/
structure Survey (β : Type) where
  /-- The heap is one that the backend can have made. -/
  valid : Heap β → Prop
  /-- The live block at an address. -/
  live : Heap β → Nat → Option Lease
  fits : ∀ {h p l}, valid h → live h p = some l →
    0 < l.asked ∧ l.asked ≤ l.bytes ∧ p + l.bytes ≤ Word.limit
  apart : ∀ {h p q l k}, valid h → live h p = some l → live h q = some k → p ≠ q →
    p + l.bytes ≤ q ∨ q + k.bytes ≤ p
  /-- Writing inside live blocks is nobody's business but the writer's. -/
  write : ∀ {h : Heap β} {m : Memory}, valid h →
    (∀ a, m.byte a ≠ h.memory.byte a → ∃ p l, live h p = some l ∧ p ≤ a ∧ a < p + l.bytes) →
    valid ⟨m, h.state⟩ ∧ live ⟨m, h.state⟩ = live h

namespace Survey

variable {β : Type}

/-- From `h` to `h'` the block at `gone` goes, if any, and the block `came` comes, if any. Every
other block stays as it is, content included. -/
structure Trade (v : Survey β) (gone : Option Nat) (came : Option (Nat × Lease))
    (h h' : Heap β) : Prop where
  valid : v.valid h'
  live : v.live h' = exchange (v.live h) gone came
  fresh : ∀ q l, came = some (q, l) → gone ≠ some q → v.live h q = none
  kept : ∀ q l, v.live h q = some l → gone ≠ some q → Memory.Agree q l.bytes h.memory h'.memory

/-- An answer to a request for `n` bytes that replaces the block at `gone`, if any. A refusal
changes nothing. -/
def Served (v : Survey β) (gone : Option Nat) (n : Nat) (h : Heap β) :
    Option Nat → Heap β → Prop
  | none, h' => v.Trade none none h h'
  | some q, h' => ∃ bytes, v.Trade gone (some (q, ⟨n, bytes⟩)) h h'

variable {v : Survey β} {gone : Option Nat} {came : Option (Nat × Lease)} {h h' h'' : Heap β}
  {p q : Nat} {l k : Lease}

theorem Trade.refl (hv : v.valid h) : v.Trade none none h h where
  valid := hv
  live := exchange_none_none.symm
  fresh := fun _ _ hcame => nomatch hcame
  kept := fun _ _ _ _ => .refl _ _ _

theorem Trade.live_came (t : v.Trade gone (some (q, l)) h h') : v.live h' q = some l := by
  rw [t.live, exchange_came]

/-- A block that does not go stays, and none comes in its place. -/
theorem Trade.live_of_ne (t : v.Trade gone came h h') (hp : v.live h p = some l)
    (hgone : gone ≠ some p) : v.live h' p = some l := by
  rw [t.live, exchange_of_ne hgone, hp]
  intro hcame
  obtain ⟨⟨q, k⟩, rfl, rfl⟩ := Option.map_eq_some_iff.1 hcame
  rw [t.fresh q k rfl hgone] at hp
  cases hp

/-- The block that comes is apart from those that stay. -/
theorem Trade.ne_came (t : v.Trade gone (some (q, l)) h h') (hp : v.live h p = some k)
    (hgone : gone ≠ some p) : p ≠ q := by
  rintro rfl
  rw [t.fresh p l rfl hgone] at hp
  cases hp

theorem Trade.apart_came (t : v.Trade gone (some (q, l)) h h') (hp : v.live h p = some k)
    (hgone : gone ≠ some p) : p + k.bytes ≤ q ∨ q + l.bytes ≤ p :=
  v.apart t.valid (t.live_of_ne hp hgone) t.live_came (t.ne_came hp hgone)

/-- The block that comes may be written to. -/
theorem Trade.write (t : v.Trade gone (some (q, l)) h h') {m : Memory}
    (hm : ∀ a, m.byte a ≠ h'.memory.byte a → q ≤ a ∧ a < q + l.bytes) :
    v.Trade gone (some (q, l)) h ⟨m, h'.state⟩ := by
  obtain ⟨hvalid, hlive⟩ := v.write t.valid fun a ha => ⟨q, l, t.live_came, hm a ha⟩
  refine ⟨hvalid, hlive.trans t.live, t.fresh, ?_⟩
  intro p k hp hgone a hlo hhi
  rw [← t.kept p k hp hgone a hlo hhi]
  -- A byte that changed lies in the new block, and that one is apart from all that stayed.
  refine Decidable.byContradiction fun hne => ?_
  obtain ⟨hqa, hal⟩ := hm a hne
  rcases t.apart_came hp hgone with hap | hap
  · omega
  · omega

/-- A block comes and then another goes. -/
theorem Trade.move (t : v.Trade none (some (q, l)) h h') (hp : v.live h p = some k)
    (t' : v.Trade (some p) none h' h'') : v.Trade (some p) (some (q, l)) h h'' := by
  refine ⟨t'.valid, ?_, ?_, ?_⟩
  · rw [t'.live, t.live, exchange_exchange (t.ne_came hp (by simp))]
  · intro x lx hx _
    exact t.fresh x lx hx (by simp)
  · intro x lx hx hgone
    have hx' := t.live_of_ne hx (by simp)
    exact (t.kept x lx hx (by simp)).trans (t'.kept x lx hx' hgone)

/-- Content that is copied into a new block is still there when the old block has gone. -/
theorem Trade.carried {src dst len : Nat} (t : v.Trade none (some (q, l)) h h')
    (hp : v.live h p = some k) (hsrc : p ≤ src ∧ src + len ≤ p + k.bytes)
    (hdst : q ≤ dst ∧ dst + len ≤ q + l.bytes)
    (t' : v.Trade (some p) none ⟨h'.memory.copy dst src len, h'.state⟩ h'') :
    Memory.Carried src dst len h.memory h''.memory := by
  have tcopy : v.Trade none (some (q, l)) h ⟨h'.memory.copy dst src len, h'.state⟩ := by
    refine t.write fun a ha => ?_
    have hchanged := Memory.changed_copy ha
    omega
  have hne : some p ≠ some q := fun h => tcopy.ne_came hp (by simp) (Option.some.inj h)
  -- The old block is as it was when the copy is made, and the new one is as the copy left it.
  have hfrom := (t.kept p k hp (by simp)).narrow hsrc.1 hsrc.2
  have hto := (t'.kept q l tcopy.live_came hne).narrow hdst.1 hdst.2
  exact ((Memory.Carried.copy h'.memory src dst len).since hfrom).stay hto

/-! ## What stands by -/

/-- None of the `len` bytes at `start` changes from `h` to `h'`, and no block that comes meets
them. -/
structure Misses (v : Survey β) (start len : Nat) (h h' : Heap β) : Prop where
  same : Memory.Agree start len h.memory h'.memory
  apart : ∀ q l, v.live h q = none → v.live h' q = some l →
    start + len ≤ q ∨ q + l.bytes ≤ start

section Misses

variable {start len : Nat}

theorem Misses.refl (v : Survey β) (start len : Nat) (h : Heap β) : v.Misses start len h h where
  same := .refl _ _ _
  apart := by
    intro q l hnone hsome
    rw [hnone] at hsome
    cases hsome

/-- Where none goes, a block that was not there before is the one that comes. -/
theorem Trade.eq_came (t : v.Trade none came h h') (hq : v.live h q = none)
    (hq' : v.live h' q = some l) : came = some (q, l) := by
  rw [t.live] at hq'
  rcases exchange_eq_some hq' with hcame | ⟨-, hold⟩
  · exact hcame
  · rw [hq] at hold
    cases hold

/-- Where none goes, what lies inside live blocks is missed. -/
theorem Trade.misses (t : v.Trade none came h h') (hp : v.live h p = some l) (hlo : p ≤ start)
    (hhi : start + len ≤ p + l.bytes) : v.Misses start len h h' where
  same := (t.kept p l hp (by simp)).narrow hlo hhi
  apart := by
    intro q k hq hq'
    obtain rfl := t.eq_came hq hq'
    rcases t.apart_came hp (by simp) with hap | hap
    · exact .inl (Nat.le_trans hhi hap)
    · exact .inr (Nat.le_trans hap hlo)

/-- What is written inside the block that comes is written nowhere else. -/
theorem Misses.write (hmiss : v.Misses start len h h') {m : Memory} (hq : v.live h q = none)
    (hq' : v.live h' q = some l) (hlive : v.live ⟨m, h'.state⟩ = v.live h')
    (hm : ∀ a, m.byte a ≠ h'.memory.byte a → q ≤ a ∧ a < q + l.bytes) :
    v.Misses start len h ⟨m, h'.state⟩ := by
  refine ⟨?_, ?_⟩
  · intro a hlo hhi
    rw [← hmiss.same a hlo hhi]
    apply Decidable.byContradiction
    intro hne
    have hin := hm a hne
    rcases hmiss.apart q l hq hq' with hap | hap
    · omega
    · omega
  · rw [hlive]
    exact hmiss.apart

end Misses

end Survey

end HeapLedger
