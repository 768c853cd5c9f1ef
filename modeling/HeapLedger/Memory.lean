import HeapLedger.Memory.Tree
import HeapLedger.Word

/-!
# `HeapLedger/Memory.lean` — bytes at addresses

Memory is what every address holds. Addresses below `span` are in a tree
(`HeapLedger/Memory/Tree.lean`), which grows when something is written beyond it; all others hold
`rest`. What matters is `Memory.byte`, and nothing is ever said about memory in other terms.

A change gives a stretch of addresses new content and leaves the rest alone. There are four of
them, and a law for each: `byte_overwrite`, `byte_fill`, `byte_store` and `byte_copy`.

Words are little endian: the byte at the lowest address counts least. `word_setWord` reads back
what was written, and `word_setWord_apart` says that a word somewhere else does not notice.
-/

set_option autoImplicit false

namespace HeapLedger

/-- What every address holds. -/
structure Memory where
  /-- The first address that is not in the tree. -/
  span : Nat
  /-- What the addresses below `span` hold. -/
  tree : Memory.Tree
  rest : UInt8
  span_pos : 0 < span

namespace Memory

def byte (m : Memory) (a : Nat) : UInt8 :=
  if a < m.span then m.tree.byte m.span a else m.rest

def filled (value : UInt8) : Memory :=
  ⟨1, .same value, value, Nat.one_pos⟩

/-! ## Growing -/

/-- The same memory with `k` times doubled span. -/
def doubled : Nat → Memory → Memory
  | 0, m => m
  | k + 1, m =>
      doubled k ⟨m.span * 2, .halves m.tree (.same m.rest), m.rest,
        Nat.mul_pos m.span_pos Nat.two_pos⟩

/-- The same memory with all addresses below `n` in the tree. -/
def reaching (m : Memory) (n : Nat) : Memory :=
  if n ≤ m.span then m else m.doubled ((n / m.span).log2 + 1)

theorem span_doubled (k : Nat) (m : Memory) : (m.doubled k).span = m.span <<< k := by
  induction k generalizing m with
  | zero => simp [doubled]
  | succ k ih => rw [doubled, ih, Nat.shiftLeft_succ_inside, Nat.mul_comm 2]

theorem byte_doubled (k : Nat) (m : Memory) (a : Nat) : (m.doubled k).byte a = m.byte a := by
  induction k generalizing m with
  | zero => rfl
  | succ k ih =>
    rw [doubled, ih]
    simp only [byte, Tree.byte, Nat.mul_div_cancel m.span Nat.two_pos]
    by_cases ha : a < m.span
    · simp only [ha, if_true, if_pos (show a < m.span * 2 by omega)]
    · simp only [ha, if_false, ite_self]

theorem le_span_reaching (m : Memory) (n : Nat) : n ≤ (m.reaching n).span := by
  unfold reaching
  by_cases h : n ≤ m.span
  · rw [if_pos h]
    exact h
  · rw [if_neg h, span_doubled, Nat.shiftLeft_eq, Nat.mul_comm]
    exact Nat.le_of_lt ((Nat.div_lt_iff_lt_mul m.span_pos).1 Nat.lt_log2_self)

theorem byte_reaching (m : Memory) (n a : Nat) : (m.reaching n).byte a = m.byte a := by
  unfold reaching
  by_cases h : n ≤ m.span
  · rw [if_pos h]
  · rw [if_neg h, byte_doubled]

/-! ## Changes -/

/-- New content at the `len` addresses from `start`, the rest untouched. -/
def put (m : Memory) (start len : Nat) (content : Content) : Memory :=
  if len = 0 then m
  else
    let grown := m.reaching (start + len)
    { grown with
      tree := grown.tree.write start len content (grown.span.log2 + 1) 0 grown.span }

def overwrite (m : Memory) (start len : Nat) (content : Nat → UInt8) : Memory :=
  m.put start len (.each content)

def fill (m : Memory) (start len : Nat) (value : UInt8) : Memory :=
  m.put start len (.all value)

def store (m : Memory) (start : Nat) (bytes : Array UInt8) : Memory :=
  m.overwrite start bytes.size fun i => bytes.getD i 0

def slice (m : Memory) (start len : Nat) : List UInt8 :=
  m.tree.append start len (List.replicate (start + len - max m.span start) m.rest) 0 m.span

/-- The `len` bytes from `src`, put at `dst`. The source is read before anything is written. -/
def copy (m : Memory) (dst src len : Nat) : Memory :=
  m.store dst (m.slice src len).toArray

/-! ## Words -/

/-- The number whose base 256 digits, least first, are the first `n` values of `digit`. -/
def littleEndian (digit : Nat → UInt8) : Nat → Nat
  | 0 => 0
  | n + 1 => (digit 0).toNat + 256 * littleEndian (fun i => digit (i + 1)) n

def digit (value i : Nat) : UInt8 :=
  UInt8.ofNat (value >>> (8 * i))

def word (m : Memory) (address : Nat) : Nat :=
  littleEndian (fun i => m.byte (address + i)) Word.bytes

def setWord (m : Memory) (address value : Nat) : Memory :=
  m.overwrite address Word.bytes (digit value)

/-! ## What a change does -/

theorem byte_put (m : Memory) (start len : Nat) (content : Content) (a : Nat) :
    (m.put start len content).byte a =
      if start ≤ a ∧ a < start + len then content.get (a - start) else m.byte a := by
  unfold put
  by_cases hlen : len = 0
  · rw [if_pos hlen, if_neg (by omega)]
  rw [if_neg hlen, ← byte_reaching m (start + len) a]
  have hreach := le_span_reaching m (start + len)
  generalize m.reaching (start + len) = grown at hreach ⊢
  have hheight : grown.span ≤ 1 <<< (grown.span.log2 + 1) := by
    rw [Nat.one_shiftLeft]
    exact Nat.le_of_lt Nat.lt_log2_self
  simp only [byte]
  by_cases ha : a < grown.span
  · rw [if_pos ha, if_pos ha, Tree.byte_write start len content hheight ha, Nat.zero_add]
  · rw [if_neg ha, if_neg ha, if_neg (by omega)]

theorem byte_overwrite (m : Memory) (start len : Nat) (content : Nat → UInt8) (a : Nat) :
    (m.overwrite start len content).byte a =
      if start ≤ a ∧ a < start + len then content (a - start) else m.byte a :=
  byte_put m start len (.each content) a

theorem byte_fill (m : Memory) (start len : Nat) (value : UInt8) (a : Nat) :
    (m.fill start len value).byte a =
      if start ≤ a ∧ a < start + len then value else m.byte a :=
  byte_put m start len (.all value) a

theorem byte_overwrite_inside (m : Memory) (start len : Nat) (content : Nat → UInt8) {i : Nat}
    (hi : i < len) : (m.overwrite start len content).byte (start + i) = content i := by
  rw [byte_overwrite, if_pos ⟨by omega, by omega⟩]
  congr 1
  omega

theorem byte_overwrite_outside (m : Memory) (start len : Nat) (content : Nat → UInt8) {a : Nat}
    (ha : a < start ∨ start + len ≤ a) : (m.overwrite start len content).byte a = m.byte a := by
  rw [byte_overwrite, if_neg (by omega)]

/-- Reading in bulk is reading byte by byte. -/
theorem slice_eq (m : Memory) (start len : Nat) :
    m.slice start len = (List.range len).map fun i => m.byte (start + i) := by
  have hrange : ((List.range len).map fun i => m.byte (start + i)) =
      (List.range' start len).map m.byte := by
    rw [List.range'_eq_map_range, List.map_map]
    rfl
  have hsplit : List.range' start len =
      List.range' start (min m.span (start + len) - start) ++
        List.range' (start + 1 * (min m.span (start + len) - start))
          (start + len - max m.span start) := by
    rw [List.range'_append]
    congr 1
    omega
  have hin : ∀ a ∈ List.range' start (min m.span (start + len) - start),
      m.tree.byte m.span (a - 0) = m.byte a := by
    intro a ha
    rw [List.mem_range'_1] at ha
    rw [byte, if_pos (by omega), Nat.sub_zero]
  have hout : ∀ a ∈ List.range' (start + 1 * (min m.span (start + len) - start))
      (start + len - max m.span start), m.rest = m.byte a := by
    intro a ha
    rw [List.mem_range'_1] at ha
    rw [byte, if_neg (by omega)]
  rw [hrange, hsplit, List.map_append, ← List.map_congr_left hin, ← List.map_congr_left hout,
    List.map_const', List.length_range', slice, Tree.append_eq, Nat.zero_max, Nat.zero_add]

@[simp] theorem length_slice (m : Memory) (start len : Nat) : (m.slice start len).length = len := by
  simp [slice_eq]

theorem byte_store (m : Memory) (start : Nat) (bytes : Array UInt8) (a : Nat) :
    (m.store start bytes).byte a =
      if start ≤ a ∧ a < start + bytes.size then bytes.getD (a - start) 0 else m.byte a :=
  byte_overwrite m start bytes.size _ a

theorem byte_copy (m : Memory) (dst src len a : Nat) :
    (m.copy dst src len).byte a =
      if dst ≤ a ∧ a < dst + len then m.byte (src + (a - dst)) else m.byte a := by
  rw [copy, byte_store, List.size_toArray, length_slice]
  by_cases h : dst ≤ a ∧ a < dst + len
  · have hi : a - dst < len := by omega
    rw [if_pos h, if_pos h, slice_eq]
    simp [Array.getD, hi]
  · rw [if_neg h, if_neg h]

theorem littleEndian_congr {f g : Nat → UInt8} {n : Nat} (h : ∀ i, i < n → f i = g i) :
    littleEndian f n = littleEndian g n := by
  induction n generalizing f g with
  | zero => rfl
  | succ n ih =>
    simp only [littleEndian]
    rw [h 0 (by omega), ih fun i hi => h (i + 1) (by omega)]

/-- The digits of a number spell it, up to the width they are cut to. -/
theorem littleEndian_digit (value n : Nat) :
    littleEndian (digit value) n = value % (1 <<< (8 * n)) := by
  induction n generalizing value with
  | zero => simp [littleEndian, Nat.mod_one]
  | succ n ih =>
    have hshift : (fun i => digit value (i + 1)) = digit (value >>> 8) := by
      funext i
      unfold digit
      rw [Nat.mul_succ, Nat.add_comm, Nat.shiftRight_add]
    simp only [littleEndian]
    rw [hshift, ih]
    have h0 : (digit value 0).toNat = value % 256 := by simp [digit]
    have hbase : 1 <<< (8 * (n + 1)) = 256 * (1 <<< (8 * n)) := by
      rw [Nat.mul_succ, Nat.shiftLeft_add, Nat.shiftLeft_eq, Nat.mul_comm]
    rw [h0, hbase, Nat.mod_mul, Nat.shiftRight_eq_div_pow]

/-- A word is what was written, cut to the word. -/
theorem word_setWord (m : Memory) (address value : Nat) :
    (m.setWord address value).word address = value % Word.limit := by
  unfold word setWord
  rw [littleEndian_congr (g := digit value) fun i hi =>
    byte_overwrite_inside m address Word.bytes (digit value) hi, littleEndian_digit]
  rfl

/-- A word does not notice an overwrite that stays clear of it. -/
theorem word_overwrite_apart (m : Memory) (start len : Nat) (content : Nat → UInt8) {address : Nat}
    (h : address + Word.bytes ≤ start ∨ start + len ≤ address) :
    (m.overwrite start len content).word address = m.word address := by
  unfold word
  refine littleEndian_congr fun i hi => byte_overwrite_outside m start len content ?_
  omega

theorem word_setWord_apart (m : Memory) (value : Nat) {address other : Nat}
    (h : other + Word.bytes ≤ address ∨ address + Word.bytes ≤ other) :
    (m.setWord address value).word other = m.word other :=
  word_overwrite_apart m address Word.bytes (digit value) h

end Memory

end HeapLedger
