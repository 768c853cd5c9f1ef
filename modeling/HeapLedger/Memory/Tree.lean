/-!
# `HeapLedger/Memory/Tree.lean` — a run of bytes as a tree

A tree says what each of `span` places holds, where `span` is known to whoever asks: the places are
split in two halves, and a half with the same byte throughout is not split any further. Filling a
stretch of places with one byte therefore costs no more than finding its two ends, however long it
is, and a tree after a change shares with the tree before it all that did not change.

There is one way to read (`byte`), one to read in bulk (`append`), and one to change (`write`). Two
laws say all about them: `byte_write`, and `append_eq`, by which reading in bulk is reading byte by
byte.
-/

set_option autoImplicit false

namespace HeapLedger.Memory

/-- What is to be written to a stretch of places. -/
inductive Content where
  | all (value : UInt8)
  /-- To each place what the function says, counted from the start of the stretch. -/
  | each (byte : Nat → UInt8)

namespace Content

def get : Content → Nat → UInt8
  | .all v, _ => v
  | .each f, i => f i

/-- The byte for all places, if it is known to be the same. -/
def uniform? : Content → Option UInt8
  | .all v => some v
  | .each _ => none

theorem get_of_uniform {c : Content} {v : UInt8} (h : c.uniform? = some v) (i : Nat) :
    c.get i = v := by
  cases c with
  | all w =>
    simp only [uniform?, Option.some.injEq] at h
    exact h
  | each f => cases h

end Content

/-- What the places of a run hold. -/
inductive Tree where
  | same (value : UInt8)
  | halves (low high : Tree)

namespace Tree

/-- The byte at place `i` of `span`. -/
def byte : Tree → Nat → Nat → UInt8
  | .same v, _, _ => v
  | .halves low high, span, i =>
      if i < span / 2 then low.byte (span / 2) i else high.byte (span - span / 2) (i - span / 2)

def low : Tree → Tree
  | .same v => .same v
  | .halves l _ => l

def high : Tree → Tree
  | .same v => .same v
  | .halves _ h => h

theorem byte_low (t : Tree) {span i : Nat} (h : i < span / 2) :
    t.low.byte (span / 2) i = t.byte span i := by
  cases t with
  | same v => rfl
  | halves l r => simp only [low, byte, if_pos h]

theorem byte_high (t : Tree) {span i : Nat} (h : span / 2 ≤ i) :
    t.high.byte (span - span / 2) (i - span / 2) = t.byte span i := by
  cases t with
  | same v => rfl
  | halves l r => simp only [high, byte, if_neg (Nat.not_lt.2 h)]

/-! ## Changing -/

/-- The tree of the `span` places from `base`, with content written to the `len` places from
`start`. The tree must not be split more than `height` times on the way down to one place. -/
def write (start len : Nat) (content : Content) : Nat → Nat → Nat → Tree → Tree
  | height, base, span, t =>
    if base + span ≤ start ∨ start + len ≤ base then t
    else if span ≤ 1 then .same (content.get (base - start))
    else
      match height with
      | 0 => t
      | height + 1 =>
          match if start ≤ base ∧ base + span ≤ start + len then content.uniform? else none with
          | some v => .same v
          | none =>
              .halves (write start len content height base (span / 2) t.low)
                (write start len content height (base + span / 2) (span - span / 2) t.high)

theorem byte_write (start len : Nat) (content : Content) {height base span : Nat} {t : Tree}
    {i : Nat} (hspan : span ≤ 1 <<< height) (hi : i < span) :
    (t.write start len content height base span).byte span i =
      if start ≤ base + i ∧ base + i < start + len then content.get (base + i - start)
      else t.byte span i := by
  induction height generalizing base span t i with
  | zero =>
    have h1 : span = 1 := by simp only [Nat.shiftLeft_zero] at hspan; omega
    have h0 : i = 0 := by omega
    subst h1 h0
    unfold write
    by_cases hout : base + 1 ≤ start ∨ start + len ≤ base
    · rw [if_pos hout, if_neg (by omega)]
    · rw [if_neg hout, if_pos (Nat.le_refl 1), if_pos (by omega)]
      rfl
  | succ height ih =>
    rw [Nat.shiftLeft_succ] at hspan
    unfold write
    by_cases hout : base + span ≤ start ∨ start + len ≤ base
    · rw [if_pos hout, if_neg (by omega)]
    rw [if_neg hout]
    by_cases hone : span ≤ 1
    · have h0 : i = 0 := by omega
      subst h0
      rw [if_pos hone, if_pos (by omega)]
      rfl
    rw [if_neg hone]
    dsimp only
    split
    · rename_i v hv
      split at hv
      · rw [if_pos (by omega), Content.get_of_uniform hv]
        rfl
      · cases hv
    · simp only [byte]
      by_cases hlow : i < span / 2
      · rw [if_pos hlow, ih (by omega) hlow, byte_low t hlow]
      · rw [if_neg hlow, ih (by omega) (by omega), byte_high t (by omega)]
        have hplace : base + span / 2 + (i - span / 2) = base + i := by omega
        rw [hplace]

/-! ## Reading in bulk -/

/-- The same byte `n` times in front of a list. -/
def times : Nat → UInt8 → List UInt8 → List UInt8
  | 0, _, rest => rest
  | n + 1, v, rest => times n v (v :: rest)

theorem times_eq (n : Nat) (v : UInt8) (rest : List UInt8) :
    times n v rest = List.replicate n v ++ rest := by
  induction n generalizing rest with
  | zero => rfl
  | succ n ih =>
    rw [times, ih, List.replicate_succ', List.append_assoc]
    rfl

/-- The bytes at those of the `len` places from `start` that are among the `span` places from
`base`, in front of `rest`. -/
def append (start len : Nat) (rest : List UInt8) : Nat → Nat → Tree → List UInt8
  | base, span, .same v =>
      times (min (base + span) (start + len) - max base start) v rest
  | base, span, .halves l h =>
      if base + span ≤ start ∨ start + len ≤ base then rest
      else append start len (append start len rest (base + span / 2) (span - span / 2) h)
        base (span / 2) l

theorem append_eq (start len : Nat) (rest : List UInt8) (base span : Nat) (t : Tree) :
    t.append start len rest base span =
      (List.range' (max base start) (min (base + span) (start + len) - max base start)).map
        (fun a => t.byte span (a - base)) ++ rest := by
  induction t generalizing base span rest with
  | same v => simp [append, byte, times_eq, List.map_const']
  | halves l h ihl ihh =>
    unfold append
    by_cases hout : base + span ≤ start ∨ start + len ≤ base
    · have hnone : min (base + span) (start + len) - max base start = 0 := by omega
      rw [if_pos hout, hnone]
      rfl
    · rw [if_neg hout, ihl, ihh, ← List.append_assoc]
      congr 1
      have hlow : ∀ a ∈ List.range' (max base start)
          (min (base + span / 2) (start + len) - max base start),
          l.byte (span / 2) (a - base) = (halves l h).byte span (a - base) := by
        intro a ha
        rw [List.mem_range'_1] at ha
        simp only [byte, if_pos (show a - base < span / 2 by omega)]
      have hhigh : ∀ a ∈ List.range' (max (base + span / 2) start)
          (min (base + span / 2 + (span - span / 2)) (start + len) - max (base + span / 2) start),
          h.byte (span - span / 2) (a - (base + span / 2)) =
            (halves l h).byte span (a - base) := by
        intro a ha
        rw [List.mem_range'_1] at ha
        simp only [byte, if_neg (show ¬ a - base < span / 2 by omega), Nat.sub_add_eq]
      rw [List.map_congr_left hlow, List.map_congr_left hhigh, ← List.map_append]
      congr 1
      by_cases hfirst : start + len ≤ base + span / 2
      · have h2 : min (base + span / 2 + (span - span / 2)) (start + len) -
            max (base + span / 2) start = 0 := by omega
        have h1 : min (base + span / 2) (start + len) - max base start =
            min (base + span) (start + len) - max base start := by omega
        rw [h2, h1]
        simp
      · by_cases hlast : base + span / 2 ≤ start
        · have h1 : min (base + span / 2) (start + len) - max base start = 0 := by omega
          have h2 : max (base + span / 2) start = max base start := by omega
          have h3 : base + span / 2 + (span - span / 2) = base + span := by omega
          rw [h1, h2, h3]
          simp
        · have hmid : max (base + span / 2) start = max base start +
              1 * (min (base + span / 2) (start + len) - max base start) := by omega
          rw [hmid, List.range'_append]
          congr 1
          omega

end Tree

end HeapLedger.Memory
